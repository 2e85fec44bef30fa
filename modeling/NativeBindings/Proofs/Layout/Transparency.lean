import NativeBindings.Layout.Compiler
import NativeBindings.Proofs.Act
import NativeBindings.Proofs.Layout.Slots

/-!
When the answers from the cache are those of the compiler. The compiler replies the same to the same
question; then only questions that collide can be given the answer of another one.
-/
namespace NativeBindings.Layout

open Act

section
variable {α β : Type}

/-- An act that leaves the cache as it is. -/
def Spares (act : Act Bench α) : Prop :=
  ∀ bench, Ends (fun _ after => after.cache = bench.cache) (fun _ after => after.cache = bench.cache)
    act bench

theorem spares_pure (value : α) : Spares (pure value) := fun _ => rfl

theorem spares_throw (fault : Fault) : Spares (throw fault : Act Bench α) := fun _ => rfl

theorem spares_lift (outcome : Except Fault α) : Spares (liftM outcome) :=
  fun _ => (ends_lift outcome).mpr ⟨fun _ _ => rfl, fun _ _ => rfl⟩

theorem spares_get : Spares (get : Act Bench Bench) := fun _ => rfl

theorem spares_modify {change : Bench → Bench} (same : ∀ bench, (change bench).cache = bench.cache) :
    Spares (modify change) := same

theorem spares_note (journal : Journal) : Spares (note journal) := fun _ => rfl

theorem Spares.then {act : Act Bench β} {next : β → Act Bench α} (first : Spares act)
    (rest : ∀ value, Spares (next value)) : Spares (act >>= next) := by
  intro bench
  rw [ends_bind]
  refine (first bench).mono (fun value middle same => ?_) fun _ _ same => same
  have last := rest value middle
  rw [same] at last
  exact last

theorem spares_inWorkshop (act : Act Workshop α) : Spares (inWorkshop act) := by
  intro bench
  rw [inWorkshop, ends_zoom, ends_iff]
  exact ⟨fun _ _ => rfl, fun _ _ => rfl⟩

theorem Spares.timed {stage : String} {act : Act Bench α} (inside : Spares act) :
    Spares (timed stage act) :=
  fun bench => ends_timed fun begun =>
    (inside (Noting.tell begun bench)).mono (fun _ _ same _ => same) fun _ _ same _ => same

end

theorem probe_spares (header : Path) (query : Query) : Spares (Probe.fresh header query) := by
  refine (spares_note _).then fun _ => spares_get.then fun bench => (spares_lift _).then fun place => ?_
  refine Spares.then (spares_modify fun _ => rfl) fun _ => (spares_inWorkshop _).then fun output => ?_
  exact (spares_lift _).then fun _ => spares_pure _

namespace DebugInfo

theorem load_spares (header : Path) : Spares (load header) := by
  refine Spares.timed (spares_get.then fun bench => (spares_lift _).then fun place => ?_)
  refine (spares_inWorkshop _).then fun object => spares_get.then fun bench => ?_
  split
  · exact spares_throw _
  · refine (spares_note _).then fun _ => (spares_lift _).then fun index => ?_
    exact (spares_note _).then fun _ => spares_pure index

theorem layouts_spares (header : Path) : Spares (layouts header) := by
  refine spares_get.then fun bench => ?_
  split
  · exact spares_pure _
  · refine (load_spares header).then fun index => ?_
    exact Spares.then (spares_modify fun _ => rfl) fun _ => spares_pure index

theorem layoutOf_spares (header : Path) (type : String) : Spares (layoutOf header type) := by
  refine (layouts_spares header).then fun index => ?_
  refine Spares.then (spares_modify fun _ => rfl) fun _ => (spares_lift _).then fun names => ?_
  split
  · exact spares_pure _
  · exact spares_throw _

theorem memberOf_spares (header : Path) (type : String) (field : Label) :
    Spares (memberOf header type field) := by
  refine (layoutOf_spares header type).then fun layout => ?_
  dsimp only
  split
  · exact spares_pure _
  · exact spares_throw _

theorem fresh_spares (header : Path) (query : Query) : Spares (fresh header query) := by
  cases query with
  | sizeOf type => exact (layoutOf_spares header _).then fun _ => spares_pure _
  | offsetOf type field => exact (memberOf_spares header _ field).then fun _ => spares_pure _
  | fieldSizeOf type field => exact (memberOf_spares header _ field).then fun _ => spares_pure _

end DebugInfo

theorem freshBy_spares (backend : Backend) (header : Path) (query : Query) :
    Spares (freshBy backend header query) := by
  cases backend with
  | probe => exact probe_spares header query
  | debug => exact DebugInfo.fresh_spares header query

theorem eq_null_of_beq {n : Amount} (same : (Json.null == n) = true) : n = .null := by
  rw [Json.beq_iff] at same
  cases n with
  | null => rfl
  | _ => cases same

/-- A slot without an answer takes one, and no other slot does. -/
theorem Cache.find_put {cache : Cache} {place : Slot} (missing : cache.find place = .null)
    (n : Amount) (other : Slot) :
    (cache.put place n).find other = if place = other then n else cache.find other := by
  unfold put
  rw [missing]
  split
  next same =>
    obtain rfl := eq_null_of_beq same
    split
    next here => rw [← here, missing]
    next => rfl
  next =>
    cases place with
    | size key =>
      cases other with
      | size key' =>
        simp only [find, Table.find?_insert, Slot.size.injEq]
        split
        next => rfl
        next => rfl
      | offset key' => rfl
    | offset key =>
      cases other with
      | size key' => rfl
      | offset key' =>
        simp only [find, Table.find?_insert, Slot.offset.injEq]
        split
        next => rfl
        next => rfl

section
variable {backend : Backend} {header : String} {reply : Query → Except Fault Amount} {bench : Bench}
  {query : Query} {place : Slot}

/-- The cache is looked into first. -/
theorem answerBy_of_slot (slotted : slot header query = .ok place) :
    answerBy backend header query = (do
      let bench ← get
      match bench.cache.find place with
      | .null =>
        let n ← freshBy backend (Path.ofText header) query
        modify fun bench => { bench with cache := bench.cache.put place n }
        return n
      | n => return n) := by
  rw [answerBy, cached, slotted]
  rfl

theorem answerBy_known (slotted : slot header query = .ok place)
    (known : bench.cache.find place ≠ .null) :
    (answerBy backend header query).runOn bench = (.ok (bench.cache.find place), bench) := by
  rw [answerBy_of_slot slotted, runOn_bind]
  change Act.runOn (match bench.cache.find place with
    | .null => _
    | n => return n) bench = _
  split
  next missing => exact absurd missing known
  next => rfl

theorem answerBy_missing (slotted : slot header query = .ok place)
    (missing : bench.cache.find place = .null) :
    (answerBy backend header query).runOn bench =
      match (freshBy backend (Path.ofText header) query).runOn bench with
      | (.ok n, after) => (.ok n, { after with cache := after.cache.put place n })
      | (.error fault, after) => (.error fault, after) := by
  rw [answerBy_of_slot slotted, runOn_bind]
  change Act.runOn (match bench.cache.find place with
    | .null => _
    | n => return n) bench = _
  rw [missing]
  dsimp only
  rw [runOn_bind]
  split
  next answered => rw [answered, runOn_bind]; rfl
  next failed => rw [failed]

end

/-- The answers to questions that are asked one after another. -/
def answers (ask : Query → Act Bench Amount) : Bench → List Query → List (Except Fault Amount)
  | _, [] => []
  | bench, query :: rest =>
    ((ask query).runOn bench).1 :: answers ask ((ask query).runOn bench).2 rest

/-- What the cache has for a question; null where it has nothing. -/
def stored (header : String) (bench : Bench) (query : Query) : Amount :=
  match slot header query with
  | .ok place => bench.cache.find place
  | .error _ => .null

section
variable (backend : Backend) (header : String) (reply : Query → Except Fault Amount)

/-- Whenever the compiler is asked on the way through the questions, it gives the reply. -/
def Steady : Bench → List Query → Prop
  | _, [] => True
  | bench, query :: rest =>
    (stored header bench query = .null →
      ((freshBy backend (Path.ofText header) query).runOn bench).1 = reply query) ∧
    Steady ((answerBy backend header query).runOn bench).2 rest

/-- If the cache has an answer to a question, it is the reply. -/
def Agrees (bench : Bench) (query : Query) : Prop :=
  stored header bench query ≠ .null → reply query = .ok (stored header bench query)

/-- What is kept for one question is right for another one. -/
def Serves (earlier later : Query) : Prop :=
  slot header earlier = slot header later →
    ∀ n, reply earlier = .ok n → n ≠ .null → reply later = .ok n

end

section
variable {backend : Backend} {header : String} {reply : Query → Except Fault Amount} {bench : Bench}
  {query other : Query} {questions : List Query}

theorem stored_of_slot {place : Slot} (slotted : slot header query = .ok place) :
    stored header bench query = bench.cache.find place := by
  rw [stored, slotted]

/-- A question to the compiler is answered by the reply, which only its slot keeps. -/
theorem answerBy_asked {place : Slot} (slotted : slot header query = .ok place)
    (missing : bench.cache.find place = .null)
    (replies : ((freshBy backend (Path.ofText header) query).runOn bench).1 = reply query) :
    ((answerBy backend header query).runOn bench).1 = reply query ∧
      ∀ place', ((answerBy backend header query).runOn bench).2.cache.find place' =
        if place = place' then (reply query).toOption.getD .null else bench.cache.find place' := by
  have spared : ((freshBy backend (Path.ofText header) query).runOn bench).2.cache = bench.cache :=
    (freshBy_spares backend (Path.ofText header) query bench).after
  rw [answerBy_missing slotted missing, ← replies]
  revert spared
  obtain ⟨outcome, after⟩ := (freshBy backend (Path.ofText header) query).runOn bench
  intro spared
  cases outcome with
  | ok n =>
    refine ⟨rfl, fun place' => ?_⟩
    dsimp only
    rw [spared]
    exact Cache.find_put missing n place'
  | error fault =>
    refine ⟨rfl, fun place' => ?_⟩
    dsimp only
    rw [spared]
    split
    next here => rw [← here, missing]; rfl
    next => rfl

theorem answerBy_answers (plain : query.Plain) (replies : stored header bench query = .null →
      ((freshBy backend (Path.ofText header) query).runOn bench).1 = reply query) :
    ((answerBy backend header query).runOn bench).1 = reply query ↔
      Agrees header reply bench query := by
  obtain ⟨place, slotted⟩ := plain.slot header
  rw [Agrees]
  rw [stored_of_slot slotted] at replies ⊢
  by_cases missing : bench.cache.find place = .null
  · have answered := (answerBy_asked slotted missing (replies missing)).1
    exact ⟨fun _ known => absurd missing known, fun _ => answered⟩
  · rw [answerBy_known slotted missing]
    exact ⟨fun same _ => same.symm, fun agrees => (agrees missing).symm⟩

/-- After a question that was answered right, the cache is right for another one just if it was so
before and what is kept for the first is right for the other. -/
theorem agrees_after (plain : query.Plain) (plain' : other.Plain)
    (replies : stored header bench query = .null →
      ((freshBy backend (Path.ofText header) query).runOn bench).1 = reply query)
    (agrees : Agrees header reply bench query) :
    Agrees header reply ((answerBy backend header query).runOn bench).2 other ↔
      Agrees header reply bench other ∧ Serves header reply query other := by
  obtain ⟨place, slotted⟩ := plain.slot header
  obtain ⟨place', slotted'⟩ := plain'.slot header
  rw [Agrees, stored_of_slot slotted] at agrees
  rw [stored_of_slot slotted] at replies
  rw [Agrees, Agrees, Serves, stored_of_slot slotted', stored_of_slot slotted', slotted, slotted']
  by_cases missing : bench.cache.find place = .null
  · rw [(answerBy_asked slotted missing (replies missing)).2 place']
    split
    next here =>
      -- The slot of the other question holds the reply to the first one now.
      subst here
      cases told : reply query with
      | ok n =>
        constructor
        · intro right
          refine ⟨fun known => absurd missing known, fun _ m same present => ?_⟩
          obtain rfl := Except.ok.inj same
          exact right present
        · exact fun both present => both.2 rfl n rfl present
      | error fault =>
        refine ⟨fun _ => ⟨fun known => absurd missing known, fun _ m same => ?_⟩, fun _ known => ?_⟩
        · cases same
        · exact absurd rfl known
    next apart =>
      exact ⟨fun right => ⟨right, fun same => absurd (Except.ok.inj same) apart⟩, fun both => both.1⟩
  · rw [answerBy_known slotted missing]
    refine ⟨fun right => ⟨right, fun same n told present => ?_⟩, fun both => both.1⟩
    obtain rfl := Except.ok.inj same
    obtain rfl := Except.ok.inj ((agrees missing).symm.trans told)
    exact right present

theorem answers_eq_iff (plain : ∀ query ∈ questions, query.Plain)
    (steady : Steady backend header reply bench questions) :
    answers (answerBy backend header) bench questions = questions.map reply ↔
      (∀ query ∈ questions, Agrees header reply bench query) ∧
        questions.Pairwise (Serves header reply) := by
  induction questions generalizing bench with
  | nil => exact ⟨fun _ => ⟨fun _ member => absurd member List.not_mem_nil, .nil⟩, fun _ => rfl⟩
  | cons query rest ih =>
    obtain ⟨first, others⟩ := List.forall_mem_cons.mp plain
    obtain ⟨replies, steady⟩ := steady
    rw [answers, List.map_cons, List.cons.injEq, answerBy_answers first replies, ih others steady,
      List.forall_mem_cons, List.pairwise_cons, and_assoc]
    refine and_congr_right fun agrees => ?_
    have each : (∀ other ∈ rest,
        Agrees header reply ((answerBy backend header query).runOn bench).2 other) ↔
          (∀ other ∈ rest, Agrees header reply bench other) ∧
            ∀ other ∈ rest, Serves header reply query other := by
      rw [← forall₂_and]
      exact forall₂_congr fun other member => agrees_after first (others other member) replies agrees
    rw [each, and_assoc]

theorem stored_unused (sizes : bench.cache.sizes = []) (offsets : bench.cache.offsets = []) :
    stored header bench query = .null := by
  unfold stored
  split
  next place _ =>
    cases place with
    | size key => rw [Cache.find, sizes]; rfl
    | offset key => rw [Cache.find, offsets]; rfl
  next => rfl

/-- The cache changes no answer just as long as, wherever two questions collide, the first of them has
no answer or the answer of the other one. -/
theorem answers_eq_replies_iff (sizes : bench.cache.sizes = []) (offsets : bench.cache.offsets = [])
    (plain : ∀ query ∈ questions, query.Plain)
    (steady : Steady backend header reply bench questions) :
    answers (answerBy backend header) bench questions = questions.map reply ↔
      questions.Pairwise fun earlier later => earlier.collides later = true →
        ∀ n, reply earlier = .ok n → n ≠ .null → reply later = .ok n := by
  have unused : ∀ query ∈ questions, Agrees header reply bench query :=
    fun query _ known => absurd (stored_unused sizes offsets) known
  rw [answers_eq_iff plain steady, and_iff_right unused]
  refine List.Pairwise.iff_of_mem fun {earlier later} before after => ?_
  rw [Serves, slot_eq_iff (plain earlier before) (plain later after)]
  constructor
  · exact fun serves collides => serves (.inr collides)
  · rintro right (rfl | collides) n told present
    · exact told
    · exact right collides n told present

end

/-- Debug information of a record with a record `X` inside and an address `X` as its member. -/
def outerBench : Bench where
  shop :=
    { world := { scratch := { parts := ["work"] } }
      toolchain := { compiler := "clang", language := "c++", timeout := none } }
  layouts := some [("Outer", { size := .int 8, members := [("X", (0, .int 8))] }),
    ("X", { size := .int 16 })]

/-- What is read from the debug information. -/
def outerReply (query : Query) : Except Fault Amount :=
  ((freshBy .debug (Path.ofText "outer.h") query).runOn outerBench).1

/-- Without a size of `Outer::X` among the questions, there is nothing to confuse. -/
theorem answers_eq_replies_member :
    let questions : List Query := [.fieldSizeOf (.str "Outer") (.str "X"), .sizeOf (.str "Outer"),
      .offsetOf (.str "Outer") (.str "X"), .fieldSizeOf (.str "Outer") (.str "X"), .sizeOf (.str "Y")]
    answers (answerBy .debug "outer.h") outerBench questions = questions.map outerReply := by
  intro questions
  have plain : ∀ query ∈ questions, query.Plain := by
    have simple : ':' ∉ "X".toList := by decide
    simp only [questions, List.forall_mem_cons]
    exact ⟨.fieldSizeOf _ _ simple, .sizeOf _, .offsetOf _ _ simple, .fieldSizeOf _ _ simple,
      .sizeOf _, fun _ member => absurd member List.not_mem_nil⟩
  have steady : Steady .debug "outer.h" outerReply outerBench questions :=
    ⟨fun _ => rfl, fun _ => rfl, fun _ => rfl, fun _ => rfl, fun _ => rfl, trivial⟩
  have apart : questions.Pairwise fun earlier later => earlier.collides later = false := by decide
  refine (answers_eq_replies_iff rfl rfl plain steady).mpr (apart.imp fun apart collides => ?_)
  rw [apart] at collides
  cases collides

/-- The size of `Outer::X` is given for that of the member `X` of `Outer`. -/
theorem answers_confused :
    let questions : List Query := [.sizeOf (.str "Outer::X"), .fieldSizeOf (.str "Outer") (.str "X")]
    Steady .debug "outer.h" outerReply outerBench questions ∧
      questions.map outerReply = [.ok (.int 16), .ok (.int 8)] ∧
      answers (answerBy .debug "outer.h") outerBench questions = [.ok (.int 16), .ok (.int 16)] := by
  refine ⟨⟨fun _ => rfl, fun _ => rfl, trivial⟩, ?_, ?_⟩
  · decide +kernel
  · decide +kernel

end NativeBindings.Layout
