import NativeBindings.Proofs.Resolve.RecordLayout

/-!
A declaration is followed by what waits for it. Each of these declarations uses up what waited, so the
fuel of a registration does not matter as long as it exceeds what waits.
-/
namespace NativeBindings.Resolve

open Json Act

/-- The typedefs that wait, by the tag that they wait for. -/
abbrev Waiting := Table Label (List Label)

/-- How many typedefs wait. -/
def count (waiting : Waiting) : Nat := (Table.values waiting).flatten.length

theorem count_cons (tag : Label) (names : List Label) (waiting : Waiting) :
    count ((tag, names) :: waiting) = names.length + count waiting := by
  simp [count, Table.values]

theorem count_erase_le (name : Label) (waiting : Waiting) :
    count (Table.erase name waiting) ≤ count waiting := by
  induction waiting with
  | nil => exact Nat.le_refl 0
  | cons entry rest ih =>
    obtain ⟨tag, names⟩ := entry
    rw [count_cons, Table.erase, List.filter_cons]
    split
    · rw [count_cons]
      exact Nat.add_le_add_left ih _
    · exact Nat.le_add_left_of_le ih

/-- What is taken waited, and waits no more. -/
theorem count_release (name : Label) (waiting : Waiting) :
    ((Table.find? name waiting).getD []).length + count (Table.erase name waiting) ≤
      count waiting := by
  induction waiting with
  | nil => exact Nat.le_refl 0
  | cons entry rest ih =>
    obtain ⟨tag, names⟩ := entry
    rw [count_cons, Table.find?]
    split
    next same =>
      have left : Table.erase name ((tag, names) :: rest) = Table.erase name rest :=
        List.filter_cons_of_neg (by simp [bne, same])
      rw [left]
      exact Nat.add_le_add_left (count_erase_le name rest) _
    next apart =>
      have left : Table.erase name ((tag, names) :: rest) = (tag, names) :: Table.erase name rest :=
        List.filter_cons_of_pos (by simp [bne, apart])
      rw [left, count_cons]
      omega

section
variable {σ : Type} {name key : Label}

theorem declare_runOn (keyed : name.asKey = .ok key) (type : CType) (session : Session σ) :
    ∃ told, (declare name type).runOn session = (.ok (type.numbered session.graph.issued),
      { session with
        registry := { session.registry with graph := session.graph.enter (name, type) }
        journal := session.journal ++ told }) := by
  obtain rfl := asKey_eq_ok keyed
  refine ⟨(session.registry.declare key type).2, ?_⟩
  have entered : (session.registry.declare key type).1 =
      { session.registry with graph := session.graph.enter (key, type) } := by
    rw [← session.registry.declare_graph key type]
    unfold Registry.declare
    split
    · rfl
    · rfl
  have run : (declare key type).runOn session = (.ok (type.numbered session.graph.issued),
      { session with
        registry := (session.registry.declare key type).1
        journal := session.journal ++ (session.registry.declare key type).2 }) := by
    rw [declare, runOn_bind, keyed]
    rfl
  rw [run, entered]

theorem declare_unkeyed {fault : Fault} (unkeyed : name.asKey = .error fault) (type : CType)
    (session : Session σ) : (declare name type).runOn session = (.error fault, session) := by
  rw [declare, unkeyed]
  rfl

/-- Declares a name and takes what waits for it. -/
def announce (name : Label) (type : CType) : Resolving σ (CType × List Label) := do
  let item ← declare name type
  let waiters ← modifyGet fun session =>
    let (waiters, registry) := session.registry.release name
    (waiters, { session with registry })
  return (item, waiters)

theorem announce_runOn (keyed : name.asKey = .ok key) (type : CType) (session : Session σ) :
    ∃ told, (announce name type).runOn session =
      (.ok (type.numbered session.graph.issued,
          (Table.find? name session.registry.waiting).getD []),
        { session with
          registry := {
            graph := session.graph.enter (name, type)
            waiting := Table.erase name session.registry.waiting }
          journal := session.journal ++ told }) := by
  obtain ⟨told, run⟩ := declare_runOn keyed type session
  refine ⟨told, ?_⟩
  rw [announce, runOn_bind, run]
  rfl

theorem announce_unkeyed {fault : Fault} (unkeyed : name.asKey = .error fault) (type : CType)
    (session : Session σ) : (announce name type).runOn session = (.error fault, session) := by
  rw [announce, runOn_bind, declare_unkeyed unkeyed]

/-- The alias that a typedef becomes once the type it waited for is declared. -/
def promote (fuel : Nat) (name : Label) (item : CType) (waiter : Label) : Resolving σ Unit := do
  note (Journal.debug ("Resolved lazy alias " ++ waiter.plain ++ " -> " ++ name.plain))
  let _ ← registerWith fuel waiter (Registry.aliasOf waiter item)

theorem promote_runOn (fuel : Nat) (item : CType) (waiter : Label) (session : Session σ) :
    (promote fuel name item waiter).runOn session =
      (((registerWith fuel waiter (Registry.aliasOf waiter item)).runOn (Noting.tell (Journal.debug
          ("Resolved lazy alias " ++ waiter.plain ++ " -> " ++ name.plain)) session)).map
        (·.map fun _ => ()) id) := by
  have run : (promote fuel name item waiter).runOn session =
      (registerWith fuel waiter (Registry.aliasOf waiter item) >>= fun _ => pure () :
        Resolving σ Unit).runOn (Noting.tell (Journal.debug
          ("Resolved lazy alias " ++ waiter.plain ++ " -> " ++ name.plain)) session) := rfl
  rw [run, runOn_bind]
  generalize (registerWith fuel waiter _).runOn _ = ended
  obtain ⟨outcome, after⟩ := ended
  cases outcome with
  | error fault => rfl
  | ok item => rfl

theorem registerWith_succ (fuel : Nat) (name : Label) (type : CType) :
    (registerWith (fuel + 1) name type : Resolving σ CType) = do
      let (item, waiters) ← announce name type
      waiters.forM (promote fuel name item)
      return item := by
  simp only [registerWith, announce, bind_assoc, pure_bind]
  rfl

section
variable (session : Session σ)

/-- Whether no more waits after an act than before it. -/
abbrev Settles {α : Type} (act : Resolving σ α) : Prop :=
  Ends (fun _ after => count after.registry.waiting ≤ count session.registry.waiting)
    (fun _ after => count after.registry.waiting ≤ count session.registry.waiting) act session

theorem announce_ends (name : Label) (type : CType) :
    Ends (fun announced after =>
        announced.2.length + count after.registry.waiting ≤ count session.registry.waiting)
      (fun _ after => count after.registry.waiting ≤ count session.registry.waiting)
      (announce name type) session := by
  unfold Ends
  cases keyed : name.asKey with
  | error fault => rw [announce_unkeyed keyed]
  | ok key =>
    obtain ⟨told, run⟩ := announce_runOn keyed type session
    rw [run]
    exact count_release name session.registry.waiting

theorem declare_settles (name : Label) (type : CType) : Settles session (declare name type) := by
  unfold Settles Ends
  cases keyed : name.asKey with
  | error fault => rw [declare_unkeyed keyed]
  | ok key =>
    obtain ⟨told, run⟩ := declare_runOn keyed type session
    rw [run]

theorem promote_settles_of {fuel : Nat}
    (registers : ∀ name type (session : Session σ), Settles session (registerWith fuel name type))
    (name : Label) (item : CType) (waiter : Label) :
    Settles session (promote fuel name item waiter) := by
  refine ends_bind.mpr ((ends_modify _).mpr (ends_bind.mpr ?_))
  exact (registers waiter _ _).mono (fun _ _ less => less) fun _ _ less => less

theorem registerWith_settles (fuel : Nat) (name : Label) (type : CType) :
    Settles session (registerWith fuel name type) := by
  induction fuel generalizing session name type with
  | zero => exact declare_settles session name type
  | succ fuel ih =>
    rw [registerWith_succ, Settles, ends_bind]
    refine (announce_ends session name type).mono (fun announced middle fewer => ?_) fun _ _ less => less
    have walk : Settles middle (announced.2.forM (promote fuel name announced.1)) := by
      refine ends_forM (Nat.le_refl _) fun waiter _ before less => ?_
      have step := promote_settles_of before (fun name type session => ih session name type) name
        announced.1 waiter
      exact step.mono (fun _ _ more => more.trans less) fun _ _ more => more.trans less
    have within : count middle.registry.waiting ≤ count session.registry.waiting := by omega
    refine ends_bind.mpr (walk.mono (fun _ after less => ?_) fun _ _ less => less.trans within)
    exact less.trans within

end

/-- Any fuel is enough that exceeds what waits. -/
theorem registerWith_fuel {fuel fuel' : Nat} {name : Label} {type : CType} {session : Session σ}
    (enough : count session.registry.waiting < fuel)
    (enough' : count session.registry.waiting < fuel') :
    (registerWith fuel name type).runOn session = (registerWith fuel' name type).runOn session := by
  induction fuel generalizing fuel' name type session with
  | zero => omega
  | succ fuel ih =>
    obtain ⟨fuel', rfl⟩ : ∃ more, fuel' = more + 1 := ⟨fuel' - 1, by omega⟩
    have fewer := announce_ends session name type
    unfold Ends at fewer
    rw [registerWith_succ, registerWith_succ, runOn_bind, runOn_bind]
    generalize (announce name type).runOn session = ended at fewer ⊢
    obtain ⟨outcome, middle⟩ := ended
    cases outcome with
    | error fault => rfl
    | ok announced =>
      have walks : (announced.2.forM (promote fuel name announced.1)).runOn middle =
          (announced.2.forM (promote fuel' name announced.1)).runOn middle := by
        refine runOn_forM_congr (P := fun before => count before.registry.waiting ≤
          count middle.registry.waiting) (fun waiter member before less => ?_)
          (fun waiter member before less => ?_) (Nat.le_refl _)
        · have some : 0 < announced.2.length := List.length_pos_of_mem member
          dsimp only at fewer
          rw [promote_runOn, promote_runOn, ih]
          · change count before.registry.waiting < _
            omega
          · change count before.registry.waiting < _
            omega
        · have step := promote_settles_of before
            (fun name type session => registerWith_settles session fuel name type) name announced.1
            waiter
          exact (Ends.after step).trans less
      dsimp only
      rw [runOn_bind, runOn_bind, walks]

theorem register_runOn {fuel : Nat} {type : CType} {session : Session σ}
    (enough : count session.registry.waiting < fuel) :
    (register name type).runOn session = (registerWith fuel name type).runOn session :=
  registerWith_fuel (Nat.lt_succ_self _) enough

end

section
variable {σ α β : Type} {session : Session σ}

/-- What an act that cannot fail comes to. -/
abbrev Attains (good : α → Session σ → Prop) (act : Resolving σ α) (session : Session σ) : Prop :=
  Ends good (fun _ _ => False) act session

theorem Attains.then {first : β → Session σ → Prop} {good : α → Session σ → Prop}
    {act : Resolving σ β} {next : β → Resolving σ α} (attains : Attains first act session)
    (rest : ∀ value after, first value after → Attains good (next value) after) :
    Attains good (act >>= next) session :=
  ends_bind.mpr (attains.mono rest fun _ _ wrong => wrong)

theorem attains_graph_then {good : α → Session σ → Prop} {next : Graph → Resolving σ α}
    (rest : Attains good (next session.graph) session) : Attains good (graph >>= next) session := rest

end

/-- Whether every typedef that waits has a name that can be a key. -/
def Answerable (waiting : Waiting) : Prop :=
  ∀ entry ∈ waiting, ∀ waiter ∈ entry.2, waiter.asKey = .ok waiter

section
variable {waiting : Waiting}

theorem Answerable.erase (answerable : Answerable waiting) (tag : Label) :
    Answerable (Table.erase tag waiting) :=
  fun entry member => answerable entry (List.mem_of_mem_filter member)

theorem Answerable.found (answerable : Answerable waiting) (tag : Label) :
    ∀ waiter ∈ (Table.find? tag waiting).getD [], waiter.asKey = .ok waiter := by
  cases found : Table.find? tag waiting with
  | none => exact fun _ member => absurd member List.not_mem_nil
  | some waiters =>
    obtain ⟨own, -, member⟩ := Table.mem_of_find? found
    exact answerable (own, waiters) member

theorem Answerable.defer {registry : Registry} (answerable : Answerable registry.waiting) (tag : Label)
    {name : Label} (keyed : name.asKey = .ok name) : Answerable (registry.defer tag name).waiting := by
  intro entry member waiter inside
  rcases Table.mem_insert_value member with before | ⟨same, -⟩
  · exact answerable entry before waiter inside
  rw [same] at inside
  rcases List.mem_append.mp inside with early | last
  · exact answerable.found tag waiter early
  · rwa [List.mem_singleton.mp last]

end

section
variable {σ : Type} {session : Session σ}

/-- A registration succeeds, and so do those of what waits for the name. -/
theorem registerWith_attains {fuel : Nat} {name : Label} {type : CType}
    (keyed : name.asKey = .ok name) (answerable : Answerable session.registry.waiting) :
    Attains (fun _ after => Answerable after.registry.waiting) (registerWith fuel name type) session := by
  induction fuel generalizing name type session with
  | zero =>
    obtain ⟨told, run⟩ := declare_runOn keyed type session
    unfold registerWith Attains Ends
    rw [run]
    exact answerable
  | succ fuel ih =>
    obtain ⟨told, run⟩ := announce_runOn keyed type session
    rw [registerWith_succ]
    refine ends_bind.mpr ?_
    unfold Ends
    rw [run]
    refine ends_bind.mpr (Ends.mono (ends_forM (answerable.erase name) fun waiter member before kept => ?_)
      (fun _ after kept => kept) fun _ _ wrong => wrong)
    refine ends_bind.mpr ((ends_modify _).mpr (ends_bind.mpr ?_))
    exact ih (answerable.found name waiter member) kept

end

end NativeBindings.Resolve
