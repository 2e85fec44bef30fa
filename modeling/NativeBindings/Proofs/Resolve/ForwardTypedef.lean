import NativeBindings.Proofs.Emit.StraightModule
import NativeBindings.Proofs.Resolve.TagNodes

/-!
A typedef of a record may stand before the record or right after it. Where it stands before, it
waits for the record and is declared right after it, so that the two resolutions give the same
declarations in the same order, but for the detours of aliases.
-/
namespace NativeBindings.Resolve

open Json Act Mirror

section
variable {σ : Type} {m : Mirror σ σ} {oracle : Layout.Oracle σ}

theorem ask_mirrors (tuned : m.tuned = Eq) (fine : ∀ state, m.fine state) (query : Layout.Query) :
    m.Mirrors id (ask oracle query) (ask oracle query) := by
  intro session good
  refine ⟨⟨fine _, good.2⟩, fun session' like => ?_⟩
  have same : session.oracle = session'.oracle := by
    have oracles := like.oracle
    rwa [tuned] at oracles
  unfold ask
  rw [runOn_ofRun, runOn_ofRun, ← same]
  generalize oracle query session.oracle = asked
  obtain ⟨answer, told, after⟩ := asked
  cases answer with
  | error fault => exact fun _ => rfl
  | ok amount =>
    refine ⟨rfl, like.graph, like.waiting, like.owners, like.includer, like.place, ?_⟩
    rw [tuned]

/-- A name that is declared stays declared. -/
theorem has_enter_of_has {graph : Graph} {other : Label}
    (declared : Table.has other graph.declarations = true) (name : Label) (type : CType) :
    Table.has other (graph.enter (name, type)).declarations = true := by
  cases same : name == other with
  | true =>
    have entered := has_enter graph name type
    rwa [Table.has, Table.find?_congr same] at entered
  | false =>
    rw [Table.has, Graph.enter, Graph.assign, Table.find?_insert_of_ne same, Graph.remove,
      Table.find?_erase_of_ne same]
    exact declared

variable (place : Origin.Includer → Prop)

/-- Two resolutions that differ in the detours of aliases only. -/
def level : Mirror σ σ where
  tuned := Eq
  waits := Eq
  fine _ := True
  clear _ _ := True
  place := place
  strict := True

theorem level_faithful (oracle : Layout.Oracle σ) :
    (level place).Faithful oracle oracle := Steady.faithful {
  ask := ask_mirrors rfl fun _ => trivial
  declare _ _ _ _ _ := trivial
  release := by
    rintro declarations waiting name declared -
    exact ⟨trivial, by rintro _ rfl; exact ⟨rfl, rfl⟩⟩
  defer := by
    rintro declarations waiting tag name names -
    exact ⟨trivial, by rintro _ rfl; exact ⟨rfl, rfl⟩⟩ }

variable (tag name : Label)

/-- Two resolutions, in the second of which a typedef waits for a tag. The first one has declared
neither of them, and nothing waits for the tag there. -/
def deferring : Mirror σ σ where
  tuned := Eq
  waits waiting waiting' :=
    Table.find? tag waiting' = some [name] ∧ Table.erase tag waiting' = waiting
  fine _ := True
  clear declarations waiting :=
    Table.has tag declarations = false ∧ Table.has name declarations = false ∧
      Table.find? tag waiting = none
  place := place
  strict := True

theorem deferring_faithful (oracle : Layout.Oracle σ) :
    (deferring place tag name).Faithful oracle oracle := Steady.faithful {
  ask := ask_mirrors rfl fun _ => trivial
  declare := by
    rintro graph waiting other type ⟨tagless, nameless, nothing⟩
    have before (label : Label)
        (absent : Table.has label (graph.enter (other, type)).declarations = false) :
        Table.has label graph.declarations = false := by
      cases declared : Table.has label graph.declarations with
      | false => rfl
      | true =>
        rw [has_enter_of_has declared] at absent
        cases absent
    exact ⟨before tag tagless, before name nameless, nothing⟩
  release := by
    rintro declarations waiting other declared ⟨tagless, nameless, nothing⟩
    have apart : (other == tag) = false := by
      cases same : other == tag with
      | false => rfl
      | true =>
        rw [Table.has, Table.find?_congr same] at declared
        exact absurd (tagless.symm.trans declared) (by simp)
    have apart' : (tag == other) = false := by rwa [BEq.comm]
    rw [Table.find?_erase_of_ne apart] at nothing
    refine ⟨⟨tagless, nameless, nothing⟩, ?_⟩
    rintro waiting' ⟨waits, rfl⟩
    refine ⟨Table.find?_erase_of_ne apart' waiting', ?_, Table.erase_comm tag other waiting'⟩
    rw [Table.find?_erase_of_ne apart, waits]
  defer := by
    rintro declarations waiting other waiter names ⟨tagless, nameless, nothing⟩
    have apart : (other == tag) = false := by
      cases same : other == tag with
      | false => rfl
      | true =>
        rw [← Table.find?_congr same, Table.find?_insert_self] at nothing
        cases nothing
    have apart' : (tag == other) = false := by rwa [BEq.comm]
    rw [Table.find?_insert_of_ne apart] at nothing
    refine ⟨⟨tagless, nameless, nothing⟩, ?_⟩
    rintro waiting' ⟨waits, rfl⟩
    refine ⟨Table.find?_erase_of_ne apart' waiting', ?_, Table.erase_insert_of_ne apart' _ waiting'⟩
    rw [Table.find?_insert_of_ne apart, waits] }

end

section
variable {σ : Type} {header : Path} {oracle : Layout.Oracle σ} {following : Option Json} {node : Json}
  {name tag : String} {session : Session σ}

/-- A typedef of a tag that is not declared waits, and nothing else changes. -/
theorem topNode_waits (oracle : Layout.Oracle σ) (following : Option Json)
    (typedefs : Typedefs tag name node) (isWord : Spelling.isWord tag.toList = true)
    (kept : Kept header node) (place : session.includer = .null)
    (good : (deferring (· = .null) (.str tag) (.str name) : Mirror σ σ).Good session) :
    ∃ session', (topNode header oracle following node).runOn session = (.ok false, session') ∧
      (deferring (· = .null) (.str tag) (.str name)).Like session session' := by
  obtain ⟨-, tagless, nameless, nothing⟩ := good
  obtain ⟨told, text, names, run⟩ :=
    topNode_typedef oracle following typedefs isWord kept place nameless
  obtain ⟨told', waits⟩ := typedefOf_waits names (.str name)
    { session with journal := session.journal ++ told } tagless
  rw [runOn_bind, waits] at run
  have waiting : (session.registry.defer (.str tag) (.str name)).waiting =
      Table.insert (.str tag) [.str name] session.registry.waiting := by
    rw [Registry.defer, nothing]
    rfl
  refine ⟨_, run, rfl, ?_, rfl, rfl, place, rfl⟩
  change Table.find? _ (session.registry.defer (.str tag) (.str name)).waiting = _ ∧
    Table.erase _ (session.registry.defer (.str tag) (.str name)).waiting = _
  rw [waiting]
  exact ⟨Table.find?_insert_self _ _ _, erase_insert_absent nothing _⟩

/-- What a resolution does with some nodes and a record after them, before it declares the record. -/
def reach (header : Path) (oracle : Layout.Oracle σ) (nodes : List Json) (node : Json)
    (name : Label) : Resolving σ (Amount × List (Field CType)) := do
  let _ ← passNodes header oracle (some node) false nodes
  let _ ← isSkipped header node
  bodyOf oracle node name

/-- A record of a name, with a size and fields. -/
def recordOf (name : Label) (body : Amount × List (Field CType)) : CType :=
  .record { name, size := body.1 } body.2

/-- A declaration, and the nodes after it. -/
def declareThen (header : Path) (oracle : Layout.Oracle σ) (name : Label) (more : List Json)
    (type : CType) : Resolving σ Unit := do
  let _ ← register name type
  topNodes header oracle false more

theorem bodyOf_mirrors {m : Mirror σ σ} (faithful : m.Faithful oracle oracle) (node : Json)
    (name : Label) :
    m.Mirrors (fun body => (body.1, body.2.map m.outlook.view.field)) (bodyOf oracle node name)
      (bodyOf oracle node name) := by
  refine (faithful.ask _).then fun size _ sizes => ?_
  obtain rfl := sizes
  refine mirrors_lift_then fun inner _ => mirrors_lift_then fun nodes _ => ?_
  have walk := members_mirrors faithful (recordWith_mirrors faithful node.depth) name name nodes
  exact walk.then fun fields fields' same => mirrors_pure (Prod.ext rfl same)

theorem tracks_of_unmarked {m : Mirror σ σ} (place : m.place = (· = .null)) (unmarked : Unmarked node) :
    m.Tracks node := by
  intro includer home
  rw [place] at home ⊢
  subst home
  exact unmarked

/-- Nodes that name no file leave the current one. -/
theorem passNodes_place [Nonempty σ] (next : Option Json) (done : Bool) {nodes : List Json}
    (unmarked : ∀ node ∈ nodes, Unmarked node) (place : session.includer = .null) :
    Gives (fun _ after => after.includer = .null) (passNodes header oracle next done nodes) session := by
  have mirrors := passNodes_mirrors header oracle (level_faithful (· = .null) oracle) next done
    (fun node member => tracks_of_unmarked rfl (unmarked node member))
    (fun node _ => waits_any (fun _ _ => trivial) node) inferInstance
  have ends := (mirrors session ⟨trivial, trivial⟩).2 session ⟨rfl, rfl, rfl, rfl, place, rfl⟩
  unfold Gives Ends
  generalize (passNodes header oracle next done nodes).runOn session = ended at ends ⊢
  obtain ⟨outcome, after⟩ := ended
  cases outcome with
  | error fault => trivial
  | ok done => exact ends.2.place

theorem reach_mirrors {m : Mirror σ σ} (faithful : m.Faithful oracle oracle)
    (placed : m.place = (· = .null)) (any : ∀ tag name, m.defers tag name) (some : Nonempty σ) (kept : Kept header node) {nodes : List Json}
    (unmarked : ∀ node ∈ nodes, Unmarked node) (name : Label) :
    m.Mirrors (fun body => (body.1, body.2.map m.outlook.view.field))
      (reach header oracle nodes node name) (reach header oracle nodes node name) := by
  have tracks := fun node member => tracks_of_unmarked placed (unmarked node member)
  have passes := passNodes_mirrors header oracle faithful (Option.some node) false tracks
    (fun node _ => waits_any any node) some
  refine passes.then fun _ _ _ => ?_
  have skips : m.Mirrors id (isSkipped header node : Resolving σ Bool) (isSkipped header node) :=
    isSkipped_mirrors (tracks_of_unmarked placed kept.unmarked) header
  exact skips.then fun _ _ _ => bodyOf_mirrors faithful node name

/-- What is promised where a record is declared was kept before it. -/
theorem passNodes_good {m : Mirror σ σ} (faithful : m.Faithful oracle oracle)
    (placed : m.place = (· = .null)) (kept : Kept header node) {nodes : List Json} {name : Label}
    (good : m.Good ((reach header oracle nodes node name).runOn session).2) :
    m.Good ((passNodes header oracle (some node) false nodes).runOn session).2 := by
  have rest : m.Mirrors (fun body => (body.1, body.2.map m.outlook.view.field))
      (isSkipped header node >>= fun _ => bodyOf oracle node name)
      (isSkipped header node >>= fun _ => bodyOf oracle node name) := by
    have skips : m.Mirrors id (isSkipped header node : Resolving σ Bool) (isSkipped header node) :=
      isSkipped_mirrors (tracks_of_unmarked placed kept.unmarked) header
    exact skips.then fun _ _ _ => bodyOf_mirrors faithful node name
  rw [reach, runOn_bind] at good
  generalize (passNodes header oracle (some node) false nodes).runOn session = ended at good ⊢
  obtain ⟨outcome, after⟩ := ended
  cases outcome with
  | error fault => exact good
  | ok done => exact (rest after good).1

/-- A resolution up to the declaration of a record, and from there on. -/
theorem topNodes_reach [Nonempty σ] (defines : Defines name node) (kept : Kept header node)
    {nodes : List Json} (unmarked : ∀ node ∈ nodes, Unmarked node) (place : session.includer = .null)
    (fresh : Gives (fun _ after => after.graph.has (.str name) = false)
      (passNodes header oracle (some node) false nodes) session) (more : List Json) :
    (topNodes header oracle false (nodes ++ node :: more)).runOn session =
      (reach header oracle nodes node (.str name) >>= fun body =>
        declareThen header oracle (.str name) more (recordOf (.str name) body)).runOn session := by
  obtain ⟨kind, member, known⟩ := defines.kind
  have plain : kind ≠ "TypedefDecl" := by
    rintro rfl
    simp [recordKinds] at member
  have undone : Gives (fun done _ => done = false)
      (passNodes header oracle (some node) false nodes) session :=
    passNodes_undone (fun last _ => apart_of_kind known plain) (fun _ => rfl) session
  have home : Gives (fun _ after => after.includer = .null)
      (passNodes header oracle (some node) false nodes) session :=
    passNodes_place (some node) false unmarked place
  rw [topNodes_append, reach, bind_assoc, runOn_bind, runOn_bind]
  unfold Gives Ends at undone home fresh
  rw [List.head?_cons]
  generalize (passNodes header oracle (some node) false nodes).runOn session = ended
    at undone home fresh ⊢
  obtain ⟨outcome, after⟩ := ended
  cases outcome with
  | error fault => rfl
  | ok done =>
    obtain rfl : done = false := undone
    have met := topNode_record oracle more.head? defines kept home fresh
    have next : topNodes header oracle false (node :: more) =
        topNode header oracle more.head? node >>= fun done => topNodes header oracle done more := rfl
    dsimp only
    rw [next, runOn_bind, met, ← runOn_bind]
    simp only [bind_assoc, pure_bind]
    rfl

theorem use_record_alike {record : Header} {fields : List (Field CType)} {item item' : CType}
    (shape : item = .record record fields) (word : record.name.isNull = false)
    (apart : record.name ≠ .str name) (same : item.straight = item'.straight) :
    (Registry.aliasOf (.str name) item.use).straight = (Registry.aliasOf (.str name) item').straight := by
  have size : item.use.size = item'.size := by
    rw [← CType.size_straight item', ← same, CType.size_straight, shape]
    rfl
  rw [Registry.aliasOf, Registry.aliasOf, CType.straight, CType.straight,
    CType.aliasTarget_use shape word fun named => apart named.symm, same, size]

/-- After the record the waiting typedef is declared, on one side as a use of the record and on the
other as the record itself. -/
theorem declareThen_alike [Nonempty σ] {later : Session σ} {typedef : Json}
    (typedefs : Typedefs tag name typedef) (isWord : Spelling.isWord tag.toList = true)
    (apart : tag ≠ name) (kept : Kept header typedef)
    (good : (deferring (· = .null) (.str tag) (.str name) : Mirror σ σ).Good session)
    (like : (deferring (· = .null) (.str tag) (.str name)).Like session later)
    {body : Amount × List (Field CType)} {type type' : CType} (shape : type = recordOf (.str tag) body)
    (same : type.straight = type'.straight) (more : List Json) :
    (level fun _ => True : Mirror σ σ).Alike id
      ((declareThen header oracle (.str tag) (typedef :: more) type).runOn session)
      ((declareThen header oracle (.str tag) more type').runOn later) := by
  obtain ⟨-, tagless, nameless, nothing⟩ := good
  have keyed : (Json.str tag).asKey = .ok (.str tag) := rfl
  have home : session.includer = .null := like.place
  have items := Outlook.straight.numbered like.graph same
  have numbered : type.numbered session.graph.issued = .record
      { name := .str tag, size := body.1, serial := some session.graph.issued } body.2 := by
    rw [shape]
    rfl
  have aliases : (level fun _ => True : Mirror σ σ).look
        (Registry.aliasOf (.str name) (type.numbered session.graph.issued).use) =
      (level fun _ => True : Mirror σ σ).look
        (Registry.aliasOf (.str name) (type'.numbered later.graph.issued)) :=
    use_record_alike numbered rfl (fun same => apart (Json.str.inj same)) items
  have fresh : (session.graph.enter (.str tag, type)).has (.str name) = false :=
    (has_enter_of_ne (apart_str apart) type).trans nameless
  have named : (type.numbered session.graph.issued).use.name = .str tag := by
    rw [numbered]
    rfl
  obtain ⟨told, alone⟩ := register_alone type keyed nothing
  obtain ⟨told', aliased⟩ := topNode_aliases
    { session with
      registry := { session.registry with graph := session.graph.enter (.str tag, type) }
      journal := session.journal ++ told }
    oracle more.head? typedefs isWord apart kept home fresh (use_enter session.graph tag type) named
  obtain ⟨told'', promotes⟩ := register_promotes type' keyed like.waiting.1
  -- Both sides declare the typedef next and go on with the same nodes.
  have left : (declareThen header oracle (.str tag) (typedef :: more) type).runOn session =
      (declareThen header oracle (.str name) more
        (Registry.aliasOf (.str name) (type.numbered session.graph.issued).use)).runOn
        { session with
          registry := { session.registry with graph := session.graph.enter (.str tag, type) }
          journal := session.journal ++ told ++ told' } := by
    rw [declareThen, runOn_bind, alone]
    dsimp only
    rw [topNodes, if_neg (by simp), runOn_bind, aliased, ← runOn_bind]
    simp only [bind_assoc, pure_bind]
    rfl
  have right : (declareThen header oracle (.str tag) more type').runOn later =
      (declareThen header oracle (.str name) more
        (Registry.aliasOf (.str name) (type'.numbered later.graph.issued))).runOn
        { later with
          registry := {
            graph := later.graph.enter (.str tag, type')
            waiting := Table.erase (.str tag) later.registry.waiting }
          journal := later.journal ++ told'' } := by
    rw [declareThen, runOn_bind, promotes, ← runOn_bind]
    simp only [bind_assoc, pure_bind]
    rfl
  have mirrors : (level fun _ => True : Mirror σ σ).Mirrors id
      (declareThen header oracle (.str name) more
        (Registry.aliasOf (.str name) (type.numbered session.graph.issued).use))
      (declareThen header oracle (.str name) more
        (Registry.aliasOf (.str name) (type'.numbered later.graph.issued))) :=
    ((level_faithful (fun _ => True) oracle).register _ (declarable_aliasOf _ _) aliases).then fun _ _ _ =>
      topNodes_mirrors (level_faithful _ oracle) header false (fun _ _ _ _ => trivial)
        fun node _ => waits_any (fun _ _ => trivial) node
  rw [left, right]
  refine (mirrors _ ⟨trivial, trivial⟩).2 _ ⟨Outlook.straight.enter _ like.graph same, ?_, like.owners,
    like.includer, trivial, like.oracle⟩
  exact like.waiting.2.symm

/-- Neither the name of a record nor that of its typedef is declared, and nothing waits for the record. -/
def Unclaimed (tag name : String) (session : Session σ) : Prop :=
  session.graph.has (.str tag) = false ∧ session.graph.has (.str name) = false ∧
    Table.find? (.str tag) session.registry.waiting = none

theorem good_of_unclaimed (unclaimed : Unclaimed tag name session) :
    (deferring (· = .null) (.str tag) (.str name) : Mirror σ σ).Good session :=
  ⟨trivial, unclaimed⟩

/-- A typedef waits, and so the nodes up to its record end as they do without it. -/
theorem topNodes_waits_alike [Nonempty σ] {later : Session σ} {record typedef : Json}
    (defines : Defines tag record) (typedefs : Typedefs tag name typedef) (apart : tag ≠ name)
    (keptRecord : Kept header record) (keptTypedef : Kept header typedef) {nodes : List Json}
    (unmarked : ∀ node ∈ nodes, Unmarked node)
    (good : (deferring (· = .null) (.str tag) (.str name)).Good
      ((reach header oracle nodes record (.str tag)).runOn session).2)
    (like : (deferring (· = .null) (.str tag) (.str name)).Like session later) (more : List Json) :
    (level fun _ => True : Mirror σ σ).Alike id
      ((topNodes header oracle false (nodes ++ record :: typedef :: more)).runOn session)
      ((topNodes header oracle false (nodes ++ record :: more)).runOn later) := by
  have faithful := deferring_faithful (· = .null) (.str tag) (.str name) oracle
  have passed := passNodes_good faithful rfl keptRecord good
  have passes := (passNodes_mirrors header oracle faithful (some record) false
    (fun node member => tracks_of_unmarked rfl (unmarked node member))
    (fun node _ => waits_any (fun _ _ => trivial) node) inferInstance session passed).2
    later like
  have walk := (reach_mirrors faithful rfl (fun _ _ => trivial) inferInstance keptRecord unmarked (.str tag) session good).2
    later like
  have home : session.includer = .null := like.place
  -- The tag is declared on neither side where its record is met.
  have fresh : Gives (fun _ after => after.graph.has (.str tag) = false)
      (passNodes header oracle (some record) false nodes) session :=
    ends_iff.mpr ⟨fun _ _ => passed.2.1, fun _ _ => trivial⟩
  have fresh' : Gives (fun _ after => after.graph.has (.str tag) = false)
      (passNodes header oracle (some record) false nodes) later := by
    unfold Gives Ends
    generalize (passNodes header oracle (some record) false nodes).runOn session = ended
      at passed passes
    generalize (passNodes header oracle (some record) false nodes).runOn later = ended' at passes ⊢
    obtain ⟨outcome, after⟩ := ended
    obtain ⟨outcome', after'⟩ := ended'
    cases outcome' with
    | error fault => trivial
    | ok done' =>
      cases outcome with
      | error fault => cases passes trivial
      | ok done =>
        have graphs : after.graph.straight = after'.graph.straight := passes.2.graph
        change after'.graph.has (.str tag) = false
        rw [← Graph.has_straight, ← graphs, Graph.has_straight]
        exact passed.2.1
  rw [topNodes_reach defines keptRecord unmarked home fresh,
    topNodes_reach defines keptRecord unmarked (like.includer ▸ home) fresh', runOn_bind, runOn_bind]
  generalize (reach header oracle nodes record (.str tag)).runOn session = ended at good walk ⊢
  generalize (reach header oracle nodes record (.str tag)).runOn later = ended' at walk ⊢
  obtain ⟨outcome, after⟩ := ended
  obtain ⟨outcome', after'⟩ := ended'
  cases outcome with
  | error fault =>
    obtain rfl : outcome' = .error fault := walk trivial
    exact fun _ => rfl
  | ok body =>
    cases outcome' with
    | error fault => exact walk.elim
    | ok body' =>
      obtain ⟨sizes, fields⟩ := Prod.mk.inj walk.1
      have same : (recordOf (.str tag) body).straight = (recordOf (.str tag) body').straight := by
        rw [recordOf, recordOf, sizes]
        exact CType.View.straight.same_record fields _
      exact declareThen_alike typedefs defines.word apart keptTypedef good walk.2 rfl same more

theorem reach_append {before nodes : List Json} {name : Label}
    (settled : ∀ last ∈ before.getLast?, Settled last) (following : Option Json) :
    reach header oracle (before ++ nodes) node name =
      passNodes header oracle following false before >>= fun done =>
        passNodes header oracle (some node) done nodes >>= fun _ =>
          isSkipped header node >>= fun _ => bodyOf oracle node name := by
  rw [reach, passNodes_append, passNodes_settled settled _ following, bind_assoc]

/-- A typedef before its record, and the same typedef right after it. -/
theorem topNodes_forward_alike [Nonempty σ] {record typedef : Json} {before nodes : List Json}
    (defines : Defines tag record) (typedefs : Typedefs tag name typedef) (apart : tag ≠ name)
    (keptRecord : Kept header record) (keptTypedef : Kept header typedef)
    (settled : ∀ last ∈ before.getLast?, Settled last)
    (unmarked : ∀ node ∈ before ++ nodes, Unmarked node) (place : session.includer = .null)
    (unclaimed : Unclaimed tag name
      ((reach header oracle (before ++ nodes) record (.str tag)).runOn session).2)
    (more : List Json) :
    (level fun _ => True : Mirror σ σ).Alike id
      ((topNodes header oracle false (before ++ (nodes ++ record :: typedef :: more))).runOn session)
      ((topNodes header oracle false (before ++ typedef :: (nodes ++ record :: more))).runOn session) := by
  have good := good_of_unclaimed unclaimed
  have undone : Gives (fun done _ => done = false)
      (passNodes header oracle none false before) session :=
    passNodes_undone (fun last member => (settled last member).apart none) (fun _ => rfl) session
  have home : Gives (fun _ after => after.includer = .null)
      (passNodes header oracle none false before) session :=
    passNodes_place none false (fun node member => unmarked node (by simp [member])) place
  rw [topNodes_append, topNodes_append, passNodes_settled settled _ none,
    passNodes_settled settled (typedef :: _).head? none, runOn_bind, runOn_bind]
  rw [reach_append settled none, runOn_bind] at good
  unfold Gives Ends at undone home
  generalize (passNodes header oracle none false before).runOn session = ended at undone home good ⊢
  obtain ⟨outcome, after⟩ := ended
  cases outcome with
  | error fault => exact fun _ => rfl
  | ok done =>
    obtain rfl : done = false := undone
    have others : ∀ node ∈ nodes, Unmarked node := fun node member => unmarked node (by simp [member])
    have rest := reach_mirrors (deferring_faithful (· = .null) (.str tag) (.str name) oracle) rfl
      (fun _ _ => trivial) inferInstance keptRecord others (.str tag) after good
    obtain ⟨later, waits, like⟩ := topNode_waits oracle (nodes ++ record :: more).head? typedefs
      defines.word keptTypedef home rest.1
    have next : topNodes header oracle false (typedef :: (nodes ++ record :: more)) =
        topNode header oracle (nodes ++ record :: more).head? typedef >>= fun done =>
          topNodes header oracle done (nodes ++ record :: more) := rfl
    dsimp only
    rw [next, runOn_bind, waits]
    exact topNodes_waits_alike defines typedefs apart keptRecord keptTypedef others good like more

theorem conclude_alike (header : Path) {later : Session σ}
    (like : (level fun _ => True : Mirror σ σ).Like session later) :
    (level fun _ => True : Mirror σ σ).Alike Graph.straight
      ((conclude header).runOn session) ((conclude header).runOn later) := by
  have waiting : session.registry.waiting = later.registry.waiting := like.waiting
  have missing : unresolved session.registry = unresolved later.registry := by
    rw [unresolved, unresolved, Registry.pending, Registry.pending, waiting]
  cases pending : session.registry.waiting.isEmpty with
  | true =>
    obtain ⟨told, run⟩ := conclude_done header pending
    obtain ⟨told', run'⟩ := conclude_done header (waiting ▸ pending)
    rw [run, run']
    exact ⟨like.graph, like.graph, like.waiting, like.owners, like.includer, like.place, like.oracle⟩
  | false =>
    rw [conclude_waits header pending, conclude_waits header (waiting ▸ pending), missing]
    cases unresolved later.registry with
    | ok fault => exact fun _ => rfl
    | error fault => exact fun _ => rfl

/-- A typedef before its record comes to the same as the typedef right after it: the same fault, or
the same names in the same order for types that differ in the detours of aliases only, and so the same
module. -/
theorem resolve_forward_typedef (header : Path) (oracle : Layout.Oracle σ) (state : σ)
    {tag name : String} {record typedef : Json} (before nodes after : List Json)
    (defines : Defines tag record) (typedefs : Typedefs tag name typedef) (apart : tag ≠ name)
    (keptRecord : Kept header record) (keptTypedef : Kept header typedef)
    (settled : ∀ last ∈ before.getLast?, Settled last)
    (unmarked : ∀ node ∈ before ++ nodes, Unmarked node)
    (unclaimed : Unclaimed tag name
      ((reach header oracle (before ++ nodes) record (.str tag)).runOn (opening state)).2) :
    let backward := ((resolve header oracle (before ++ nodes ++ [record, typedef] ++ after)).runOn
      { oracle := state }).1
    let forward := ((resolve header oracle
      (before ++ [typedef] ++ nodes ++ [record] ++ after)).runOn { oracle := state }).1
    (∃ fault, backward = .error fault ∧ forward = .error fault) ∨
      ∃ graph graph', backward = .ok graph ∧ forward = .ok graph' ∧ graph.names = graph'.names ∧
        graph.straight = graph'.straight ∧
        ∀ options, Emit.generate options graph = Emit.generate options graph' := by
  intro backward forward
  have some : Nonempty σ := ⟨state⟩
  have walk := topNodes_forward_alike defines typedefs apart keptRecord keptTypedef settled unmarked
    rfl unclaimed after
  have listed : before ++ nodes ++ [record, typedef] ++ after =
      before ++ (nodes ++ record :: typedef :: after) := by simp
  have listed' : before ++ [typedef] ++ nodes ++ [record] ++ after =
      before ++ typedef :: (nodes ++ record :: after) := by simp
  have left : backward = ((topNodes header oracle false
      (before ++ (nodes ++ record :: typedef :: after)) >>= fun _ => conclude header).runOn
        (opening state)).1 := by
    rw [← listed]
    exact resolve_runOn _ state
  have right : forward = ((topNodes header oracle false
      (before ++ typedef :: (nodes ++ record :: after)) >>= fun _ => conclude header).runOn
        (opening state)).1 := by
    rw [← listed']
    exact resolve_runOn _ state
  rw [runOn_bind] at left right
  generalize (topNodes header oracle false
    (before ++ (nodes ++ record :: typedef :: after))).runOn (opening state) = ended at walk left
  generalize (topNodes header oracle false
    (before ++ typedef :: (nodes ++ record :: after))).runOn (opening state) = ended' at walk right
  obtain ⟨outcome, middle⟩ := ended
  obtain ⟨outcome', middle'⟩ := ended'
  cases outcome with
  | error fault =>
    obtain rfl : outcome' = .error fault := walk trivial
    exact .inl ⟨fault, left, right⟩
  | ok value =>
    cases outcome' with
    | error fault => exact walk.elim
    | ok value' =>
      have ends := conclude_alike header walk.2
      dsimp only at left right
      generalize (conclude header).runOn middle = last at ends left
      generalize (conclude header).runOn middle' = last' at ends right
      obtain ⟨outcome, _⟩ := last
      obtain ⟨outcome', _⟩ := last'
      cases outcome with
      | error fault =>
        obtain rfl : outcome' = .error fault := ends trivial
        exact .inl ⟨fault, left, right⟩
      | ok graph =>
        cases outcome' with
        | error fault => exact ends.elim
        | ok graph' =>
          have same : graph.straight = graph'.straight := ends.1
          refine .inr ⟨graph, graph', left, right, ?_, same, fun options => ?_⟩
          · rw [← Graph.names_straight, same, Graph.names_straight]
          · rw [← Emit.generate_straight, same, Emit.generate_straight]

end

def typedefNode (name spelling : String) : Json :=
  .obj [("kind", .str "TypedefDecl"), ("name", .str name), ("type", .obj [("qualType", .str spelling)])]

def recordNode (name : String) (inner : List Json) : Json :=
  .obj [("kind", .str "CXXRecordDecl"), ("name", .str name), ("inner", .arr inner)]

def fieldNode (name spelling : String) : Json :=
  .obj [("kind", .str "FieldDecl"), ("name", .str name), ("type", .obj [("qualType", .str spelling)])]

def pointTypedef : Json := typedefNode "point_t" "struct point"

theorem pointTypedef_typedefs : Typedefs "point" "point_t" pointTypedef where
  kind := rfl
  named := rfl
  spelling := ⟨"struct ", by simp, rfl⟩
  plain := ⟨_, .null, rfl, rfl, rfl⟩
  data := rfl

theorem pointTypedef_kept (header : Path) : Kept header pointTypedef :=
  kept_of_unplaced header rfl rfl fun _ _ => ⟨[], rfl⟩

theorem point_defines (inner : List Json) : Defines "point" (recordNode "point" inner) where
  kind := ⟨"CXXRecordDecl", by simp [recordKinds], rfl⟩
  named := rfl
  body := ⟨.arr inner, rfl, rfl⟩
  word := by decide

theorem point_kept (header : Path) (inner : List Json) : Kept header (recordNode "point" inner) :=
  kept_of_unplaced header rfl rfl fun _ _ => ⟨[], rfl⟩

/-- A pointer to the record before it, a record between, and one that uses the typedef after it. -/
theorem resolve_forward_typedef_point :
    let before := [typedefNode "ref" "struct point *"]
    let nodes := [recordNode "pair" [fieldNode "first" "int"]]
    let after := [recordNode "line" [fieldNode "start" "point_t"]]
    let point := recordNode "point" [fieldNode "x" "int"]
    let backward := ((resolve { parts := ["a.h"] } (answering outerAnswers)
      (before ++ nodes ++ [point, pointTypedef] ++ after)).runOn { oracle := () }).1
    let forward := ((resolve { parts := ["a.h"] } (answering outerAnswers)
      (before ++ [pointTypedef] ++ nodes ++ [point] ++ after)).runOn { oracle := () }).1
    (∃ fault, backward = .error fault ∧ forward = .error fault) ∨
      ∃ graph graph', backward = .ok graph ∧ forward = .ok graph' ∧ graph.names = graph'.names ∧
        graph.straight = graph'.straight ∧
        ∀ options, Emit.generate options graph = Emit.generate options graph' := by
  refine resolve_forward_typedef { parts := ["a.h"] } (answering outerAnswers) () _ _ _
    (point_defines [fieldNode "x" "int"]) pointTypedef_typedefs (by decide) (point_kept _ _)
    (pointTypedef_kept _) ?_ ?_ ?_
  · rintro last ⟨⟩ kind known tagged
    obtain rfl := Except.ok.inj known
    exact ⟨.str "ref", rfl, rfl⟩
  · intro node member
    simp only [List.cons_append, List.nil_append, List.mem_cons, List.not_mem_nil, or_false] at member
    rcases member with rfl | rfl
    · rfl
    · rfl
  · unfold Unclaimed
    decide +kernel

/-- A record within the record may have its name: a typedef that waits is then one of that record. -/
theorem resolve_forward_typedef_nested :
    let header : Path := { parts := ["a.h"] }
    let outer := recordNode "point" [recordNode "axis" [recordNode "point" [fieldNode "x" "int"]]]
    let names (nodes : List Json) :=
      ((resolve header (answering outerAnswers) nodes).runOn { oracle := () }).1.toOption.map fun graph =>
        graph.names.drop (Seed.sow {}).names.length
    Defines "point" outer ∧ Typedefs "point" "point_t" pointTypedef ∧ Kept header outer ∧
      Kept header pointTypedef ∧
      Unclaimed "point" "point_t" (opening () : Session Unit) ∧
      names [outer, pointTypedef] = some [.str "axis", .str "point", .str "point_t"] ∧
      names [pointTypedef, outer] = some [.str "point_t", .str "axis", .str "point"] := by
  refine ⟨point_defines _, pointTypedef_typedefs, point_kept _ _, pointTypedef_kept _, ?_, ?_, ?_⟩
  · unfold Unclaimed
    decide +kernel
  · decide +kernel
  · decide +kernel

end NativeBindings.Resolve
