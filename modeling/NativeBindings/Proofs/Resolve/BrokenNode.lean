import NativeBindings.Proofs.Resolve.Chronicle
import NativeBindings.Proofs.Resolve.ForwardTypedef

/-!
What a node leaves behind that fails. The nodes before it have done all that they do without it. Of the
node itself only the named records within are declared that were complete before, each one followed by
the typedefs that waited for it.
-/
namespace NativeBindings.Resolve

open Json Act Outcome

section
variable {σ : Type} (oracle : Layout.Oracle σ)

/-- The declarations of the named records within a record node with a layout name. -/
def NestedBuilds (node : Json) (layout : Label) (graph : Graph) (name : Label) (type : CType) : Prop :=
  ∃ inner ∈ nestedIn (within node), ∃ own, inner.field "name" = .ok own ∧
    RecordBuilds oracle inner own (.str (layout.plain ++ "::" ++ own.plain)) graph name type

variable {oracle} in
theorem NestedBuilds.builds {node : Json} {name layout other : Label} {graph : Graph} {type : CType}
    (nested : NestedBuilds oracle node layout graph other type) :
    RecordBuilds oracle node name layout graph other type := by
  obtain ⟨inner, member, own, named, builds⟩ := nested
  exact .nested member named builds

/-- The declarations of the named records within a node. -/
def Hoists (following : Option Json) (node : Json) (graph : Graph) (name : Label) (type : CType) : Prop :=
  isRecord node = true ∧ hasBody node = true ∧ ∃ own adopted,
    nameOf following node = .ok (own, adopted) ∧ own.isNull = false ∧
      NestedBuilds oracle node own graph name type

end

/-- Events that are none but some declarations and what they wake. -/
def Only (builds : Graph → Label → CType → Prop) (graph : Graph) : Event → Prop
  | .declare name type _ => builds graph name type
  | .wake _ _ => True
  | .defer _ _ | .mark => False

section
variable {builds builds' : Graph → Label → CType → Prop} {before after : Registry} {events : List Event}

theorem Only.mono (wider : ∀ graph name type, builds graph name type → builds' graph name type)
    (graph : Graph) (event : Event) (only : Only builds graph event) : Only builds' graph event := by
  cases event with
  | declare name type number => exact wider graph name type only
  | wake => exact only
  | defer | mark => exact only

/-- Where nothing is declared, nothing is woken. -/
theorem nothing_of_none (none : ∀ graph name type, ¬ builds graph name type)
    (run : Desk.Runs (Only builds) { registry := before } events { registry := after }) :
    after = before := by
  cases run with
  | nil => rfl
  | cons step fit _ =>
    cases step with
    | declare registry name type => exact absurd fit (none _ _ _)
    | defer => exact fit.elim
    | mark => exact fit.elim

/-- No name is marked as a pointer. -/
theorem unmarked (run : Desk.Runs (Only builds) { registry := before } events { registry := after }) :
    after.graph.pointers = before.graph.pointers ∧ after.graph.callbacks = before.graph.callbacks := by
  refine run.keeps (P := fun desk => desk.registry.graph.pointers = before.graph.pointers ∧
    desk.registry.graph.callbacks = before.graph.callbacks) (fun _ step fit kept => ?_) ⟨rfl, rfl⟩
  cases step with
  | declare => exact kept
  | wake => exact kept
  | defer => exact kept
  | mark => exact fit.elim

end

section
variable {σ : Type} {session : Session σ} {builds : Graph → Label → CType → Prop}

/-- While every typedef that waits can be declared, nothing takes place but some declarations and what
they wake. -/
def Confines (builds : Graph → Label → CType → Prop) (before after : Session σ) : Prop :=
  Answerable before.registry.waiting → Answerable after.registry.waiting ∧
    Logged (Only builds) before.registry after.registry

theorem Confines.mono {before after : Session σ} {builds' : Graph → Label → CType → Prop}
    (confines : Confines builds before after)
    (wider : ∀ graph name type, builds graph name type → builds' graph name type) :
    Confines builds' before after :=
  fun answerable => (confines answerable).imp_right fun logged => logged.mono (Only.mono wider)

theorem Confines.trans {first second third : Session σ} (left : Confines builds first second)
    (right : Confines builds second third) : Confines builds first third := by
  intro answerable
  obtain ⟨between, early⟩ := left answerable
  obtain ⟨last, late⟩ := right between
  exact ⟨last, early.trans late⟩

theorem paced_confines : @Paced σ (Confines builds) (Confines builds) where
  still same _ answerable := ⟨same ▸ answerable, same ▸ .refl _⟩
  halts same _ answerable := ⟨same ▸ answerable, same ▸ .refl _⟩
  trans := .trans
  stops := .trans

/-- A registration is complete or does nothing. -/
theorem register_ends (answerable : Answerable session.registry.waiting) {name : Label} {type : CType}
    (fit : builds session.graph name type) :
    Ends (fun _ after => Answerable after.registry.waiting ∧
        Logged (Only builds) session.registry after.registry)
      (fun _ after => after.registry = session.registry) (register name type) session := by
  cases keyed : name.asKey with
  | error fault =>
    have run : (register name type).runOn session = (.error fault, session) := by
      rw [register_runOn (Nat.lt_succ_self _), registerWith_succ, runOn_bind, announce_unkeyed keyed]
    unfold Ends
    rw [run]
  | ok key =>
    obtain rfl := asKey_eq_ok keyed
    have attains : Attains (fun _ after => Answerable after.registry.waiting) (register key type) session :=
      registerWith_attains keyed answerable
    have logs : Logs (Only builds) (register key type) session :=
      register_logs (fun _ _ _ => trivial) key type fit
    exact (attains.and logs).mono (fun _ _ both => ⟨both.1, both.2.1⟩) fun _ _ wrong => wrong.1.elim

theorem register_moves {name : Label} {type : CType} (fit : builds session.graph name type) :
    Moves (Confines builds)
      (fun before after => Answerable before.registry.waiting → after.registry = before.registry)
      (register name type) session := by
  by_cases answerable : Answerable session.registry.waiting
  · exact (register_ends answerable fit).mono (fun _ _ done _ => done) fun _ _ same _ => same
  · rw [Moves, ends_iff]
    exact ⟨fun _ _ yes => absurd yes answerable, fun _ _ yes => absurd yes answerable⟩

section
variable (oracle : Layout.Oracle σ)

/-- A record that fails has declared none but records within it. -/
theorem recordWith_moves (fuel : Nat) (node : Json) (name layout : Label) :
    Moves (Confines (RecordBuilds oracle node name layout)) (Confines (NestedBuilds oracle node layout))
      (recordWith oracle fuel node name layout) session := by
  induction fuel generalizing node name layout session with
  | zero => exact paced_confines.halts rfl rfl
  | succ fuel ih =>
    refine ends_bind.mpr (Ends.mono (Ends.and (gives_run (ask oracle (.sizeOf layout)))
      (paced_confines.ask_moves oracle _)) ?_ fun _ _ failed => failed.2)
    rintro size asked ⟨sized, first⟩
    refine ends_lift_then (fun _ => first) fun children listed => ?_
    refine ends_lift_then (fun _ => first) fun nodes walked => ?_
    rcases items_eq_ok listed (items_of_sequence walked) with rfl | ⟨s, rest, rfl⟩
    · have inside : Moves (Confines (NestedBuilds oracle node layout))
          (Confines (NestedBuilds oracle node layout))
          (members oracle (recordWith oracle fuel) name layout (within node)) asked := by
        refine paced_confines.members_moves oracle name layout (within node)
          fun inner member own named between => ?_
        have whole : ∀ graph other type,
            RecordBuilds oracle inner own (.str (layout.plain ++ "::" ++ own.plain)) graph other type →
              NestedBuilds oracle node layout graph other type :=
          fun _ _ _ builds => ⟨inner, member, own, named, builds⟩
        refine (ih inner own _).mono (fun _ _ done => done.mono whole) fun _ _ failed => ?_
        exact failed.mono fun _ _ _ nested => whole _ _ _ nested.builds
      refine ends_bind.mpr (Ends.mono (Ends.and (gives_run _) inside) ?_
        fun _ _ failed => first.trans failed.2)
      rintro fields between ⟨laid, second⟩
      have both := first.trans second
      refine (register_moves (.own sized laid)).mono
        (fun _ _ last => (both.mono fun _ _ _ => NestedBuilds.builds).trans last)
        fun _ after failed answerable => ?_
      obtain ⟨kept, logged⟩ := both answerable
      rw [failed kept]
      exact ⟨kept, logged⟩
    · refine ends_bind.mpr ?_
      unfold members
      exact ends_lift_then (fun _ => first) fun kind known => by cases known

end

section
variable {α β : Type}

/-- An act that leaves what is declared and what waits as they are if it fails. -/
abbrev Spares (act : Resolving σ α) (session : Session σ) : Prop :=
  Ends (fun _ _ => True) (fun _ after => after.registry = session.registry) act session

theorem spares_lift_then {outcome : Except Fault β} {next : β → Resolving σ α}
    (rest : ∀ value, outcome = .ok value → Spares (next value) session) :
    Spares (liftM outcome >>= next) session :=
  ends_lift_then (fun _ => rfl) rest

theorem spares_graph_then {next : Graph → Resolving σ α} (rest : Spares (next session.graph) session) :
    Spares (graph >>= next) session := rest

theorem Spares.then {act : Resolving σ β} {next : β → Resolving σ α} (spares : Spares act session)
    (sure : ∀ value after, Attains (fun _ _ => True) (next value) after) :
    Spares (act >>= next) session := by
  refine ends_bind.mpr (spares.mono (fun value after _ => ?_) fun _ _ same => same)
  exact (sure value after).mono (fun _ _ _ => trivial) fun _ _ wrong => wrong.elim

end

variable (answerable : Answerable session.registry.waiting)
include answerable

theorem register_spares (name : Label) (type : CType) : Spares (register name type) session := by
  have ends := @register_ends σ session (fun _ _ _ => True) answerable name type trivial
  exact ends.mono (fun _ _ _ => trivial) fun _ _ same => same

theorem registerAlias_spares (name : Label) (target : CType) :
    Spares (registerAlias name target) session := by
  unfold registerAlias
  split
  · trivial
  · exact (register_spares answerable _ _).then fun _ _ => trivial

theorem typedefOf_spares (name : Label) (spelling : String) : Spares (typedefOf name spelling) session := by
  refine spares_graph_then ?_
  split
  · exact registerAlias_spares answerable _ _
  · split
    · trivial
    · trivial
  · exact rfl

theorem typedef_spares (node : Json) : Spares (typedef node) session := by
  refine spares_lift_then fun name _ => spares_lift_then fun spelling _ => ?_
  refine spares_lift_then fun type _ => spares_lift_then fun id _ => ?_
  split
  · refine spares_graph_then <| spares_lift_then fun text _ => spares_lift_then fun target _ => ?_
    exact registerAlias_spares answerable _ _
  refine spares_lift_then fun prototype _ => ?_
  split
  · refine spares_graph_then <| spares_lift_then fun type _ => ?_
    exact (register_spares answerable _ _).then fun _ _ => trivial
  refine spares_lift_then fun text _ => spares_lift_then fun shape _ => ?_
  split
  · refine spares_graph_then <| spares_lift_then fun target _ => ?_
    exact (register_spares answerable _ _).then fun _ _ => trivial
  · exact typedefOf_spares answerable _ _

theorem function_spares (node : Json) : Spares (function node) session := by
  refine spares_lift_then fun name _ => spares_graph_then <| spares_lift_then fun type _ => ?_
  refine spares_lift_then fun variadic _ => ?_
  have registers (between : Session σ) (kept : Answerable between.registry.waiting) :
      Spares (register name type >>= fun _ => pure ()) between :=
    (register_spares kept _ _).then fun _ _ => trivial
  dsimp only
  split
  · exact registers _ answerable
  · exact registers session answerable

theorem topEnum_spares (following : Option Json) (node : Json) :
    Spares (topEnum following node) session := by
  refine spares_lift_then fun named found => ?_
  split
  · exact spares_lift_then fun told _ => trivial
  next name adopted _ =>
    refine spares_lift_then fun inner _ => spares_lift_then fun nodes _ => ends_bind.mpr ?_
    refine (enum_still name nodes).mono (fun type between same => ?_) fun _ _ same => same
    have registers : Spares (register name type >>= fun _ => pure adopted) between :=
      (register_spares (same ▸ answerable) name type).then fun _ _ => trivial
    exact registers.mono (fun _ _ _ => trivial) fun _ _ kept => kept.trans same

/-- A record node that fails has declared none but records within it. -/
theorem topRecord_confines (oracle : Layout.Oracle σ) (following : Option Json) {node : Json}
    (kind : isRecord node = true) :
    Ends (fun _ _ => True)
      (fun _ after => Logged (Only (Hoists oracle following node)) session.registry after.registry)
      (topRecord oracle following node) session := by
  refine ends_lift_then (fun _ => .refl _) fun named found => ?_
  split
  · refine ends_lift_then (fun _ => .refl _) fun tag _ => ?_
    exact ends_lift_then (fun _ => .refl _) fun told _ => trivial
  next name adopted plain =>
    have given : name.isNull = false := by
      cases name with
      | null => exact absurd rfl plain
      | _ => rfl
    refine ends_lift_then (fun _ => .refl _) fun inner body => ?_
    have bodied := hasBody_eq body
    dsimp only
    split
    · trivial
    next present =>
      have filled : hasBody node = true := by
        rw [bodied]
        simpa using present
      refine ends_bind.mpr ((recordWith_moves oracle _ node name name).mono (fun _ _ _ => trivial)
        fun _ after confines => ?_)
      refine (confines answerable).2.mono (Only.mono fun graph own type builds => ?_)
      exact ⟨kind, filled, name, adopted, found, given, builds⟩

/-- What a node leaves behind that fails. -/
theorem topNode_confines (header : Path) (oracle : Layout.Oracle σ) (following : Option Json) (node : Json) :
    Ends (fun _ _ => True)
      (fun _ after => Logged (Only (Hoists oracle following node)) session.registry after.registry)
      (topNode header oracle following node) session := by
  have spared {α : Type} {act : Resolving σ α} {between : Session σ} (spares : Spares act between) :
      Ends (fun _ _ => True)
        (fun _ after => Logged (Only (Hoists oracle following node)) between.registry after.registry)
        act between :=
    spares.mono (fun _ _ _ => trivial) fun _ _ same => same ▸ .refl _
  refine ends_bind.mpr ((paced_same.isSkipped_moves header node).mono (fun skipped between same => ?_)
    fun _ _ same => same.1 ▸ .refl _)
  have kept : Answerable between.registry.waiting := same.1 ▸ answerable
  rw [← same.1]
  split
  · trivial
  refine ends_lift_then (fun _ => .refl _) fun kind known => ?_
  split
  · exact spared (topEnum_spares kept following node)
  refine ends_lift_then (fun _ => .refl _) fun among checked => ?_
  split
  next record => exact topRecord_confines kept oracle following (isRecord_eq known (record ▸ checked))
  split
  · exact spared ((typedef_spares kept node).then fun _ _ => trivial)
  split
  · exact spared ((function_spares kept node).then fun _ _ => trivial)
  · exact spared (spares_lift_then fun name _ => trivial)

end

/-- Whether a typedef node has a name that can be a key. -/
def Nameable (node : Json) : Prop :=
  node.field "kind" = .ok (.str "TypedefDecl") →
    ∀ name, node.need "name" = .ok name → name.asKey = .ok name

section
variable {σ : Type} (header : Path) (oracle : Layout.Oracle σ) (state : σ)

/-- What is declared and what waits at the end of a resolution, whether it gives a graph or fails. -/
def remains (nodes : List Json) : Registry :=
  ((resolve header oracle nodes).runOn { oracle := state }).2.registry

/-- A resolution comes to a node after those before it, and fails there. -/
def BreaksAt (before : List Json) (node : Json) (after : List Json) (fault : Fault) : Prop :=
  ∃ session left, (passNodes header oracle (some node) false before).runOn (opening state) =
      (.ok false, session) ∧
    (topNode header oracle after.head? node).runOn session = (.error fault, left)

variable {header oracle state} {before after nodes : List Json} {node : Json} {fault : Fault}

theorem BreaksAt.of_outcomes
    (passed : ((passNodes header oracle (some node) false before).runOn (opening state)).1 = .ok false)
    (failed : ((topNode header oracle after.head? node).runOn
      ((passNodes header oracle (some node) false before).runOn (opening state)).2).1 = .error fault) :
    BreaksAt header oracle state before node after fault :=
  ⟨_, _, Prod.ext passed rfl, Prod.ext failed rfl⟩

theorem conclude_registry (session : Session σ) :
    ((conclude header).runOn session).2.registry = session.registry := by
  cases nothing : session.registry.waiting.isEmpty with
  | true =>
    obtain ⟨told, run⟩ := conclude_done header nothing
    rw [run]
  | false => rw [conclude_waits header nothing]

theorem remains_eq (nodes : List Json) :
    remains header oracle state nodes =
      ((topNodes header oracle false nodes).runOn (opening state)).2.registry := by
  obtain ⟨told, run⟩ := @resolve_told _ header oracle nodes state
  rw [remains, run, runOn_bind]
  generalize (topNodes header oracle false nodes).runOn (opening state) = ended
  obtain ⟨fault | passed, session⟩ := ended
  · rfl
  · exact conclude_registry session

theorem passNodes_answerable {next : Option Json} {done : Bool} {session : Session σ}
    (nameable : ∀ other ∈ nodes, Nameable other) (answerable : Answerable session.registry.waiting) :
    Gives (fun _ last => Answerable last.registry.waiting) (passNodes header oracle next done nodes)
      session := by
  refine (passNodes_chronicle done nodes).mono (fun _ _ ⟨_, told⟩ => ?_) fun _ _ _ => trivial
  refine told.runs.keeps (P := fun desk => Answerable desk.registry.waiting) (fun _ step fit kept => ?_)
    answerable
  cases step with
  | declare | wake => exact kept.erase _
  | defer registry tag name =>
    obtain ⟨other, member, _, -, fit⟩ := fit
    exact kept.defer tag (nameable other member fit.kind name fit.named)
  | mark _ _ same => exact same ▸ kept

/-- The nodes before a broken one leave what they leave on their own. -/
theorem BreaksAt.runs (breaks : BreaksAt header oracle state before node after fault) :
    ((resolve header oracle (before ++ node :: after)).runOn { oracle := state }).1 = .error fault ∧
    ∃ session left, (passNodes header oracle (some node) false before).runOn (opening state) =
        (.ok false, session) ∧
      (topNode header oracle after.head? node).runOn session = (.error fault, left) ∧
      remains header oracle state before = session.registry ∧
      remains header oracle state (before ++ node :: after) = left.registry := by
  obtain ⟨session, left, passed, failed⟩ := breaks
  have broken : (topNodes header oracle false (before ++ node :: after)).runOn (opening state) =
      (.error fault, left) := by
    rw [topNodes_append, List.head?_cons, runOn_bind, passed]
    dsimp only
    rw [topNodes, if_neg (by simp), runOn_bind, failed]
  have alone : (topNodes header oracle false before).runOn (opening state) = (.ok (), session) := by
    rw [topNodes_eq, runOn_bind, passNodes_alone passed]
    rfl
  refine ⟨?_, session, left, passed, failed, ?_, ?_⟩
  · rw [resolve_runOn, runOn_bind, broken]
  · rw [remains_eq, alone]
  · rw [remains_eq, broken]

/-- Where a row of nodes fails, one of its nodes does, after all nodes before it. -/
theorem passNodes_breaks {done : Bool} {session left : Session σ}
    (failed : (passNodes header oracle none done nodes).runOn session = (.error fault, left)) :
    ∃ before node after between, nodes = before ++ node :: after ∧
      (passNodes header oracle (some node) done before).runOn session = (.ok false, between) ∧
      (topNode header oracle after.head? node).runOn between = (.error fault, left) := by
  induction nodes generalizing done session with
  | nil => cases failed
  | cons first rest ih =>
    rw [passNodes, Option.or_none] at failed
    split at failed
    next passed =>
      obtain ⟨before, node, after, between, rfl, walked, broken⟩ := ih failed
      refine ⟨first :: before, node, after, between, rfl, ?_, broken⟩
      rwa [passNodes, if_pos passed]
    next open_ =>
      obtain rfl : done = false := by simpa using open_
      cases run : (topNode header oracle rest.head? first).runOn session with
      | mk outcome middle =>
      rw [runOn_bind, run] at failed
      cases outcome with
      | error fault => exact ⟨[], first, rest, session, rfl, rfl, run.trans failed⟩
      | ok passed =>
        obtain ⟨before, node, after, between, rfl, walked, broken⟩ := ih failed
        refine ⟨first :: before, node, after, between, rfl, ?_, broken⟩
        rw [List.head?_append, List.head?_cons] at run
        rwa [passNodes, if_neg open_, runOn_bind, run]

/-- A resolution that fails does so at one of its nodes, or after all of them for what still waits. -/
theorem resolve_eq_error
    (failed : ((resolve header oracle nodes).runOn { oracle := state }).1 = .error fault) :
    (∃ before node after, nodes = before ++ node :: after ∧
        BreaksAt header oracle state before node after fault) ∨
      (remains header oracle state nodes).waiting ≠ [] ∧
        (unresolved (remains header oracle state nodes) >>= Except.error) =
          (.error fault : Except Fault Graph) := by
  rw [remains_eq, topNodes_eq]
  rw [resolve_runOn, topNodes_eq, runOn_bind] at failed
  cases run : (passNodes header oracle none false nodes).runOn (opening state) with
  | mk outcome session =>
  rw [runOn_bind, run] at failed ⊢
  cases outcome with
  | error other =>
    obtain rfl := Except.error.inj failed
    obtain ⟨before, node, after, between, same, walked, broken⟩ := passNodes_breaks run
    exact .inl ⟨before, node, after, same, between, session, walked, broken⟩
  | ok done =>
    change ((conclude header).runOn session).1 = .error fault at failed
    change _ ∨ session.registry.waiting ≠ [] ∧
      (unresolved session.registry >>= Except.error) = .error fault
    cases nothing : session.registry.waiting.isEmpty with
    | true =>
      obtain ⟨told, ends⟩ := conclude_done header nothing
      rw [ends] at failed
      cases failed
    | false =>
      rw [conclude_waits header nothing] at failed
      exact .inr ⟨by simpa using nothing, failed⟩

theorem BreaksAt.answerable (breaks : BreaksAt header oracle state before node after fault)
    (nameable : ∀ other ∈ before, Nameable other) :
    Answerable (remains header oracle state before).waiting := by
  obtain ⟨-, session, left, passed, -, early, -⟩ := breaks.runs
  have fresh : Answerable (opening state).registry.waiting :=
    fun _ member => absurd member List.not_mem_nil
  rw [early]
  exact (passNodes_answerable nameable fresh).of_run passed

/-- A node that fails leaves what the nodes before it leave on their own, and then nothing but the named
records within it that were complete, with the typedefs that waited for them. No name is marked as a
pointer. What waits before the node has names that can be keys. -/
theorem broken_node_remains (breaks : BreaksAt header oracle state before node after fault)
    (answerable : Answerable (remains header oracle state before).waiting) :
    ((resolve header oracle (before ++ node :: after)).runOn { oracle := state }).1 = .error fault ∧
    (remains header oracle state (before ++ node :: after)).graph.pointers =
      (remains header oracle state before).graph.pointers ∧
    (remains header oracle state (before ++ node :: after)).graph.callbacks =
      (remains header oracle state before).graph.callbacks ∧
    ∃ events, Desk.Runs (Only (Hoists oracle after.head? node))
      { registry := remains header oracle state before } events
      { registry := remains header oracle state (before ++ node :: after) } := by
  obtain ⟨fails, session, left, passed, failed, early, late⟩ := breaks.runs
  rw [early] at answerable
  obtain ⟨events, run⟩ :
      Logged (Only (Hoists oracle after.head? node)) session.registry left.registry := by
    have confines := topNode_confines answerable header oracle after.head? node
    unfold Ends at confines
    rwa [failed] at confines
  rw [early, late]
  obtain ⟨pointers, callbacks⟩ := unmarked run
  exact ⟨fails, pointers, callbacks, events, run⟩

end

/-- A line with a point within and a field of a type that is not declared. The typedef of the point waits
for it. -/
theorem broken_node_remains_line :
    let header : Path := { parts := ["a.h"] }
    let oracle := answering outerAnswers
    let before := [typedefNode "dot" "struct point"]
    let line := recordNode "line" [recordNode "point" [fieldNode "x" "int"], fieldNode "end" "missing"]
    let fault := Fault.unknownName (.str "missing")
    BreaksAt header oracle () before line [] fault ∧
    Answerable (remains header oracle () before).waiting ∧
    (((resolve header oracle (before ++ [line])).runOn { oracle := () }).1 = .error fault ∧
      (remains header oracle () (before ++ [line])).graph.pointers =
        (remains header oracle () before).graph.pointers ∧
      (remains header oracle () (before ++ [line])).graph.callbacks =
        (remains header oracle () before).graph.callbacks ∧
      ∃ events, Desk.Runs (Only (Hoists oracle none line))
        { registry := remains header oracle () before } events
        { registry := remains header oracle () (before ++ [line]) }) ∧
    (remains header oracle () (before ++ [line])).graph.names =
      (remains header oracle () before).graph.names ++ [.str "point", .str "dot"] := by
  intro header oracle before line fault
  have nameable : ∀ other ∈ before, Nameable other := by
    intro other member _ name named
    obtain rfl := List.mem_singleton.mp member
    obtain rfl := Except.ok.inj named
    rfl
  have breaks : BreaksAt header oracle () before line [] fault :=
    .of_outcomes (by decide +kernel) (by decide +kernel)
  have answerable := breaks.answerable nameable
  exact ⟨breaks, answerable, broken_node_remains breaks answerable, by decide +kernel⟩

/-- A typedef without a name that can be a key waits for a record, and the record stays declared though
it is the one that fails. -/
theorem broken_node_unnameable :
    let header : Path := { parts := ["a.h"] }
    let oracle := answering outerAnswers
    let before : List Json := [.obj [("kind", .str "TypedefDecl"), ("name", .arr []),
      ("type", .obj [("qualType", .str "struct point")])]]
    let point := recordNode "point" []
    (∃ fault, BreaksAt header oracle () before point [] fault) ∧
      ¬ ∃ events, Desk.Runs (Only (Hoists oracle none point))
        { registry := remains header oracle () before } events
        { registry := remains header oracle () (before ++ [point]) } := by
  intro header oracle before point
  have missing : (remains header oracle () before).graph.has (.str "point") = false := by decide +kernel
  have present : (remains header oracle () (before ++ [point])).graph.has (.str "point") = true := by
    decide +kernel
  constructor
  · exact ⟨.mismatch "unhashable type: 'list'", .of_outcomes (by decide +kernel) (by decide +kernel)⟩
  rintro ⟨events, run⟩
  have nothing : ∀ graph name type, ¬ Hoists oracle none point graph name type := by
    rintro graph name type ⟨-, -, own, adopted, -, -, inner, member, -⟩
    cases member
  rw [nothing_of_none nothing run, missing] at present
  cases present

end NativeBindings.Resolve
