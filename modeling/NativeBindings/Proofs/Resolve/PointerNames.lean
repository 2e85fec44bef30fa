import NativeBindings.Proofs.Resolve.Adoption
import NativeBindings.Proofs.Resolve.BrokenNode

/-!
The names that are marked as pointers, beside the graph that they are about. A typedef of a pointer that
is resolved marks its name, and nothing ever takes a mark back. So the marks are the names that were
pointers once, and they are the names that are pointers now only while no such name is declared anew as
something else.
-/
namespace NativeBindings

namespace CType

/-- A pointer to data or to a function. -/
def isPointer : CType → Bool
  | pointer _ _ _ | callback _ _ _ _ => true
  | _ => false

def isCallback : CType → Bool
  | callback _ _ _ _ => true
  | _ => false

@[simp] theorem isPointer_numbered (serial : Nat) (type : CType) :
    (type.numbered serial).isPointer = type.isPointer := by
  unfold numbered
  split
  · rfl
  · cases type <;> rfl

@[simp] theorem isCallback_numbered (serial : Nat) (type : CType) :
    (type.numbered serial).isCallback = type.isCallback := by
  unfold numbered
  split
  · rfl
  · cases type <;> rfl

theorem isPointer_of_isCallback {type : CType} (callback : type.isCallback = true) :
    type.isPointer = true := by
  cases type <;> first | rfl | cases callback

end CType

namespace Graph

/-- The marks say what the names are now: those of pointers are marked, those of pointers to functions
twice, and no others. -/
structure Marked (graph : Graph) : Prop where
  pointers : ∀ name, graph.pointers.contains name = (graph.find? name).any CType.isPointer
  callbacks : ∀ name, graph.callbacks.contains name = (graph.find? name).any CType.isCallback

/-- Marks a name as a pointer, or as a pointer to a function. -/
def mark (graph : Graph) (name : Label) (isCallback : Bool) : Graph :=
  if isCallback then graph.addCallback name else graph.addPointer name

/-- No name is marked, and no name comes to be a pointer. -/
structure AddsNoPointer (before after : Graph) : Prop where
  pointers : after.pointers = before.pointers
  callbacks : after.callbacks = before.callbacks
  entries : ∀ name type, after.find? name = some type → type.isPointer = true →
    before.find? name = some type

section
variable {first second third graph : Graph} {name other : Label} {isCallback : Bool}

theorem find?_mark : (graph.mark name isCallback).find? other = graph.find? other := by
  cases isCallback <;> rfl

theorem contains_pointers_mark :
    (graph.mark name isCallback).pointers.contains other =
      (other == name || graph.pointers.contains other) := by
  cases isCallback <;> exact List.contains_insert

theorem contains_callbacks_mark : (graph.mark name isCallback).callbacks.contains other =
    (isCallback && other == name || graph.callbacks.contains other) := by
  cases isCallback with
  | false => rfl
  | true => exact List.contains_insert

theorem AddsNoPointer.refl (graph : Graph) : AddsNoPointer graph graph := ⟨rfl, rfl, fun _ _ found _ => found⟩

theorem AddsNoPointer.of_eq {before after : Graph} (same : after = before) : AddsNoPointer before after :=
  same ▸ .refl _

theorem AddsNoPointer.trans (left : AddsNoPointer first second) (right : AddsNoPointer second third) :
    AddsNoPointer first third where
  pointers := right.pointers.trans left.pointers
  callbacks := right.callbacks.trans left.callbacks
  entries name type found pointer := left.entries name type (right.entries name type found pointer) pointer

theorem addsNoPointer_enter {type : CType} (plain : type.isPointer = false) :
    AddsNoPointer graph (graph.enter (name, type)) := by
  refine ⟨rfl, rfl, fun other entry found pointer => ?_⟩
  cases same : name == other with
  | true =>
    rw [find?_enter_of_same same] at found
    obtain rfl := Option.some.inj found
    rw [CType.isPointer_numbered, plain] at pointer
    cases pointer
  | false => rwa [find?_enter_of_ne same] at found

/-- Where the marks are the names that were declared, and no pointer has another name, the marks say what the
names are just if what was declared still stands. -/
theorem marked_iff {declared : Label → Bool → Prop}
    (pointers : ∀ name, graph.pointers.contains name = true ↔
      ∃ own isCallback, declared own isCallback ∧ (name == own) = true)
    (callbacks : ∀ name, graph.callbacks.contains name = true ↔
      ∃ own, declared own true ∧ (name == own) = true)
    (entries : ∀ name type, graph.find? name = some type → type.isPointer = true →
      ∃ own, declared own type.isCallback ∧ (name == own) = true) :
    graph.Marked ↔ ∀ own isCallback, declared own isCallback →
      (graph.find? own).any CType.isPointer = true ∧
        (isCallback = true → (graph.find? own).any CType.isCallback = true) := by
  have entry {name own : Label} (same : (name == own) = true) : graph.find? name = graph.find? own :=
    Table.find?_congr same _
  refine ⟨fun marked own isCallback done => ⟨?_, ?_⟩, fun still => ⟨fun name => ?_, fun name => ?_⟩⟩
  · rw [← marked.pointers]
    exact (pointers own).mpr ⟨own, isCallback, done, BEq.rfl⟩
  · rintro rfl
    rw [← marked.callbacks]
    exact (callbacks own).mpr ⟨own, done, BEq.rfl⟩
  · rw [Bool.eq_iff_iff, pointers, Option.any_eq_true]
    constructor
    · rintro ⟨own, isCallback, done, same⟩
      rw [entry same, ← Option.any_eq_true]
      exact (still own isCallback done).1
    · rintro ⟨type, found, pointer⟩
      obtain ⟨own, done, same⟩ := entries name type found pointer
      exact ⟨own, _, done, same⟩
  · rw [Bool.eq_iff_iff, callbacks, Option.any_eq_true]
    constructor
    · rintro ⟨own, done, same⟩
      rw [entry same, ← Option.any_eq_true]
      exact (still own true done).2 rfl
    · rintro ⟨type, found, callback⟩
      obtain ⟨own, done, same⟩ := entries name type found (CType.isPointer_of_isCallback callback)
      rw [callback] at done
      exact ⟨own, done, same⟩

end

end Graph

namespace Resolve

open Json Act Outcome

/-! ### What acts mark -/

section
variable {σ : Type} {session : Session σ}

theorem paced_pointers : Paced (fun before after : Session σ => Graph.AddsNoPointer before.graph after.graph)
    fun before after => Graph.AddsNoPointer before.graph after.graph where
  still same _ := .of_eq (congrArg Registry.graph same)
  halts same _ := .of_eq (congrArg Registry.graph same)
  trans := .trans
  stops := .trans

/-- However an act ends, no name is marked by it, and none comes to be a pointer. -/
abbrev Unpointed {α : Type} (act : Resolving σ α) (session : Session σ) : Prop :=
  Moves (fun before after => Graph.AddsNoPointer before.graph after.graph)
    (fun before after => Graph.AddsNoPointer before.graph after.graph) act session

/-- Whatever is declared, the typedefs that wait for it come to be aliases. A registration that fails has
declared its name or not. -/
theorem registerWith_enters (fuel : Nat) (name : Label) (type : CType) :
    Ends (fun _ after => Graph.AddsNoPointer (session.graph.enter (name, type)) after.graph)
      (fun _ after => Graph.AddsNoPointer session.graph after.graph ∨
        Graph.AddsNoPointer (session.graph.enter (name, type)) after.graph)
      (registerWith fuel name type) session := by
  induction fuel generalizing session name type with
  | zero =>
    refine ends_lift_then (fun _ => .inl (.refl _)) fun key keyed => ?_
    obtain rfl := asKey_eq_ok keyed
    exact session.registry.declare_graph key type ▸ .refl _
  | succ fuel ih =>
    rw [registerWith_succ]
    refine ends_bind.mpr ?_
    unfold Ends
    cases keyed : name.asKey with
    | error fault =>
      rw [announce_unkeyed keyed]
      exact .inl (.refl _)
    | ok key =>
      obtain ⟨told, run⟩ := announce_runOn keyed type session
      rw [run]
      -- Between two waiters there are no more pointers than with the new entry alone.
      refine ends_bind.mpr (Ends.mono (ends_forM (P := fun before : Session σ =>
        Graph.AddsNoPointer (session.graph.enter (name, type)) before.graph) (.refl _)
        fun waiter _ before kept => ?_) (fun _ _ kept => kept) fun _ _ failed => .inr failed)
      have plain : Graph.AddsNoPointer before.graph
          (before.graph.enter (waiter, Registry.aliasOf waiter (type.numbered session.graph.issued))) :=
        Graph.addsNoPointer_enter rfl
      refine ends_bind.mpr ((ends_modify _).mpr (ends_bind.mpr ((ih waiter _).mono
        (fun _ _ entered => (kept.trans plain).trans entered) fun _ _ failed => ?_)))
      exact failed.elim kept.trans (kept.trans plain).trans

theorem register_enters (name : Label) (type : CType) :
    Ends (fun _ after => Graph.AddsNoPointer (session.graph.enter (name, type)) after.graph)
      (fun _ after => Graph.AddsNoPointer session.graph after.graph ∨
        Graph.AddsNoPointer (session.graph.enter (name, type)) after.graph)
      (register name type) session :=
  registerWith_enters _ name type

theorem register_unpointed {name : Label} {type : CType} (plain : type.isPointer = false) :
    Unpointed (register name type) session :=
  (register_enters name type).mono (fun _ _ entered => (Graph.addsNoPointer_enter plain).trans entered)
    fun _ _ failed => failed.elim id (Graph.addsNoPointer_enter plain).trans

section
variable (oracle : Layout.Oracle σ)

theorem recordWith_unpointed (fuel : Nat) (node : Json) (name layout : Label) :
    Unpointed (recordWith oracle fuel node name layout) session := by
  induction fuel generalizing node name layout session with
  | zero => exact paced_pointers.fault _
  | succ fuel ih =>
    refine paced_pointers.then (paced_pointers.ask_moves oracle _) fun size asked => ?_
    refine paced_pointers.lift_then fun inner _ => paced_pointers.lift_then fun nodes _ => ?_
    refine paced_pointers.then (paced_pointers.members_moves oracle name layout nodes
      fun node _ own _ between => ih node own _) fun fields between => ?_
    exact register_unpointed rfl

theorem topRecord_unpointed (following : Option Json) (node : Json) :
    Unpointed (topRecord oracle following node) session := by
  refine paced_pointers.lift_then fun named _ => ?_
  split
  · refine paced_pointers.lift_then fun tag _ => paced_pointers.lift_then fun told _ => ?_
    exact .refl _
  · refine paced_pointers.lift_then fun body _ => ?_
    dsimp only
    split
    · exact .refl _
    · exact paced_pointers.then (recordWith_unpointed oracle _ node _ _) fun _ _ => paced_pointers.value _

end

theorem topEnum_unpointed (following : Option Json) (node : Json) :
    Unpointed (topEnum following node) session := by
  refine paced_pointers.lift_then fun named found => ?_
  split
  · exact paced_pointers.lift_then fun told _ => .refl _
  next name adopted _ =>
    refine paced_pointers.lift_then fun inner _ => paced_pointers.lift_then fun nodes _ => ?_
    have constants : Unpointed (constants name (some 0) [] nodes) session :=
      (constants_still name (some 0) nodes).mono (fun _ _ same => .of_eq (congrArg Registry.graph same))
        fun _ _ same => .of_eq (congrArg Registry.graph same)
    have declares (fields : Table Label Constant) (between : Session σ) : Unpointed
        (register name (.enum { name, size := CType.enumSize } fields) >>= fun _ => pure adopted) between :=
      paced_pointers.then (register_unpointed rfl) fun _ _ => paced_pointers.value _
    unfold enum
    rw [bind_assoc]
    exact paced_pointers.then constants declares

theorem function_unpointed (node : Json) : Unpointed (function node) session := by
  refine paced_pointers.lift_then fun name _ => moves_graph_then ?_
  refine paced_pointers.lift_then fun type made => paced_pointers.lift_then fun variadic _ => ?_
  obtain ⟨result, parameters, rfl⟩ := signature_eq_ok made
  have registers (between : Session σ) : Unpointed (register name
      (.signature { name, size := CType.pointerSize } result parameters) >>= fun _ => pure ()) between :=
    paced_pointers.then (register_unpointed rfl) fun _ _ => paced_pointers.value _
  dsimp only
  split
  · exact registers _
  · exact registers session

theorem registerAlias_unpointed (name : Label) (target : CType) :
    Unpointed (registerAlias name target) session := by
  unfold registerAlias
  split
  · exact .refl _
  · exact paced_pointers.then (register_unpointed rfl) fun _ _ => paced_pointers.value _

theorem typedefOf_unpointed (name : Label) (spelling : String) :
    Unpointed (typedefOf name spelling) session := by
  refine moves_graph_then ?_
  split
  · exact registerAlias_unpointed name _
  · split
    · exact .refl _
    · exact .refl _
  · exact paced_pointers.fault _

end

/-! ### Typedefs of pointers -/

/-- Whether the type of a node is no other typedef. -/
def IsDirect (node : Json) : Prop :=
  ∃ type id, node.field "type" = .ok type ∧ (type.orElse (obj [])).field "typeAliasDeclId" = .ok id ∧
    id.holds = false

/-- A typedef node of a pointer under a name. It has a prototype, or it is spelled as a pointer. -/
inductive Points (node : Json) (name : Label) : Bool → Prop
  | callback {prototype : Json} (kind : node.field "kind" = .ok (.str "TypedefDecl"))
    (named : node.need "name" = .ok name) (direct : IsDirect node)
    (typed : prototype? node = .ok (some prototype)) : Points node name true
  | pointer {text base : String} {isConst : Bool} (kind : node.field "kind" = .ok (.str "TypedefDecl"))
    (named : node.need "name" = .ok name) (direct : IsDirect node) (untyped : prototype? node = .ok none)
    (spelled : spellingOf node = .ok (.str text))
    (parsed : Spelling.parse text = .ok (.pointer base isConst)) : Points node name false

section
variable {node : Json} {name own : Label} {isCallback other : Bool}

theorem Points.kind (points : Points node name isCallback) :
    node.field "kind" = .ok (.str "TypedefDecl") := by
  cases points <;> assumption

theorem Points.named (points : Points node name isCallback) : node.need "name" = .ok name := by
  cases points <;> assumption

theorem Points.direct (points : Points node name isCallback) : IsDirect node := by
  cases points <;> assumption

theorem Points.prototype (points : Points node name isCallback) :
    ∃ found, prototype? node = .ok found ∧ found.isSome = isCallback := by
  cases points with
  | callback _ _ _ typed => exact ⟨_, typed, rfl⟩
  | pointer _ _ _ untyped => exact ⟨_, untyped, rfl⟩

theorem Points.unique (points : Points node name isCallback) (points' : Points node own other) :
    own = name ∧ other = isCallback := by
  obtain ⟨found, typed, rfl⟩ := points.prototype
  obtain ⟨found', typed', rfl⟩ := points'.prototype
  obtain rfl := Except.ok.inj (typed'.symm.trans typed)
  exact ⟨Except.ok.inj (points'.named.symm.trans points.named), rfl⟩

end

/-- A pointer of a sort is declared under a name. -/
def Aims (name : Label) (isCallback : Bool) (before after : Graph) : Prop :=
  ∃ type : CType, type.isPointer = true ∧ type.isCallback = isCallback ∧
    Graph.AddsNoPointer (before.enter (name, type)) after

/-- How the marks and the pointers of a graph come from those of an earlier one. The names of some pointers
were declared and marked since, and some were declared only. -/
structure Records (marked unmarked : Label → Bool → Prop) (before after : Graph) : Prop where
  pointers : ∀ name, after.pointers.contains name = true ↔ before.pointers.contains name = true ∨
    ∃ own isCallback, marked own isCallback ∧ (name == own) = true
  callbacks : ∀ name, after.callbacks.contains name = true ↔ before.callbacks.contains name = true ∨
    ∃ own, marked own true ∧ (name == own) = true
  entries : ∀ name type, after.find? name = some type → type.isPointer = true →
    before.find? name = some type ∨
      ∃ own, (marked own type.isCallback ∨ unmarked own type.isCallback) ∧ (name == own) = true

section
variable {marked unmarked marked' unmarked' : Label → Bool → Prop} {first second third : Graph}
  {name : Label} {isCallback : Bool}

theorem Records.none (adds : Graph.AddsNoPointer first second)
    (nothing : ∀ own sort, ¬ marked own sort) : Records marked unmarked first second where
  pointers name := by simp [adds.pointers, nothing]
  callbacks name := by simp [adds.callbacks, nothing]
  entries name type found pointer := .inl (adds.entries name type found pointer)

theorem Aims.entries (aims : Aims name isCallback first second) {other : Label} {type : CType}
    (found : second.find? other = some type) (pointer : type.isPointer = true) :
    first.find? other = some type ∨ type.isCallback = isCallback ∧ (other == name) = true := by
  obtain ⟨declared, -, sort, adds⟩ := aims
  have entered := adds.entries other type found pointer
  cases same : name == other with
  | true =>
    rw [Graph.find?_enter_of_same same] at entered
    obtain rfl := Option.some.inj entered
    exact .inr ⟨by rw [CType.isCallback_numbered, sort], BEq.symm same⟩
  | false =>
    rw [Graph.find?_enter_of_ne same] at entered
    exact .inl entered

theorem Aims.pointers (aims : Aims name isCallback first second) : second.pointers = first.pointers := by
  obtain ⟨_, -, -, adds⟩ := aims
  exact adds.pointers

theorem Aims.callbacks (aims : Aims name isCallback first second) : second.callbacks = first.callbacks := by
  obtain ⟨_, -, -, adds⟩ := aims
  exact adds.callbacks

theorem Records.mark (aims : Aims name isCallback first second)
    (only : ∀ own sort, marked own sort ↔ own = name ∧ sort = isCallback) :
    Records marked unmarked first (second.mark name isCallback) where
  pointers other := by
    rw [Graph.contains_pointers_mark, aims.pointers, Bool.or_eq_true, or_comm]
    simp [only]
  callbacks other := by
    rw [Graph.contains_callbacks_mark, aims.callbacks, Bool.or_eq_true, or_comm]
    cases isCallback <;> simp [only]
  entries other type found pointer := by
    rw [Graph.find?_mark] at found
    refine (aims.entries found pointer).imp_right fun ⟨sort, same⟩ => ⟨name, .inl ?_, same⟩
    exact (only _ _).mpr ⟨rfl, sort⟩

theorem Records.halfway (aims : Aims name isCallback first second) (nothing : ∀ own sort, ¬ marked own sort)
    (half : unmarked name isCallback) : Records marked unmarked first second where
  pointers other := by simp [aims.pointers, nothing]
  callbacks other := by simp [aims.callbacks, nothing]
  entries other type found pointer :=
    (aims.entries found pointer).imp_right fun ⟨sort, same⟩ => ⟨name, .inr (sort ▸ half), same⟩

theorem Records.trans (left : Records marked unmarked first second)
    (right : Records marked' unmarked' second third) :
    Records (fun own sort => marked own sort ∨ marked' own sort)
      (fun own sort => unmarked own sort ∨ unmarked' own sort) first third where
  pointers name := by
    rw [right.pointers, left.pointers, or_assoc]
    simp only [or_and_right, exists_or]
  callbacks name := by
    rw [right.callbacks, left.callbacks, or_assoc]
    simp only [or_and_right, exists_or]
  entries name type found pointer := by
    rcases right.entries name type found pointer with found | ⟨own, late, same⟩
    · refine (left.entries name type found pointer).imp_right fun ⟨own, early, same⟩ => ⟨own, ?_, same⟩
      exact early.imp .inl .inl
    · exact .inr ⟨own, late.imp .inr .inr, same⟩

/-- Of the names without a mark some may be left out, and of the others nothing but what they are counts. -/
theorem Records.congr (records : Records marked unmarked first second)
    (same : ∀ own sort, marked own sort ↔ marked' own sort)
    (wider : ∀ own sort, unmarked own sort → unmarked' own sort) :
    Records marked' unmarked' first second where
  pointers name := by simp only [records.pointers, same]
  callbacks name := by simp only [records.callbacks, same]
  entries name type found pointer :=
    (records.entries name type found pointer).imp_right fun ⟨own, either, equal⟩ =>
      ⟨own, either.imp (same _ _).mp (wider _ _), equal⟩

end

/-! ### The marks of nodes -/

/-- No names. -/
abbrev nothing (_ : Label) (_ : Bool) : Prop := False

section
variable {σ : Type} {session : Session σ} {node : Json}

theorem ends_graph_then {α : Type} {good : α → Session σ → Prop} {bad : Fault → Session σ → Prop}
    {next : Graph → Resolving σ α} (rest : Ends good bad (next session.graph) session) :
    Ends good bad (graph >>= next) session := rest

/-- A pointer is declared and then marked, if its registration does not fail. -/
theorem register_records {name : Label} {type : CType} {isCallback : Bool} {change : Graph → Graph}
    (points : Points node name isCallback) (pointer : type.isPointer = true)
    (sort : type.isCallback = isCallback) (marks : ∀ graph, change graph = graph.mark name isCallback) :
    Ends (fun _ after => Records (Points node) nothing session.graph after.graph)
      (fun _ after => Records nothing (Points node) session.graph after.graph)
      (register name type >>= fun _ => changeGraph change) session := by
  refine ends_bind.mpr ((register_enters name type).mono (fun _ between entered => ?_) fun _ _ failed => ?_)
  · have aims : Aims name isCallback session.graph between.graph := ⟨type, pointer, sort, entered⟩
    have recorded : Records (Points node) nothing session.graph (between.graph.mark name isCallback) := by
      refine .mark aims fun own other => ⟨points.unique, ?_⟩
      rintro ⟨rfl, rfl⟩
      exact points
    rwa [← marks between.graph] at recorded
  · rcases failed with adds | entered
    · exact .none adds fun _ _ => id
    · exact .halfway ⟨type, pointer, sort, entered⟩ (fun _ _ => id) points

theorem Unpointed.records {act : Resolving σ Unit} (unpointed : Unpointed act session)
    (none : ∀ name isCallback, ¬ Points node name isCallback) :
    Ends (fun _ after => Records (Points node) nothing session.graph after.graph)
      (fun _ after => Records nothing (Points node) session.graph after.graph) act session :=
  unpointed.mono (fun _ _ adds => .none adds none) fun _ _ adds => .none adds fun _ _ => id

/-- A typedef of a pointer declares its name and marks it. Any other typedef does nothing of the kind. -/
theorem typedef_records (kind : node.field "kind" = .ok (.str "TypedefDecl")) :
    Ends (fun _ after => Records (Points node) nothing session.graph after.graph)
      (fun _ after => Records nothing (Points node) session.graph after.graph) (typedef node) session := by
  have still : Records nothing (Points node) session.graph session.graph := .none (.refl _) fun _ _ => id
  refine ends_lift_then (fun _ => still) fun name named => ?_
  refine ends_lift_then (fun _ => still) fun spelling spelled => ?_
  refine ends_lift_then (fun _ => still) fun type typed => ?_
  refine ends_lift_then (fun _ => still) fun id aliased => ?_
  cases holds : id.holds with
  | true =>
    refine Unpointed.records (moves_graph_then <| paced_pointers.lift_then fun text _ =>
      paced_pointers.lift_then fun target _ => registerAlias_unpointed name target) fun own sort points => ?_
    obtain ⟨other, found, typed', aliased', apart⟩ := points.direct
    obtain rfl := Except.ok.inj (typed'.symm.trans typed)
    obtain rfl := Except.ok.inj (aliased'.symm.trans aliased)
    rw [holds] at apart
    cases apart
  | false =>
    have direct : IsDirect node := ⟨type, id, typed, aliased, holds⟩
    refine ends_lift_then (fun _ => still) fun found prototyped => ?_
    cases found with
    | some prototype =>
      refine ends_graph_then <| ends_lift_then (fun _ => still) fun type made => ?_
      obtain ⟨result, parameters, rfl⟩ := callback_eq_ok made
      exact register_records (.callback kind named direct prototyped) rfl rfl fun _ => rfl
    | none =>
      refine ends_lift_then (fun _ => still) fun text shown => ?_
      refine ends_lift_then (fun _ => still) fun shape parsed => ?_
      obtain rfl := asText_eq_ok shown
      split
      next base isConst =>
        refine ends_graph_then <| ends_lift_then (fun _ => still) fun target _ => ?_
        exact register_records (.pointer kind named direct prototyped spelled parsed) rfl rfl fun _ => rfl
      next other =>
        refine Unpointed.records (typedefOf_unpointed name text) fun own sort points => ?_
        cases points with
        | callback _ _ _ typed => cases prototyped.symm.trans typed
        | pointer _ _ _ _ spelled' parsed' =>
          obtain ⟨⟩ := spelled'.symm.trans spelled
          exact other _ _ (Except.ok.inj (parsed.symm.trans parsed'))

/-- The name that a node marks once it is resolved: that of a typedef of a pointer that the filter keeps. -/
def Marks (header : Path) (session : Session σ) (node : Json) (name : Label) (isCallback : Bool) : Prop :=
  KeptIn header session node ∧ Points node name isCallback

theorem topNode_records (header : Path) (oracle : Layout.Oracle σ) (following : Option Json) (node : Json) :
    Ends (fun _ after => Records (Marks header session node) nothing session.graph after.graph)
      (fun _ after => Records nothing (Marks header session node) session.graph after.graph)
      (topNode header oracle following node) session := by
  refine ends_bind.mpr ((Ends.and (gives_run (isSkipped header node))
    (paced_same.isSkipped_moves header node)).mono ?_ fun _ after failed =>
      .none (.of_eq (congrArg Registry.graph failed.2.1)) fun _ _ => id)
  rintro skipped between ⟨ran, same, -⟩
  have graphs : between.graph = session.graph := congrArg Registry.graph same
  cases skipped with
  | true =>
    refine .none (.of_eq graphs) fun own sort ⟨⟨other, kept⟩, _⟩ => ?_
    cases ran.symm.trans kept
  | false =>
  have kept : KeptIn header session node := ⟨between, ran⟩
  have plain {act : Resolving σ Bool} (unpointed : Unpointed act between)
      (other : node.field "kind" ≠ .ok (.str "TypedefDecl")) :
      Ends (fun _ after => Records (Marks header session node) nothing session.graph after.graph)
        (fun _ after => Records nothing (Marks header session node) session.graph after.graph)
        act between := by
    refine unpointed.mono (fun _ _ adds => ?_) fun _ _ adds => ?_
    · exact .none (graphs ▸ adds) fun own sort marks => other marks.2.kind
    · exact .none (graphs ▸ adds) fun _ _ => id
  have still : Records nothing (Marks header session node) session.graph between.graph :=
    .none (.of_eq graphs) fun _ _ => id
  refine ends_lift_then (fun _ => still) fun kind known => ?_
  have isOther (apart : kind.isKind "TypedefDecl" = false) :
      node.field "kind" ≠ .ok (.str "TypedefDecl") := by
    rintro typedef
    obtain rfl := Except.ok.inj (typedef.symm.trans known)
    cases apart
  cases isEnum : kind.isKind "EnumDecl" with
  | true =>
    refine plain (topEnum_unpointed following node) fun typedef => ?_
    exact absurd (Except.ok.inj (typedef.symm.trans (kind_eq known isEnum))) (by decide)
  | false =>
  refine ends_lift_then (fun _ => still) fun among checked => ?_
  cases among with
  | true =>
    refine plain (topRecord_unpointed oracle following node) fun typedef => ?_
    obtain rfl := Except.ok.inj (typedef.symm.trans known)
    exact absurd checked (by decide)
  | false =>
  cases isTypedef : kind.isKind "TypedefDecl" with
  | true =>
    refine ends_bind.mpr ((typedef_records (kind_eq known isTypedef)).mono (fun _ after records => ?_)
      fun _ _ records => ?_)
    · rw [graphs] at records
      exact records.congr (fun _ _ => ⟨fun points => ⟨kept, points⟩, And.right⟩) fun _ _ => id
    · rw [graphs] at records
      exact records.congr (fun _ _ => .rfl) fun _ _ points => ⟨kept, points⟩
  | false =>
  cases kind.isKind "FunctionDecl" with
  | true =>
    exact plain (paced_pointers.then (function_unpointed node) fun _ _ => paced_pointers.value _)
      (isOther isTypedef)
  | false => exact plain (paced_pointers.lift_then fun name _ => .refl _) (isOther isTypedef)

end

/-! ### The marks of a resolution -/

section
variable {σ : Type} (header : Path) (oracle : Layout.Oracle σ) (next : Option Json)

/-- A run over a list of nodes, where another node may follow, comes to a node that marks a name, and what
it does with the node ends in some way. -/
def Comes (done : Bool) (start : Session σ) (nodes : List Json) (name : Label) (isCallback : Bool)
    (ending : Session σ → Except Fault Bool × Session σ → Prop) : Prop :=
  ∃ front node rest session, nodes = front ++ node :: rest ∧
    (passNodes header oracle (some node) done front).runOn start = (.ok false, session) ∧
    Marks header session node name isCallback ∧
    ending session ((topNode header oracle (rest.head?.or next) node).runOn session)

/-- A typedef of a pointer is resolved. -/
def Declared (done : Bool) (start : Session σ) (nodes : List Json) (name : Label) (isCallback : Bool) :
    Prop :=
  Comes header oracle next done start nodes name isCallback fun _ ended => Succeeds ended.1

/-- A typedef of a pointer fails though it has declared something. -/
def Interrupted (done : Bool) (start : Session σ) (nodes : List Json) (name : Label) (isCallback : Bool) :
    Prop :=
  Comes header oracle next done start nodes name isCallback fun before ended =>
    ¬ Succeeds ended.1 ∧ ended.2.registry ≠ before.registry

variable {header oracle next} {done : Bool} {start session : Session σ} {node : Json} {nodes rest : List Json}
  {name : Label} {isCallback : Bool} {ending : Session σ → Except Fault Bool × Session σ → Prop}

theorem not_comes_nil : ¬ Comes header oracle next done start [] name isCallback ending := by
  rintro ⟨front, node, rest, session, cut, -⟩
  cases front <;> cases cut

/-- A node that is done is passed over. -/
theorem comes_done : Comes header oracle next true start (node :: rest) name isCallback ending ↔
    Comes header oracle next false start rest name isCallback ending := by
  constructor
  · rintro ⟨front, own, others, session, cut, ran, ends⟩
    cases front with
    | nil => cases (Prod.mk.inj ran).1
    | cons first front =>
      obtain ⟨rfl, rfl⟩ := List.cons.inj cut
      exact ⟨front, own, others, session, rfl, ran, ends⟩
  · rintro ⟨front, own, others, session, rfl, ran, ends⟩
    exact ⟨node :: front, own, others, session, rfl, ran, ends⟩

theorem comes_cons : Comes header oracle next false start (node :: rest) name isCallback ending ↔
    Marks header start node name isCallback ∧
        ending start ((topNode header oracle (rest.head?.or next) node).runOn start) ∨
      ∃ passed between,
        (topNode header oracle (rest.head?.or next) node).runOn start = (.ok passed, between) ∧
        Comes header oracle next passed between rest name isCallback ending := by
  have following (front : List Json) (own : Json) (others : List Json) :
      (front ++ own :: others).head?.or next = front.head?.or (some own) := by cases front <;> rfl
  constructor
  · rintro ⟨front, own, others, session, cut, ran, ends⟩
    cases front with
    | nil =>
      obtain ⟨rfl, rfl⟩ := List.cons.inj cut
      obtain ⟨-, rfl⟩ := Prod.mk.inj ran
      exact .inl ends
    | cons first front =>
      rw [List.cons_append] at cut
      obtain ⟨rfl, rfl⟩ := List.cons.inj cut
      rw [passNodes, if_neg (by simp), runOn_bind] at ran
      rw [following]
      cases run : (topNode header oracle (front.head?.or (some own)) node).runOn start with
      | mk outcome between =>
      rw [run] at ran
      cases outcome with
      | error fault => cases (Prod.mk.inj ran).1
      | ok passed => exact .inr ⟨passed, between, rfl, front, own, others, session, rfl, ran, ends⟩
  · rintro (ends | ⟨passed, between, run, front, own, others, session, rfl, ran, ends⟩)
    · exact ⟨[], node, rest, start, rfl, rfl, ends⟩
    · refine ⟨node :: front, own, others, session, rfl, ?_, ends⟩
      rw [following] at run
      rw [passNodes, if_neg (by simp), runOn_bind, run]
      exact ran

theorem comes_cons_ok {passed : Bool}
    (run : (topNode header oracle (rest.head?.or next) node).runOn start = (.ok passed, session)) :
    Comes header oracle next false start (node :: rest) name isCallback ending ↔
      Marks header start node name isCallback ∧ ending start (.ok passed, session) ∨
        Comes header oracle next passed session rest name isCallback ending := by
  rw [comes_cons, run]
  refine or_congr_right ⟨?_, fun comes => ⟨passed, session, rfl, comes⟩⟩
  rintro ⟨_, _, ⟨⟩, comes⟩
  exact comes

theorem comes_cons_error {fault : Fault}
    (run : (topNode header oracle (rest.head?.or next) node).runOn start = (.error fault, session)) :
    Comes header oracle next false start (node :: rest) name isCallback ending ↔
      Marks header start node name isCallback ∧ ending start (.error fault, session) := by
  rw [comes_cons, run]
  refine or_iff_left ?_
  rintro ⟨_, _, ⟨⟩, -⟩

/-- However a run over a list of nodes ends, the names of the typedefs of pointers that were resolved on the
way are marked and no others, and only these and one that was interrupted came to be pointers. -/
theorem passNodes_records :
    Records (Declared header oracle next done session nodes)
      (Interrupted header oracle next done session nodes) session.graph
      ((passNodes header oracle next done nodes).runOn session).2.graph := by
  induction nodes generalizing done session with
  | nil => exact .none (.refl _) fun _ _ => not_comes_nil
  | cons node rest ih =>
    rw [passNodes]
    cases done with
    | true => exact ih.congr (fun _ _ => comes_done.symm) fun _ _ => comes_done.mpr
    | false =>
    have ends := @topNode_records _ session header oracle (rest.head?.or next) node
    rw [if_neg (by simp), runOn_bind]
    unfold Ends at ends
    cases run : (topNode header oracle (rest.head?.or next) node).runOn session with
    | mk outcome between =>
    rw [run] at ends
    cases outcome with
    | error fault =>
      have failed : ¬ Succeeds (.error fault : Except Fault Bool) := not_succeeds_error fault
      have undeclared (own : Label) (sort : Bool) :
          ¬ Declared header oracle next false session (node :: rest) own sort := fun declared =>
        failed ((comes_cons_error run).mp declared).2
      -- A node that failed has interrupted a declaration only if it changed the registry.
      by_cases same : between.registry = session.registry
      · exact .none (.of_eq (congrArg Registry.graph same)) undeclared
      · exact ends.congr (fun own sort => ⟨False.elim, undeclared own sort⟩) fun own sort marks =>
          (comes_cons_error run).mpr ⟨marks, failed, same⟩
    | ok passed =>
      have succeeds : Succeeds (.ok passed : Except Fault Bool) := ⟨passed, rfl⟩
      refine (ends.trans ih).congr (fun own sort => ?_) fun own sort late => ?_
      · exact ((comes_cons_ok run).trans (or_congr_left (and_iff_left succeeds))).symm
      · exact (comes_cons_ok run).mpr (.inr (late.resolve_left id))

/-- A run that succeeds is not interrupted. -/
theorem Interrupted.fails (interrupted : Interrupted header oracle next done session nodes name isCallback) :
    ¬ Succeeds ((passNodes header oracle next done nodes).runOn session).1 := by
  induction nodes generalizing done session with
  | nil => exact absurd interrupted not_comes_nil
  | cons node rest ih =>
    rw [passNodes]
    cases done with
    | true => exact ih (comes_done.mp interrupted)
    | false =>
    rw [if_neg (by simp), runOn_bind]
    cases run : (topNode header oracle (rest.head?.or next) node).runOn session with
    | mk outcome between =>
    cases outcome with
    | error fault => exact not_succeeds_error fault
    | ok passed =>
      refine ih (((comes_cons_ok run).mp interrupted).resolve_left ?_)
      rintro ⟨-, fails, -⟩
      exact fails ⟨passed, rfl⟩

/-- Where the names of typedefs can be keys, a typedef fails before it declares anything. -/
theorem not_interrupted {state : σ} (nameable : ∀ node ∈ nodes, Nameable node) :
    ¬ Interrupted header oracle next false (opening state) nodes name isCallback := by
  rintro ⟨front, node, rest, between, rfl, ran, ⟨-, points⟩, fails, changed⟩
  have fresh : Answerable (opening state).registry.waiting := fun _ member => absurd member List.not_mem_nil
  have early : ∀ other ∈ front, Nameable other := fun other member =>
    nameable other (List.mem_append_left _ member)
  have answerable : Answerable between.registry.waiting := (passNodes_answerable early fresh).of_run ran
  have confines := topNode_confines answerable header oracle (rest.head?.or next) node
  unfold Ends at confines
  cases run : (topNode header oracle (rest.head?.or next) node).runOn between with
  | mk outcome left =>
  rw [run] at confines fails changed
  cases outcome with
  | ok passed => exact fails ⟨passed, rfl⟩
  | error fault =>
    obtain ⟨events, told⟩ := confines
    have plain : isRecord node = false := isRecord_eq points.kind (by decide)
    refine changed (nothing_of_none (fun graph own type hoists => ?_) told)
    rw [hoists.1] at plain
    cases plain

theorem opening_unpointed (state : σ) (name : Label) (type : CType)
    (found : (opening state).graph.find? name = some type) : type.isPointer = false := by
  have seeds : ((Seed.sow {}).declarations.all fun entry => !entry.2.isPointer) = true := by decide +kernel
  obtain ⟨own, -, member⟩ := Table.mem_of_find? found
  simpa using List.all_eq_true.mp seeds _ member

end

section
variable {σ : Type} (header : Path) (oracle : Layout.Oracle σ) (state : σ) (next : Option Json)
  (nodes : List Json)

theorem remains_eq_passNodes : remains header oracle state nodes =
    ((passNodes header oracle none false nodes).runOn (opening state)).2.registry := by
  rw [remains_eq, topNodes_eq, runOn_bind]
  generalize (passNodes header oracle none false nodes).runOn (opening state) = ended
  obtain ⟨fault | done, after⟩ := ended
  · rfl
  · rfl

/-- After some nodes, whatever follows, or where one of them failed, the marked names are those of the
typedefs of pointers that were resolved so far. What is a pointer was declared by one of these, or by one that
failed half-way, for what waited for it cannot be a key. Else the marks say what the names are just if every
name that was a pointer, or one to a function, still is. -/
theorem pointer_names_declared :
    let run := (passNodes header oracle next false nodes).runOn (opening state)
    let declared := Declared header oracle next false (opening state) nodes
    let interrupted := Interrupted header oracle next false (opening state) nodes
    (next = none → remains header oracle state nodes = run.2.registry) ∧
    (∀ name, run.2.graph.pointers.contains name = true ↔
      ∃ own isCallback, declared own isCallback ∧ (name == own) = true) ∧
    (∀ name, run.2.graph.callbacks.contains name = true ↔ ∃ own, declared own true ∧ (name == own) = true) ∧
    (∀ name type, run.2.graph.find? name = some type → type.isPointer = true →
      ∃ own, (declared own type.isCallback ∨ interrupted own type.isCallback) ∧ (name == own) = true) ∧
    (Succeeds run.1 ∨ (∀ node ∈ nodes, Nameable node) →
      (∀ own isCallback, ¬ interrupted own isCallback) ∧
        (run.2.graph.Marked ↔ ∀ own isCallback, declared own isCallback →
          (run.2.graph.find? own).any CType.isPointer = true ∧
            (isCallback = true → (run.2.graph.find? own).any CType.isCallback = true))) := by
  intro run declared interrupted
  have records : Records declared interrupted (opening state).graph run.2.graph := passNodes_records
  have pointers : ∀ name, run.2.graph.pointers.contains name = true ↔
      ∃ own isCallback, declared own isCallback ∧ (name == own) = true := fun name =>
    (records.pointers name).trans (or_iff_right nofun)
  have callbacks : ∀ name, run.2.graph.callbacks.contains name = true ↔
      ∃ own, declared own true ∧ (name == own) = true := fun name =>
    (records.callbacks name).trans (or_iff_right nofun)
  have entries : ∀ name type, run.2.graph.find? name = some type → type.isPointer = true →
      ∃ own, (declared own type.isCallback ∨ interrupted own type.isCallback) ∧ (name == own) = true := by
    intro name type found pointer
    refine (records.entries name type found pointer).resolve_left fun early => ?_
    rw [opening_unpointed state name type early] at pointer
    cases pointer
  refine ⟨?_, pointers, callbacks, entries, fun fine => ?_⟩
  · rintro rfl
    exact remains_eq_passNodes header oracle state nodes
  have smooth : ∀ own isCallback, ¬ interrupted own isCallback := fun own isCallback broken =>
    fine.elim broken.fails fun nameable => not_interrupted nameable broken
  refine ⟨smooth, Graph.marked_iff pointers callbacks fun name type found pointer => ?_⟩
  obtain ⟨own, either, same⟩ := entries name type found pointer
  exact ⟨own, either.resolve_right (smooth own _), same⟩

end

/-- A typedef of a pointer, and a record of another name. -/
theorem pointer_names_declared_ticks :
    let run := (passNodes { parts := ["a.h"] } (answering outerAnswers) none false
      [typedefNode "ticks" "int *", recordNode "point" [fieldNode "x" "int"]]).runOn (opening ())
    Succeeds run.1 ∧ run.2.graph.pointers = [.str "ticks"] ∧ run.2.graph.Marked := by
  have fine : let run := (passNodes { parts := ["a.h"] } (answering outerAnswers) none false
        [typedefNode "ticks" "int *", recordNode "point" [fieldNode "x" "int"]]).runOn (opening ())
      run.1.isOk = true ∧ run.2.graph.pointers = [.str "ticks"] ∧ run.2.graph.callbacks = [] ∧
        (run.2.graph.find? (.str "ticks")).any CType.isPointer = true := by
    decide +kernel
  have told := pointer_names_declared { parts := ["a.h"] } (answering outerAnswers) () none
    [typedefNode "ticks" "int *", recordNode "point" [fieldNode "x" "int"]]
  dsimp only at told fine ⊢
  -- What was run is of no concern any more, and unfolding it would take long.
  generalize Declared { parts := ["a.h"] } (answering outerAnswers) none false (opening ())
    [typedefNode "ticks" "int *", recordNode "point" [fieldNode "x" "int"]] = declared at told
  generalize (passNodes { parts := ["a.h"] } (answering outerAnswers) none false
    [typedefNode "ticks" "int *", recordNode "point" [fieldNode "x" "int"]]).runOn (opening ()) = run
    at told fine ⊢
  obtain ⟨-, pointers, callbacks, -, whole⟩ := told
  obtain ⟨isOk, only, none, entry⟩ := fine
  have succeeds : Succeeds run.1 := by
    cases outcome : run.1 with
    | ok done => exact ⟨done, rfl⟩
    | error fault =>
      rw [outcome] at isOk
      cases isOk
  refine ⟨succeeds, only, (whole (.inl succeeds)).2.mpr fun own isCallback declared => ?_⟩
  constructor
  · have marked := (pointers own).mpr ⟨own, isCallback, declared, BEq.rfl⟩
    rw [only] at marked
    obtain rfl : own = .str "ticks" := by simpa [beq_str_iff] using marked
    exact entry
  · rintro rfl
    have marked := (callbacks own).mpr ⟨own, declared, BEq.rfl⟩
    rw [none] at marked
    cases marked

/-- A struct takes the name of a pointer, and the name stays marked. -/
theorem pointer_names_stale :
    ∃ graph, ((resolve { parts := ["a.h"] } (answering outerAnswers) [typedefNode "point" "int *",
        recordNode "point" [fieldNode "x" "int"]]).runOn { oracle := () }).1 = .ok graph ∧
      graph.pointers = [.str "point"] ∧ (graph.find? (.str "point")).map CType.kind = some "struct" ∧
      ¬ graph.Marked := by
  have fine : ((resolve { parts := ["a.h"] } (answering outerAnswers) [typedefNode "point" "int *",
      recordNode "point" [fieldNode "x" "int"]]).runOn { oracle := () }).1.toOption.any (fun graph =>
        decide (graph.pointers = [.str "point"] ∧
          (graph.find? (.str "point")).map CType.kind = some "struct" ∧
            (graph.find? (.str "point")).any CType.isPointer = false)) = true := by
    decide +kernel
  obtain ⟨graph, resolved, holds⟩ := (Option.any_eq_true _ _).mp fine
  obtain ⟨pointers, kind, plain⟩ := of_decide_eq_true holds
  refine ⟨graph, toOption_eq_some.mp resolved, pointers, kind, fun marked => ?_⟩
  have pointer := marked.pointers (.str "point")
  rw [pointers, plain] at pointer
  cases pointer

end Resolve

end NativeBindings
