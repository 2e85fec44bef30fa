import NativeBindings.Proofs.Act
import NativeBindings.Proofs.Resolve.Lookup
import NativeBindings.Resolve.Unit

/-!
What a resolution does, turn by turn: it asks the oracle, declares a type or marks a name as a pointer.
Every resolution, whether it succeeds or not, is such a history, and whatever it declares is made of
what it found in the graphs before and of what the oracle answered.
-/
namespace NativeBindings

/-- Declares a name last; an older declaration of it is given up. -/
def Graph.enter (graph : Graph) (entry : Label × CType) : Graph :=
  (graph.remove entry.1).assign entry.1 entry.2

namespace Resolve

open Json Act Outcome

/-- The graph of a session. -/
abbrev Session.graph {σ : Type} (session : Session σ) : Graph := session.registry.graph

/-- What a resolution does at a time. -/
inductive Turn where
  | asked (query : Layout.Query) (answer : Except Fault Amount)
  | sown (name : Label) (type : CType)
  | declared (name : Label) (type : CType)
  | marked (pointers callbacks : List Label)

/-- What a turn makes of a graph. -/
def Turn.apply (graph : Graph) : Turn → Graph
  | asked _ _ => graph
  | sown name type => graph.assign name type
  | declared name type => graph.enter (name, type)
  | marked pointers callbacks => { graph with pointers, callbacks }

/-- A graph after some turns. -/
def replay (base : Graph) (turns : List Turn) : Graph := turns.foldl Turn.apply base

theorem replay_concat (base : Graph) (turns : List Turn) (turn : Turn) :
    replay base (turns ++ [turn]) = turn.apply (replay base turns) := by
  rw [replay, List.foldl_append]
  rfl

/-- Whether a record goes by a name where it is asked for: its own, or that behind the name of the record
around it. -/
def Lays (layout name : Label) : Prop :=
  layout = name ∨ ∃ outer, layout = .str (outer ++ "::" ++ name.plain)

/-- A type that was found in the graph at some time. -/
def Seen (base : Graph) (done : List Turn) (type : CType) : Prop :=
  ∃ early, early <+: done ∧ Found (replay base early) type

/-- A field that is made of what was found. The type of a field may be an unnamed union besides. -/
structure Formed (base : Graph) (done : List Turn) (field : Field CType) : Prop where
  size : field.size = field.type.size
  type : Seen base done field.type ∨ ∃ size variants,
    field.type = .union { name := .null, size } variants ∧
    ∀ variant ∈ variants, variant.size = variant.type.size ∧ Seen base done variant.type

/-- What can be declared under a name after some turns. -/
inductive Justified (base : Graph) (done : List Turn) (name : Label) : CType → Prop
  | builtin (size : Amount) (carrier : Carrier) : Justified base done name (.builtin { name, size } carrier)
  | enum {constants : Table Label Constant}
    (keyed : ∀ constant ∈ constants, constant.1.asKey = .ok constant.1) :
    Justified base done name (.enum { name, size := CType.enumSize } constants)
  | record {layout : Label} {size : Amount} {fields : List (Field CType)} (lays : Lays layout name)
    (answered : .asked (.sizeOf layout) (.ok size) ∈ done)
    (formed : ∀ field ∈ fields, Formed base done field) :
    Justified base done name (.record { name, size } fields)
  | synonym {target : CType} (seen : Seen base done target) (transparent : Bool) :
    Justified base done name (.synonym { name, size := target.size } target transparent)
  | pointer {pointee : Option CType} (seen : ∀ target, pointee = some target → Seen base done target)
    (isConst : Bool) :
    Justified base done name (.pointer { name, size := CType.pointerSize } pointee isConst)
  | signature {result : CType} {parameters : List (Parameter CType)} (returns : Seen base done result)
    (takes : ∀ parameter ∈ parameters, Seen base done parameter.type) :
    Justified base done name (.signature { name, size := CType.pointerSize } result parameters)
  | callback {result : CType} {parameters : List (Parameter CType)} (returns : Seen base done result)
    (takes : ∀ parameter ∈ parameters, Seen base done parameter.type) :
    Justified base done name (.callback { name, size := CType.pointerSize }
      { name, size := CType.pointerSize } result parameters)

/-- Where a resolution sets out: an oracle in a state, and a graph. -/
structure Outset (σ : Type) where
  oracle : Layout.Oracle σ
  state : σ
  graph : Graph := {}

/-- The turns of a resolution, and how it leaves the oracle. -/
inductive History {σ : Type} (outset : Outset σ) : List Turn → σ → Prop
  | nil : History outset [] outset.state
  | asked {done : List Turn} {now : σ} (past : History outset done now) (query : Layout.Query) :
    History outset (done ++ [.asked query (outset.oracle query now).1]) (outset.oracle query now).2.2
  | sown {done : List Turn} {now : σ} {name : Label} {type : CType} (past : History outset done now)
    (keyed : name.asKey = .ok name) (justified : Justified outset.graph done name type) :
    History outset (done ++ [.sown name type]) now
  | declared {done : List Turn} {now : σ} {name : Label} {type : CType}
    (past : History outset done now) (keyed : name.asKey = .ok name)
    (justified : Justified outset.graph done name type) : History outset (done ++ [.declared name type]) now
  | marked {done : List Turn} {now : σ} (past : History outset done now)
    (pointers callbacks : List Label) : History outset (done ++ [.marked pointers callbacks]) now

section
variable {base : Graph} {done : List Turn} {name : Label} {type : CType} {field : Field CType}

theorem Seen.later (seen : Seen base done type) (more : List Turn) : Seen base (done ++ more) type := by
  obtain ⟨early, before, found⟩ := seen
  exact ⟨early, before.trans (List.prefix_append ..), found⟩

theorem Found.seen (found : Found (replay base done) type) : Seen base done type :=
  ⟨done, List.prefix_refl _, found⟩

theorem Formed.later (formed : Formed base done field) (more : List Turn) :
    Formed base (done ++ more) field where
  size := formed.size
  type := by
    refine formed.type.imp (·.later more) ?_
    rintro ⟨size, variants, same, inside⟩
    refine ⟨size, variants, same, fun variant member => ?_⟩
    exact ⟨(inside variant member).1, (inside variant member).2.later more⟩

end

/-! ### The turns of an act -/

section
variable {σ α β : Type} (outset : Outset σ)

/-- A session after some turns. -/
structure Recounts (done : List Turn) (session : Session σ) : Prop where
  history : History outset done session.oracle
  graph : session.graph = replay outset.graph done

/-- However an act ends, some more turns were done, and a result is as it should be after them. -/
def Follows (value : List Turn → α → Prop) (act : Resolving σ α) (done : List Turn)
    (session : Session σ) : Prop :=
  Recounts outset done session →
    Ends (fun result after => ∃ more, Recounts outset (done ++ more) after ∧ value (done ++ more) result)
      (fun _ after => ∃ more, Recounts outset (done ++ more) after) act session

/-- An act of whose result nothing is said. -/
abbrev Goes (act : Resolving σ α) (done : List Turn) (session : Session σ) : Prop :=
  Follows outset (fun _ _ => True) act done session

variable {outset} {value : List Turn → α → Prop} {done : List Turn} {session : Session σ}

theorem Follows.then {first : List Turn → β → Prop} {act : Resolving σ β}
    {next : β → Resolving σ α}
    (follows : Follows outset first act done session)
    (rest : ∀ result more after, first (done ++ more) result →
      Follows outset value (next result) (done ++ more) after) :
    Follows outset value (act >>= next) done session := by
  intro tells
  refine ends_bind.mpr ((follows tells).mono ?_ fun _ _ ends => ends)
  rintro result after ⟨more, told, right⟩
  refine (rest result more after right told).mono ?_ ?_
  · rintro last final ⟨others, told, right⟩
    rw [List.append_assoc] at told right
    exact ⟨more ++ others, told, right⟩
  · rintro fault final ⟨others, told⟩
    rw [List.append_assoc] at told
    exact ⟨more ++ others, told⟩

theorem follows_pure {result : α} (right : value done result) :
    Follows outset value (pure result) done session := by
  intro tells
  refine ⟨[], ?_, ?_⟩
  · rwa [List.append_nil]
  · rwa [List.append_nil]

theorem goes_pure (result : α) : Goes outset (pure result) done session := follows_pure trivial

theorem follows_throw (fault : Fault) :
    Follows outset value (throw fault : Resolving σ α) done session :=
  fun tells => ⟨[], (List.append_nil done).symm ▸ tells⟩

theorem follows_throw_then {fault : Fault} {next : β → Resolving σ α} :
    Follows outset value ((throw fault : Resolving σ β) >>= next) done session :=
  fun tells => ⟨[], (List.append_nil done).symm ▸ tells⟩

theorem follows_lift_then {outcome : Except Fault β} {next : β → Resolving σ α}
    (rest : ∀ result, outcome = .ok result → Follows outset value (next result) done session) :
    Follows outset value (liftM outcome >>= next) done session := by
  intro tells
  rw [ends_bind, ends_lift]
  refine ⟨fun result same => rest result same tells, fun _ _ => ?_⟩
  exact ⟨[], (List.append_nil done).symm ▸ tells⟩

theorem follows_get_then {next : Session σ → Resolving σ α}
    (rest : Follows outset value (next session) done session) :
    Follows outset value (get >>= next) done session := rest

/-- What an act finds in the graph, it finds in the one that was replayed. -/
theorem follows_graph_then {next : Graph → Resolving σ α}
    (rest : Follows outset value (next (replay outset.graph done)) done session) :
    Follows outset value (graph >>= next) done session := by
  intro tells
  have same := rest tells
  rw [← tells.graph] at same
  exact same

/-- A change beside the graph and the oracle. -/
theorem goes_modify {change : Session σ → Session σ} (graph : (change session).graph = session.graph)
    (asked : (change session).oracle = session.oracle) :
    Goes outset (modify change : Resolving σ Unit) done session := by
  intro tells
  rw [ends_modify]
  refine ⟨[], ?_, trivial⟩
  rw [List.append_nil]
  exact ⟨asked.symm ▸ tells.history, graph.trans tells.graph⟩

theorem goes_note (journal : Journal) : Goes outset (note journal) done session := goes_modify rfl rfl

theorem follows_note_then {journal : Journal} {next : Unit → Resolving σ α}
    (rest : Follows outset value (next ()) done (Noting.tell journal session)) :
    Follows outset value (note journal >>= next) done session :=
  fun tells => rest ⟨tells.history, tells.graph⟩

theorem ask_follows (query : Layout.Query) :
    Follows outset (fun turns answer => .asked query (.ok answer) ∈ turns) (ask outset.oracle query) done
      session := by
  intro tells
  have asked := tells.history.asked query
  have unchanged : session.graph = replay outset.graph
      (done ++ [.asked query (outset.oracle query session.oracle).1]) := by
    rw [replay_concat]
    exact tells.graph
  rw [ask, ends_ofRun]
  dsimp only
  split
  next answer after same =>
    obtain ⟨answered, rfl⟩ := Prod.mk.inj same
    exact ⟨_, ⟨asked, unchanged⟩, by rw [answered]; simp⟩
  next fault after same =>
    obtain ⟨-, rfl⟩ := Prod.mk.inj same
    exact ⟨_, asked, unchanged⟩

theorem goes_forM {items : List β} {step : β → Resolving σ Unit}
    (steps : ∀ item ∈ items, ∀ more after, Goes outset (step item) (done ++ more) after) :
    Goes outset (items.forM step) done session := by
  induction items generalizing done session with
  | nil => exact goes_pure ()
  | cons item rest ih =>
    have first := steps item List.mem_cons_self [] session
    rw [List.append_nil] at first
    have walk : Goes outset (step item >>= fun _ => rest.forM step) done session := by
      refine first.then fun _ more after _ => ih fun other member others later => ?_
      rw [List.append_assoc]
      exact steps other (List.mem_cons_of_mem _ member) _ later
    exact walk

theorem asKey_eq_ok {name key : Label} (done : name.asKey = .ok key) : key = name := by
  unfold asKey at done
  split at done
  · cases done
  · cases done
  · exact (Except.ok.inj done).symm

theorem Registry.declare_graph (registry : Registry) (name : Label) (type : CType) :
    (registry.declare name type).1.graph = registry.graph.enter (name, type) := by
  unfold Registry.declare Graph.enter
  split
  next => rfl
  next absent =>
    have same : registry.graph.remove name = registry.graph := by
      have kept : Table.erase name registry.graph.declarations = registry.graph.declarations :=
        Table.erase_of_absent absent
      rw [Graph.remove, kept]
    rw [same]

theorem declarations_enter (graph : Graph) (name : Label) (type : CType) :
    (graph.enter (name, type)).declarations =
      Table.erase name graph.declarations ++ [(name, type.numbered graph.issued)] := by
  have absent : Table.has name (Table.erase name graph.declarations) = false := by
    rw [Table.has, Table.find?_erase_self]
    rfl
  exact Table.insert_of_absent absent

/-- A declared type is in the graph under its name. -/
theorem mem_enter (graph : Graph) (name : Label) (type : CType) :
    (name, type.numbered graph.issued) ∈ (graph.enter (name, type)).declarations := by
  rw [declarations_enter]
  exact List.mem_append_right _ List.mem_cons_self

theorem declare_follows {name : Label} {type : CType} (justified : Justified outset.graph done name type) :
    Follows outset (Seen outset.graph) (declare name type) done session := by
  refine follows_lift_then fun key keyed => ?_
  obtain rfl := asKey_eq_ok keyed
  intro tells
  have declared := session.registry.declare_graph key type
  rw [show session.registry.graph = replay outset.graph done from tells.graph] at declared
  have entered := (replay_concat outset.graph done (.declared key type)).symm
  refine ⟨_, ⟨tells.history.declared keyed justified, declared.trans entered⟩, ?_⟩
  refine Found.seen (@Found.node _ key _ ?_)
  rw [← entered, Registry.numbered, show session.registry.graph = replay outset.graph done from tells.graph]
  exact mem_enter _ _ _

theorem registerWith_follows {fuel : Nat} {name : Label} {type : CType}
    (justified : Justified outset.graph done name type) :
    Follows outset (Seen outset.graph) (registerWith fuel name type) done session := by
  induction fuel generalizing done session name type with
  | zero => exact declare_follows justified
  | succ fuel ih =>
    refine (declare_follows justified).then fun item more after seen => ?_
    have release : Goes outset (modifyGet fun session : Session σ =>
        ((session.registry.release name).1,
          { session with registry := (session.registry.release name).2 })) (done ++ more) after :=
      fun tells =>
      ⟨[], (List.append_nil (done ++ more)).symm ▸ ⟨tells.history, tells.graph⟩, trivial⟩
    refine release.then fun waiters others released _ => ?_
    have here := seen.later others
    -- Each of the waiting typedefs becomes an alias of the node that was declared.
    refine Follows.then (goes_forM fun waiter _ further before => ?_) fun _ last final _ =>
      follows_pure (here.later last)
    refine follows_note_then (Follows.then (ih ?_) fun _ _ _ _ => goes_pure ())
    exact .synonym (here.later further) false

theorem register_follows {name : Label} {type : CType} (justified : Justified outset.graph done name type) :
    Follows outset (Seen outset.graph) (register name type) done session :=
  follows_get_then (registerWith_follows justified)

theorem register_goes {name : Label} {type : CType} (justified : Justified outset.graph done name type)
    (result : β) : Goes outset (register name type >>= fun _ => pure result) done session :=
  (register_follows justified).then fun _ _ _ _ => goes_pure result

/-! ### The turns of typedefs and functions -/

theorem registerAlias_goes {name : Label} {target : CType} (seen : Seen outset.graph done target) :
    Goes outset (registerAlias name target) done session := by
  unfold registerAlias
  split
  · exact goes_note _
  · exact register_goes (.synonym seen false) ()

/-- A change of the graph that comes to some turns. -/
theorem changeGraph_goes {change : Graph → Graph}
    (turns : ∀ now, History outset done now → ∃ more, History outset (done ++ more) now ∧
      change (replay outset.graph done) = replay outset.graph (done ++ more)) :
    Goes outset (changeGraph change : Resolving σ Unit) done session := by
  intro tells
  obtain ⟨more, history, changed⟩ := turns _ tells.history
  refine ⟨more, ⟨history, ?_⟩, trivial⟩
  rw [← changed, ← tells.graph]

theorem marks_goes {change : Graph → Graph} (mark : ∀ graph, ∃ pointers callbacks,
    change graph = { graph with pointers, callbacks }) :
    Goes outset (changeGraph change : Resolving σ Unit) done session := by
  refine changeGraph_goes fun now history => ?_
  obtain ⟨pointers, callbacks, marked⟩ := mark (replay outset.graph done)
  have same := (replay_concat outset.graph done (.marked pointers callbacks)).symm
  exact ⟨_, history.marked pointers callbacks, marked.trans same⟩

theorem typedefOf_goes (name : Label) (spelling : String) :
    Goes outset (typedefOf name spelling) done session := by
  refine follows_graph_then ?_
  split
  next target found => exact registerAlias_goes (typeOf_found found).seen
  next =>
    split
    · exact follows_note_then (goes_modify rfl rfl)
    · exact goes_note _
  next => exact follows_throw _

theorem typedef_goes (node : Json) : Goes outset (typedef node) done session := by
  refine follows_lift_then fun name _ => follows_lift_then fun spelling _ => ?_
  refine follows_lift_then fun type _ => follows_lift_then fun id _ => ?_
  split
  · refine follows_graph_then <| follows_lift_then fun text _ => follows_lift_then fun target found => ?_
    obtain ⟨own, member⟩ := Graph.find_eq_ok found
    exact registerAlias_goes (Found.node member).seen
  refine follows_lift_then fun prototype _ => ?_
  split
  · refine follows_graph_then <| follows_lift_then fun type made => ?_
    obtain ⟨result, parameters, rfl, returns, takes⟩ := callback_found made
    refine (register_follows ?_).then fun _ _ after _ => marks_goes fun _ => ⟨_, _, rfl⟩
    exact .callback returns.seen fun parameter member => (takes parameter member).seen
  · refine follows_lift_then fun text _ => follows_lift_then fun shape _ => ?_
    split
    · refine follows_graph_then <| follows_lift_then fun target found => ?_
      refine (register_follows ?_).then fun _ _ after _ => marks_goes fun _ => ⟨_, _, rfl⟩
      exact .pointer (fun node same => (pointeeOf_found found node same).seen) _
    · exact typedefOf_goes name text

theorem function_goes (node : Json) : Goes outset (function node) done session := by
  refine follows_lift_then fun name _ => follows_graph_then <| follows_lift_then fun type made => ?_
  refine follows_lift_then fun variadic _ => ?_
  obtain ⟨result, parameters, rfl, returns, takes⟩ := signature_found made
  have justified : Justified outset.graph done name
      (.signature { name, size := CType.pointerSize } result parameters) :=
    .signature returns.seen fun parameter member => (takes parameter member).seen
  dsimp only
  split
  · exact follows_note_then (register_goes justified ())
  · exact register_goes justified ()

/-! ### The turns of records -/

/-- Fields that are made of what was found. -/
def AllFormed (base : Graph) (done : List Turn) (fields : List (Field CType)) : Prop :=
  ∀ field ∈ fields, Formed base done field

theorem AllFormed.later {base : Graph} {fields : List (Field CType)} (formed : AllFormed base done fields)
    (more : List Turn) : AllFormed base (done ++ more) fields :=
  fun field member => (formed field member).later more

theorem member_follows (layout : Label) (node : Json) :
    Follows outset (Formed outset.graph) (member outset.oracle layout node) done session := by
  refine follows_lift_then fun name _ => follows_graph_then <| follows_lift_then fun type found => ?_
  refine (ask_follows _).then fun offset more after _ => follows_pure ⟨rfl, .inl ?_⟩
  exact (spelledType_found found).seen.later more

theorem namedUnion_follows (layout name : Label) (node : Json) :
    Follows outset (Formed outset.graph) (namedUnion outset.oracle layout name node) done session := by
  refine follows_lift_then fun tag _ => ?_
  dsimp only
  split
  · exact follows_throw _
  · refine follows_graph_then <| follows_lift_then fun inner _ => follows_lift_then fun items _ => ?_
    refine follows_lift_then fun inside walked => ?_
    refine (ask_follows _).then fun offset more asked _ => ?_
    refine (ask_follows _).then fun size others after _ => follows_pure ⟨rfl, .inr ?_⟩
    refine ⟨size, inside, rfl, fun variant member => ?_⟩
    obtain ⟨same, found⟩ := variants_found walked variant member
    exact ⟨same, (found.seen.later more).later others⟩

/-- A field before other fields. -/
theorem fields_cons {first : Resolving σ (Field CType)} {rest : Resolving σ (List (Field CType))}
    (field : Follows outset (Formed outset.graph) first done session)
    (fields : ∀ more after, Follows outset (AllFormed outset.graph) rest (done ++ more) after) :
    Follows outset (AllFormed outset.graph) (do return (← first) :: (← rest)) done session := by
  refine field.then fun one more between formed => ?_
  refine (fields more between).then fun others further after all => follows_pure ?_
  exact List.forall_mem_cons.mpr ⟨formed.later further, all⟩

/-- Fields before other fields. -/
theorem fields_append {first rest : Resolving σ (List (Field CType))}
    (fields : Follows outset (AllFormed outset.graph) first done session)
    (others : ∀ more after, Follows outset (AllFormed outset.graph) rest (done ++ more) after) :
    Follows outset (AllFormed outset.graph) (do return (← first) ++ (← rest)) done session := by
  refine fields.then fun some more between formed => ?_
  refine (others more between).then fun last further after all => follows_pure ?_
  exact List.forall_mem_append.mpr ⟨formed.later further, all⟩

theorem unnamedMembers_follows {layout : Label} {inside : Json → Resolving σ (List (Field CType))}
    (inner : ∀ node turns after, Follows outset (AllFormed outset.graph) (inside node) turns after)
    (nodes : List Json) :
    Follows outset (AllFormed outset.graph) (unnamedMembers outset.oracle layout inside nodes) done
      session := by
  induction nodes generalizing done session with
  | nil => exact follows_pure fun _ member => absurd member List.not_mem_nil
  | cons node rest ih =>
    refine follows_lift_then fun kind _ => follows_lift_then fun mute _ => ?_
    split
    · exact ih
    refine follows_lift_then fun name _ => follows_lift_then fun among _ => ?_
    split
    · exact fields_append (inner node done session) fun _ _ => ih
    split
    · exact follows_throw _
    split
    · exact ih
    · exact fields_cons (member_follows layout node) fun _ _ => ih

theorem flattenWith_follows (layout : Label) (fuel : Nat) (node : Json) :
    Follows outset (AllFormed outset.graph) (flattenWith outset.oracle layout fuel node) done session := by
  induction fuel generalizing node done session with
  | zero => exact follows_throw _
  | succ fuel ih =>
    refine follows_lift_then fun inner _ => follows_lift_then fun items _ => ?_
    exact unnamedMembers_follows (fun node _ _ => ih node) items

theorem members_follows {nested : Json → Label → Label → Resolving σ CType} {layout : Label}
    (inner : ∀ node own within turns after, Lays within own →
      Goes outset (nested node own within) turns after) (name : Label) (nodes : List Json) :
    Follows outset (AllFormed outset.graph) (members outset.oracle nested name layout nodes) done
      session := by
  fun_induction members outset.oracle nested name layout nodes generalizing done session with
  | case1 => exact follows_pure fun _ member => absurd member List.not_mem_nil
  | case2 node rest ih next =>
    refine follows_lift_then fun kind _ => follows_lift_then fun mute _ => ?_
    split
    · exact ih
    refine follows_lift_then fun among _ => ?_
    split
    · -- A record is declared, is the type of the following field or is taken apart.
      refine follows_lift_then fun own _ => ?_
      split
      · refine follows_lift_then fun body _ => ?_
        dsimp only
        split
        · refine (inner node own _ done session (.inr ⟨layout.plain, rfl⟩)).then fun _ _ _ _ => ih
        · exact ih
      · cases rest with
        | nil => exact flattenWith_follows layout _ node
        | cons following after =>
          refine follows_lift_then fun naming _ => ?_
          split
          · refine follows_lift_then fun field _ => ?_
            exact fields_cons (namedUnion_follows layout field node) fun _ _ => next.1
          · exact fields_append (flattenWith_follows layout _ node) fun _ _ => next.2
    split
    · exact follows_throw _
    refine follows_lift_then fun field _ => ?_
    split
    · refine follows_lift_then fun implicit _ => ?_
      split
      · exact ih
      · exact follows_throw _
    · exact fields_cons (member_follows layout node) fun _ _ => ih

theorem recordWith_goes (fuel : Nat) (node : Json) {name layout : Label} (lays : Lays layout name) :
    Goes outset (recordWith outset.oracle fuel node name layout) done session := by
  induction fuel generalizing node name layout done session with
  | zero => exact follows_throw _
  | succ fuel ih =>
    refine (ask_follows _).then fun size more asked answered => ?_
    refine follows_lift_then fun inner _ => follows_lift_then fun nodes _ => ?_
    have fields : Follows outset (AllFormed outset.graph)
        (members outset.oracle (recordWith outset.oracle fuel) name layout nodes) (done ++ more) asked :=
      members_follows (fun node _ _ _ _ lays => ih node lays) name nodes
    refine fields.then fun fields others after formed => ?_
    have justified : Justified outset.graph (done ++ more ++ others) name (.record { name, size } fields) :=
      .record lays (List.mem_append_left _ answered) formed
    intro tells
    exact (register_follows justified tells).mono (fun _ _ ⟨last, told, _⟩ => ⟨last, told, trivial⟩)
      fun _ _ ends => ends

/-! ### The turns of a whole resolution -/

/-- The names of constants are keys. -/
def Keyed (constants : Table Label Constant) : Prop :=
  ∀ constant ∈ constants, constant.1.asKey = .ok constant.1

theorem keyed_insert {constants : Table Label Constant} {name key : Label} {constant : Constant}
    (keyed : Keyed constants) (done : name.asKey = .ok key) :
    Keyed (Table.insert key constant constants) := by
  obtain rfl := asKey_eq_ok done
  intro other member
  rcases Table.mem_insert member with rfl | ⟨old, inside⟩
  · exact done
  · exact keyed (other.1, old) inside

theorem constants_follow (owner : Label) (count : Option Int) {constants : Table Label Constant}
    (keyed : Keyed constants) (nodes : List Json) :
    Follows outset (fun _ => Keyed)
      (Resolve.constants owner count constants nodes : Resolving σ (Table Label Constant)) done session := by
  induction nodes generalizing count constants done session with
  | nil => exact follows_pure keyed
  | cons node rest ih =>
    refine follows_lift_then fun kind _ => ?_
    split
    · refine follows_lift_then fun name _ => follows_get_then <| follows_lift_then fun pair _ => ?_
      refine follows_lift_then fun key isKey => ?_
      exact (goes_modify rfl rfl).then fun _ _ after _ => ih _ (keyed_insert keyed isKey)
    · exact ih count keyed

theorem enum_follows (name : Label) (nodes : List Json) :
    Follows outset (fun turns type => Justified outset.graph turns name type)
      (enum name nodes : Resolving σ CType) done session :=
  (constants_follow name (some 0) (fun _ member => absurd member List.not_mem_nil) nodes).then
    fun _ _ _ keyed => follows_pure (.enum keyed)

theorem topEnum_goes (following : Option Json) (node : Json) :
    Goes outset (topEnum following node) done session := by
  refine follows_lift_then fun named _ => ?_
  split
  · refine follows_lift_then fun told _ => ?_
    exact (goes_note told).then fun _ _ _ _ => goes_pure false
  · refine follows_lift_then fun inner _ => follows_lift_then fun items _ => ?_
    exact (enum_follows _ items).then fun type more after justified => register_goes justified _

theorem topRecord_goes (following : Option Json) (node : Json) :
    Goes outset (topRecord outset.oracle following node) done session := by
  refine follows_lift_then fun named _ => ?_
  split
  · refine follows_lift_then fun tag _ => follows_lift_then fun told _ => ?_
    exact (goes_note told).then fun _ _ _ _ => goes_pure false
  · refine follows_lift_then fun body _ => ?_
    dsimp only
    split
    · exact (goes_note _).then fun _ _ _ _ => goes_pure _
    · exact (recordWith_goes _ node (.inl rfl)).then fun _ _ _ _ => goes_pure _

theorem isSkipped_goes (header : Path) (node : Json) :
    Goes outset (isSkipped header node) done session := by
  refine follows_graph_then ?_
  have skips : Goes outset (zoom Session.includer (fun session includer => { session with includer })
      (Origin.skips header (replay outset.graph done).has node)) done session := by
    intro tells
    rw [ends_zoom, ends_iff]
    have same (includer : Origin.Includer) : Recounts outset (done ++ []) { session with includer } := by
      rw [List.append_nil]
      exact ⟨tells.history, tells.graph⟩
    exact ⟨fun _ _ => ⟨[], same _, trivial⟩, fun _ _ => ⟨[], same _⟩⟩
  exact skips.then fun told _ _ _ => (goes_note told.2).then fun _ _ _ _ => goes_pure _

theorem topNode_goes (header : Path) (following : Option Json) (node : Json) :
    Goes outset (topNode header outset.oracle following node) done session := by
  refine (isSkipped_goes header node).then fun skipped _ after _ => ?_
  split
  · exact goes_pure false
  refine follows_lift_then fun kind _ => ?_
  split
  · exact topEnum_goes following node
  refine follows_lift_then fun among _ => ?_
  split
  · exact topRecord_goes following node
  split
  · exact (typedef_goes node).then fun _ _ _ _ => goes_pure false
  split
  · exact (function_goes node).then fun _ _ _ _ => goes_pure false
  · refine follows_lift_then fun name _ => ?_
    exact (goes_note _).then fun _ _ _ _ => goes_pure false

theorem topNodes_go (header : Path) (adopted : Bool) (nodes : List Json) :
    Goes outset (topNodes header outset.oracle adopted nodes) done session := by
  induction nodes generalizing adopted done session with
  | nil => exact goes_pure ()
  | cons node rest ih =>
    rw [topNodes]
    split
    · exact ih false
    · exact (topNode_goes header rest.head? node).then fun adopted _ _ _ => ih adopted

end

section
variable {σ : Type} {outset : Outset σ} {now : σ} {done : List Turn} {graph : Graph}

/-- A graph that some turns lead to after others. -/
def Sows (outset : Outset σ) (now : σ) (done : List Turn) (graph : Graph) : Prop :=
  ∃ more, History outset (done ++ more) now ∧ graph = replay outset.graph (done ++ more)

theorem Sows.sown (sows : Sows outset now done graph) (name : String) {type : CType}
    (justified : ∀ turns, graph = replay outset.graph turns →
      Justified outset.graph turns (.str name) type) :
    Sows outset now done (graph.assign (.str name) type) := by
  obtain ⟨more, history, rfl⟩ := sows
  have keyed : (Json.str name).asKey = .ok (.str name) := rfl
  have next := history.sown keyed (justified _ rfl)
  have same := (replay_concat outset.graph (done ++ more) (.sown (.str name) type)).symm
  rw [List.append_assoc] at next same
  exact ⟨_, next, same⟩

theorem addSynonym_sows (sows : Sows outset now done graph) (isTransparent : Bool)
    (name target : String) : Sows outset now done (Seed.addSynonym isTransparent graph name target) := by
  unfold Seed.addSynonym
  split
  next type found =>
    obtain ⟨own, -, member⟩ := Table.mem_of_find? found
    refine sows.sown name fun turns same => .synonym (Found.seen ?_) isTransparent
    exact same ▸ .node member
  next => exact sows

theorem foldl_sows {ι : Type} {step : Graph → ι → Graph} (items : List ι)
    (sows : Sows outset now done graph)
    (steps : ∀ before item, Sows outset now done before → Sows outset now done (step before item)) :
    Sows outset now done (items.foldl step graph) := by
  induction items generalizing graph with
  | nil => exact sows
  | cons item rest ih => exact ih (steps graph item sows)

theorem sow_sows (sows : Sows outset now done graph) :
    Sows outset now done (Seed.sow graph) := by
  unfold Seed.sow
  refine foldl_sows _ (foldl_sows _ (foldl_sows _ sows ?_) ?_) ?_
  · exact fun before seed sows => sows.sown seed.1 fun _ _ => .builtin _ _
  · exact fun before seed sows => addSynonym_sows sows true seed.1 seed.2
  · exact fun before seed sows => addSynonym_sows sows false seed.1 seed.2

theorem resolveNodes_goes (header : Path) (nodes : List Json) {session : Session σ} :
    Goes outset (resolveNodes header outset.oracle nodes) done session := by
  have sowing : Goes outset (changeGraph Seed.sow : Resolving σ Unit) done session :=
    changeGraph_goes fun now history => sow_sows ⟨[], by rwa [List.append_nil], by rw [List.append_nil]⟩
  refine sowing.then fun _ _ sown _ => (topNodes_go header false nodes).then fun _ _ after _ => ?_
  refine follows_get_then ?_
  dsimp only
  split
  · exact follows_lift_then fun fault _ => follows_throw_then
  · exact (goes_note _).then fun _ _ _ _ => goes_pure _

/-- A resolution, whether it succeeds or not, is a history of turns. -/
theorem resolve_history (oracle : Layout.Oracle σ) (header : Path) (nodes : List Json)
    (session : Session σ) :
    let outset : Outset σ := { oracle, state := session.oracle, graph := session.graph }
    let after := ((resolve header oracle nodes).runOn session).2
    ∃ done, History outset done after.oracle ∧ after.graph = replay session.graph done := by
  intro outset
  have ends : Ends (fun _ (after : Session σ) => ∃ done, Recounts outset done after)
      (fun _ after => ∃ done, Recounts outset done after) (resolve header oracle nodes) session := by
    refine ends_timed fun begun => ?_
    have fresh : Recounts outset [] (Noting.tell begun session) := ⟨.nil, rfl⟩
    refine (resolveNodes_goes header nodes fresh).mono ?_ ?_
    · exact fun _ _ ⟨done, told, _⟩ ended => ⟨done, told.history, told.graph⟩
    · exact fun _ _ ⟨done, told⟩ ended => ⟨done, told.history, told.graph⟩
  obtain ⟨done, told⟩ := ends.after
  exact ⟨done, told.history, told.graph⟩

/-- Whatever is declared has a key for its name. -/
theorem History.keyed {now : σ} (history : History outset done now)
    (keyed : ∀ entry ∈ outset.graph.declarations, entry.1.asKey = .ok entry.1) :
    ∀ entry ∈ (replay outset.graph done).declarations, entry.1.asKey = .ok entry.1 := by
  have assigned {graph : Graph} {name : Label} (type : CType) (isKey : name.asKey = .ok name)
      (before : ∀ entry ∈ graph.declarations, entry.1.asKey = .ok entry.1) :
      ∀ entry ∈ (graph.assign name type).declarations, entry.1.asKey = .ok entry.1 := by
    intro entry member
    obtain rfl | ⟨old, inside⟩ := Table.mem_insert member
    · exact isKey
    · exact before (entry.1, old) inside
  induction history with
  | nil => exact keyed
  | asked past query ih =>
    rw [replay_concat]
    exact ih
  | sown past isKey justified ih =>
    rw [replay_concat]
    exact assigned _ isKey ih
  | declared past isKey justified ih =>
    rw [replay_concat]
    exact assigned _ isKey fun entry member => ih entry (List.mem_of_mem_filter member)
  | marked past pointers callbacks ih =>
    rw [replay_concat]
    exact ih

end

end Resolve

end NativeBindings
