import NativeBindings.Proofs.Resolve.Announce

/-!
What declarations do to the typedefs that wait. A typedef waits for a tag, comes due when the tag is
declared and is woken, which is a declaration of its own. The typedefs that are due are woken in
order, each one before those that came due earlier.
-/
namespace NativeBindings

namespace Graph

variable {graph : Graph} {name other : Label}

theorem find?_enter_of_same (same : (name == other) = true) (type : CType) :
    (graph.enter (name, type)).find? other = some (type.numbered graph.issued) := by
  have looked : (graph.enter (name, type)).find? other = (graph.enter (name, type)).find? name :=
    Table.find?_congr (BEq.symm same) _
  rw [looked]
  exact Table.find?_insert_self _ _ _

theorem find?_enter_of_ne (apart : (name == other) = false) (type : CType) :
    (graph.enter (name, type)).find? other = graph.find? other := by
  rw [find?, enter, assign, Table.find?_insert_of_ne apart, remove, Table.find?_erase_of_ne apart]
  rfl

theorem has_enter (type : CType) :
    (graph.enter (name, type)).has other = (name == other || graph.has other) := by
  change ((graph.enter (name, type)).find? other).isSome = (_ || (graph.find? other).isSome)
  cases same : name == other with
  | true => rw [find?_enter_of_same same, Bool.true_or, Option.isSome_some]
  | false => rw [find?_enter_of_ne same, Bool.false_or]

end Graph

namespace Resolve

/-- A typedef that waits no longer, the tag that it waited for and the node declared under the tag. -/
structure Due where
  name : Label
  tag : Label
  item : CType

/-- What is declared and what waits, and the typedefs to be woken next. -/
structure Desk where
  registry : Registry
  due : List Due := []

/-- What happens at a desk: a node declares a name, a typedef is woken, a typedef is to wait for a tag,
or a name is marked. A declaration has a number. -/
inductive Event where
  | declare (name : Label) (type : CType) (number : Nat)
  | wake (due : Due) (number : Nat)
  | defer (tag name : Label)
  | mark

/-- What an event declares. -/
def Event.entry? : Event → Option (Label × CType)
  | .declare name type number => some (name, type.numbered number)
  | .wake due number => some (due.name, (Registry.aliasOf due.name due.item).numbered number)
  | .defer _ _ | .mark => none

/-- The name that a node gives a type in an event, at once or once a tag is declared. -/
def Event.subject? : Event → Option Label
  | .declare name _ _ | .defer _ name => some name
  | .wake _ _ | .mark => none

namespace Desk

/-- Declares a name; what waits for it comes due. -/
def enter (desk : Desk) (name : Label) (type : CType) : Desk where
  registry := {
    graph := desk.registry.graph.enter (name, type)
    waiting := Table.erase name desk.registry.waiting }
  due := ((Table.find? name desk.registry.waiting).getD []).map
    (fun waiter => { name := waiter, tag := name, item := desk.registry.numbered type }) ++ desk.due

/-- One event. Nodes have their turn when nothing is due. -/
inductive Step : Desk → Event → Desk → Prop
  | declare (registry : Registry) (name : Label) (type : CType) :
    Step { registry } (.declare name type registry.graph.issued) (enter { registry } name type)
  | wake (registry : Registry) (first : Due) (rest : List Due) :
    Step { registry, due := first :: rest } (.wake first registry.graph.issued)
      (enter { registry, due := rest } first.name (Registry.aliasOf first.name first.item))
  | defer (registry : Registry) (tag name : Label) :
    Step { registry } (.defer tag name) { registry := registry.defer tag name }
  | mark {registry after : Registry}
    (declarations : after.graph.declarations = registry.graph.declarations)
    (issued : after.graph.issued = registry.graph.issued) (waiting : after.waiting = registry.waiting) :
    Step { registry } .mark { registry := after }

/-- A row of events, each one fit for the graph that it finds. -/
inductive Runs (fits : Graph → Event → Prop) : Desk → List Event → Desk → Prop
  | nil (desk : Desk) : Runs fits desk [] desk
  | cons {before between after : Desk} {event : Event} {events : List Event}
    (step : Step before event between) (fit : fits before.registry.graph event)
    (rest : Runs fits between events after) : Runs fits before (event :: events) after

section
variable {fits : Graph → Event → Prop} {before between after : Desk} {events more : List Event}

theorem Runs.append (first : Runs fits before events between) (second : Runs fits between more after) :
    Runs fits before (events ++ more) after := by
  induction first with
  | nil => exact second
  | cons step fit _ ih => exact .cons step fit (ih second)

theorem Runs.split (run : Runs fits before (events ++ more) after) :
    ∃ between, Runs fits before events between ∧ Runs fits between more after := by
  induction events generalizing before with
  | nil => exact ⟨before, .nil before, run⟩
  | cons event rest ih =>
    cases run with
    | cons step fit others =>
      obtain ⟨between, first, second⟩ := ih others
      exact ⟨between, .cons step fit first, second⟩

theorem Runs.mono {fits' : Graph → Event → Prop} (run : Runs fits before events after)
    (wider : ∀ graph event, fits graph event → fits' graph event) : Runs fits' before events after := by
  induction run with
  | nil => exact .nil _
  | cons step fit _ ih => exact .cons step (wider _ _ fit) ih

/-- What every step keeps, a run keeps. -/
theorem Runs.keeps {P : Desk → Prop} (run : Runs fits before events after)
    (step : ∀ {before event after}, event ∈ events → Step before event after →
      fits before.registry.graph event → P before → P after) (start : P before) : P after := by
  induction run with
  | nil => exact start
  | cons first fit _ ih =>
    refine ih (fun member => step (List.mem_cons_of_mem _ member)) ?_
    exact step List.mem_cons_self first fit start

end

section
variable {desk after : Desk} {event : Event} {name own tag other : Label} {type : CType}

theorem graph_enter : (desk.enter name type).registry.graph = desk.registry.graph.enter (name, type) :=
  rfl

theorem waiting_enter :
    (desk.enter name type).registry.waiting = Table.erase name desk.registry.waiting := rfl

/-- What a declaration leaves waiting waited before, for another tag. -/
theorem find?_waiting_enter {names : List Label}
    (found : Table.find? tag (desk.enter name type).registry.waiting = some names) :
    (name == tag) = false ∧ Table.find? tag desk.registry.waiting = some names := by
  rw [waiting_enter] at found
  cases same : name == tag with
  | true =>
    rw [Table.find?_congr (BEq.symm same), Table.find?_erase_self] at found
    cases found
  | false =>
    rw [Table.find?_erase_of_ne same] at found
    exact ⟨rfl, found⟩

theorem mem_due_enter {due : Due} :
    due ∈ (desk.enter name type).due ↔
      (∃ names, Table.find? name desk.registry.waiting = some names ∧ due.name ∈ names ∧
        due.tag = name ∧ due.item = desk.registry.numbered type) ∨ due ∈ desk.due := by
  rw [enter, List.mem_append]
  refine or_congr_left ?_
  cases Table.find? name desk.registry.waiting with
  | none => simp
  | some names =>
    rw [Option.getD_some, List.mem_map]
    constructor
    · rintro ⟨waiter, member, rfl⟩
      exact ⟨names, rfl, member, rfl, rfl⟩
    · rintro ⟨_, ⟨⟩, member, tagged, made⟩
      refine ⟨due.name, member, ?_⟩
      rw [← tagged, ← made]

/-- Whether a typedef of a name waits. -/
def Awaited (waiting : Waiting) (name : Label) : Prop :=
  ∃ tag names own, Table.find? tag waiting = some names ∧ own ∈ names ∧ (own == name) = true

/-- Whether a typedef of a name waits or is due. -/
def Pending (desk : Desk) (name : Label) : Prop :=
  Awaited desk.registry.waiting name ∨ ∃ due ∈ desk.due, (due.name == name) = true

/-- A declaration makes typedefs due that waited, and that is all it does to them. -/
theorem pending_enter : (desk.enter own type).Pending name ↔ desk.Pending name := by
  constructor
  · rintro (⟨tag, names, waiter, found, member, same⟩ | ⟨due, member, same⟩)
    · exact .inl ⟨tag, names, waiter, (find?_waiting_enter found).2, member, same⟩
    · rcases mem_due_enter.mp member with ⟨names, found, inside, -, -⟩ | old
      · exact .inl ⟨own, names, due.name, found, inside, same⟩
      · exact .inr ⟨due, old, same⟩
  · rintro (⟨tag, names, waiter, found, member, same⟩ | ⟨due, member, same⟩)
    · cases entered : own == tag with
      | true =>
        rw [← Table.find?_congr entered] at found
        exact .inr ⟨⟨waiter, own, desk.registry.numbered type⟩,
          mem_due_enter.mpr (.inl ⟨names, found, member, rfl, rfl⟩), same⟩
      | false =>
        refine .inl ⟨tag, names, waiter, ?_, member, same⟩
        rw [waiting_enter, Table.find?_erase_of_ne entered]
        exact found
    · exact .inr ⟨due, mem_due_enter.mpr (.inr member), same⟩

theorem pending_cons {registry : Registry} {first : Due} {rest : List Due} :
    Pending { registry, due := first :: rest } name ↔
      (first.name == name) = true ∨ Pending { registry, due := rest } name := by
  constructor
  · rintro (waits | ⟨due, member, same⟩)
    · exact .inr (.inl waits)
    · rcases List.mem_cons.mp member with rfl | member
      · exact .inl same
      · exact .inr (.inr ⟨due, member, same⟩)
  · rintro (same | waits | ⟨due, member, same⟩)
    · exact .inr ⟨first, List.mem_cons_self, same⟩
    · exact .inl waits
    · exact .inr ⟨due, List.mem_cons_of_mem _ member, same⟩

/-- Those that wait after a typedef is to wait. -/
theorem find?_waiting_defer {registry : Registry} {names : List Label}
    (found : Table.find? tag (registry.defer other own).waiting = some names) :
    ((other == tag) = true ∧ names = (Table.find? other registry.waiting).getD [] ++ [own]) ∨
      (other == tag) = false ∧ Table.find? tag registry.waiting = some names := by
  cases same : other == tag with
  | true =>
    rw [Registry.defer, ← Table.find?_congr same, Table.find?_insert_self] at found
    exact .inl ⟨rfl, (Option.some.inj found).symm⟩
  | false =>
    rw [Registry.defer, Table.find?_insert_of_ne same] at found
    exact .inr ⟨rfl, found⟩

theorem find?_waiting_defer_self (registry : Registry) :
    Table.find? tag (registry.defer tag own).waiting =
      some ((Table.find? tag registry.waiting).getD [] ++ [own]) :=
  Table.find?_insert_self _ _ _

theorem awaited_defer {registry : Registry} :
    Awaited (registry.defer tag own).waiting name ↔ (own == name) = true ∨ Awaited registry.waiting name := by
  constructor
  · rintro ⟨at_, names, waiter, found, member, same⟩
    rcases find?_waiting_defer found with ⟨-, rfl⟩ | ⟨-, old⟩
    · rcases List.mem_append.mp member with inside | last
      · cases waits : Table.find? tag registry.waiting with
        | none =>
          rw [waits] at inside
          cases inside
        | some before =>
          rw [waits] at inside
          exact .inr ⟨tag, before, waiter, waits, inside, same⟩
      · obtain rfl := List.mem_singleton.mp last
        exact .inl same
    · exact .inr ⟨at_, names, waiter, old, member, same⟩
  · rintro (same | ⟨at_, names, waiter, found, member, same⟩)
    · exact ⟨tag, _, own, find?_waiting_defer_self registry, by simp, same⟩
    · cases equal : tag == at_ with
      | true =>
        rw [← Table.find?_congr equal] at found
        refine ⟨tag, _, waiter, find?_waiting_defer_self registry, ?_, same⟩
        rw [found]
        exact List.mem_append_left _ member
      | false =>
        refine ⟨at_, names, waiter, ?_, member, same⟩
        rw [Registry.defer, Table.find?_insert_of_ne equal]
        exact found

theorem pending_defer {registry : Registry} :
    Pending { registry := registry.defer tag own } name ↔
      (own == name) = true ∨ Pending { registry } name := by
  have none : ¬ ∃ due ∈ ([] : List Due), (due.name == name) = true := by simp
  rw [Pending, Pending, or_iff_left none, or_iff_left none, awaited_defer]

/-- Whether a typedef waits for a tag. -/
def Waits (desk : Desk) (tag name : Label) : Prop :=
  ∃ names, Table.find? tag desk.registry.waiting = some names ∧ name ∈ names

theorem waits_enter (waits : desk.Waits tag name) :
    (desk.enter own type).Waits tag name ∨ (own == tag) = true ∧
      { name, tag := own, item := desk.registry.numbered type } ∈ (desk.enter own type).due := by
  obtain ⟨names, found, member⟩ := waits
  cases same : own == tag with
  | true =>
    rw [← Table.find?_congr same] at found
    exact .inr ⟨rfl, mem_due_enter.mpr (.inl ⟨names, found, member, rfl, rfl⟩)⟩
  | false =>
    refine .inl ⟨names, ?_, member⟩
    rw [waiting_enter, Table.find?_erase_of_ne same]
    exact found

theorem waits_defer {registry : Registry} (waits : Waits { registry } tag name) :
    Waits { registry := registry.defer other own } tag name := by
  obtain ⟨names, found, member⟩ := waits
  cases same : other == tag with
  | true =>
    refine ⟨_, (Table.find?_congr (BEq.symm same) _).trans (find?_waiting_defer_self registry), ?_⟩
    rw [Table.find?_congr same, found]
    exact List.mem_append_left _ member
  | false =>
    refine ⟨names, ?_, member⟩
    rw [Registry.defer, Table.find?_insert_of_ne same]
    exact found

/-- A typedef waits on, unless the tag is declared: then it is due. -/
theorem Step.waits (step : Step desk event after) (waits : desk.Waits tag name) :
    after.Waits tag name ∨ ∃ own item, event.entry? = some (own, item) ∧ (own == tag) = true ∧
      { name, tag := own, item } ∈ after.due := by
  cases step with
  | declare registry own type =>
    refine (waits_enter waits).imp_right fun called => ?_
    exact ⟨own, _, rfl, called⟩
  | wake registry first rest =>
    have still : Waits { registry, due := rest } tag name := waits
    refine (waits_enter still).imp_right fun called => ?_
    exact ⟨first.name, _, rfl, called⟩
  | defer => exact .inl (waits_defer waits)
  | mark _ _ same =>
    obtain ⟨names, found, member⟩ := waits
    exact .inl ⟨names, same ▸ found, member⟩

/-- A typedef that is due stays so until it is woken. -/
theorem Step.due (step : Step desk event after) {due : Due} (member : due ∈ desk.due) :
    due ∈ after.due ∨ ∃ number, event = .wake due number := by
  cases step with
  | wake registry first rest =>
    rcases List.mem_cons.mp member with rfl | member
    · exact .inr ⟨_, rfl⟩
    · exact .inl (mem_due_enter.mpr (.inr member))
  | declare | defer | mark => cases member

section
variable {fits : Graph → Event → Prop} {before : Desk} {events : List Event}

theorem Runs.wakes (run : Runs fits before events after) {due : Due} (member : due ∈ before.due)
    (done : after.due = []) : ∃ early number late, events = early ++ .wake due number :: late := by
  induction run with
  | nil =>
    rw [done] at member
    cases member
  | cons step _ _ ih =>
    rcases step.due member with still | ⟨number, rfl⟩
    · obtain ⟨early, number, late, rfl⟩ := ih still done
      exact ⟨_ :: early, number, late, rfl⟩
    · exact ⟨[], number, _, rfl⟩

/-- A typedef that waits at first and not at last is woken, after the declaration of its tag. -/
theorem Runs.answers (run : Runs fits before events after) (waits : before.Waits tag name)
    (done : after.due = []) (nothing : after.registry.waiting = []) :
    ∃ early declared middle own item number late,
      events = early ++ declared :: (middle ++ .wake { name, tag := own, item } number :: late) ∧
        declared.entry? = some (own, item) ∧ (own == tag) = true := by
  induction run with
  | nil =>
    obtain ⟨names, found, -⟩ := waits
    rw [nothing] at found
    cases found
  | cons step _ rest ih =>
    rcases step.waits waits with still | ⟨own, item, entry, same, member⟩
    · obtain ⟨early, declared, middle, own, item, number, late, rfl, answer⟩ := ih still done nothing
      exact ⟨_ :: early, declared, middle, own, item, number, late, rfl, answer⟩
    · obtain ⟨middle, number, late, rfl⟩ := rest.wakes member done
      exact ⟨[], _, middle, own, item, number, late, rfl, entry, same⟩

/-- While a tag is not declared, what waits for it waits. -/
theorem Runs.waits (run : Runs fits before events after) (waits : before.Waits tag name)
    (absent : ∀ event ∈ events, ∀ own item, event.entry? = some (own, item) → (own == tag) = false) :
    after.Waits tag name := by
  refine run.keeps (P := (Waits · tag name)) (fun {_ event _} member step _ waits => ?_) waits
  rcases step.waits waits with still | ⟨own, item, entry, same, -⟩
  · exact still
  · rw [absent event member own item entry] at same
    cases same

end

/-- Whether a typedef that waits does so for a tag that is not declared. -/
def Awake (registry : Registry) : Prop :=
  ∀ tag names, Table.find? tag registry.waiting = some names → registry.graph.has tag = false

theorem awake_enter (awake : Awake desk.registry) : Awake (desk.enter name type).registry := by
  intro tag names found
  obtain ⟨apart, before⟩ := find?_waiting_enter found
  rw [graph_enter, Graph.has_enter, apart, awake tag names before]
  rfl

theorem Step.awake (step : Step desk event after)
    (absent : ∀ tag name, event = .defer tag name → desk.registry.graph.has tag = false)
    (awake : Awake desk.registry) : Awake after.registry := by
  cases step with
  | declare => exact awake_enter awake
  | wake registry first rest =>
    have sound : Awake ({ registry, due := rest } : Desk).registry := awake
    exact awake_enter sound
  | defer registry tag name =>
    intro other names found
    rcases find?_waiting_defer found with ⟨same, -⟩ | ⟨-, before⟩
    · have looked : registry.graph.has other = registry.graph.has tag :=
        congrArg Option.isSome (Table.find?_congr (BEq.symm same) _)
      exact looked.trans (absent tag name rfl)
    · exact awake other names before
  | mark declarations _ same =>
    intro tag names found
    rw [same] at found
    have kept := awake tag names found
    rwa [Graph.has, ← declarations] at kept

/-- Another name that is neither given nor woken keeps its entry. -/
theorem Step.idle (step : Step desk event after) (idle : ¬ desk.Pending name)
    (others : ∀ own, event.subject? = some own → (own == name) = false) :
    ¬ after.Pending name ∧ after.registry.graph.find? name = desk.registry.graph.find? name := by
  cases step with
  | declare registry own type =>
    rw [pending_enter]
    exact ⟨idle, Graph.find?_enter_of_ne (others own rfl) type⟩
  | wake registry first rest =>
    rw [pending_cons, not_or] at idle
    rw [pending_enter]
    exact ⟨idle.2, Graph.find?_enter_of_ne (Bool.eq_false_iff.mpr idle.1) _⟩
  | defer registry tag own =>
    rw [pending_defer, others own rfl]
    exact ⟨by simpa using idle, rfl⟩
  | mark declarations _ same =>
    rw [Pending, same, Graph.find?, declarations]
    exact ⟨idle, rfl⟩

/-- A name that is pending, or whose entry is of a number after another one. -/
def Overtaken (number : Nat) (name : Label) (desk : Desk) : Prop :=
  number < desk.registry.graph.issued ∧
    (desk.Pending name ∨ ∃ type last, desk.registry.graph.find? name = some type ∧
      type.serial = some last ∧ number < last)

theorem Step.overtaken {number : Nat} (step : Step desk event after)
    (others : ∀ own, event.subject? = some own → (own == name) = false)
    (overtaken : Overtaken number name desk) : Overtaken number name after := by
  obtain ⟨issued, pending | ⟨item, last, found, numbered, more⟩⟩ := overtaken
  · cases step with
    | declare registry own type => exact ⟨Nat.lt_succ_of_lt issued, .inl (pending_enter.mpr pending)⟩
    | wake registry first rest =>
      refine ⟨Nat.lt_succ_of_lt issued, ?_⟩
      rcases pending_cons.mp pending with same | pending
      · refine .inr ⟨_, registry.graph.issued, Graph.find?_enter_of_same same _, ?_, issued⟩
        rfl
      · exact .inl (pending_enter.mpr pending)
    | defer => exact ⟨issued, .inl (pending_defer.mpr (.inr pending))⟩
    | mark _ same waiting =>
      refine ⟨same ▸ issued, .inl ?_⟩
      rw [Pending, waiting]
      exact pending
  · cases step with
    | declare registry own type =>
      refine ⟨Nat.lt_succ_of_lt issued, .inr ⟨item, last, ?_, numbered, more⟩⟩
      exact (Graph.find?_enter_of_ne (others own rfl) type).trans found
    | wake registry first rest =>
      refine ⟨Nat.lt_succ_of_lt issued, ?_⟩
      cases same : first.name == name with
      | true => exact .inr ⟨_, registry.graph.issued, Graph.find?_enter_of_same same _, rfl, issued⟩
      | false => exact .inr ⟨item, last, (Graph.find?_enter_of_ne same _).trans found, numbered, more⟩
    | defer => exact ⟨issued, .inr ⟨item, last, found, numbered, more⟩⟩
    | mark declarations same _ =>
      refine ⟨same ▸ issued, .inr ⟨item, last, ?_, numbered, more⟩⟩
      rw [Graph.find?, declarations]
      exact found

/-- A typedef that waits for a tag, and is the only one of its name. -/
structure Sole (tag name : Label) (desk : Desk) : Prop where
  waits : desk.Waits tag name
  only : ∀ at_ names own, Table.find? at_ desk.registry.waiting = some names → own ∈ names →
    (own == name) = true → own = name ∧ (at_ == tag) = true
  idle : ∀ due ∈ desk.due, (due.name == name) = false

/-- A typedef that is due or declared as an alias of a node, and is the only one of its name. -/
structure Called (name : Label) (item : CType) (desk : Desk) : Prop where
  idle : ¬ Awaited desk.registry.waiting name
  only : ∀ due ∈ desk.due, (due.name == name) = true → due.name = name ∧ due.item = item
  called : (∃ due ∈ desk.due, (due.name == name) = true) ∨ ∃ number,
    desk.registry.graph.find? name = some ((Registry.aliasOf name item).numbered number)

theorem Sole.enter (sole : Sole tag name desk) :
    Sole tag name (desk.enter own type) ∨ (own == tag) = true ∧
      Called name (desk.registry.numbered type) (desk.enter own type) := by
  cases same : own == tag with
  | false =>
    refine .inl ⟨?_, fun at_ names waiter found member equal => ?_, fun due member => ?_⟩
    · refine (waits_enter sole.waits).resolve_right fun called => ?_
      rw [same] at called
      exact absurd called.1 (by simp)
    · exact sole.only at_ names waiter (find?_waiting_enter found).2 member equal
    · rcases mem_due_enter.mp member with ⟨names, found, inside, -, -⟩ | old
      · refine Bool.eq_false_iff.mpr fun equal => ?_
        rw [(sole.only own names due.name found inside equal).2] at same
        cases same
      · exact sole.idle due old
  | true =>
    refine .inr ⟨rfl, ?_, fun due member equal => ?_, .inl ?_⟩
    · rintro ⟨at_, names, waiter, found, member, equal⟩
      obtain ⟨apart, before⟩ := find?_waiting_enter found
      rw [BEq.trans same (BEq.symm (sole.only at_ names waiter before member equal).2)] at apart
      cases apart
    · rcases mem_due_enter.mp member with ⟨names, found, inside, -, made⟩ | old
      · exact ⟨(sole.only own names due.name found inside equal).1, made⟩
      · rw [sole.idle due old] at equal
        cases equal
    · obtain ⟨names, found, member⟩ := sole.waits
      rw [← Table.find?_congr same] at found
      exact ⟨⟨name, own, desk.registry.numbered type⟩,
        mem_due_enter.mpr (.inl ⟨names, found, member, rfl, rfl⟩), BEq.rfl⟩

theorem Step.sole (step : Step desk event after)
    (others : ∀ own, event.subject? = some own → (own == name) = false) (sole : Sole tag name desk) :
    Sole tag name after ∨ ∃ own item, event.entry? = some (own, item) ∧ (own == tag) = true ∧
      Called name item after := by
  cases step with
  | declare registry own type => exact sole.enter.imp_right fun called => ⟨own, _, rfl, called⟩
  | wake registry first rest =>
    have fewer : Sole tag name { registry, due := rest } :=
      ⟨sole.waits, sole.only, fun due member => sole.idle due (List.mem_cons_of_mem _ member)⟩
    exact fewer.enter.imp_right fun called => ⟨first.name, _, rfl, called⟩
  | defer registry at_ own =>
    refine .inl ⟨waits_defer sole.waits, fun other names waiter found member equal => ?_, sole.idle⟩
    rcases find?_waiting_defer found with ⟨same, rfl⟩ | ⟨-, before⟩
    · rcases List.mem_append.mp member with inside | last
      · cases waits : Table.find? at_ registry.waiting with
        | none =>
          rw [waits] at inside
          cases inside
        | some before =>
          rw [waits] at inside
          have there := sole.only at_ before waiter waits inside equal
          exact ⟨there.1, BEq.trans (BEq.symm same) there.2⟩
      · obtain rfl := List.mem_singleton.mp last
        rw [others waiter rfl] at equal
        cases equal
    · exact sole.only other names waiter before member equal
  | mark _ _ same =>
    obtain ⟨⟨names, found, member⟩, only, idle⟩ := sole
    refine .inl ⟨⟨names, same ▸ found, member⟩, fun at_ names own found => ?_, idle⟩
    rw [same] at found
    exact only at_ names own found

theorem Called.enter {item : CType} {due : List Due} {registry : Registry}
    (idle : ¬ Awaited registry.waiting name)
    (only : ∀ other ∈ due, (other.name == name) = true → other.name = name ∧ other.item = item)
    (called : (∃ other ∈ due, (other.name == name) = true) ∨ ∃ number,
      (registry.graph.enter (own, type)).find? name = some ((Registry.aliasOf name item).numbered number)) :
    Called name item (Desk.enter { registry, due } own type) := by
  have old {other : Due} (member : other ∈ (Desk.enter { registry, due } own type).due)
      (same : (other.name == name) = true) : other ∈ due := by
    rcases mem_due_enter.mp member with ⟨names, found, inside, -, -⟩ | old
    · exact absurd ⟨own, names, other.name, found, inside, same⟩ idle
    · exact old
  refine ⟨?_, fun other member same => only other (old member same) same, ?_⟩
  · rintro ⟨at_, names, waiter, found, member, same⟩
    exact idle ⟨at_, names, waiter, (find?_waiting_enter found).2, member, same⟩
  · rcases called with ⟨other, member, same⟩ | declared
    · exact .inl ⟨other, mem_due_enter.mpr (.inr member), same⟩
    · exact .inr declared

theorem Step.called {item : CType} (step : Step desk event after)
    (others : ∀ own, event.subject? = some own → (own == name) = false)
    (called : Called name item desk) : Called name item after := by
  obtain ⟨idle, only, called⟩ := called
  cases step with
  | declare registry own type =>
    refine .enter idle only (called.imp_right fun ⟨number, found⟩ => ⟨number, ?_⟩)
    exact (Graph.find?_enter_of_ne (others own rfl) type).trans found
  | wake registry first rest =>
    refine .enter idle (fun due member => only due (List.mem_cons_of_mem _ member)) ?_
    cases same : first.name == name with
    | true =>
      obtain ⟨named, made⟩ := only first List.mem_cons_self same
      refine .inr ⟨registry.graph.issued, ?_⟩
      rw [Graph.find?_enter_of_same same, named, made]
    | false =>
      rcases called with ⟨due, member, equal⟩ | ⟨number, found⟩
      · rcases List.mem_cons.mp member with rfl | member
        · rw [same] at equal
          cases equal
        · exact .inl ⟨due, member, equal⟩
      · exact .inr ⟨number, (Graph.find?_enter_of_ne same _).trans found⟩
  | defer registry tag own =>
    refine ⟨?_, only, called⟩
    rw [awaited_defer, others own rfl]
    simpa using idle
  | mark declarations _ same =>
    rw [Graph.find?, ← declarations] at called
    exact ⟨same ▸ idle, only, called⟩

section
variable {fits : Graph → Event → Prop} {before : Desk} {late : List Event}
  (others : ∀ event ∈ late, ∀ own, event.subject? = some own → (own == name) = false)

include others

/-- A name that is neither given, nor waits, nor is due keeps its entry. -/
theorem Runs.idle (run : Runs fits before late after) (idle : ¬ before.Pending name) :
    after.registry.graph.find? name = before.registry.graph.find? name := by
  have kept := run.keeps (P := fun desk => ¬ desk.Pending name ∧
    desk.registry.graph.find? name = before.registry.graph.find? name)
    (fun {_ event _} member step _ kept => by
      have next := step.idle kept.1 (others event member)
      exact ⟨next.1, next.2.trans kept.2⟩) ⟨idle, rfl⟩
  exact kept.2

theorem Runs.overtaken {number : Nat} (run : Runs fits before late after)
    (overtaken : Overtaken number name before) : Overtaken number name after :=
  run.keeps (P := Overtaken number name)
    (fun {_ event _} member step _ kept => step.overtaken (others event member) kept) overtaken

theorem Runs.called {item : CType} (run : Runs fits before late after)
    (called : Called name item before) : Called name item after :=
  run.keeps (P := Called name item)
    (fun {_ event _} member step _ kept => step.called (others event member) kept) called

/-- The only typedef of a name becomes an alias of what is declared under its tag. -/
theorem Runs.sole (run : Runs fits before late after) (sole : Sole tag name before)
    (done : after.due = []) (nothing : after.registry.waiting = []) :
    ∃ early event rest own item number, late = early ++ event :: rest ∧
      event.entry? = some (own, item) ∧ (own == tag) = true ∧
        after.registry.graph.find? name = some ((Registry.aliasOf name item).numbered number) := by
  induction run with
  | nil =>
    obtain ⟨names, found, -⟩ := sole.waits
    rw [nothing] at found
    cases found
  | @cons _ _ _ event events step _ rest ih =>
    have later : ∀ event ∈ events, ∀ own, event.subject? = some own → (own == name) = false :=
      fun other member => others other (List.mem_cons_of_mem _ member)
    rcases step.sole (others event List.mem_cons_self) sole with still | ⟨own, item, entry, same, called⟩
    · obtain ⟨early, declared, more, own, item, number, rfl, answer⟩ := ih later still done nothing
      exact ⟨_ :: early, declared, more, own, item, number, rfl, answer⟩
    · have last := rest.called later called
      rcases last.called with ⟨due, member, -⟩ | ⟨number, found⟩
      · rw [done] at member
        cases member
      · exact ⟨[], event, events, own, item, number, rfl, entry, same, found⟩

/-- What is declared under a name last is what the name stands for in the end, just if no typedef of
the name was pending. -/
theorem Runs.declared {number : Nat}
    (run : Runs fits before (.declare name type number :: late) after) (fresh : type.serial = none)
    (done : after.due = []) (nothing : after.registry.waiting = []) :
    after.registry.graph.find? name = some (type.numbered number) ↔ ¬ before.Pending name := by
  cases run with
  | cons step _ rest =>
    cases step with
    | declare registry =>
      constructor
      · intro found pending
        have start : Overtaken registry.graph.issued name (enter { registry } name type) :=
          ⟨Nat.lt_succ_self _, .inl (pending_enter.mpr pending)⟩
        obtain ⟨-, pending | ⟨item, last, other, numbered, more⟩⟩ := rest.overtaken others start
        · rcases pending with ⟨tag, names, own, found, -⟩ | ⟨due, member, -⟩
          · rw [nothing] at found
            cases found
          · rw [done] at member
            cases member
        · obtain rfl := Option.some.inj (found.symm.trans other)
          obtain rfl := Option.some.inj ((CType.serial_numbered fresh _).symm.trans numbered)
          exact Nat.lt_irrefl _ more
      · intro idle
        rw [rest.idle others (mt pending_enter.mp idle)]
        exact Graph.find?_enter_of_same BEq.rfl _

/-- A typedef that waits last under a name is what the name stands for in the end, if none of the name
was pending. -/
theorem Runs.deferred (run : Runs fits before (.defer tag name :: late) after)
    (idle : ¬ before.Pending name) (done : after.due = []) (nothing : after.registry.waiting = []) :
    ∃ early event rest own item number, late = early ++ event :: rest ∧
      event.entry? = some (own, item) ∧ (own == tag) = true ∧
        after.registry.graph.find? name = some ((Registry.aliasOf name item).numbered number) := by
  cases run with
  | cons step _ rest =>
    cases step with
    | defer registry =>
      refine rest.sole others ⟨?_, fun at_ names own found member same => ?_, nofun⟩ done nothing
      · exact ⟨_, find?_waiting_defer_self registry, by simp⟩
      · rcases find?_waiting_defer found with ⟨equal, rfl⟩ | ⟨-, before⟩
        · rcases List.mem_append.mp member with inside | last
          · cases waits : Table.find? tag registry.waiting with
            | none =>
              rw [waits] at inside
              cases inside
            | some before =>
              rw [waits] at inside
              exact absurd (.inl ⟨tag, before, own, waits, inside, same⟩) idle
          · exact ⟨List.mem_singleton.mp last, BEq.symm equal⟩
        · exact absurd (.inl ⟨at_, names, own, before, member, same⟩) idle

end

end

end Desk

end Resolve

end NativeBindings
