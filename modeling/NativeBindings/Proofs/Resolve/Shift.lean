import NativeBindings.Proofs.Resolve.TopLevel
import NativeBindings.Proofs.Unnumbered

/-!
Declarations that come later. A name that is declared again moves behind what was declared since. If it
is declared as before and no name and no pointer among those is mistaken for it, then whatever is looked
up is the same but for serial numbers and detours of aliases, and stays so when more is declared.
-/
namespace NativeBindings

namespace CType.View

/-- A view of what another view shows, if that one leaves the targets of aliases. -/
def through (outer inner : View) (plain : ∀ own target, inner.aim own target = target) : View where
  look type := outer.look (inner.look type)
  mark header := outer.mark (inner.mark header)
  aim := outer.aim
  name header := (outer.name _).trans (inner.name header)
  size header := (outer.size _).trans (inner.size header)
  builtin _ _ := by simp
  given _ _ := by simp
  named _ _ := by simp [plain]
  handle _ _ := by simp
  pointer _ _ _ := by simp
  array _ _ _ := by simp
  enum _ _ := by simp
  record _ _ := by simp [View.field]
  union _ _ := by simp [View.field]
  signature _ _ _ := by simp [View.parameter]
  callback _ _ _ _ := by simp [View.parameter]
  bare _ := by simp

/-- Types without serial numbers and without the detours of their aliases. -/
def essential : View := straight.through unnumbered fun _ _ => rfl

theorem essential_numbered (serial : Nat) (type : CType) :
    essential.look (type.numbered serial) = essential.look type :=
  congrArg CType.straight (CType.unnumbered_numbered serial type)

end CType.View

namespace Resolve

open Json Act

/-- Entries of two tables: what stands in front, what comes late in the second one, what it has been
passed by there, and what follows in both. -/
structure Shift where
  front : Table Label CType := []
  late : Table Label CType := []
  passed : Table Label CType := []
  back : Table Label CType := []

namespace Shift

variable (shift : Shift)

def before : Table Label CType := shift.front ++ (shift.late ++ shift.passed) ++ shift.back

def after : Table Label CType := shift.front ++ (shift.passed ++ shift.late) ++ shift.back

/-- A shift of one name past entries of some sort. No other entry has the name, and no named pointer is
passed by another one to its base. -/
structure Of (name : Label) (sort : Label × CType → Prop) : Prop where
  own : ∀ entry ∈ shift.late, (entry.1 == name) = true
  apart : shift.late ≠ [] → ∀ entry ∈ shift.front ++ shift.passed ++ shift.back, (entry.1 == name) = false
  pointers : ∀ base isConst, ∀ entry ∈ shift.late, ∀ other ∈ shift.passed,
    Graph.isPointerTo base isConst entry.2 = true → Graph.isPointerTo base isConst other.2 = false
  passes : ∀ entry ∈ shift.passed, sort entry

/-- The tables after one more declaration. -/
def enter (name : Label) (type : CType) : Shift where
  front := Table.erase name shift.front
  late := Table.erase name shift.late
  passed := Table.erase name shift.passed
  back := Table.erase name shift.back ++ [(name, type)]

variable {shift} {own : Label} {sort : Label × CType → Prop}

theorem before_enter (name : Label) (type : CType) :
    (shift.enter name type).before = Table.erase name shift.before ++ [(name, type)] := by
  simp [before, enter, Table.erase]

theorem after_enter (name : Label) (type : CType) :
    (shift.enter name type).after = Table.erase name shift.after ++ [(name, type)] := by
  simp [after, enter, Table.erase]

theorem Of.enter (of : shift.Of own sort) (name : Label) (type : CType) :
    (shift.enter name type).Of own sort where
  own entry member := of.own entry (List.mem_filter.mp member).1
  apart some entry member := by
    obtain ⟨first, rest, left⟩ := List.exists_cons_of_ne_nil some
    have kept : first ∈ Table.erase name shift.late := by
      have among : first ∈ (shift.enter name type).late := by simp [left]
      exact among
    obtain ⟨present, other⟩ := List.mem_filter.mp kept
    have apart := of.apart (List.ne_nil_of_mem present)
    simp only [Shift.enter, Table.erase, List.mem_append, List.mem_filter, List.mem_singleton] at member
    rcases member with (⟨member, -⟩ | ⟨member, -⟩) | ⟨member, -⟩ | rfl
    · exact apart entry (by simp [member])
    · exact apart entry (by simp [member])
    · exact apart entry (by simp [member])
    · -- The new name is not that of the late entry, which was not given up for it.
      cases same : name == own with
      | false => rfl
      | true =>
        have named := of.own first present
        rw [BEq.comm] at same
        simp [bne, BEq.trans named same] at other
  pointers base isConst entry member other among :=
    of.pointers base isConst entry (List.mem_filter.mp member).1 other (List.mem_filter.mp among).1
  passes entry member := of.passes entry (List.mem_filter.mp member).1

/-- What is found first, if no late entry is found together with one that it passes. -/
theorem find?_after {p : Label × CType → Bool}
    (apart : ∀ entry ∈ shift.late, ∀ other ∈ shift.passed, p entry = true → p other = false) :
    List.find? p shift.before = List.find? p shift.after := by
  have swap : List.find? p (shift.late ++ shift.passed) =
      List.find? p (shift.passed ++ shift.late) := by
    rw [List.find?_append, List.find?_append]
    cases found : List.find? p shift.late with
    | none => rw [Option.none_or, Option.or_none]
    | some entry =>
      have none : List.find? p shift.passed = none := by
        rw [List.find?_eq_none]
        intro other among
        rw [apart entry (List.mem_of_find?_eq_some found) other among (List.find?_some found)]
        exact Bool.false_ne_true
      rw [none, Option.none_or, Option.some_or]
  simp only [List.find?_append] at swap
  simp only [before, after, List.find?_append, swap]

end Shift

section
variable {name : Label} {table : Table Label CType}

theorem erase_of_apart (apart : ∀ entry ∈ table, (entry.1 == name) = false) :
    Table.erase name table = table :=
  List.filter_eq_self.mpr fun entry member => by simp [bne, apart entry member]

end

theorem find?_eq_entry (name : Label) (table : Table Label CType) :
    Table.find? name table = (List.find? (fun entry => entry.1 == name) table).map (·.2) := by
  induction table with
  | nil => rfl
  | cons entry rest ih =>
    rw [Table.find?, List.find?_cons]
    cases entry.1 == name with
    | true => rfl
    | false => simpa using ih

theorem findPointer_eq_entry (graph : Graph) (base : Label) (isConst : Bool) :
    graph.findPointer base isConst =
      (List.find? (fun entry => Graph.isPointerTo base isConst entry.2) graph.declarations).map (·.2) := by
  rw [Graph.findPointer, Table.values, List.find?_map]
  rfl

/-- The entries of a graph without serial numbers and detours. -/
def entries (graph : Graph) : Table Label CType := (graph.seen .essential).declarations

/-- Graphs of which the second one has a name later, past entries of some sort. -/
def Shifted (name : Label) (sort : Label × CType → Prop) (graph graph' : Graph) : Prop :=
  ∃ shift : Shift, shift.Of name sort ∧ entries graph = shift.before ∧ entries graph' = shift.after

section
variable {name : Label} {sort : Label × CType → Prop} {graph graph' : Graph}

theorem entries_enter (graph : Graph) (name : Label) (type : CType) :
    entries (graph.enter (name, type)) =
      Table.erase name (entries graph) ++ [(name, CType.View.essential.look type)] := by
  rw [entries, seen_enter]
  exact congrArg (fun type => _ ++ [(name, type)]) (CType.View.essential_numbered _ _)

theorem shifted_same (same : entries graph = entries graph') : Shifted name sort graph graph' := by
  refine ⟨{ front := entries graph }, ⟨?_, fun some => absurd rfl some, ?_, ?_⟩, ?_, ?_⟩
  · exact List.forall_mem_nil _
  · exact fun _ _ => List.forall_mem_nil _
  · exact List.forall_mem_nil _
  · simp [Shift.before]
  · simp [Shift.after, same]

theorem Shifted.sees (shifted : Shifted name sort graph graph') : Sees .essential graph graph' := by
  obtain ⟨shift, of, before, after⟩ := shifted
  constructor
  · intro other
    rw [← graph.find?_seen, ← graph'.find?_seen]
    change Table.find? other (entries graph) = Table.find? other (entries graph')
    rw [before, after, find?_eq_entry, find?_eq_entry, Shift.find?_after]
    intro entry member passing among named
    have apart := of.apart (List.ne_nil_of_mem member) passing (by simp [among])
    cases same : passing.1 == other with
    | false => rfl
    | true =>
      rw [BEq.comm] at named
      rw [BEq.trans same (BEq.trans named (of.own entry member))] at apart
      cases apart
  · intro base isConst
    rw [← graph.findPointer_seen, ← graph'.findPointer_seen, findPointer_eq_entry, findPointer_eq_entry]
    change (List.find? _ (entries graph)).map _ = (List.find? _ (entries graph')).map _
    rw [before, after, Shift.find?_after (of.pointers base isConst)]

/-- Without the name the graphs are the same. -/
theorem Shifted.erase (shifted : Shifted name sort graph graph') :
    Table.erase name (entries graph') = Table.erase name (entries graph) := by
  obtain ⟨shift, of, before, after⟩ := shifted
  have gone : Table.erase name shift.late = [] :=
    List.filter_eq_nil_iff.mpr fun entry member => by simp [bne, of.own entry member]
  have cut (one other : Table Label CType) :
      Table.erase name (one ++ other) = Table.erase name one ++ Table.erase name other :=
    List.filter_append ..
  rw [before, after, Shift.before, Shift.after]
  simp only [cut, gone, List.nil_append, List.append_nil]

/-- A name that is declared again as it was moves behind what was declared since, unless it is a named
pointer and one of these is another one to its base. -/
theorem shifted_again {type : CType} {front back : Table Label CType}
    (listed : entries graph = front ++ (name, type) :: back)
    (apart : ∀ entry ∈ front ++ back, (entry.1 == name) = false)
    (pointers : ∀ base isConst, ∀ other ∈ back,
      Graph.isPointerTo base isConst type = true → Graph.isPointerTo base isConst other.2 = false)
    (passes : ∀ entry ∈ back, sort entry)
    (again : entries graph' = Table.erase name (entries graph) ++ [(name, type)]) :
    Shifted name sort graph graph' := by
  have erased : Table.erase name (entries graph) = front ++ back := by
    rw [listed, Table.erase, List.filter_append, List.filter_cons_of_neg (by simp [bne]),
      ← List.filter_append]
    exact erase_of_apart apart
  refine ⟨{ front, late := [(name, type)], passed := back }, ⟨?_, ?_, ?_, passes⟩, ?_, ?_⟩
  · simp
  · intro _ entry member
    exact apart entry (by simpa using member)
  · intro base isConst entry member other among
    obtain rfl := List.mem_singleton.mp member
    exact pointers base isConst other among
  · simp [Shift.before, listed]
  · simp [Shift.after, again, erased]

end

/-- Graphs of which the second one has a name later, other serial numbers and other detours. -/
def Outlook.shifted (name : Label) (sort : Label × CType → Prop) : Outlook where
  view := .essential
  graphs := Shifted name sort
  refl _ := shifted_same rfl
  sees := Shifted.sees
  numbered _ same :=
    (CType.View.essential_numbered _ _).trans (same.trans (CType.View.essential_numbered _ _).symm)
  enter other type type' := by
    rintro ⟨shift, of, before, after⟩ same
    refine ⟨shift.enter other (CType.View.essential.look type), of.enter _ _, ?_, ?_⟩
    · rw [entries_enter, before, Shift.before_enter]
    · rw [entries_enter, after, Shift.after_enter]
      exact congrArg (fun type => _ ++ [(other, type)]) same.symm
  addPointer _ shifted := shifted
  addCallback _ shifted := shifted

end Resolve

end NativeBindings
