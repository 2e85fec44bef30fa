import NativeBindings.Emit.Module

/-!
Where a module uses marshalers and where it defines them. Fragments are supplied if each of them
uses only what is given from outside or what a fragment before it defines.
-/
namespace NativeBindings.Emit

namespace Fragment

variable {m : Marshaler}

@[simp] theorem used_append (first second : List Piece) :
    used (first ++ second) = used first ++ used second := List.filterMap_append

@[simp] theorem used_text (s : String) (rest : List Piece) : used (.text s :: rest) = used rest := rfl

@[simp] theorem used_use (rest : List Piece) : used (.use m :: rest) = m :: used rest := rfl

@[simp] theorem used_define (rest : List Piece) : used (.define m :: rest) = used rest := rfl

@[simp] theorem used_nil : used [] = [] := rfl

@[simp] theorem defined_append (first second : List Piece) :
    defined (first ++ second) = defined first ++ defined second := List.filterMap_append

@[simp] theorem defined_text (s : String) (rest : List Piece) :
    defined (.text s :: rest) = defined rest := rfl

@[simp] theorem defined_define (rest : List Piece) :
    defined (.define m :: rest) = m :: defined rest := rfl

@[simp] theorem defined_nil : defined [] = [] := rfl

end Fragment

section
variable (options : Options) (level : Nat) (pieces : List Piece)

@[simp] theorem used_put : (put options level pieces).used = Fragment.used pieces := by
  simp [put, line]

@[simp] theorem defined_put : (put options level pieces).defined = Fragment.defined pieces := by
  simp [put, line]

@[simp] theorem used_blankLine : blankLine.used = [] := rfl

variable (ident type : String)

@[simp] theorem used_readerHead : (readerHead options ident type).used = [] := by
  simp [readerHead]

@[simp] theorem used_writerHead : (writerHead options ident type).used = [] := by
  simp [writerHead]

@[simp] theorem defined_readerHead :
    (readerHead options ident type).defined = [{ direction := .reading, ident }] := by
  simp [readerHead]

@[simp] theorem defined_writerHead :
    (writerHead options ident type).defined = [{ direction := .writing, ident }] := by
  simp [writerHead]

end

/-- The marshalers that fragments define. -/
def definedIn (fragments : List Fragment) : List Marshaler := fragments.flatMap Fragment.defined

theorem mem_definedIn {m : Marshaler} {fragments : List Fragment} :
    m ∈ definedIn fragments ↔ ∃ fragment ∈ fragments, m ∈ fragment.defined := List.mem_flatMap

theorem definedIn_append (first second : List Fragment) :
    definedIn (first ++ second) = definedIn first ++ definedIn second := List.flatMap_append

/-- Each fragment uses only marshalers that are given or that a fragment before it defines. -/
def Supplied (given : Marshaler → Prop) : List Fragment → Prop
  | [] => True
  | fragment :: rest =>
    (∀ m ∈ fragment.used, given m) ∧ Supplied (fun m => given m ∨ m ∈ fragment.defined) rest

section
variable {given more : Marshaler → Prop}

theorem Supplied.mono {fragments : List Fragment} (supplied : Supplied given fragments)
    (wider : ∀ m, given m → more m) : Supplied more fragments := by
  induction fragments generalizing given more with
  | nil => trivial
  | cons fragment rest ih =>
    refine ⟨fun m used => wider m (supplied.1 m used), ih supplied.2 ?_⟩
    rintro m (outside | inside)
    · exact .inl (wider m outside)
    · exact .inr inside

theorem supplied_append {first second : List Fragment} :
    Supplied given (first ++ second) ↔
      Supplied given first ∧ Supplied (fun m => given m ∨ m ∈ definedIn first) second := by
  induction first generalizing given with
  | nil => simp [Supplied, definedIn]
  | cons fragment rest ih =>
    simp only [List.cons_append, Supplied, ih, and_assoc, definedIn, List.flatMap_cons,
      List.mem_append, or_assoc]

theorem supplied_of_used {fragments : List Fragment}
    (used : ∀ fragment ∈ fragments, ∀ m ∈ fragment.used, given m) : Supplied given fragments := by
  induction fragments generalizing given with
  | nil => trivial
  | cons fragment rest ih =>
    refine ⟨used fragment (by simp), ih fun other member m inside => .inl ?_⟩
    exact used other (by simp [member]) m inside

theorem supplied_of_unused {fragments : List Fragment}
    (unused : ∀ fragment ∈ fragments, fragment.used = []) : Supplied given fragments := by
  refine supplied_of_used fun fragment member m used => ?_
  simp [unused fragment member] at used

theorem supplied_flatten {groups : List (List Fragment)}
    (supplied : ∀ group ∈ groups, Supplied given group) : Supplied given groups.flatten := by
  induction groups generalizing given with
  | nil => trivial
  | cons group rest ih =>
    rw [List.flatten_cons, supplied_append]
    refine ⟨supplied group (by simp), ih fun other member => ?_⟩
    exact (supplied other (by simp [member])).mono fun m => .inl

/-- A fragment of a supplied row finds all it uses before it. -/
theorem Supplied.before {first second : List Fragment} {fragment : Fragment}
    (supplied : Supplied given (first ++ fragment :: second)) {m : Marshaler}
    (used : m ∈ fragment.used) : given m ∨ ∃ earlier ∈ first, m ∈ earlier.defined := by
  rw [← mem_definedIn]
  exact (supplied_append.mp supplied).2.1 m used

end

end NativeBindings.Emit
