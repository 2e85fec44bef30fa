import Mathlib.Algebra.BigOperators.Group.List.Basic
import Mathlib.Tactic.Ring
import NativeBindings.Proofs.Debug.Whole

/-!
Sizes of types in debug information whose links may run in circles. A type without a size of its own
takes that of the type it names, an array as many times as it has items. The size is found just if at
most 32 such links lead to an entry that has one; everything else is a layout fault.
-/
namespace NativeBindings.Debug

open Outcome

def arrayTag : String := "DW_TAG_array_type"

/-- Whether an entry takes its size from the type that it names. -/
structure Entry.Forwards (entry : Entry) : Prop where
  unsized : entry.value? "byte_size" = none
  tag : entry.isTransparent = true ∨ entry.tag = "DW_TAG_enumeration_type" ∨ entry.tag = arrayTag

/-- The size that an entry has by itself: the one it tells, or that of a pointer. -/
inductive Entry.Measures (entry : Entry) : Int → Prop
  | told {n : Int} (sized : entry.value? "byte_size" = some (.int n)) : Measures entry n
  | pointer (unsized : entry.value? "byte_size" = none) (tag : entry.tag ∈ pointerTags) :
    Measures entry 8

/-- The length of a dimension; none if it is flexible. -/
def Entry.extent? (entry : Entry) : Option Int :=
  match entry.value? "count" with
  | some count => count.integer?
  | none => (entry.value? "upper_bound").bind fun bound => bound.integer?.map (· + 1)

section
variable (info : Info)

def dimensions (entry : Entry) : List Entry :=
  (info.childrenOf entry).filter fun child => child.tag == "DW_TAG_subrange_type"

/-- How many items an array has: the product of its dimensions, or none if one of them is flexible. -/
def items (entry : Entry) : Int :=
  (((dimensions info entry).mapM Entry.extent?).map List.prod).getD 0

/-- How many items of the last type one of the first takes, where these entries are passed. -/
def repetitions (passed : List Entry) : Int :=
  ((passed.filter fun entry => entry.tag == arrayTag).map (items info)).prod

/-- From an entry links lead to another one, past entries that have no size of their own. -/
inductive Leads : Entry → List Entry → Entry → Prop
  | here (entry : Entry) : Leads entry [] entry
  | link {entry next last : Entry} {passed : List Entry} (forwards : entry.Forwards)
    (linked : info.typeOf entry = .ok (some next)) (rest : Leads next passed last) :
    Leads entry (entry :: passed) last

/-- Whether every link leads to an entry, or to nothing. -/
def Info.Closed : Prop := ∀ entry ∈ info.entries, ∀ id, entry.type ≠ .lost id

/-- What an entry measures, where so many entries may be seen on the way. -/
def Reaches (left : Nat) (entry : Entry) (n : Int) : Prop :=
  ∃ passed last size, Leads info entry passed last ∧ passed.length < left ∧ last.Measures size ∧
    n = size * repetitions info passed

end

theorem Entry.Forwards.unmeasured {entry : Entry} (forwards : entry.Forwards) (n : Int) :
    ¬ entry.Measures n := by
  rintro (sized | ⟨-, tag⟩)
  · rw [forwards.unsized] at sized
    cases sized
  · have apart : ∀ tag ∈ pointerTags, transparentTags.contains tag = false ∧
        tag ≠ "DW_TAG_enumeration_type" ∧ tag ≠ arrayTag := by decide
    obtain ⟨solid, other, single⟩ := apart entry.tag tag
    rcases forwards.tag with transparent | same | same
    · rw [Entry.isTransparent, solid] at transparent
      cases transparent
    · exact other same
    · exact single same

theorem Entry.Measures.unique {entry : Entry} {m n : Int} (first : entry.Measures m)
    (second : entry.Measures n) : m = n := by
  cases first with
  | told sized =>
    cases second with
    | told sized' => exact Json.int.inj (Option.some.inj (sized.symm.trans sized'))
    | pointer unsized => cases sized.symm.trans unsized
  | pointer unsized =>
    cases second with
    | told sized => cases sized.symm.trans unsized
    | pointer => rfl

section
variable {info : Info} {entry next : Entry} {left : Nat}

/-! ### What an entry reaches -/

theorem reaches_measured {size : Int} (measures : entry.Measures size) (n : Int) :
    Reaches info (left + 1) entry n ↔ n = size := by
  constructor
  · rintro ⟨passed, last, own, leads, -, measured, rfl⟩
    cases leads with
    | here => rw [measures.unique measured]; simp [repetitions]
    | link forwards => exact absurd measures (forwards.unmeasured size)
  · rintro rfl
    exact ⟨[], entry, n, .here entry, Nat.succ_pos left, measures, by simp [repetitions]⟩

theorem not_reaches_stuck (stuck : ¬ entry.Forwards) (unmeasured : ∀ n, ¬ entry.Measures n) (n : Int) :
    ¬ Reaches info left entry n := by
  rintro ⟨passed, last, size, leads, -, measured, -⟩
  cases leads with
  | here => exact unmeasured size measured
  | link forwards => exact stuck forwards

theorem not_reaches_unlinked (forwards : entry.Forwards) (unlinked : info.typeOf entry = .ok none) (n : Int) :
    ¬ Reaches info left entry n := by
  rintro ⟨passed, last, size, leads, -, measured, -⟩
  cases leads with
  | here => exact forwards.unmeasured size measured
  | link _ linked => cases unlinked.symm.trans linked

theorem not_reaches_spent (n : Int) : ¬ Reaches info 0 entry n := by
  rintro ⟨passed, last, size, -, within, -⟩
  exact Nat.not_lt_zero _ within

theorem repetitions_cons (entry : Entry) (passed : List Entry) :
    repetitions info (entry :: passed) =
      (if entry.tag == arrayTag then items info entry else 1) * repetitions info passed := by
  rw [repetitions, List.filter_cons]
  split
  · rw [List.map_cons, List.prod_cons, repetitions]
  · rw [one_mul, repetitions]

/-- One link further is one link less. -/
theorem reaches_linked (forwards : entry.Forwards) (linked : info.typeOf entry = .ok (some next)) (n : Int) :
    Reaches info (left + 1) entry n ↔
      ∃ m, Reaches info left next m ∧ n = m * if entry.tag == arrayTag then items info entry else 1 := by
  constructor
  · rintro ⟨passed, last, size, leads, within, measured, rfl⟩
    cases leads with
    | here => exact absurd measured (forwards.unmeasured size)
    | @link _ other _ passed _ linked' rest =>
      obtain rfl := Option.some.inj (Except.ok.inj (linked.symm.trans linked'))
      refine ⟨_, ⟨passed, last, size, rest, Nat.lt_of_succ_lt_succ within, measured, rfl⟩, ?_⟩
      rw [repetitions_cons]
      ring
  · rintro ⟨m, ⟨passed, last, size, rest, within, measured, rfl⟩, rfl⟩
    refine ⟨entry :: passed, last, size, .link forwards linked rest, Nat.succ_lt_succ within, measured, ?_⟩
    rw [repetitions_cons]
    ring

end

/-! ### What is computed -/

/-- A computation finds the integer that has a property, or ends with a layout fault if there is none. -/
def Finds (P : Int → Prop) (outcome : Except Fault Amount) : Prop :=
  (∃ n, outcome = .ok (.int n) ∧ ∀ m, P m ↔ m = n) ∨
    (∃ reason, outcome = .error (.layout reason)) ∧ ∀ m, ¬ P m

section
variable {info : Info} {entry : Entry} {left : Nat}

theorem Info.Closed.typeOf (closed : info.Closed) (member : entry ∈ info.entries) :
    ∃ type, info.typeOf entry = .ok type := by
  unfold Info.typeOf
  cases linked : entry.type with
  | nothing => exact ⟨none, rfl⟩
  | entry n => exact ⟨info.entry? n, rfl⟩
  | lost id => exact absurd linked (closed entry member id)

theorem byteSizeWith_none (left : Nat) :
    byteSizeWith info left none = .error (.layout "cannot size an unknown (void) type") := by
  cases left <;> rfl

/-- What is made of the size of the next type is found if that size is. -/
theorem finds_forwarded {type : Option Entry} {outcome : Except Fault Amount} (forwards : entry.Forwards)
    (linked : info.typeOf entry = .ok type)
    (inner : ∀ next ∈ type, Finds (Reaches info left next) (byteSizeWith info left (some next)))
    (sized : ∀ n, byteSizeWith info left type = .ok (.int n) →
      outcome = .ok (.int (n * if entry.tag == arrayTag then items info entry else 1)))
    (failed : ∀ reason, byteSizeWith info left type = .error (.layout reason) →
      outcome = .error (.layout reason)) : Finds (Reaches info (left + 1) entry) outcome := by
  cases type with
  | none => exact .inr ⟨⟨_, failed _ (byteSizeWith_none left)⟩, not_reaches_unlinked forwards linked⟩
  | some next =>
    rcases inner next rfl with ⟨n, found, unique⟩ | ⟨⟨reason, fault⟩, nothing⟩
    · refine .inl ⟨_, sized n found, fun m => ?_⟩
      rw [reaches_linked forwards linked]
      simp [unique]
    · refine .inr ⟨⟨reason, failed reason fault⟩, fun m => ?_⟩
      rw [reaches_linked forwards linked]
      simp [nothing]

variable (whole : info.Whole)
include whole

theorem dimension_eq (member : entry ∈ info.entries) :
    dimension entry = .ok (entry.extent?.map Json.int) := by
  unfold dimension Entry.extent?
  cases counted : entry.value? "count" with
  | some count =>
    obtain ⟨n, rfl⟩ := whole entry member "count" (by simp [wholeKeys]) count counted
    rfl
  | none =>
    cases bounded : entry.value? "upper_bound" with
    | none => rfl
    | some bound =>
      obtain ⟨n, rfl⟩ := whole entry member "upper_bound" (by simp [wholeKeys]) bound bounded
      rfl

/-- The factor is multiplied by every dimension, unless one of them is flexible. -/
theorem arrayLengthFrom_eq {children : List Entry} (inside : ∀ child ∈ children, child ∈ info.entries)
    (factor : Int) :
    arrayLengthFrom (.int factor) children = .ok (.int
      ((((children.filter fun child => child.tag == "DW_TAG_subrange_type").mapM
        Entry.extent?).map fun extents => factor * extents.prod).getD 0)) := by
  induction children generalizing factor with
  | nil => simp [arrayLengthFrom]
  | cons child rest ih =>
    obtain ⟨first, others⟩ := List.forall_mem_cons.mp inside
    rw [arrayLengthFrom, List.filter_cons]
    cases ranges : child.tag == "DW_TAG_subrange_type" with
    | false =>
      rw [if_pos (by simp [bne, ranges]), if_neg (by simp)]
      exact ih others factor
    | true =>
      rw [if_neg (by simp [bne, ranges]), if_pos rfl, dimension_eq whole first, List.mapM_cons]
      cases extent : child.extent? with
      | none => rfl
      | some n =>
        have walked := ih others (factor * n)
        change arrayLengthFrom (.int (factor * n)) rest = _
        rw [walked]
        cases (rest.filter fun child => child.tag == "DW_TAG_subrange_type").mapM Entry.extent? with
        | none => rfl
        | some extents => simp [mul_assoc]

theorem arrayLength_eq : arrayLength info entry = .ok (.int (items info entry)) := by
  rw [arrayLength, arrayLengthFrom_eq whole fun child member => mem_of_childrenOf member]
  simp [items, dimensions]

variable (closed : info.Closed)
include closed

theorem byteSizeWith_finds (left : Nat) (member : entry ∈ info.entries) :
    Finds (Reaches info left entry) (byteSizeWith info left (some entry)) := by
  induction left generalizing entry with
  | zero => exact .inr ⟨⟨_, rfl⟩, not_reaches_spent⟩
  | succ left ih =>
    obtain ⟨type, linked⟩ := closed.typeOf member
    have inside : ∀ next ∈ type, next ∈ info.entries := by
      rintro next rfl
      exact mem_of_typeOf linked
    rw [byteSizeWith]
    cases told : entry.value? "byte_size" with
    | some size =>
      obtain ⟨n, rfl⟩ := whole entry member "byte_size" (by simp [wholeKeys]) size told
      exact .inl ⟨n, rfl, reaches_measured (.told told)⟩
    | none =>
      dsimp only
      split
      next passes =>
        have tag : entry.isTransparent = true ∨ entry.tag = "DW_TAG_enumeration_type" := by
          simpa using passes
        have single : (entry.tag == arrayTag) = false := by
          have apart : ∀ tag ∈ transparentTags, (tag == arrayTag) = false := by decide
          rcases tag with transparent | same
          · exact apart entry.tag (List.contains_iff_mem.mp transparent)
          · rw [same]; decide
        have forwards : entry.Forwards := ⟨told, tag.imp_right .inl⟩
        rw [linked]
        apply finds_forwarded forwards linked fun next same => ih (inside next same)
        · intro n sized
          change byteSizeWith info left type = _
          simp [sized, single]
        · exact fun reason failed => failed
      next solid =>
        split
        next pointer =>
          exact .inl ⟨8, rfl, reaches_measured (.pointer told (List.contains_iff_mem.mp pointer))⟩
        next other =>
          split
          next array =>
            have forwards : entry.Forwards := ⟨told, .inr (.inr (eq_of_beq array))⟩
            rw [linked, arrayLength_eq whole]
            apply finds_forwarded forwards linked fun next same => ih (inside next same)
            · intro n sized
              change (byteSizeWith info left type >>= fun item => Amount.times item _) = _
              have single : (entry.tag == arrayTag) = true := array
              rw [sized, if_pos single]
              rfl
            · intro reason failed
              change (byteSizeWith info left type >>= fun item => Amount.times item _) = _
              rw [failed]
              rfl
          next single =>
            refine .inr ⟨⟨_, rfl⟩, not_reaches_stuck ?_ ?_⟩
            · rintro ⟨-, transparent | same | same⟩
              · simp [transparent] at solid
              · simp [same] at solid
              · simp [same, arrayTag] at single
            · rintro n (sized | ⟨-, tag⟩)
              · cases told.symm.trans sized
              · exact other (List.contains_iff_mem.mpr tag)

/-- The size of an entry is what it reaches within 32 links; otherwise it is a layout fault. -/
theorem byteSize_eq_ok_iff (member : entry ∈ info.entries) :
    (∀ n, byteSize info (some entry) = .ok n ↔
      ∃ passed last size, Leads info entry passed last ∧ passed.length ≤ 32 ∧ last.Measures size ∧
        n = .int (size * repetitions info passed)) ∧
    ∀ fault, byteSize info (some entry) = .error fault → ∃ reason, fault = .layout reason := by
  have reached (n : Amount) : (∃ passed last size, Leads info entry passed last ∧ passed.length ≤ 32 ∧
      last.Measures size ∧ n = .int (size * repetitions info passed)) ↔
        ∃ m, Reaches info (maxLinks + 1) entry m ∧ n = .int m := by
    constructor
    · rintro ⟨passed, last, size, leads, within, measured, rfl⟩
      exact ⟨_, ⟨passed, last, size, leads, Nat.lt_succ_of_le within, measured, rfl⟩, rfl⟩
    · rintro ⟨_, ⟨passed, last, size, leads, within, measured, rfl⟩, rfl⟩
      exact ⟨passed, last, size, leads, Nat.le_of_lt_succ within, measured, rfl⟩
  simp only [reached]
  rw [byteSize]
  rcases byteSizeWith_finds whole closed (maxLinks + 1) member with
    ⟨m, found, unique⟩ | ⟨⟨reason, failed⟩, nothing⟩
  · rw [found]
    exact ⟨fun n => by simp [unique, eq_comm], fun fault wrong => by cases wrong⟩
  · rw [failed]
    exact ⟨fun n => by simp [nothing], fun fault same => ⟨reason, (Except.error.inj same).symm⟩⟩

end

/-- A typedef of an array of two rows of three constants. -/
def grid : Entry where
  tag := "DW_TAG_typedef"
  type := .entry 1

def gridRows : Entry where
  tag := "DW_TAG_array_type"
  type := .entry 2
  children := [4, 5]

def gridCell : Entry where
  tag := "DW_TAG_const_type"
  type := .entry 3

def gridNumber : Entry where
  tag := "DW_TAG_base_type"
  attributes := [("byte_size", .int 4)]

/-- A typedef of itself. -/
def loop : Entry where
  tag := "DW_TAG_typedef"
  type := .entry 6

def gridInfo : Info where
  entries := [grid, gridRows, gridCell, gridNumber,
    { tag := "DW_TAG_subrange_type", attributes := [("count", .int 2)] },
    { tag := "DW_TAG_subrange_type", attributes := [("upper_bound", .int 2)] }, loop]

theorem byteSize_eq_ok_iff_grid :
    gridInfo.Whole ∧ gridInfo.Closed ∧ byteSize gridInfo (some grid) = .ok (.int 24) ∧
      ∃ reason, byteSize gridInfo (some loop) = .error (.layout reason) := by
  have whole : gridInfo.Whole := by
    simp [Info.Whole, gridInfo, wholeKeys, Entry.value?, Table.find?, IsWhole, grid, gridRows, gridCell,
      gridNumber, loop]
  have closed : gridInfo.Closed := by
    simp [Info.Closed, gridInfo, grid, gridRows, gridCell, gridNumber, loop]
  refine ⟨whole, closed, ?_, ?_⟩
  · apply ((byteSize_eq_ok_iff whole closed (.head _)).1 _).mpr
    refine ⟨[grid, gridRows, gridCell], gridNumber, 4, ?_, by decide, .told rfl, rfl⟩
    exact .link ⟨rfl, .inl rfl⟩ rfl <| .link ⟨rfl, .inr (.inr rfl)⟩ rfl <|
      .link ⟨rfl, .inl rfl⟩ rfl <| .here gridNumber
  · have fails : ∃ fault, byteSize gridInfo (some loop) = .error fault := ⟨_, rfl⟩
    obtain ⟨fault, fails⟩ := fails
    have member : loop ∈ gridInfo.entries := by simp [gridInfo]
    obtain ⟨reason, rfl⟩ := (byteSize_eq_ok_iff whole closed member).2 fault fails
    exact ⟨reason, fails⟩

end NativeBindings.Debug
