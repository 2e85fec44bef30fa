import NativeBindings.Debug.Index
import NativeBindings.Proofs.Outcome

/-!
Debug information with integers for sizes and lengths, as compilers give them. Then the size of every
type and of every member is an integer.
-/
namespace NativeBindings

section
variable {κ α : Type} [BEq κ] {P : α → Prop} {key : κ} {value : α} {table more : Table κ α}

theorem Table.forall_insert (new : P value) (all : ∀ entry ∈ table, P entry.2) :
    ∀ entry ∈ insert key value table, P entry.2 := by
  induction table with
  | nil => simpa [insert] using new
  | cons entry rest ih =>
    obtain ⟨other, old⟩ := entry
    obtain ⟨first, others⟩ := List.forall_mem_cons.mp all
    rw [insert]
    split
    · exact List.forall_mem_cons.mpr ⟨new, others⟩
    · exact List.forall_mem_cons.mpr ⟨first, ih others⟩

theorem Table.forall_insertAll (all : ∀ entry ∈ table, P entry.2) (new : ∀ entry ∈ more, P entry.2) :
    ∀ entry ∈ insertAll table more, P entry.2 := by
  induction more generalizing table with
  | nil => exact all
  | cons entry rest ih =>
    obtain ⟨first, others⟩ := List.forall_mem_cons.mp new
    exact ih (forall_insert first all) others

theorem Table.forall_find? (all : ∀ entry ∈ table, P entry.2) (found : find? key table = some value) :
    P value := by
  obtain ⟨own, -, member⟩ := mem_of_find? found
  exact all _ member

end

namespace Debug

open Outcome

/-- Whether a size is an integer. -/
def IsWhole (n : Amount) : Prop := ∃ k, n = .int k

/-- The attributes that are sizes or lengths. -/
def wholeKeys : List String := ["byte_size", "count", "upper_bound"]

/-- Whether the attributes of all entries that are sizes or lengths are integers. -/
def Info.Whole (info : Info) : Prop :=
  ∀ entry ∈ info.entries, ∀ key ∈ wholeKeys, ∀ value, entry.value? key = some value → IsWhole value

section
variable {info : Info}

theorem mem_of_entry? {i : Nat} {entry : Entry} (found : info.entry? i = some entry) :
    entry ∈ info.entries :=
  List.mem_of_getElem? found

theorem mem_of_typeOf {entry inner : Entry} (linked : info.typeOf entry = .ok (some inner)) :
    inner ∈ info.entries := by
  unfold Info.typeOf at linked
  split at linked
  · cases linked
  · exact mem_of_entry? (Except.ok.inj linked)
  · obtain ⟨_, _, wrong⟩ := bind_eq_ok.mp linked
    cases wrong

theorem mem_of_childrenOf {entry child : Entry} (member : child ∈ info.childrenOf entry) :
    child ∈ info.entries := by
  obtain ⟨i, -, found⟩ := List.mem_filterMap.mp member
  exact mem_of_entry? found

variable (whole : info.Whole)
include whole

theorem dimension_whole {entry : Entry} {n : Amount} (member : entry ∈ info.entries)
    (sized : dimension entry = .ok (some n)) : IsWhole n := by
  unfold dimension at sized
  split at sized
  next found =>
    obtain rfl := Option.some.inj (Except.ok.inj sized)
    exact whole entry member "count" (by simp [wholeKeys]) _ found
  next bound _ found =>
    obtain ⟨k, rfl⟩ := whole entry member "upper_bound" (by simp [wholeKeys]) bound found
    obtain rfl := Option.some.inj (Except.ok.inj sized)
    exact ⟨k + 1, rfl⟩
  · cases sized

theorem arrayLengthFrom_whole {factor n : Amount} {entries : List Entry} (start : IsWhole factor)
    (inside : ∀ entry ∈ entries, entry ∈ info.entries)
    (length : arrayLengthFrom factor entries = .ok n) : IsWhole n := by
  induction entries generalizing factor with
  | nil =>
    obtain rfl := Except.ok.inj length
    exact start
  | cons entry rest ih =>
    obtain ⟨first, others⟩ := List.forall_mem_cons.mp inside
    rw [arrayLengthFrom] at length
    split at length
    · exact ih start others length
    · obtain ⟨found, sized, length⟩ := bind_eq_ok.mp length
      cases found with
      | none => exact ⟨0, (pure_eq_ok.mp length).symm⟩
      | some m =>
        obtain ⟨k, rfl⟩ := start
        obtain ⟨l, rfl⟩ := dimension_whole whole first sized
        obtain ⟨next, product, length⟩ := bind_eq_ok.mp length
        exact ih ⟨k * l, (Except.ok.inj product).symm⟩ others length

/-- The size of a type is an integer. -/
theorem byteSizeWith_whole {left : Nat} {entry : Option Entry} {n : Amount}
    (member : ∀ own ∈ entry, own ∈ info.entries) (sized : byteSizeWith info left entry = .ok n) :
    IsWhole n := by
  induction left generalizing entry n with
  | zero => cases entry <;> cases sized
  | succ left ih =>
    cases entry with
    | none => cases sized
    | some entry =>
      have listed := member entry rfl
      rw [byteSizeWith] at sized
      split at sized
      next size found =>
        obtain rfl := Except.ok.inj sized
        exact whole entry listed "byte_size" (by simp [wholeKeys]) _ found
      split at sized
      · obtain ⟨type, linked, sized⟩ := bind_eq_ok.mp sized
        refine ih (fun own same => ?_) sized
        obtain rfl : type = some own := same
        exact mem_of_typeOf linked
      split at sized
      · exact ⟨_, (Except.ok.inj sized).symm⟩
      split at sized
      · obtain ⟨type, linked, sized⟩ := bind_eq_ok.mp sized
        obtain ⟨item, inside, sized⟩ := bind_eq_ok.mp sized
        obtain ⟨length, counted, sized⟩ := bind_eq_ok.mp sized
        have listed' : ∀ own ∈ type, own ∈ info.entries := by
          intro own same
          obtain rfl : type = some own := same
          exact mem_of_typeOf linked
        obtain ⟨k, rfl⟩ := ih listed' inside
        obtain ⟨l, rfl⟩ := arrayLengthFrom_whole whole ⟨1, rfl⟩
          (fun child member => mem_of_childrenOf member) counted
        exact ⟨k * l, (Except.ok.inj sized).symm⟩
      · cases sized

theorem typeSize_whole {entry : Entry} {type : Option Entry} {n : Amount}
    (linked : info.typeOf entry = .ok type) (sized : byteSize info type = .ok n) : IsWhole n := by
  refine byteSizeWith_whole whole (fun own same => ?_) sized
  obtain rfl : type = some own := same
  exact mem_of_typeOf linked

def WholePlace (place : Int × Amount) : Prop := IsWhole place.2

/-- Members whose sizes are integers. -/
def WholeMembers (members : Members) : Prop := ∀ member ∈ members, WholePlace member.2

theorem membersFrom_whole {inside : Entry → Int → Except Fault Members}
    (within : ∀ entry base found, inside entry base = .ok found → WholeMembers found) {record : Entry}
    {base : Int} {done found : Members} {children : List Entry} (start : WholeMembers done)
    (collected : membersFrom info inside record base done children = .ok found) : WholeMembers found := by
  induction children generalizing done with
  | nil =>
    obtain rfl := Except.ok.inj collected
    exact start
  | cons child rest ih =>
    rw [membersFrom] at collected
    split at collected
    · exact ih start collected
    obtain ⟨type, linked, collected⟩ := bind_eq_ok.mp collected
    obtain ⟨offset, -, collected⟩ := bind_eq_ok.mp collected
    split at collected
    · obtain ⟨inner, -, collected⟩ := bind_eq_ok.mp collected
      split at collected
      · split at collected
        · obtain ⟨more, nested, collected⟩ := bind_eq_ok.mp collected
          have added : WholeMembers (Table.insertAll done more) :=
            Table.forall_insertAll (P := WholePlace) start (within _ _ more nested)
          exact ih added collected
        · exact ih start collected
      · exact ih start collected
    · split at collected
      · exact ih start collected
      · obtain ⟨size, sized, collected⟩ := bind_eq_ok.mp collected
        have added (name : String) : WholeMembers (Table.insert name (base + offset, size) done) :=
          Table.forall_insert (P := WholePlace) (typeSize_whole whole linked sized) start
        exact ih (added _) collected

theorem membersWith_whole {fuel : Nat} {record : Entry} {base : Int} {found : Members}
    (collected : membersWith info fuel record base = .ok found) : WholeMembers found := by
  induction fuel generalizing record base found with
  | zero => cases collected
  | succ fuel ih =>
    exact membersFrom_whole whole (fun entry base found => ih) (List.forall_mem_nil _) collected

/-- A layout with integers for all sizes. -/
def TypeLayout.Whole (layout : TypeLayout) : Prop := IsWhole layout.size ∧ WholeMembers layout.members

theorem layout_whole {entry : Entry} {found : TypeLayout} (member : entry ∈ info.entries)
    (built : layout info entry = .ok found) : found.Whole := by
  obtain ⟨size, sized, built⟩ := bind_eq_ok.mp built
  have whole_size : IsWhole size := by
    refine byteSizeWith_whole whole (fun own same => ?_) sized
    obtain rfl : entry = own := Option.some.inj same
    exact member
  obtain ⟨record, -, built⟩ := bind_eq_ok.mp built
  split at built
  · split at built
    · obtain ⟨members, collected, built⟩ := bind_eq_ok.mp built
      obtain rfl := pure_eq_ok.mp built
      exact ⟨whole_size, membersWith_whole whole collected⟩
    · obtain rfl := pure_eq_ok.mp built
      exact ⟨whole_size, List.forall_mem_nil _⟩
  · obtain rfl := pure_eq_ok.mp built
    exact ⟨whole_size, List.forall_mem_nil _⟩

/-- An index of layouts with integers for all sizes. -/
def WholeIndex (index : Index) : Prop := ∀ entry ∈ index, entry.2.Whole

theorem addEntries_whole {index found : Index} {told : Journal} {entries : List Entry}
    (listed : ∀ entry ∈ entries, entry ∈ info.entries) (start : WholeIndex index)
    (built : (addEntries info index told entries).1 = .ok found) : WholeIndex found := by
  induction entries generalizing index told with
  | nil =>
    obtain rfl := Except.ok.inj built
    exact start
  | cons entry rest ih =>
    obtain ⟨first, others⟩ := List.forall_mem_cons.mp listed
    rw [addEntries] at built
    split at built
    next next more added =>
      refine ih others ?_ built
      unfold addEntry at added
      split at added
      · obtain ⟨rfl, -⟩ := Prod.mk.inj (Except.ok.inj added)
        exact start
      split at added
      · obtain ⟨rfl, -⟩ := Prod.mk.inj (Except.ok.inj added)
        exact start
      split at added
      next layout laid =>
        obtain ⟨rfl, -⟩ := Prod.mk.inj (Except.ok.inj added)
        exact Table.forall_insert (layout_whole whole first laid) start
      · split at added
        · obtain ⟨rfl, -⟩ := Prod.mk.inj (Except.ok.inj added)
          exact start
        · cases added
    · cases built

theorem index_whole {found : Index} (built : (Debug.index info).1 = .ok found) : WholeIndex found := by
  refine addEntries_whole whole (fun entry member => ?_) (List.forall_mem_nil _) built
  obtain ⟨i, -, found⟩ := List.mem_filterMap.mp member
  exact mem_of_entry? found

end

end Debug

end NativeBindings
