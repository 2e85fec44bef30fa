import NativeBindings.Proofs.Debug.NestedMembers

/-!
Places of members that are written as expressions. The expression adds a number to the address of the
record, and the number stands in it in groups of seven bits. A place is read as long as one group is
enough; a member further behind leaves its whole record without a layout.
-/
namespace NativeBindings.Debug

open Outcome

/-- A number in groups of seven bits, the lowest first; every byte but the last has its high bit set. -/
def leb128 (n : Nat) : List Nat :=
  if n < 128 then [n] else (n % 128 + 128) :: leb128 (n / 128)
termination_by n
decreasing_by omega

/-- The expression that adds a number to the address of the record, as the list of its bytes. -/
def adding (n : Nat) : Json := .arr (.int addConstant :: (leb128 n).map fun byte => .int byte)

theorem leb128_low {n : Nat} (low : n < 128) : leb128 n = [n] := by
  rw [leb128, if_pos low]

theorem leb128_high {n : Nat} (high : 128 ≤ n) :
    ∃ first second rest, leb128 n = first :: second :: rest := by
  rw [leb128, if_neg (by omega)]
  have filled : leb128 (n / 128) ≠ [] := by
    rw [leb128]
    split <;> simp
  obtain ⟨second, rest, others⟩ := List.exists_cons_of_ne_nil filled
  exact ⟨_, second, rest, by rw [others]⟩

theorem fixedOffset_adding (n : Nat) :
    fixedOffset (adding n) = if n < 128 then some (n : Int) else none := by
  split
  next low =>
    rw [adding, leb128_low low]
    rfl
  next high =>
    obtain ⟨first, second, rest, bytes⟩ := leb128_high (Nat.le_of_not_lt high)
    rw [adding, bytes]
    rfl

section
variable {info : Info} {inside : Entry → Int → Except Fault Members} {record child : Entry}
  {base : Int} {done found : Members}

/-- Members are collected only if each of them has an offset. -/
theorem membersFrom_located {children : List Entry}
    (collected : membersFrom info inside record base done children = .ok found) :
    ∀ child ∈ children, child.tag = "DW_TAG_member" →
      ∃ offset, memberOffset record child = .ok offset := by
  induction children generalizing done with
  | nil => simp
  | cons first rest ih =>
    rw [List.forall_mem_cons]
    rw [membersFrom] at collected
    split at collected
    next other =>
      exact ⟨fun tag => by simp [tag] at other, ih collected⟩
    obtain ⟨type, -, collected⟩ := bind_eq_ok.mp collected
    obtain ⟨offset, located, collected⟩ := bind_eq_ok.mp collected
    refine ⟨fun _ => ⟨offset, located⟩, ?_⟩
    -- Whatever the member adds, the others are collected after it.
    split at collected
    · obtain ⟨inner, -, collected⟩ := bind_eq_ok.mp collected
      split at collected
      · split at collected
        · obtain ⟨more, -, collected⟩ := bind_eq_ok.mp collected
          exact ih collected
        · exact ih collected
      · exact ih collected
    · split at collected
      · exact ih collected
      · obtain ⟨size, -, collected⟩ := bind_eq_ok.mp collected
        exact ih collected

/-- A named member whose place is an expression that adds a number. -/
structure Adds (info : Info) (child : Entry) (name : String) (n : Nat) (size : Amount) : Prop where
  tag : child.tag = "DW_TAG_member"
  named : child.nameText = some name
  whole : child.has "bit_size" = false
  place : child.value? "data_member_location" = some (adding n)
  typed : ∃ type, info.typeOf child = .ok (some type) ∧ byteSize info (some type) = .ok size

variable {name : String} {n : Nat} {size : Amount}

theorem Adds.isAt (adds : Adds info child name n size) (low : n < 128) : IsAt child n := by
  rw [IsAt, adds.place]
  exact (fixedOffset_adding n).trans (if_pos low)

theorem Adds.unlocated (adds : Adds info child name n size) (high : 128 ≤ n) (offset : Int) :
    memberOffset record child ≠ .ok offset := by
  intro located
  have place : Table.find? "data_member_location" child.attributes = some (adding n) := adds.place
  have undecoded : fixedOffset (adding n) = none := (fixedOffset_adding n).trans (if_neg (by omega))
  rw [memberOffset, place] at located
  dsimp only at located
  rw [undecoded] at located
  cases located

theorem Adds.uncollected (adds : Adds info child name n size) (high : 128 ≤ n)
    (member : child ∈ info.childrenOf record) : members info record base ≠ .ok found := by
  intro collected
  rw [members, membersWith] at collected
  obtain ⟨offset, located⟩ := membersFrom_located collected child member adds.tag
  exact adds.unlocated high offset located

/-- An expression is read just if its number fits into one byte. Then the member is placed at the base
and the number; otherwise the record around it has neither members nor a layout. -/
theorem adding_placed (adds : Adds info child name n size) (record : Entry) (base : Int) :
    (fixedOffset (adding n) = some (n : Int) ↔ n < 128) ∧
      (n < 128 → ∀ inside done rest, membersFrom info inside record base done (child :: rest) =
        membersFrom info inside record base (Table.insert name (base + n, size) done) rest) ∧
      (128 ≤ n → child ∈ info.childrenOf record → (∀ found, members info record base ≠ .ok found) ∧
        (record.isRecord = true → ∀ found, layout info record ≠ .ok found)) := by
  refine ⟨?_, fun low inside done rest => ?_, fun high member => ⟨fun found => ?_, ?_⟩⟩
  · rw [fixedOffset_adding]
    split <;> simp [*]
  · obtain ⟨type, linked, sized⟩ := adds.typed
    exact membersFrom_field adds.tag adds.named adds.whole (adds.isAt low) linked sized
  · exact adds.uncollected high member
  · intro sort found laid
    obtain ⟨size, -, laid⟩ := bind_eq_ok.mp laid
    rw [stripped_of_isRecord sort] at laid
    obtain ⟨inner, same, laid⟩ := bind_eq_ok.mp laid
    obtain rfl := Except.ok.inj same
    dsimp only at laid
    rw [if_pos sort] at laid
    obtain ⟨collected, done, -⟩ := bind_eq_ok.mp laid
    exact adds.uncollected high member done

end

def packet : Entry := recordEntry .struct "packet" 132 [1, 3]

/-- A word at the place that an expression gives. -/
def packetBody (n : Nat) : Entry where
  tag := "DW_TAG_member"
  name := some (.text "body")
  attributes := [("data_member_location", adding n)]
  type := .entry 2

def packetWord : Entry where
  tag := "DW_TAG_base_type"
  attributes := [("byte_size", .int 4)]

def packetInfo (n : Nat) : Info where
  entries := [packet, memberEntry "head" 0 1, packetWord, packetBody n]

theorem adding_placed_packet :
    Adds (packetInfo 4) (packetBody 4) "body" 4 (.int 4) ∧
      members (packetInfo 4) packet 0 = .ok [("head", (0, .int 4)), ("body", (4, .int 4))] ∧
      ∀ found, layout (packetInfo 300) packet ≠ .ok found := by
  have adds (n : Nat) : Adds (packetInfo n) (packetBody n) "body" n (.int 4) :=
    ⟨rfl, rfl, rfl, rfl, packetWord, rfl, rfl⟩
  refine ⟨adds 4, ?_, ?_⟩
  · exact (adding_placed (adds 4) packet 0).2.1 (by decide) _ [("head", (0, .int 4))] []
  · exact ((adding_placed (adds 300) packet 0).2.2 (by decide) (.tail _ (.head _))).2 rfl

/-- The first number that takes two bytes. -/
theorem adding_unread :
    adding 128 = .arr [.int 0x23, .int 0x80, .int 1] ∧ fixedOffset (adding 128) ≠ some 128 := by
  have bytes : adding 128 = .arr [.int 0x23, .int 0x80, .int 1] := by
    simp [adding, leb128, addConstant]
  refine ⟨bytes, ?_⟩
  rw [bytes]
  decide

end NativeBindings.Debug
