/-!
Tables: entries in the order in which their keys came first. A key keeps the form in which it came
first; whether two forms are one key is for the key type to say.
-/
namespace NativeBindings

abbrev Table (κ α : Type) := List (κ × α)

namespace Table

variable {κ α : Type}

def keys (table : Table κ α) : List κ := table.map (·.1)

def values (table : Table κ α) : List α := table.map (·.2)

variable [BEq κ]

def find? (key : κ) : Table κ α → Option α
  | [] => none
  | (other, value) :: rest => if other == key then some value else find? key rest

/-- Sets a key: in its place if it is there, at the end if not. -/
def insert (key : κ) (value : α) : Table κ α → Table κ α
  | [] => [(key, value)]
  | (other, old) :: rest =>
    if other == key then (other, value) :: rest else (other, old) :: insert key value rest

def erase (key : κ) (table : Table κ α) : Table κ α := table.filter fun entry => entry.1 != key

def has (key : κ) (table : Table κ α) : Bool := (find? key table).isSome

/-- Sets every entry of the second table in the first one. -/
def insertAll (table more : Table κ α) : Table κ α :=
  more.foldl (fun table (key, value) => insert key value table) table

attribute [local simp] find? insert

theorem find?_insert_self [ReflBEq κ] (key : κ) (value : α) (table : Table κ α) :
    find? key (insert key value table) = some value := by
  induction table with
  | nil => simp
  | cons entry rest ih =>
    obtain ⟨other, old⟩ := entry
    cases same : other == key <;> simp [same, ih]

theorem find?_insert_of_ne [EquivBEq κ] {key other : κ} (apart : (key == other) = false)
    (value : α) (table : Table κ α) :
    find? other (insert key value table) = find? other table := by
  induction table with
  | nil => simp [apart]
  | cons entry rest ih =>
    obtain ⟨first, old⟩ := entry
    cases same : first == key with
    | true => simp [same, BEq.congr_left same, apart]
    | false => simp [same, ih]

theorem find?_insert [LawfulBEq κ] [DecidableEq κ] (key other : κ) (value : α) (table : Table κ α) :
    find? other (insert key value table) = if key = other then some value else find? other table := by
  split
  next same => rw [← same, find?_insert_self]
  next apart => exact find?_insert_of_ne (beq_false_of_ne apart) value table

theorem find?_congr [EquivBEq κ] {key other : κ} (same : (key == other) = true) (table : Table κ α) :
    find? key table = find? other table := by
  induction table with
  | nil => rfl
  | cons entry rest ih => rw [find?, find?, BEq.congr_right same, ih]

theorem find?_erase_self (key : κ) (table : Table κ α) : find? key (erase key table) = none := by
  induction table with
  | nil => rfl
  | cons entry rest ih =>
    obtain ⟨other, old⟩ := entry
    cases same : other == key
    · simpa [erase, bne, same] using ih
    · simpa [erase, bne, same] using ih

theorem erase_of_absent {key : κ} {table : Table κ α} (absent : find? key table = none) :
    erase key table = table := by
  induction table with
  | nil => rfl
  | cons entry rest ih =>
    obtain ⟨other, old⟩ := entry
    rw [find?] at absent
    split at absent
    next => cases absent
    next apart =>
      have kept : erase key ((other, old) :: rest) = (other, old) :: erase key rest :=
        List.filter_cons_of_pos (by simp [bne, apart])
      rw [kept, ih absent]

theorem find?_erase_of_ne [EquivBEq κ] {key other : κ} (apart : (key == other) = false)
    (table : Table κ α) : find? other (erase key table) = find? other table := by
  induction table with
  | nil => rfl
  | cons entry rest ih =>
    obtain ⟨first, value⟩ := entry
    simp only [erase, bne] at ih
    cases same : first == key with
    | true => simp [erase, bne, same, BEq.congr_left same, apart, ih]
    | false => simp [erase, bne, same, ih]

theorem erase_comm (key other : κ) (table : Table κ α) :
    erase key (erase other table) = erase other (erase key table) := by
  rw [erase, erase, erase, erase, List.filter_filter, List.filter_filter]
  exact List.filter_congr fun _ _ => Bool.and_comm _ _

theorem erase_insert_of_ne [EquivBEq κ] {key other : κ} (apart : (key == other) = false) (value : α)
    (table : Table κ α) : erase key (insert other value table) = insert other value (erase key table) := by
  have kept : (other != key) = true := by simp [bne, BEq.comm, apart]
  induction table with
  | nil => simp [erase, kept]
  | cons entry rest ih =>
    obtain ⟨first, old⟩ := entry
    rw [erase, erase] at ih
    cases same : first == other with
    | true =>
      have firstKept : (first != key) = true := by simpa [bne, BEq.congr_left same] using kept
      simp [erase, same, firstKept]
    | false => cases taken : first != key <;> simp [erase, same, taken, ih]

theorem has_cons_of_ne {key other : κ} (apart : (other == key) = false) (value : α)
    (table : Table κ α) : has key ((other, value) :: table) = has key table := by
  simp [has, apart]

theorem keys_insert (key : κ) (value : α) (table : Table κ α) :
    keys (insert key value table) =
      if has key table then keys table else keys table ++ [key] := by
  induction table with
  | nil => simp [keys, has]
  | cons entry rest ih =>
    obtain ⟨other, old⟩ := entry
    cases same : other == key with
    | true => simp [keys, has, same]
    | false =>
      rw [has_cons_of_ne same]
      cases found : has key rest <;> simpa [keys, same, found] using ih

theorem insert_of_absent {key : κ} {value : α} {table : Table κ α}
    (absent : has key table = false) : insert key value table = table ++ [(key, value)] := by
  induction table with
  | nil => rfl
  | cons entry rest ih =>
    obtain ⟨other, old⟩ := entry
    cases same : other == key with
    | true => simp [has, same] at absent
    | false =>
      rw [has_cons_of_ne same] at absent
      simp [same, ih absent]

theorem length_insert_of_present {key : κ} {value : α} {table : Table κ α}
    (present : has key table = true) : (insert key value table).length = table.length := by
  induction table with
  | nil => simp [has] at present
  | cons entry rest ih =>
    obtain ⟨other, old⟩ := entry
    cases same : other == key with
    | true => simp [same]
    | false =>
      rw [has_cons_of_ne same] at present
      simp [same, ih present]

theorem length_insert_le (key : κ) (value : α) (table : Table κ α) :
    (insert key value table).length ≤ table.length + 1 := by
  cases present : has key table with
  | true =>
    rw [length_insert_of_present present]
    omega
  | false => simp [insert_of_absent present]

theorem length_erase_le (key : κ) (table : Table κ α) : (erase key table).length ≤ table.length :=
  List.length_filter_le ..

theorem length_erase_lt {key : κ} {table : Table κ α} (present : has key table = true) :
    (erase key table).length < table.length := by
  induction table with
  | nil => simp [has] at present
  | cons entry rest ih =>
    obtain ⟨other, old⟩ := entry
    cases same : other == key with
    | true =>
      have shorter := length_erase_le key rest
      simp only [erase, bne, List.filter_cons, same, List.length_cons] at shorter ⊢
      simpa using Nat.lt_succ_of_le shorter
    | false =>
      rw [has_cons_of_ne same] at present
      have shorter := ih present
      simp only [erase, bne, List.filter_cons, same, List.length_cons] at shorter ⊢
      simpa using shorter

theorem mem_of_find? {key : κ} {value : α} {table : Table κ α}
    (found : find? key table = some value) : ∃ own, (own == key) = true ∧ (own, value) ∈ table := by
  induction table with
  | nil => simp at found
  | cons entry rest ih =>
    obtain ⟨other, old⟩ := entry
    rw [find?] at found
    split at found
    · obtain rfl := Option.some.inj found
      exact ⟨other, ‹_›, by simp⟩
    · obtain ⟨own, same, member⟩ := ih found
      exact ⟨own, same, by simp [member]⟩

theorem has_of_mem [ReflBEq κ] {key : κ} {value : α} {table : Table κ α}
    (member : (key, value) ∈ table) : has key table = true := by
  induction table with
  | nil => cases member
  | cons entry rest ih =>
    obtain ⟨other, old⟩ := entry
    rcases List.mem_cons.mp member with same | inside
    · obtain ⟨rfl, rfl⟩ := Prod.mk.inj same
      simp [has]
    · cases same : other == key with
      | true => simp [has, same]
      | false =>
        rw [has_cons_of_ne same]
        exact ih inside

/-- A key is in a table if it is among its keys. -/
theorem has_iff_keys {key : κ} {table : Table κ α} :
    has key table = true ↔ ∃ own ∈ keys table, (own == key) = true := by
  induction table with
  | nil => simp [has, keys]
  | cons entry rest ih =>
    obtain ⟨other, value⟩ := entry
    cases same : other == key with
    | true => simp [has, keys, same]
    | false =>
      rw [has_cons_of_ne same, ih]
      simp [keys, same]

/-- Setting a key leaves every key in one place. -/
theorem nodup_insert [LawfulBEq κ] {key : κ} {value : α} {table : Table κ α}
    (apart : (keys table).Nodup) : (keys (insert key value table)).Nodup := by
  rw [keys_insert]
  split
  · exact apart
  next absent =>
    rw [List.nodup_append]
    refine ⟨apart, List.pairwise_singleton _ _, ?_⟩
    rintro own member other (_ | ⟨_, ⟨⟩⟩) rfl
    exact absent (has_iff_keys.mpr ⟨own, member, beq_self_eq_true own⟩)

/-- An entry after a key was set was there before, or is the key with the new value. -/
theorem mem_insert_value {key : κ} {value : α} {table : Table κ α} {entry : κ × α}
    (member : entry ∈ insert key value table) :
    entry ∈ table ∨ entry.2 = value ∧ (entry.1 = key ∨ ∃ old, (entry.1, old) ∈ table) := by
  induction table with
  | nil =>
    obtain rfl := List.mem_singleton.mp member
    exact .inr ⟨rfl, .inl rfl⟩
  | cons first rest ih =>
    obtain ⟨other, old⟩ := first
    rw [insert] at member
    split at member
    · rcases List.mem_cons.mp member with rfl | member
      · exact .inr ⟨rfl, .inr ⟨old, by simp⟩⟩
      · exact .inl (by simp [member])
    · rcases List.mem_cons.mp member with rfl | member
      · exact .inl (by simp)
      · rcases ih member with before | ⟨same, own | ⟨old, before⟩⟩
        · exact .inl (by simp [before])
        · exact .inr ⟨same, .inl own⟩
        · exact .inr ⟨same, .inr ⟨old, by simp [before]⟩⟩

/-- An entry after a key was set is the new one or has the key of an entry before. -/
theorem mem_insert {key : κ} {value : α} {table : Table κ α} {entry : κ × α}
    (member : entry ∈ insert key value table) :
    entry = (key, value) ∨ ∃ old, (entry.1, old) ∈ table := by
  obtain before | ⟨same, own | before⟩ := mem_insert_value member
  · exact .inr ⟨entry.2, before⟩
  · exact .inl (Prod.ext own same)
  · exact .inr before

/-- What is found in a table with every key in one place is what is there. -/
theorem find?_eq_some_iff [LawfulBEq κ] {key : κ} {value : α} {table : Table κ α}
    (apart : (keys table).Nodup) : find? key table = some value ↔ (key, value) ∈ table := by
  induction table with
  | nil => simp
  | cons entry rest ih =>
    obtain ⟨other, first⟩ := entry
    obtain ⟨fresh, apart⟩ := List.nodup_cons.mp apart
    rw [find?]
    split
    next same =>
      obtain rfl := eq_of_beq same
      have absent : (other, value) ∉ rest := fun member =>
        fresh (List.mem_map.mpr ⟨_, member, rfl⟩)
      simp [absent, eq_comm]
    next differs =>
      have other_key : key ≠ other := fun same => differs (beq_iff_eq.mpr same.symm)
      simp [ih apart, other_key]

end Table

end NativeBindings
