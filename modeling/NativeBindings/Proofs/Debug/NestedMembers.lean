import Mathlib.Data.List.Perm.Subperm
import NativeBindings.Proofs.Debug.Whole
import NativeBindings.Seed

/-!
Records of named fields and of unnamed records, nested to any depth, in debug information. The members
are collected at the sums of the offsets on the way to them, and the index has the record by its name.
-/
namespace NativeBindings

/-- A type that every graph starts with. -/
structure Builtin where
  spelling : String
  sown : spelling ∈ Seed.names

def Builtin.size (type : Builtin) : Amount :=
  ((Seed.sow {}).find? (.str type.spelling)).elim .null CType.size

inductive RecordKind where
  | struct
  | union

def RecordKind.word : RecordKind → String
  | .struct => "struct"
  | .union => "union"

/-- The members of a record: named fields and unnamed records, each at an offset. -/
inductive Body where
  | empty
  | field (name : String) (type : Builtin) (offset : Int) (rest : Body)
  | unnamed (kind : RecordKind) (offset : Int) (inside rest : Body)

namespace Body

/-- A named field, and where it is in the whole record. -/
structure Place where
  name : String
  type : Builtin
  offset : Int

/-- The named fields in order, each at the sum of the base and the offsets on the way to it. -/
def places (base : Int) : Body → List Place
  | empty => []
  | field name type offset rest => { name, type, offset := base + offset } :: rest.places base
  | unnamed _ offset inside rest => inside.places (base + offset) ++ rest.places base

def names : Body → List String
  | empty => []
  | field name _ _ rest => name :: rest.names
  | unnamed _ _ inside rest => inside.names ++ rest.names

/-- How deep unnamed records are nested. -/
def depth : Body → Nat
  | empty => 0
  | field _ _ _ rest => rest.depth
  | unnamed _ _ inside rest => max (inside.depth + 1) rest.depth

theorem names_places (body : Body) (base : Int) : (body.places base).map Place.name = body.names := by
  induction body generalizing base with
  | empty => rfl
  | field name type offset rest ih => simp [places, names, ih]
  | unnamed kind offset inside rest first second => simp [places, names, first, second]

end Body

section
variable {κ α : Type} [BEq κ] [LawfulBEq κ] {table more : Table κ α} {key : κ} {keys : List κ}

theorem Table.absent_of_nodup (apart : (Table.keys table ++ key :: keys).Nodup) :
    has key table = false := by
  rw [Bool.eq_false_iff]
  intro there
  obtain ⟨own, member, same⟩ := has_iff_keys.mp there
  obtain rfl := eq_of_beq same
  exact (List.nodup_append.mp apart).2.2 own member own List.mem_cons_self rfl

theorem Table.insertAll_of_nodup (apart : (Table.keys table ++ Table.keys more).Nodup) :
    insertAll table more = table ++ more := by
  induction more generalizing table with
  | nil => exact (List.append_nil table).symm
  | cons entry rest ih =>
    obtain ⟨key, value⟩ := entry
    have fresh : has key table = false := absent_of_nodup apart
    have moved : (Table.keys (table ++ [(key, value)]) ++ Table.keys rest).Nodup := by
      simpa [Table.keys] using apart
    have walked := ih moved
    rw [← insert_of_absent fresh, insertAll] at walked
    rw [insertAll, List.foldl_cons, walked, insert_of_absent fresh, List.append_assoc,
      List.singleton_append]

end

def RecordKind.tag : RecordKind → String
  | .struct => "DW_TAG_structure_type"
  | .union => "DW_TAG_union_type"

namespace Debug

section
variable (info : Info)

/-- A base type, or a typedef of one that so many links lead to at most. -/
inductive IsBase : Nat → Entry → Prop
  | base {left : Nat} {entry : Entry} {size : Amount} (tag : entry.tag = "DW_TAG_base_type")
      (sized : entry.value? "byte_size" = some size) : IsBase left entry
  | typedef {left : Nat} {entry inner : Entry} (tag : entry.tag = "DW_TAG_typedef")
      (unsized : entry.value? "byte_size" = none) (linked : info.typeOf entry = .ok (some inner))
      (base : IsBase left inner) : IsBase (left + 1) entry

/-- Whether a member is at an offset; one without a place is at the start. -/
def IsAt (member : Entry) (offset : Int) : Prop :=
  match member.value? "data_member_location" with
  | none => offset = 0
  | some place => fixedOffset place = some offset

/-- The entries of a record list its members: a field by its name and its type, an unnamed record by a
member without a name. What is no member counts for nothing. -/
inductive Lists : Body → List Entry → Prop
  | empty : Lists .empty []
  | other {body : Body} {child : Entry} {rest : List Entry} (tag : child.tag ≠ "DW_TAG_member")
      (others : Lists body rest) : Lists body (child :: rest)
  | field {name : String} {type : Builtin} {offset : Int} {body : Body} {child base : Entry}
      {rest : List Entry} (tag : child.tag = "DW_TAG_member") (named : child.nameText = some name)
      (whole : child.has "bit_size" = false) (place : IsAt child offset)
      (linked : info.typeOf child = .ok (some base)) (base : IsBase info maxLinks base)
      (others : Lists body rest) : Lists (.field name type offset body) (child :: rest)
  | unnamed {kind : RecordKind} {offset : Int} {inside body : Body} {child record : Entry}
      {rest : List Entry} (tag : child.tag = "DW_TAG_member") (unnamed : child.nameText = none)
      (place : IsAt child offset) (linked : info.typeOf child = .ok (some record))
      (sort : record.tag = kind.tag) (within : Lists inside (info.childrenOf record))
      (others : Lists body rest) : Lists (.unnamed kind offset inside body) (child :: rest)

end

section
variable {info : Info}

theorem IsBase.sized {left : Nat} {entry : Entry} (base : IsBase info left entry) :
    ∃ size, byteSizeWith info (left + 1) (some entry) = .ok size := by
  induction base with
  | base tag sized => exact ⟨_, by rw [byteSizeWith, sized]⟩
  | typedef tag unsized linked base ih =>
    obtain ⟨size, inside⟩ := ih
    refine ⟨size, ?_⟩
    rw [byteSizeWith, unsized]
    simp only [Entry.isTransparent, tag]
    rw [if_pos (by decide), linked]
    exact inside

theorem IsBase.plain {left : Nat} {entry : Entry} (base : IsBase info left entry) :
    ∃ inner, strippedWith info left (some entry) = .ok (some inner) ∧ inner.isRecord = false := by
  induction base with
  | base tag sized =>
    refine ⟨_, ?_, by rw [Entry.isRecord, tag]; decide⟩
    rw [strippedWith.eq_def]
    simp only [Entry.isTransparent, tag]
    rw [if_pos (by decide)]
  | typedef tag unsized linked base ih =>
    obtain ⟨inner, inside, plain⟩ := ih
    refine ⟨inner, ?_, plain⟩
    rw [strippedWith, linked]
    simp only [Entry.isTransparent, tag]
    rw [if_neg (by decide)]
    exact inside

theorem isRecord_of_kind {entry : Entry} {kind : RecordKind} (tag : entry.tag = kind.tag) :
    entry.isRecord = true := by
  rw [Entry.isRecord, tag]
  cases kind <;> decide

theorem isTransparent_of_isRecord {entry : Entry} (record : entry.isRecord = true) :
    entry.isTransparent = false := by
  have apart : ∀ tag ∈ recordTags, transparentTags.contains tag = false := by decide
  exact apart entry.tag (List.contains_iff_mem.mp record)

theorem stripped_of_isRecord {entry : Entry} (record : entry.isRecord = true) :
    stripped info (some entry) = .ok (some entry) := by
  rw [stripped, maxLinks, strippedWith, isTransparent_of_isRecord record]
  rfl

theorem memberOffset_eq {record member : Entry} {offset : Int} (place : IsAt member offset) :
    memberOffset record member = .ok offset := by
  rw [IsAt, Entry.value?] at place
  rw [memberOffset]
  split
  next absent =>
    rw [absent] at place
    rw [show offset = 0 from place]
  next found =>
    rw [found] at place
    rw [show fixedOffset _ = some offset from place]

section
variable {inside : Entry → Int → Except Fault Members} {record child : Entry} {rest : List Entry}
  {base offset : Int} {done : Members}

theorem membersFrom_other (tag : child.tag ≠ "DW_TAG_member") :
    membersFrom info inside record base done (child :: rest) =
      membersFrom info inside record base done rest := by
  rw [membersFrom, if_pos (bne_iff_ne.mpr tag)]

theorem membersFrom_field {name : String} {type : Entry} {size : Amount}
    (tag : child.tag = "DW_TAG_member") (named : child.nameText = some name)
    (whole : child.has "bit_size" = false) (place : IsAt child offset)
    (linked : info.typeOf child = .ok (some type)) (sized : byteSize info (some type) = .ok size) :
    membersFrom info inside record base done (child :: rest) =
      membersFrom info inside record base (Table.insert name (base + offset, size) done) rest := by
  rw [membersFrom, if_neg (by simp [tag]), linked, memberOffset_eq place, named]
  simp only [whole, bind, Except.bind, sized]
  rfl

theorem membersFrom_unnamed {inner : Entry} {more : Members} (tag : child.tag = "DW_TAG_member")
    (unnamed : child.nameText = none) (place : IsAt child offset)
    (linked : info.typeOf child = .ok (some inner)) (sort : inner.isRecord = true)
    (within : inside inner (base + offset) = .ok more) :
    membersFrom info inside record base done (child :: rest) =
      membersFrom info inside record base (Table.insertAll done more) rest := by
  rw [membersFrom, if_neg (by simp [tag]), linked, memberOffset_eq place, unnamed]
  simp only [bind, Except.bind, stripped_of_isRecord sort, sort, within]
  rfl

end

/-- What is collected is at the places of the named fields. -/
def Covers (found : Members) (places : List Body.Place) : Prop :=
  found.map (fun member => (member.1, member.2.1)) = places.map fun place => (place.name, place.offset)

theorem Covers.keys {found : Members} {body : Body} {base : Int}
    (covers : Covers found (body.places base)) : Table.keys found = body.names := by
  have names := congrArg (List.map Prod.fst) covers
  rw [List.map_map, List.map_map] at names
  exact names.trans (body.names_places base)

/-- The members of a record are collected in order, behind those before. -/
theorem membersFrom_lists {body : Body} {children : List Entry} (lists : Lists info body children)
    {fuel : Nat} (enough : body.depth ≤ fuel) (record : Entry) (base : Int) {done : Members}
    (apart : (Table.keys done ++ body.names).Nodup) :
    ∃ found, membersFrom info (membersWith info fuel) record base done children = .ok (done ++ found) ∧
      Covers found (body.places base) := by
  induction lists generalizing fuel record base done with
  | empty => exact ⟨[], by simp [membersFrom], rfl⟩
  | other tag others ih =>
    rw [membersFrom_other tag]
    exact ih enough record base apart
  | @field name type offset body child _ rest tag named whole place linked typed others ih =>
    obtain ⟨size, sized⟩ := typed.sized
    rw [membersFrom_field tag named whole place linked sized,
      Table.insert_of_absent (Table.absent_of_nodup apart)]
    have moved : (Table.keys (done ++ [(name, (base + offset, size))]) ++ body.names).Nodup := by
      simpa [Table.keys, Body.names] using apart
    obtain ⟨found, collected, covers⟩ := ih enough record base moved
    refine ⟨(name, (base + offset, size)) :: found, ?_, ?_⟩
    · rw [collected, List.append_assoc, List.singleton_append]
    · simpa [Covers, Body.places] using covers
  | @unnamed kind offset inside body child inner rest tag unnamed place linked sort within others first
      second =>
    rw [Body.depth, Nat.max_le] at enough
    obtain ⟨left, rfl⟩ : ∃ left, fuel = left + 1 := ⟨fuel - 1, by omega⟩
    rw [Body.names, ← List.append_assoc] at apart
    have upto : (Table.keys done ++ inside.names).Nodup := (List.nodup_append.mp apart).1
    have own : (Table.keys ([] : Members) ++ inside.names).Nodup := (List.nodup_append.mp upto).2.1
    obtain ⟨more, nested, nestedCovers⟩ :=
      first (Nat.le_of_succ_le_succ enough.1) inner (base + offset) own
    rw [membersFrom_unnamed tag unnamed place linked (isRecord_of_kind sort) nested, List.nil_append,
      Table.insertAll_of_nodup (by rwa [nestedCovers.keys])]
    have moved : (Table.keys (done ++ more) ++ body.names).Nodup := by
      rw [Table.keys, List.map_append]
      change ((Table.keys done ++ Table.keys more) ++ body.names).Nodup
      rwa [nestedCovers.keys]
    obtain ⟨found, collected, covers⟩ := second enough.2 record base moved
    refine ⟨more ++ found, ?_, ?_⟩
    · rw [collected, List.append_assoc]
    · rw [Covers, List.map_append, Body.places, List.map_append, nestedCovers, covers]

/-- One list of entries nests records to one depth. -/
theorem Lists.depth_eq {body other : Body} {children : List Entry} (lists : Lists info body children)
    (lists' : Lists info other children) : body.depth = other.depth := by
  induction lists generalizing other with
  | empty =>
    cases lists'
    rfl
  | other tag others ih =>
    cases lists' with
    | other _ others' => exact ih others'
    | field tag' => exact absurd tag' tag
    | unnamed tag' => exact absurd tag' tag
  | field tag named whole place linked typed others ih =>
    cases lists' with
    | other tag' => exact absurd tag tag'
    | field _ _ _ _ _ _ others' =>
      rw [Body.depth, Body.depth, ih others']
    | unnamed _ unnamed =>
      rw [named] at unnamed
      cases unnamed
  | unnamed tag unnamed place linked sort within others first second =>
    cases lists' with
    | other tag' => exact absurd tag tag'
    | field _ named =>
      rw [unnamed] at named
      cases named
    | unnamed _ _ _ linked' _ within' others' =>
      obtain rfl := Option.some.inj (Except.ok.inj (linked.symm.trans linked'))
      rw [Body.depth, Body.depth, first within', second others']

/-- The records on the deepest way down are different entries: each of them nests records less deep
than the one before. -/
theorem Lists.chain {body : Body} {children : List Entry} (lists : Lists info body children) :
    ∃ records : List Entry, records.length = body.depth ∧ records.Nodup ∧ ∀ record ∈ records,
      record ∈ info.entries ∧
        ∃ inside, Lists info inside (info.childrenOf record) ∧ inside.depth < body.depth := by
  induction lists with
  | empty => exact ⟨[], rfl, .nil, by simp⟩
  | other tag others ih => exact ih
  | field tag named whole place linked typed others ih => exact ih
  | @unnamed kind offset inside body child record rest tag unnamed place linked sort within others first
      second =>
    rw [Body.depth]
    rcases Nat.le_total (inside.depth + 1) body.depth with less | more
    · rw [Nat.max_eq_right less]
      exact second
    · rw [Nat.max_eq_left more]
      obtain ⟨records, length, distinct, all⟩ := first
      refine ⟨record :: records, by rw [List.length_cons, length], ?_, ?_⟩
      · refine List.nodup_cons.mpr ⟨fun member => ?_, distinct⟩
        obtain ⟨-, other, lists', deeper⟩ := all record member
        rw [within.depth_eq lists'] at deeper
        exact Nat.lt_irrefl _ deeper
      · refine List.forall_mem_cons.mpr ⟨?_, fun other member => ?_⟩
        · exact ⟨mem_of_typeOf linked, inside, within, Nat.lt_succ_self _⟩
        · obtain ⟨there, deep, lists', deeper⟩ := all other member
          exact ⟨there, deep, lists', Nat.lt_succ_of_lt deeper⟩

theorem Lists.depth_le {body : Body} {children : List Entry} (lists : Lists info body children) :
    body.depth ≤ info.entries.length := by
  obtain ⟨records, length, distinct, all⟩ := lists.chain
  rw [← length]
  exact (distinct.subperm fun record member => (all record member).1).length_le

/-- The entries that the units list. -/
def Info.listed (info : Info) : List Entry := info.units.flatten.filterMap info.entry?

/-- Debug information of a record under a name, with a size and with members. Whatever else it names is
a base type of another name. -/
structure Describes (info : Info) (name : String) (size : Int) (body : Body) (record : Entry) : Prop where
  listed : record ∈ info.listed
  sort : record.isRecord = true
  defined : definedName record = some name
  sized : record.value? "byte_size" = some (.int size)
  lists : Lists info body (info.childrenOf record)
  others : ∀ entry ∈ info.listed, ∀ own, definedName entry = some own →
    entry = record ∨ own ≠ name ∧ IsBase info maxLinks entry

section
variable {name : String} {size : Int} {body : Body} {record : Entry}

theorem IsBase.laid {entry : Entry} (base : IsBase info maxLinks entry) :
    ∃ found, layout info entry = .ok found := by
  obtain ⟨size, sized⟩ := base.sized
  obtain ⟨inner, plain, apart⟩ := base.plain
  refine ⟨{ size }, ?_⟩
  rw [layout, byteSize, sized, stripped, plain]
  simp only [bind, Except.bind, apart]
  rfl

theorem Describes.layout (describes : Describes info name size body record)
    (distinct : body.names.Nodup) :
    ∃ members, layout info record = .ok { size := .int size, members } ∧
      Covers members (body.places 0) := by
  have own : (Table.keys ([] : Members) ++ body.names).Nodup := distinct
  obtain ⟨members, collected, covers⟩ :=
    membersFrom_lists describes.lists describes.lists.depth_le record 0 own
  refine ⟨members, ?_, covers⟩
  have sized : byteSize info (some record) = .ok (.int size) := by
    rw [byteSize, byteSizeWith, describes.sized]
  have whole : Debug.members info record 0 = .ok members := by
    rw [Debug.members, membersWith, collected, List.nil_append]
  rw [Debug.layout, sized, stripped_of_isRecord describes.sort]
  simp only [bind, Except.bind, describes.sort, whole]
  rfl

/-- A type that has a layout is added, unless its name is there. -/
theorem addEntry_eq {entry : Entry} {own : String} {found : TypeLayout}
    (defined : definedName entry = some own) (laid : Debug.layout info entry = .ok found)
    (index : Index) :
    addEntry info index entry =
      .ok (if Table.has own index then index else Table.insert own found index, []) := by
  rw [addEntry, defined]
  dsimp only
  split
  · rfl
  · rw [laid]

/-- Whatever an entry adds, the name has no layout or that of the record; the record sees to it that the
name has one. -/
theorem addEntry_describes (describes : Describes info name size body record) {found : TypeLayout}
    (laid : Debug.layout info record = .ok found) {index : Index} {entry : Entry}
    (listed : entry ∈ info.listed)
    (before : Table.find? name index = none ∨ Table.find? name index = some found) :
    ∃ after told, addEntry info index entry = .ok (after, told) ∧
      (Table.find? name after = none ∨ Table.find? name after = some found) ∧
      (Table.find? name index = some found ∨ record = entry → Table.find? name after = some found) := by
  cases defined : definedName entry with
  | none =>
    refine ⟨index, [], by rw [addEntry, defined], before, fun known => known.resolve_right ?_⟩
    rintro rfl
    rw [describes.defined] at defined
    cases defined
  | some own =>
    rcases describes.others entry listed own defined with rfl | ⟨apart, base⟩
    · obtain rfl := Option.some.inj (describes.defined.symm.trans defined)
      refine ⟨_, _, addEntry_eq defined laid index, ?_⟩
      suffices there : Table.find? name (if Table.has name index then index
          else Table.insert name found index) = some found from ⟨.inr there, fun _ => there⟩
      split
      next has =>
        rcases before with absent | there
        · rw [Table.has, absent] at has
          cases has
        · exact there
      next => exact Table.find?_insert_self name found index
    · obtain ⟨other, laid'⟩ := base.laid
      have same : Table.find? name (if Table.has own index then index
          else Table.insert own other index) = Table.find? name index := by
        split
        · rfl
        · exact Table.find?_insert_of_ne (beq_false_of_ne apart) other index
      refine ⟨_, _, addEntry_eq defined laid' index, ?_⟩
      rw [same]
      refine ⟨before, fun known => known.resolve_right ?_⟩
      rintro rfl
      exact apart (Option.some.inj (defined.symm.trans describes.defined))

theorem addEntries_describes (describes : Describes info name size body record) {found : TypeLayout}
    (laid : Debug.layout info record = .ok found) {index : Index} {told : Journal}
    {entries : List Entry} (listed : ∀ entry ∈ entries, entry ∈ info.listed)
    (before : Table.find? name index = none ∨ Table.find? name index = some found) :
    ∃ after, (addEntries info index told entries).1 = .ok after ∧
      (Table.find? name index = some found ∨ record ∈ entries → Table.find? name after = some found) := by
  induction entries generalizing index told with
  | nil => exact ⟨index, rfl, fun known => known.resolve_right List.not_mem_nil⟩
  | cons entry rest ih =>
    obtain ⟨first, others⟩ := List.forall_mem_cons.mp listed
    obtain ⟨next, more, added, between, known⟩ := addEntry_describes describes laid first before
    rw [addEntries, added]
    obtain ⟨after, built, kept⟩ := @ih next (told ++ more) others between
    refine ⟨after, built, fun either => kept ?_⟩
    rcases either with there | member
    · exact .inl (known (.inl there))
    · exact (List.mem_cons.mp member).imp_left fun same => known (.inr same)

/-- The index has the record by its name, with the named fields at their places. -/
theorem index_describes (describes : Describes info name size body record)
    (distinct : body.names.Nodup) :
    ∃ found members, (index info).1 = .ok found ∧
      Table.find? name found = some { size := .int size, members } ∧ Covers members (body.places 0) := by
  obtain ⟨members, laid, covers⟩ := describes.layout distinct
  obtain ⟨found, built, kept⟩ := @addEntries_describes _ _ _ _ _ describes _ laid [] [] info.listed
    (fun _ member => member) (.inl rfl)
  exact ⟨found, members, built, kept (.inr describes.listed), covers⟩

theorem Covers.find? {members : Members} {base : Int} (covers : Covers members (body.places base))
    (distinct : body.names.Nodup) {place : Body.Place} (member : place ∈ body.places base) :
    ∃ size, Table.find? place.name members = some (place.offset, size) := by
  have there := List.mem_map_of_mem (f := fun place : Body.Place => (place.name, place.offset)) member
  rw [← covers, List.mem_map] at there
  obtain ⟨⟨own, offset, size⟩, inside, same⟩ := there
  obtain ⟨rfl, rfl⟩ := Prod.mk.inj same
  have apart : (Table.keys members).Nodup := by rwa [covers.keys]
  exact ⟨size, (Table.find?_eq_some_iff apart).mpr inside⟩

end

end

/-- A member with its type right after it. -/
def memberEntry (name : Option String) (offset : Int) (n : Nat) : Entry where
  tag := "DW_TAG_member"
  name := name.map .text
  attributes := [("data_member_location", .int offset)]
  type := .entry (n + 1)

def baseEntry (type : Builtin) : Entry where
  tag := "DW_TAG_base_type"
  name := some (.text type.spelling)
  attributes := [("byte_size", type.size)]

def recordEntry (kind : RecordKind) (name : Option String) (size : Int) (children : List Nat) :
    Entry where
  tag := kind.tag
  name := name.map .text
  attributes := [("byte_size", .int size)]
  children

end Debug

namespace Body

open Debug

/-- How many entries describe members. -/
def count : Body → Nat
  | empty => 0
  | field _ _ _ rest => rest.count + 2
  | unnamed _ _ inside rest => inside.count + rest.count + 2

/-- The numbers of the children of a record whose first child has a given number. An unnamed record is
a child beside the member of its type. -/
def numbers (n : Nat) : Body → List Nat
  | empty => []
  | field _ _ _ rest => n :: rest.numbers (n + 2)
  | unnamed _ _ inside rest => n :: (n + 1) :: rest.numbers (n + 2 + inside.count)

/-- The entries of members, each followed by its type, where the first one has a given number. -/
def entries (n : Nat) : Body → List Debug.Entry
  | empty => []
  | field name type offset rest => memberEntry name offset n :: baseEntry type :: rest.entries (n + 2)
  | unnamed kind offset inside rest =>
    memberEntry none offset n :: recordEntry kind none 0 (inside.numbers (n + 2)) ::
      (inside.entries (n + 2) ++ rest.entries (n + 2 + inside.count))

/-- The debug information of a record with these members. -/
def info (kind : RecordKind) (name : String) (size : Int) (body : Body) : Debug.Info where
  entries := recordEntry kind name size (body.numbers 1) :: body.entries 1
  units := [List.range (body.count + 1)]

def types : Body → List String
  | empty => []
  | field _ type _ rest => type.spelling :: rest.types
  | unnamed _ _ inside rest => inside.types ++ rest.types

theorem length_entries (body : Body) (n : Nat) : (body.entries n).length = body.count := by
  induction body generalizing n with
  | empty => rfl
  | field name type offset rest ih => simp [entries, count, ih]
  | unnamed kind offset inside rest first second => simp [entries, count, first, second]

theorem entry?_at {info : Debug.Info} {front back : List Debug.Entry} {entry : Debug.Entry} {n : Nat}
    (same : info.entries = front ++ entry :: back) (length : front.length = n) :
    info.entry? n = some entry := by
  rw [Debug.Info.entry?, same, ← length, List.getElem?_append_right (Nat.le_refl _), Nat.sub_self]
  rfl

/-- Where the entries of members are, they list the members. -/
theorem lists_entries {info : Debug.Info} {body : Body} {front back : List Debug.Entry} {n : Nat}
    (same : info.entries = front ++ (body.entries n ++ back)) (length : front.length = n) :
    Lists info body ((body.numbers n).filterMap info.entry?) := by
  induction body generalizing front back n with
  | empty => exact .empty
  | field name type offset rest ih =>
    have base : info.entry? (n + 1) = some (baseEntry type) := by
      refine @entry?_at _ (front ++ [memberEntry name offset n]) (rest.entries (n + 2) ++ back) _ _ ?_ ?_
      · simpa [entries] using same
      · simp [length]
    have others : Lists info rest ((rest.numbers (n + 2)).filterMap info.entry?) := by
      refine @ih (front ++ [memberEntry name offset n, baseEntry type]) back _ ?_ ?_
      · simpa [entries] using same
      · simp [length]
    rw [numbers, List.filterMap_cons_some (entry?_at same length)]
    exact .field rfl rfl rfl rfl (congrArg Except.ok base) (.base rfl rfl) others
  | unnamed kind offset inside rest first second =>
    let record := recordEntry kind none 0 (inside.numbers (n + 2))
    have type : info.entry? (n + 1) = some record := by
      refine @entry?_at _ (front ++ [memberEntry none offset n])
        (inside.entries (n + 2) ++ rest.entries (n + 2 + inside.count) ++ back) _ _ ?_ ?_
      · simpa [entries] using same
      · simp [length]
    have within : Lists info inside (info.childrenOf record) := by
      refine @first (front ++ [memberEntry none offset n, record])
        (rest.entries (n + 2 + inside.count) ++ back) _ ?_ ?_
      · simpa [entries] using same
      · simp [length]
    have others : Lists info rest ((rest.numbers (n + 2 + inside.count)).filterMap info.entry?) := by
      refine @second (front ++ [memberEntry none offset n, record] ++ inside.entries (n + 2)) back _ ?_ ?_
      · simpa [entries] using same
      · simp only [List.length_append, List.length_cons, List.length_nil, length, length_entries]
    rw [numbers, List.filterMap_cons_some (entry?_at same length), List.filterMap_cons_some type]
    have apart : kind.tag ≠ "DW_TAG_member" := by cases kind <;> decide
    exact .unnamed rfl rfl rfl (congrArg Except.ok type) rfl within (.other apart others)

/-- Whatever the entries of members name is a base type. -/
theorem defined_entries {info : Debug.Info} {body : Body} {n : Nat} {entry : Debug.Entry}
    (member : entry ∈ body.entries n) {own : String} (defined : definedName entry = some own) :
    own ∈ body.types ∧ IsBase info maxLinks entry := by
  induction body generalizing n with
  | empty => cases member
  | field name type offset rest ih =>
    rcases List.mem_cons.mp member with rfl | member
    · cases defined
    rcases List.mem_cons.mp member with rfl | member
    · obtain rfl := Option.some.inj defined
      exact ⟨List.mem_cons_self, .base rfl rfl⟩
    · exact (ih member).imp_left (List.mem_cons_of_mem _)
  | unnamed kind offset inside rest first second =>
    rcases List.mem_cons.mp member with rfl | member
    · cases defined
    rcases List.mem_cons.mp member with rfl | member
    · cases kind <;> cases defined
    rcases List.mem_append.mp member with member | member
    · exact (first member).imp_left (List.mem_append_left _)
    · exact (second member).imp_left (List.mem_append_right _)

theorem describes_info (kind : RecordKind) {name : String} (size : Int) {body : Body}
    (apart : name ∉ body.types) :
    Describes (body.info kind name size) name size body
      (recordEntry kind name size (body.numbers 1)) := by
  refine ⟨?_, isRecord_of_kind rfl, ?_, rfl, ?_, ?_⟩
  · refine List.mem_filterMap.mpr ⟨0, ?_, rfl⟩
    simp [info]
  · cases kind <;> rfl
  · refine @lists_entries _ body [recordEntry kind name size (body.numbers 1)] [] 1 ?_ rfl
    rw [List.append_nil]
    rfl
  · intro entry member own defined
    obtain ⟨i, -, found⟩ := List.mem_filterMap.mp member
    have there := mem_of_entry? found
    rcases List.mem_cons.mp there with rfl | member
    · exact .inl rfl
    · obtain ⟨typed, base⟩ := defined_entries member defined
      refine .inr ⟨?_, base⟩
      rintro rfl
      exact apart typed

end Body
end NativeBindings
