import Mathlib.Algebra.Ring.Int.Defs
import Mathlib.Data.List.Chain
import NativeBindings.Proofs.Debug.NestedMembers

/-!
Members of records at absolute offsets, for any debug information. Which members a record has, and by
which offsets on the way, is said without a base and without a table: a walk over the entries that goes
into unnamed records meets the members one after another. The members that are collected are those that
the walk meets, the last one of a name counts, and the base is added to all of them.
-/
namespace NativeBindings

section
variable {κ α : Type} [BEq κ] [LawfulBEq κ]

theorem Table.nodup_insertAll {table : Table κ α} (apart : (Table.keys table).Nodup)
    (more : Table κ α) : (Table.keys (insertAll table more)).Nodup := by
  induction more generalizing table with
  | nil => exact apart
  | cons entry rest ih => exact ih (nodup_insert apart)

/-- What is set last counts, and what is not set is what was there. -/
theorem Table.find?_insertAll [DecidableEq κ] {more : Table κ α} (apart : (Table.keys more).Nodup)
    (table : Table κ α) (key : κ) :
    find? key (insertAll table more) = (find? key more).or (find? key table) := by
  induction more generalizing table with
  | nil => rfl
  | cons entry rest ih =>
    obtain ⟨own, value⟩ := entry
    obtain ⟨fresh, others⟩ := List.nodup_cons.mp apart
    rw [insertAll, List.foldl_cons]
    refine (ih others _).trans ?_
    rw [find?_insert, find?]
    by_cases same : own = key
    · subst same
      have absent : find? own rest = none := by
        rw [Option.eq_none_iff_forall_not_mem]
        intro old found
        exact fresh (List.mem_map.mpr ⟨_, (find?_eq_some_iff others).mp found, rfl⟩)
      simp [absent]
    · rw [if_neg same, if_neg (by simpa using same)]

end

namespace Debug

open Outcome Relation

section
variable (info : Info)

/-- The type under typedefs and qualifiers, after so many links at most. -/
inductive LeadsTo : Nat → Option Entry → Option Entry → Prop
  | nothing {left : Nat} : LeadsTo left none none
  | there {left : Nat} {entry : Entry} (plain : entry.isTransparent = false) :
      LeadsTo left (some entry) (some entry)
  | link {left : Nat} {entry : Entry} {type under : Option Entry}
      (transparent : entry.isTransparent = true) (linked : info.typeOf entry = .ok type)
      (rest : LeadsTo left type under) : LeadsTo (left + 1) (some entry) under

/-- What a child brings to the members of a record: nothing, a member at an offset, or what a record at an
offset has. -/
inductive Part where
  | nothing
  | field (name : String) (offset : Int) (size : Amount)
  | record (offset : Int) (inner : Entry)

/-- What each kind of child brings. Bit-fields bring nothing, and members without a name bring what the record
under their type has, if it is a record. -/
inductive Brings : Entry → Part → Prop
  | other {child : Entry} (tag : child.tag ≠ "DW_TAG_member") : Brings child .nothing
  | bits {child : Entry} {name : String} {offset : Int} {type : Option Entry}
      (tag : child.tag = "DW_TAG_member") (linked : info.typeOf child = .ok type)
      (place : IsAt child offset) (named : child.nameText = some name)
      (bits : child.has "bit_size" = true) : Brings child .nothing
  | plain {child : Entry} {offset : Int} {type under : Option Entry}
      (tag : child.tag = "DW_TAG_member") (linked : info.typeOf child = .ok type)
      (place : IsAt child offset) (unnamed : child.nameText = none)
      (leads : LeadsTo info maxLinks type under)
      (plain : ∀ inner, under = some inner → inner.isRecord = false) : Brings child .nothing
  | field {child : Entry} {name : String} {offset : Int} {type : Option Entry} {size : Amount}
      (tag : child.tag = "DW_TAG_member") (linked : info.typeOf child = .ok type)
      (place : IsAt child offset) (named : child.nameText = some name)
      (whole : child.has "bit_size" = false) (sized : byteSize info type = .ok size) :
      Brings child (.field name offset size)
  | record {child inner : Entry} {offset : Int} {type : Option Entry}
      (tag : child.tag = "DW_TAG_member") (linked : info.typeOf child = .ok type)
      (place : IsAt child offset) (unnamed : child.nameText = none)
      (leads : LeadsTo info maxLinks type (some inner)) (sort : inner.isRecord = true) :
      Brings child (.record offset inner)

/-- A member that a walk meets: the offsets on the way to it, outermost first, and its size. -/
structure Met where
  name : String
  way : List Int
  size : Amount

namespace Met

def under (offset : Int) (met : Met) : Met := { met with way := offset :: met.way }

/-- Where a member is, from a base on. -/
def placed (base : Int) (met : Met) : Int × Amount := (base + met.way.sum, met.size)

/-- The last member of a name. -/
def latest (name : String) (all : List Met) : Option Met := all.reverse.find? (·.name == name)

end Met

/-- The members that a walk over the children of a record meets, in order. There is no walk if records
without a name go on without end. -/
inductive Meets : List Entry → List Met → Prop
  | done : Meets [] []
  | nothing {child : Entry} {rest : List Entry} {all : List Met} (brings : Brings info child .nothing)
      (others : Meets rest all) : Meets (child :: rest) all
  | field {child : Entry} {name : String} {offset : Int} {size : Amount} {rest : List Entry}
      {all : List Met} (brings : Brings info child (.field name offset size)) (others : Meets rest all) :
      Meets (child :: rest) ({ name, way := [offset], size } :: all)
  | record {child inner : Entry} {offset : Int} {rest : List Entry} {inside all : List Met}
      (brings : Brings info child (.record offset inner)) (within : Meets (info.childrenOf inner) inside)
      (others : Meets rest all) : Meets (child :: rest) (inside.map (Met.under offset) ++ all)

/-- A table of what was met: every name in one place, at the sum of the base and the offsets on the way to
the last member of the name. -/
structure Holds (base : Int) (all : List Met) (found : Members) : Prop where
  apart : (Table.keys found).Nodup
  latest : ∀ name, Table.find? name found = (Met.latest name all).map (Met.placed base)

/-- Members after a base was added to them. -/
def shifted (base : Int) (found : Members) : Members :=
  found.map fun (name, offset, size) => (name, base + offset, size)

/-- What a child brings, as it is computed. -/
def partOf (record child : Entry) : Except Fault Part :=
  if child.tag != "DW_TAG_member" then .ok .nothing
  else do
    let type ← info.typeOf child
    let offset ← memberOffset record child
    match child.nameText with
    | none =>
      match ← stripped info type with
      | some inner => .ok (if inner.isRecord then .record offset inner else .nothing)
      | none => .ok .nothing
    | some name =>
      if child.has "bit_size" then .ok .nothing
      else return .field name offset (← byteSize info type)

/-- The members with a part. -/
def Part.onto (inside : Entry → Int → Except Fault Members) (base : Int) (done : Members) :
    Part → Except Fault Members
  | .nothing => .ok done
  | .field name offset size => .ok (Table.insert name (base + offset, size) done)
  | .record offset inner => (inside inner (base + offset)).map (Table.insertAll done)

end

section
variable {info : Info}

theorem strippedWith_eq_ok {left : Nat} {type under : Option Entry} :
    strippedWith info left type = .ok under ↔ LeadsTo info left type under := by
  constructor
  · intro run
    induction left generalizing type with
    | zero =>
      cases type with
      | none =>
        obtain rfl := Except.ok.inj run
        exact .nothing
      | some entry =>
        rw [strippedWith.eq_def] at run
        dsimp only at run
        split at run
        next plain =>
          obtain rfl := Except.ok.inj run
          exact .there (by simpa using plain)
        next => cases run
    | succ left ih =>
      cases type with
      | none =>
        obtain rfl := Except.ok.inj run
        exact .nothing
      | some entry =>
        rw [strippedWith] at run
        split at run
        next plain =>
          obtain rfl := Except.ok.inj run
          exact .there (by simpa using plain)
        next transparent =>
          obtain ⟨type, linked, rest⟩ := bind_eq_ok.mp run
          exact .link (by simpa using transparent) linked (ih rest)
  · intro leads
    induction leads with
    | @nothing left => cases left <;> rfl
    | @there left entry plain => cases left <;> simp [strippedWith, plain]
    | link transparent linked rest ih =>
      rw [strippedWith, if_neg (by simp [transparent]), linked]
      exact ih

theorem memberOffset_eq_ok {record member : Entry} {offset : Int} :
    memberOffset record member = .ok offset ↔ IsAt member offset := by
  refine ⟨fun found => ?_, memberOffset_eq⟩
  unfold memberOffset at found
  unfold IsAt Entry.value?
  cases there : Table.find? "data_member_location" member.attributes with
  | none =>
    rw [there] at found
    exact (Except.ok.inj found).symm
  | some place =>
    rw [there] at found
    dsimp only at found
    split at found
    next fixed =>
      obtain rfl := Except.ok.inj found
      exact fixed
    next => cases found

theorem partOf_eq_ok {record child : Entry} {part : Part} :
    partOf info record child = .ok part ↔ Brings info child part := by
  constructor
  · intro found
    rw [partOf] at found
    split at found
    next other =>
      obtain rfl := Except.ok.inj found
      exact .other (by simpa using other)
    next member =>
      have tag : child.tag = "DW_TAG_member" := by simpa using member
      obtain ⟨type, linked, found⟩ := bind_eq_ok.mp found
      obtain ⟨offset, placed, found⟩ := bind_eq_ok.mp found
      have place := memberOffset_eq_ok.mp placed
      split at found
      next unnamed =>
        obtain ⟨under, run, found⟩ := bind_eq_ok.mp found
        have leads := strippedWith_eq_ok.mp run
        split at found
        next inner =>
          obtain rfl := Except.ok.inj found
          split
          next sort => exact .record tag linked place unnamed leads sort
          next plain =>
            refine .plain tag linked place unnamed leads ?_
            rintro _ ⟨⟩
            simpa using plain
        next =>
          obtain rfl := Except.ok.inj found
          exact .plain tag linked place unnamed leads nofun
      next name named =>
        split at found
        next bits =>
          obtain rfl := Except.ok.inj found
          exact .bits tag linked place named bits
        next whole =>
          obtain ⟨size, sized, found⟩ := bind_eq_ok.mp found
          obtain rfl := pure_eq_ok.mp found
          exact .field tag linked place named (by simpa using whole) sized
  · intro brings
    cases brings with
    | other tag => rw [partOf, if_pos (by simpa using tag)]
    | bits tag linked place named bits =>
      rw [partOf, if_neg (by simp [tag]), linked, memberOffset_eq place, named]
      simp only [bind, Except.bind, bits, if_true]
    | @plain offset type under tag linked place unnamed leads plain =>
      rw [partOf, if_neg (by simp [tag]), linked, memberOffset_eq place, unnamed]
      simp only [bind, Except.bind, stripped, strippedWith_eq_ok.mpr leads]
      cases under with
      | none => rfl
      | some inner => simp [plain inner rfl]
    | field tag linked place named whole sized =>
      rw [partOf, if_neg (by simp [tag]), linked, memberOffset_eq place, named]
      simp only [bind, Except.bind, whole, sized]
      rfl
    | record tag linked place unnamed leads sort =>
      rw [partOf, if_neg (by simp [tag]), linked, memberOffset_eq place, unnamed]
      simp only [bind, Except.bind, stripped, strippedWith_eq_ok.mpr leads, sort, if_true]

/-- What a child brings goes onto the members before, and the rest of the children goes on from there. -/
theorem membersFrom_cons (inside : Entry → Int → Except Fault Members) (record : Entry) (base : Int)
    (done : Members) (child : Entry) (rest : List Entry) :
    membersFrom info inside record base done (child :: rest) = (do
      let part ← partOf info record child
      let next ← part.onto inside base done
      membersFrom info inside record base next rest) := by
  rw [membersFrom, partOf]
  split
  · rfl
  rw [bind_assoc]
  congr 1; funext type
  rw [bind_assoc]
  congr 1; funext offset
  cases child.nameText with
  | none =>
    simp only [bind_assoc]
    congr 1; funext under
    cases under with
    | none => rfl
    | some inner =>
      simp only [bind, Except.bind]
      cases inner.isRecord with
      | false => rfl
      | true => cases within : inside inner (base + offset) <;> simp [Part.onto, within, Except.map]
  | some name =>
    cases child.has "bit_size" with
    | true => rfl
    | false =>
      simp only [bind, Except.bind]
      cases byteSize info type <;> rfl

/-- One child brings one thing. -/
theorem Brings.unique {child : Entry} {part other : Part} (brings : Brings info child part)
    (brings' : Brings info child other) : part = other :=
  Except.ok.inj (((@partOf_eq_ok info child child part).mpr brings).symm.trans (partOf_eq_ok.mpr brings'))

/-- There is one walk. -/
theorem Meets.unique {children : List Entry} {all others : List Met} (meets : Meets info children all)
    (meets' : Meets info children others) : all = others := by
  induction meets generalizing others with
  | done =>
    cases meets'
    rfl
  | nothing brings _ ih =>
    cases meets' with
    | nothing _ rest => exact ih rest
    | field brings' => cases brings.unique brings'
    | record brings' => cases brings.unique brings'
  | field brings _ ih =>
    cases meets' with
    | nothing brings' => cases brings.unique brings'
    | field brings' rest =>
      cases brings.unique brings'
      rw [ih rest]
    | record brings' => cases brings.unique brings'
  | record brings _ _ first second =>
    cases meets' with
    | nothing brings' => cases brings.unique brings'
    | field brings' => cases brings.unique brings'
    | record brings' within rest =>
      cases brings.unique brings'
      rw [first within, second rest]

namespace Met

variable {name : String} {base offset : Int} {met : Met} {all others : List Met}

theorem latest_cons : latest name (met :: all) =
    (latest name all).or (if met.name == name then some met else none) := by
  rw [latest, List.reverse_cons, List.find?_append, List.find?_singleton, latest]

theorem latest_append : latest name (all ++ others) = (latest name others).or (latest name all) := by
  rw [latest, List.reverse_append, List.find?_append, latest, latest]

theorem latest_under : latest name (all.map (under offset)) = (latest name all).map (under offset) := by
  rw [latest, ← List.map_reverse, List.find?_map]
  rfl

theorem placed_under : (met.under offset).placed base = met.placed (base + offset) := by
  simp [placed, under, Int.add_assoc]

end Met

/-- What a run over children gives for a name: the last member met, or what was there before. -/
theorem membersFrom_met {inside : Entry → Int → Except Fault Members}
    (nested : ∀ inner base more, inside inner base = .ok more →
      ∃ all, Meets info (info.childrenOf inner) all ∧ Holds base all more)
    {record : Entry} {base : Int} {done found : Members} {children : List Entry}
    (apart : (Table.keys done).Nodup)
    (run : membersFrom info inside record base done children = .ok found) :
    ∃ all, Meets info children all ∧ (Table.keys found).Nodup ∧
      ∀ name, Table.find? name found =
        ((Met.latest name all).map (Met.placed base)).or (Table.find? name done) := by
  induction children generalizing done with
  | nil =>
    obtain rfl := Except.ok.inj run
    exact ⟨[], .done, apart, fun name => rfl⟩
  | cons child rest ih =>
    rw [membersFrom_cons] at run
    obtain ⟨part, computed, run⟩ := bind_eq_ok.mp run
    obtain ⟨next, added, run⟩ := bind_eq_ok.mp run
    have brings := partOf_eq_ok.mp computed
    cases part with
    | nothing =>
      obtain rfl := Except.ok.inj added
      obtain ⟨all, meets, kept⟩ := ih apart run
      exact ⟨all, .nothing brings meets, kept⟩
    | field own offset size =>
      obtain rfl := Except.ok.inj added
      obtain ⟨all, meets, kept, lookup⟩ := ih (Table.nodup_insert apart) run
      refine ⟨_, .field brings meets, kept, fun name => ?_⟩
      rw [lookup, Table.find?_insert, Met.latest_cons]
      by_cases same : own = name <;> cases Met.latest name all <;> simp [same, Met.placed]
    | record offset inner =>
      obtain ⟨more, within, rfl⟩ := map_eq_ok.mp added
      obtain ⟨deep, below, holds⟩ := nested _ _ _ within
      obtain ⟨all, meets, kept, lookup⟩ := ih (Table.nodup_insertAll apart more) run
      refine ⟨_, .record brings below meets, kept, fun name => ?_⟩
      have moved : (Met.latest name (deep.map (Met.under offset))).map (Met.placed base) =
          (Met.latest name deep).map (Met.placed (base + offset)) := by
        rw [Met.latest_under, Option.map_map]
        exact congrArg (Option.map · _) (funext fun met => Met.placed_under)
      rw [lookup, Table.find?_insertAll holds.apart, holds.latest, Met.latest_append, Option.map_or,
        moved, Option.or_assoc]

/-- What is collected is what a walk meets. -/
theorem membersWith_met {fuel : Nat} {record : Entry} {base : Int} {found : Members}
    (run : membersWith info fuel record base = .ok found) :
    ∃ all, Meets info (info.childrenOf record) all ∧ Holds base all found := by
  induction fuel generalizing record base found with
  | zero => cases run
  | succ fuel ih =>
    obtain ⟨all, meets, apart, lookup⟩ :=
      membersFrom_met (fun _ _ _ => ih) (show (Table.keys ([] : Members)).Nodup from .nil) run
    exact ⟨all, meets, apart, fun name => (lookup name).trans (Option.or_none ..)⟩

/-- Whether a record is that of an unnamed member of another one. -/
def Nests (info : Info) (inner outer : Entry) : Prop :=
  ∃ child ∈ info.childrenOf outer, ∃ offset, Brings info child (.record offset inner)

theorem LeadsTo.mem {left : Nat} {type under : Option Entry} (leads : LeadsTo info left type under)
    (listed : ∀ entry ∈ type, entry ∈ info.entries) : ∀ entry ∈ under, entry ∈ info.entries := by
  induction leads with
  | nothing => exact listed
  | there => exact listed
  | link _ linked _ ih =>
    refine ih fun entry same => mem_of_typeOf (linked.trans ?_)
    rw [Option.mem_def.mp same]

theorem Brings.mem {child inner : Entry} {offset : Int} (brings : Brings info child (.record offset inner)) :
    inner ∈ info.entries := by
  cases brings with
  | record _ linked _ _ leads _ =>
    refine leads.mem (fun entry same => mem_of_typeOf (linked.trans ?_)) inner rfl
    rw [Option.mem_def.mp same]

/-- Where a walk ends, no chain of nested records goes on without end. -/
theorem Meets.acc {children : List Entry} {all : List Met} (meets : Meets info children all) :
    ∀ child ∈ children, ∀ offset inner, Brings info child (.record offset inner) →
      Acc (Nests info) inner := by
  induction meets with
  | done => exact fun _ member => absurd member List.not_mem_nil
  | nothing brings _ ih =>
    refine List.forall_mem_cons.mpr ⟨fun _ _ brings' => ?_, ih⟩
    cases brings.unique brings'
  | field brings _ ih =>
    refine List.forall_mem_cons.mpr ⟨fun _ _ brings' => ?_, ih⟩
    cases brings.unique brings'
  | record brings _ _ first second =>
    refine List.forall_mem_cons.mpr ⟨fun _ _ brings' => ?_, second⟩
    cases brings.unique brings'
    exact .intro _ fun inner ⟨child, member, offset, brings⟩ => first child member offset inner brings

theorem not_rel_self_of_acc {α : Type} {r : α → α → Prop} {a : α} (acc : Acc r a) : ¬r a a := by
  induction acc with
  | intro a _ ih => exact fun own => ih a own own

/-- Where no chain of nested records goes on without end, a chain has no record twice. So it is no longer
than there are entries. -/
theorem length_le_of_acc {record : Entry} {below : List Entry} (listed : record ∈ info.entries)
    (ends : Acc (Nests info) record)
    (chain : (record :: below).IsChain (Function.swap (Nests info))) :
    (record :: below).length ≤ info.entries.length := by
  have spread : (record :: below).Pairwise (TransGen (Function.swap (Nests info))) :=
    (chain.imp fun _ _ => .single).pairwise
  have under : ∀ entry ∈ below, TransGen (Nests info) entry record := fun entry member =>
    transGen_swap.mp (List.rel_of_pairwise_cons spread member)
  have deep : Acc (TransGen (Nests info)) record := acc_transGen_iff.mpr ends
  have all : ∀ entry ∈ record :: below, Acc (TransGen (Nests info)) entry :=
    List.forall_mem_cons.mpr ⟨deep, fun entry member => deep.inv (under entry member)⟩
  have distinct : (record :: below).Nodup := by
    refine spread.imp_of_mem fun member _ nests same => ?_
    subst same
    exact not_rel_self_of_acc (all _ member) (transGen_swap.mp nests)
  refine distinct.length_le_of_subset (List.forall_mem_cons.mpr ⟨listed, fun entry member => ?_⟩)
  obtain ⟨_, ⟨_, _, _, brings⟩, _⟩ := TransGen.head'_iff.mp (under entry member)
  exact brings.mem

/-- Fuel for every chain of nested records is enough for a walk. -/
theorem Meets.collected {children : List Entry} {all : List Met} (meets : Meets info children all)
    {fuel : Nat} (enough : ∀ child ∈ children, ∀ offset inner, Brings info child (.record offset inner) →
      ∀ below, (inner :: below).IsChain (Function.swap (Nests info)) → (inner :: below).length ≤ fuel)
    (record : Entry) (base : Int) (done : Members) :
    ∃ found, membersFrom info (membersWith info fuel) record base done children = .ok found := by
  induction meets generalizing fuel record base done with
  | done => exact ⟨done, rfl⟩
  | nothing brings _ ih =>
    rw [membersFrom_cons, partOf_eq_ok.mpr brings]
    exact ih (List.forall_mem_cons.mp enough).2 record base done
  | field brings _ ih =>
    rw [membersFrom_cons, partOf_eq_ok.mpr brings]
    exact ih (List.forall_mem_cons.mp enough).2 record base _
  | @record child inner offset rest inside all brings _ _ first second =>
    obtain ⟨own, others⟩ := List.forall_mem_cons.mp enough
    obtain ⟨left, rfl⟩ : ∃ left, fuel = left + 1 :=
      Nat.exists_eq_add_one.mpr (own offset inner brings [] (.singleton _))
    -- A chain from within is the rest of one from here, so that one unit less is enough for it.
    have deeper : ∀ child ∈ info.childrenOf inner, ∀ offset deep, Brings info child (.record offset deep) →
        ∀ below, (deep :: below).IsChain (Function.swap (Nests info)) →
          (deep :: below).length ≤ left := fun child member offset' deep brings' below chain =>
      Nat.le_of_succ_le_succ (own offset inner brings (deep :: below)
        (.cons_cons ⟨child, member, offset', brings'⟩ chain))
    obtain ⟨more, within⟩ := first deeper inner (base + offset) []
    have nested : membersWith info (left + 1) inner (base + offset) = .ok more := within
    rw [membersFrom_cons, partOf_eq_ok.mpr brings]
    simp only [bind, Except.bind, Part.onto, nested, Except.map]
    exact second others record base _

theorem Meets.members {record : Entry} {all : List Met} (meets : Meets info (info.childrenOf record) all)
    (base : Int) : ∃ found, members info record base = .ok found :=
  meets.collected (fun child member offset inner brings _ chain =>
    length_le_of_acc brings.mem (meets.acc child member offset inner brings) chain) record base []

theorem shifted_insert (n offset : Int) (name : String) (size : Amount) (found : Members) :
    shifted n (Table.insert name (offset, size) found) =
      Table.insert name (n + offset, size) (shifted n found) := by
  induction found with
  | nil => rfl
  | cons member rest ih =>
    rw [Table.insert]
    unfold shifted at ih ⊢
    rw [List.map_cons, Table.insert]
    split
    · rfl
    · rw [List.map_cons, ih]

theorem shifted_insertAll (n : Int) (found more : Members) :
    shifted n (Table.insertAll found more) = Table.insertAll (shifted n found) (shifted n more) := by
  induction more generalizing found with
  | nil => rfl
  | cons member rest ih =>
    obtain ⟨name, offset, size⟩ := member
    exact (ih _).trans (congrArg (Table.insertAll · _) (shifted_insert n offset name size found))

/-- A run from a higher base does the same at higher offsets. -/
theorem membersFrom_shifted {inside : Entry → Int → Except Fault Members} {n : Int}
    (nested : ∀ inner base, inside inner (n + base) = (inside inner base).map (shifted n))
    (record : Entry) (base : Int) (done : Members) (children : List Entry) :
    membersFrom info inside record (n + base) (shifted n done) children =
      (membersFrom info inside record base done children).map (shifted n) := by
  induction children generalizing done with
  | nil => rfl
  | cons child rest ih =>
    rw [membersFrom_cons, membersFrom_cons]
    cases partOf info record child with
    | error fault => rfl
    | ok part =>
      cases part with
      | nothing => exact ih done
      | field name offset size =>
        simp only [bind, Except.bind, Part.onto]
        rw [Int.add_assoc, ← shifted_insert, ih]
      | record offset inner =>
        simp only [bind, Except.bind, Part.onto]
        rw [Int.add_assoc, nested]
        cases inside inner (base + offset) with
        | error fault => rfl
        | ok more =>
          change membersFrom info inside record (n + base)
            (Table.insertAll (shifted n done) (shifted n more)) rest = _
          rw [← shifted_insertAll]
          exact ih _

theorem membersWith_shifted (n : Int) (fuel : Nat) (record : Entry) (base : Int) :
    membersWith info fuel record (n + base) = (membersWith info fuel record base).map (shifted n) := by
  induction fuel generalizing record base with
  | zero => rfl
  | succ fuel ih => exact membersFrom_shifted ih record base [] (info.childrenOf record)

end

/-- Members are collected from a base on exactly where there is a walk. The table then holds what the
walk meets, each member at the sum of the base and the offsets on the way. Whether there is a walk or
not, the outcome is that from zero on with the base added, so that the faults are the same. -/
theorem members_absolute (info : Info) (record : Entry) (base : Int) :
    (∀ found, members info record base = .ok found →
      ∃ all, Meets info (info.childrenOf record) all ∧ Holds base all found) ∧
    (∀ all, Meets info (info.childrenOf record) all →
      ∃ found, members info record base = .ok found ∧ Holds base all found) ∧
    members info record base = (members info record 0).map (shifted base) := by
  refine ⟨fun found => membersWith_met, fun all meets => ?_, ?_⟩
  · obtain ⟨found, run⟩ := meets.members base
    obtain ⟨others, meets', holds⟩ := membersWith_met run
    obtain rfl := meets.unique meets'
    exact ⟨found, run, holds⟩
  · have moved := @membersWith_shifted info base (info.entries.length + 1) record 0
    rwa [Int.add_zero] at moved

/-- A field, a bit-field, and a typedef of a union that has a field of the same name as the first. -/
def shadowing : Info where
  entries := [recordEntry .struct (some "S") 16 [1, 2, 3],
    { memberEntry (some "a") 0 0 with type := .entry 8 },
    { memberEntry (some "flag") 0 0 with attributes := [("bit_size", .int 1)], type := .entry 8 },
    memberEntry none 4 3, { tag := "DW_TAG_typedef", type := .entry 5 },
    recordEntry .union none 8 [6, 7], { memberEntry (some "b") 0 0 with type := .entry 8 },
    memberEntry (some "a") 2 7, { tag := "DW_TAG_base_type", attributes := [("byte_size", .int 4)] }]

theorem members_absolute_shadowing :
    ∃ found, members shadowing (recordEntry .struct (some "S") 16 [1, 2, 3]) 8 = .ok found ∧
      Holds 8 [⟨"a", [0], .int 4⟩, ⟨"b", [4, 0], .int 4⟩, ⟨"a", [4, 2], .int 4⟩] found := by
  have inside : Meets shadowing (shadowing.childrenOf (recordEntry .union none 8 [6, 7]))
      [⟨"b", [0], .int 4⟩, ⟨"a", [2], .int 4⟩] :=
    .field (.field rfl rfl rfl rfl rfl rfl) (.field (.field rfl rfl rfl rfl rfl rfl) .done)
  have typedef : Brings shadowing (memberEntry none 4 3) (.record 4 (recordEntry .union none 8 [6, 7])) :=
    .record rfl rfl rfl rfl (.link rfl rfl (.there rfl)) rfl
  exact (members_absolute shadowing _ 8).2.1 _ (.field (.field rfl rfl rfl rfl rfl rfl)
    (.nothing (.bits rfl rfl rfl rfl rfl) (Meets.record typedef inside .done)))

end Debug
end NativeBindings
