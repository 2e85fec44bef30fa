import Mathlib.Data.List.Chain
import Mathlib.Logic.Relation
import NativeBindings.Graph
import NativeBindings.Proofs.Outcome

/-!
Graphs in order: each entry is made of nodes that were declared before it. Additions keep the order,
and a graph in which no declaration was given up came about by additions.
-/
namespace NativeBindings

namespace CType

/-- Whether a node is a synonym of the language. -/
def isTransparent : CType → Bool
  | synonym _ _ transparent => transparent
  | _ => false

theorem numbered_of_none {type : CType} (fresh : type.serial = none) (number : Nat) :
    type.numbered number = type.withHeader { type.header with serial := some number } := by
  rw [numbered, fresh]

theorem header_withHeader (new : Header) (type : CType) : (type.withHeader new).header = new := by
  cases type <;> rfl

theorem name_numbered (number : Nat) (type : CType) : (type.numbered number).name = type.name := by
  unfold numbered
  split
  · rfl
  · rw [name, header_withHeader, name]

theorem isTransparent_withHeader (new : Header) (type : CType) :
    (type.withHeader new).isTransparent = type.isTransparent := by
  cases type <;> rfl

@[simp] theorem isTransparent_numbered (number : Nat) (type : CType) :
    (type.numbered number).isTransparent = type.isTransparent := by
  unfold numbered
  split
  · rfl
  · apply isTransparent_withHeader

theorem serial_numbered {type : CType} (fresh : type.serial = none) (number : Nat) :
    (type.numbered number).serial = some number := by
  rw [numbered_of_none fresh, serial, header_withHeader]

end CType

/-- Types that are made of declared nodes: the nodes themselves, uses of them, unnamed pointers and
arrays. A use of a synonym of the language is its target. -/
inductive Covers (declared : Table Label CType) : CType → Prop
  | node {name : Label} {type : CType} (member : (name, type) ∈ declared) : Covers declared type
  | use {name : Label} {type : CType} (member : (name, type) ∈ declared)
    (own : ∀ header target, type ≠ .synonym header target true) :
    Covers declared (.synonym { name := type.name, size := type.size } type false)
  | handle (isConst : Bool) :
    Covers declared (.pointer { name := .null, size := CType.pointerSize } none isConst)
  | pointer {base : CType} (inside : Covers declared base) (isConst : Bool) :
    Covers declared (.pointer { name := .null, size := CType.pointerSize } (some base) isConst)
  | array {item : CType} (inside : Covers declared item) (name : Label) (size length : Amount) :
    Covers declared (.array { name, size } item length)

/-- The type of a field may be an unnamed union besides. -/
def CoversField (declared : Table Label CType) (type : CType) : Prop :=
  Covers declared type ∨ ∃ size variants, type = .union { name := .null, size } variants ∧
    ∀ variant ∈ variants, Covers declared variant.type

/-- What an entry refers to is made of declared nodes, and enum constants go by keys. Arrays and
unions are no entries. -/
def Backed (declared : Table Label CType) : CType → Prop
  | .builtin _ _ => True
  | .enum _ constants => ∀ constant ∈ constants, constant.1.asKey = .ok constant.1
  | .synonym _ target _ => Covers declared target
  | .pointer _ base _ => ∀ target, base = some target → Covers declared target
  | .record _ fields => ∀ field ∈ fields, CoversField declared field.type
  | .signature _ result parameters | .callback _ _ result parameters =>
    Covers declared result ∧ ∀ parameter ∈ parameters, Covers declared parameter.type
  | .array _ _ _ | .union _ _ | .bare _ => False

/-- Entry `i` of a table has its own name, which no earlier entry has, and its position as its serial
number, and is backed by the entries before it. -/
structure InOrder (declared : Table Label CType) (i : Nat) (name : Label) (type : CType) : Prop where
  own : type.name = name
  first : Table.has name (declared.take i) = false
  serial : type.serial = some i
  backed : Backed (declared.take i) type

def Orderly (declared : Table Label CType) : Prop :=
  ∀ (i : Nat) name type, declared[i]? = some (name, type) → InOrder declared i name type

section
variable {declared more : Table Label CType} {name : Label} {type : CType}

theorem Covers.mono (covers : Covers declared type) (wider : declared ⊆ more) :
    Covers more type := by
  induction covers with
  | node member => exact .node (wider member)
  | use member own => exact .use (wider member) own
  | handle isConst => exact .handle isConst
  | pointer _ isConst ih => exact .pointer ih isConst
  | array _ name size length ih => exact .array ih name size length

theorem CoversField.mono (covers : CoversField declared type) (wider : declared ⊆ more) :
    CoversField more type := by
  rcases covers with covers | ⟨size, variants, same, covers⟩
  · exact .inl (covers.mono wider)
  · exact .inr ⟨size, variants, same, fun variant member => (covers variant member).mono wider⟩

theorem Backed.withHeader (backed : Backed declared type) (new : Header) :
    Backed declared (type.withHeader new) := by
  cases type <;> exact backed

theorem Backed.numbered (backed : Backed declared type) (number : Nat) :
    Backed declared (type.numbered number) := by
  unfold CType.numbered
  split
  · exact backed
  · exact backed.withHeader _

theorem Backed.mono (backed : Backed declared type) (wider : declared ⊆ more) :
    Backed more type := by
  cases type with
  | builtin => trivial
  | enum => exact backed
  | synonym => exact Covers.mono backed wider
  | pointer => exact fun target same => (backed target same).mono wider
  | record => exact fun field member => (backed field member).mono wider
  | signature =>
    exact ⟨backed.1.mono wider, fun parameter member => (backed.2 parameter member).mono wider⟩
  | callback =>
    exact ⟨backed.1.mono wider, fun parameter member => (backed.2 parameter member).mono wider⟩
  | array => exact backed
  | union => exact backed
  | bare => exact backed

theorem Orderly.entry (orderly : Orderly declared) (member : (name, type) ∈ declared) :
    type.name = name ∧ (∃ number, type.serial = some number) ∧ Backed declared type := by
  obtain ⟨i, at_⟩ := List.mem_iff_getElem?.mp member
  have ordered := orderly i name type at_
  exact ⟨ordered.own, ⟨i, ordered.serial⟩, ordered.backed.mono (List.take_subset ..)⟩

theorem Orderly.take (orderly : Orderly declared) (count : Nat) : Orderly (declared.take count) := by
  intro i name type found
  rw [List.getElem?_take] at found
  split at found
  next before =>
    have ordered := orderly i name type found
    have same : (declared.take count).take i = declared.take i := by
      rw [List.take_take, Nat.min_eq_left (Nat.le_of_lt before)]
    refine ⟨ordered.own, ?_, ordered.serial, ?_⟩
    · rw [same]
      exact ordered.first
    · rw [same]
      exact ordered.backed
  next => cases found

/-- What holds of declared nodes and of uses of them holds of all types that are made of them, if it
goes from the parts of a type to the type. -/
theorem Orderly.covers_induction {P : CType → Prop} (orderly : Orderly declared)
    (node : ∀ name type, (name, type) ∈ declared →
      (∀ header target, type ≠ .synonym header target true) →
        P type ∧ P (.synonym { name := type.name, size := type.size } type false))
    (transparent : ∀ header target, P target → P (.synonym header target true))
    (pointer : ∀ base isConst, (∀ target, base = some target → P target) →
      P (.pointer { name := .null, size := CType.pointerSize } base isConst))
    (array : ∀ item name size length, P item → P (.array { name, size } item length))
    (covers : Covers declared type) : P type := by
  have up : ∀ count, ∀ type, Covers (declared.take count) type → P type := by
    intro count
    induction count using Nat.strong_induction_on with
    | _ count earlier =>
      intro type covers
      induction covers with
      | @node name type member =>
        by_cases own : ∀ header target, type ≠ .synonym header target true
        · exact (node name type (List.mem_of_mem_take member) own).1
        · push Not at own
          obtain ⟨header, target, rfl⟩ := own
          obtain ⟨i, found⟩ := List.mem_iff_getElem?.mp member
          have before : i < count := by
            have short := (List.getElem?_eq_some_iff.mp found).1
            rw [List.length_take] at short
            omega
          rw [List.getElem?_take_of_lt before] at found
          exact transparent header target (earlier i before target (orderly i name _ found).backed)
      | use member own => exact (node _ _ (List.mem_of_mem_take member) own).2
      | handle isConst => exact pointer none isConst fun _ same => nomatch same
      | pointer _ isConst ih =>
        refine pointer _ isConst fun target same => ?_
        obtain rfl := Option.some.inj same
        exact ih
      | array _ name size length ih => exact array _ name size length ih
  refine up declared.length type ?_
  rw [List.take_length]
  exact covers

/-- Orderly entries stay orderly with one more at the end. -/
theorem Orderly.append (orderly : Orderly declared) (own : type.name = name)
    (absent : Table.has name declared = false) (fresh : type.serial = none)
    (backed : Backed declared type) :
    Orderly (declared ++ [(name, type.numbered declared.length)]) := by
  intro i other node found
  rcases Nat.lt_or_ge i declared.length with old | new
  · rw [List.getElem?_append_left old] at found
    have ordered := orderly i other node found
    have same : (declared ++ [(name, type.numbered declared.length)]).take i = declared.take i :=
      List.take_append_of_le_length (Nat.le_of_lt old)
    refine ⟨ordered.own, ?_, ordered.serial, ?_⟩
    · rw [same]
      exact ordered.first
    · rw [same]
      exact ordered.backed
  · rw [List.getElem?_append_right new] at found
    have last : i = declared.length := by
      have short := (List.getElem?_eq_some_iff.mp found).1
      rw [List.length_singleton] at short
      omega
    rw [last, Nat.sub_self] at found
    obtain ⟨rfl, rfl⟩ := Prod.mk.inj (Option.some.inj found)
    have same : (declared ++ [(name, type.numbered declared.length)]).take i = declared := by
      rw [last, List.take_left]
    refine ⟨?_, ?_, ?_, ?_⟩
    · rw [CType.name_numbered, own]
    · rw [same]
      exact absent
    · rw [last]
      exact CType.serial_numbered fresh _
    · rw [same]
      exact backed.numbered _

end

namespace Graph

/-- No declaration was given up: as many numbers were issued as there are declarations. -/
def Unbroken (graph : Graph) : Prop := graph.issued = graph.declarations.length

/-- Declarations are counted, and they are orderly unless one was given up. -/
structure Sound (graph : Graph) : Prop where
  counted : graph.declarations.length ≤ graph.issued
  orderly : graph.Unbroken → Orderly graph.declarations

/-- What the resolver does to a graph at a time: it sets an entry, gives up the entry of a name for
a new one, or marks a name. -/
inductive Step : Graph → Graph → Prop
  | assign (graph : Graph) (name : Label) (type : CType) : Step graph (graph.assign name type)
  | replace (graph : Graph) (name : Label) (type : CType) (present : graph.has name = true) :
    Step graph ((graph.remove name).assign name type)
  | mark {before after : Graph} (declarations : after.declarations = before.declarations)
    (issued : after.issued = before.issued) : Step before after

/-- What can be declared: a new node of the given name that is backed. -/
structure Fits (graph : Graph) (name : Label) (type : CType) : Prop where
  own : type.name = name
  fresh : type.serial = none
  backed : Backed graph.declarations type

variable {graph before after : Graph} {name : Label} {type : CType}

theorem assign_unbroken (counted : graph.declarations.length ≤ graph.issued)
    (unbroken : (graph.assign name type).Unbroken) :
    graph.has name = false ∧ graph.Unbroken := by
  have same : graph.issued + 1 =
    (Table.insert name (type.numbered graph.issued) graph.declarations).length := unbroken
  cases present : graph.has name with
  | true =>
    rw [Table.length_insert_of_present present] at same
    omega
  | false =>
    rw [Table.insert_of_absent present, List.length_append, List.length_singleton] at same
    exact ⟨rfl, Nat.succ.inj same⟩

theorem declarations_assign (absent : graph.has name = false) :
    (graph.assign name type).declarations =
      graph.declarations ++ [(name, type.numbered graph.issued)] := Table.insert_of_absent absent

theorem assign_counted (counted : graph.declarations.length ≤ graph.issued) :
    (graph.assign name type).declarations.length ≤ (graph.assign name type).issued :=
  Nat.le_trans (Table.length_insert_le ..) (Nat.succ_le_succ counted)

theorem remove_counted (counted : graph.declarations.length ≤ graph.issued) :
    (graph.remove name).declarations.length ≤ (graph.remove name).issued :=
  Nat.le_trans (Table.length_erase_le ..) counted

/-- A name that is given up breaks the graph for good. -/
theorem replace_broken (counted : graph.declarations.length ≤ graph.issued)
    (present : graph.has name = true) : ¬ ((graph.remove name).assign name type).Unbroken := by
  intro unbroken
  have same : graph.issued = (graph.remove name).declarations.length :=
    (assign_unbroken (remove_counted counted) unbroken).2
  have fewer : (graph.remove name).declarations.length < graph.declarations.length :=
    Table.length_erase_lt present
  omega

theorem Sound.assign (sound : graph.Sound) (fits : graph.Unbroken → graph.Fits name type) :
    (graph.assign name type).Sound where
  counted := assign_counted sound.counted
  orderly unbroken := by
    obtain ⟨absent, whole⟩ := assign_unbroken sound.counted unbroken
    rw [declarations_assign absent, whole]
    exact (sound.orderly whole).append (fits whole).own absent (fits whole).fresh (fits whole).backed

theorem Sound.replace (sound : graph.Sound) (present : graph.has name = true) :
    ((graph.remove name).assign name type).Sound where
  counted := assign_counted (remove_counted sound.counted)
  orderly unbroken := absurd unbroken (replace_broken sound.counted present)

theorem Sound.mark (sound : before.Sound) (declarations : after.declarations = before.declarations)
    (issued : after.issued = before.issued) : after.Sound where
  counted := by
    rw [declarations, issued]
    exact sound.counted
  orderly unbroken := by
    have whole : before.Unbroken := by
      rw [Unbroken, ← declarations, ← issued]
      exact unbroken
    rw [declarations]
    exact sound.orderly whole

theorem sound_empty : Sound {} where
  counted := Nat.le_refl 0
  orderly _ i name type found := by
    rw [List.getElem?_nil] at found
    cases found

/-- One graph after another, with every step from a sound graph to a sound one. -/
def Leads : Graph → Graph → Prop :=
  Relation.ReflTransGen fun before after => Step before after ∧ (before.Sound → after.Sound)

theorem Leads.refl (graph : Graph) : Leads graph graph := Relation.ReflTransGen.refl

theorem Leads.trans {first second third : Graph} (left : Leads first second)
    (right : Leads second third) : Leads first third := Relation.ReflTransGen.trans left right

theorem Leads.sound (leads : Leads before after) (sound : before.Sound) : after.Sound := by
  induction leads with
  | refl => exact sound
  | tail _ step ih => exact step.2 ih

/-- A graph without given up declarations came from others without, by additions alone. -/
theorem Step.unbroken (step : Step before after)
    (counted : before.declarations.length ≤ before.issued) (unbroken : after.Unbroken) :
    before.Unbroken ∧ before.declarations <+: after.declarations := by
  cases step with
  | assign name type =>
    obtain ⟨absent, whole⟩ := assign_unbroken counted unbroken
    rw [declarations_assign absent]
    exact ⟨whole, List.prefix_append ..⟩
  | replace name type present => exact absurd unbroken (replace_broken counted present)
  | mark declarations issued =>
    rw [declarations]
    refine ⟨?_, List.prefix_refl _⟩
    rw [Unbroken, ← declarations, ← issued]
    exact unbroken

theorem Leads.unbroken (leads : Leads before after) (sound : before.Sound)
    (unbroken : after.Unbroken) :
    before.Unbroken ∧ before.declarations <+: after.declarations := by
  induction leads with
  | refl => exact ⟨unbroken, List.prefix_refl _⟩
  | tail first step ih =>
    have middle : Sound _ := Leads.sound first sound
    obtain ⟨whole, longer⟩ := step.1.unbroken middle.counted unbroken
    obtain ⟨start, shorter⟩ := ih whole
    exact ⟨start, shorter.trans longer⟩

/-- The graphs from one to another, step by step. -/
theorem Leads.path (leads : Leads before after) (sound : before.Sound) :
    ∃ path : List Graph, path.IsChain Step ∧ path.head? = some before ∧
      path.getLast? = some after ∧ ∀ graph ∈ path, graph.Sound := by
  induction leads with
  | refl => exact ⟨[before], .singleton _, rfl, rfl, by simpa using sound⟩
  | @tail middle last first step ih =>
    obtain ⟨path, chain, head, ends, sounds⟩ := ih
    have middle : Sound _ := Leads.sound first sound
    refine ⟨path ++ [last], ?_, ?_, by simp, ?_⟩
    · refine List.isChain_append.mpr ⟨chain, .singleton _, ?_⟩
      intro x member y same
      rw [ends] at member
      obtain rfl := Option.some.inj member
      obtain rfl := Option.some.inj same
      exact step.1
    · rw [List.head?_append, head]
      rfl
    · intro graph member
      rcases List.mem_append.mp member with old | new
      · exact sounds graph old
      · obtain rfl := List.mem_singleton.mp new
        exact step.2 middle

theorem find_eq_ok (found : graph.find name = .ok type) :
    ∃ own, (own, type) ∈ graph.declarations := by
  obtain ⟨key, -, found⟩ := Outcome.bind_eq_ok.mp found
  split at found
  next node same =>
    obtain rfl := Outcome.pure_eq_ok.mp found
    obtain ⟨own, -, member⟩ := Table.mem_of_find? same
    exact ⟨own, member⟩
  next => cases found

theorem covers_use (orderly : Orderly graph.declarations)
    (member : (name, type) ∈ graph.declarations) : Covers graph.declarations type.use := by
  by_cases own : ∀ header target, type ≠ .synonym header target true
  · have wrapped : type.use = .synonym { name := type.name, size := type.size } type false := by
      cases type with
      | synonym header target transparent =>
        cases transparent with
        | true => exact absurd rfl (own header target)
        | false => rfl
      | _ => rfl
    rw [wrapped]
    exact .use member own
  · -- A synonym of the language gives way to its target, which it refers to.
    push Not at own
    obtain ⟨header, target, rfl⟩ := own
    exact (orderly.entry member).2.2

theorem findPointer_eq_some {base : Label} {isConst : Bool}
    (found : graph.findPointer base isConst = some type) :
    ∃ own, (own, type) ∈ graph.declarations := by
  have value := List.mem_of_find?_eq_some found
  obtain ⟨⟨own, node⟩, member, rfl⟩ := List.mem_map.mp value
  exact ⟨own, member⟩

end Graph

end NativeBindings
