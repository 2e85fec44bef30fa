import NativeBindings.Proofs.Resolve.Orderly

/-!
What the entries of a graph refer to. In a closed graph every entry refers to entries before it only,
so no entry refers to itself through others.
-/
namespace NativeBindings

namespace CType

/-- Whether a node stands for one use of a declared node. -/
def isUse : CType → Bool
  | synonym header target transparent =>
    header.serial.isNone && !transparent && header.name = target.name
  | _ => false

/-- Whether a node is a pointer that was not declared. -/
def isUnnamedPointer : CType → Bool
  | pointer header _ _ => header.serial.isNone && header.name.isNull
  | _ => false

mutual

/-- The nodes that a type comes down to where uses, unnamed pointers, arrays and inline unions are
looked through. -/
def roots : CType → List CType
  | synonym header target transparent =>
    if isUse (synonym header target transparent) then roots target
    else [synonym header target transparent]
  | pointer header none isConst =>
    if isUnnamedPointer (pointer header none isConst) then [] else [pointer header none isConst]
  | pointer header (some base) isConst =>
    if isUnnamedPointer (pointer header (some base) isConst) then roots base
    else [pointer header (some base) isConst]
  | array header item length =>
    if header.serial.isNone then roots item else [array header item length]
  | union header variants =>
    if header.serial.isNone then fieldRoots variants else [union header variants]
  | type => [type]

def fieldRoots : List (Field CType) → List CType
  | [] => []
  | field :: rest => roots field.type ++ fieldRoots rest

end

/-- The nodes that a node refers to. A pointer to a function refers to what its signature does. -/
def references : CType → List CType
  | builtin _ _ | enum _ _ | bare _ | pointer _ none _ => []
  | synonym _ target _ => roots target
  | pointer _ (some base) _ => roots base
  | array _ item _ => roots item
  | record _ fields | union _ fields => fieldRoots fields
  | signature _ result parameters | callback _ _ result parameters =>
    roots result ++ parameters.flatMap fun parameter => roots parameter.type

theorem fieldRoots_eq (fields : List (Field CType)) :
    fieldRoots fields = fields.flatMap fun field => roots field.type := by
  induction fields with
  | nil => rw [fieldRoots, List.flatMap_nil]
  | cons field rest ih => rw [fieldRoots, List.flatMap_cons, ih]

theorem roots_of_serial {type : CType} {number : Nat} (declared : type.serial = some number) :
    type.roots = [type] := by
  have numbered : type.header.serial = some number := declared
  cases type with
  | pointer header base isConst =>
    have named : isUnnamedPointer (pointer header base isConst) = false := by
      rw [isUnnamedPointer, show header.serial = some number from numbered]
      rfl
    cases base with
    | none => rw [roots, named]; rfl
    | some target => rw [roots, named]; rfl
  | synonym header target transparent =>
    have own : isUse (synonym header target transparent) = false := by
      rw [isUse, show header.serial = some number from numbered]
      rfl
    rw [roots, own]
    rfl
  | array header item length =>
    rw [roots, show header.serial = some number from numbered]
    rfl
  | union header variants =>
    rw [roots, show header.serial = some number from numbered]
    rfl
  | _ => rfl

theorem roots_wrapped {type : CType} {number : Nat} (declared : type.serial = some number) :
    roots (.synonym { name := type.name, size := type.size } type false) = [type] := by
  have use : isUse (.synonym { name := type.name, size := type.size } type false) = true := by
    simp [isUse]
  rw [roots, if_pos use, roots_of_serial declared]

theorem roots_unnamedPointer (base : Option CType) (isConst : Bool) :
    roots (.pointer { name := .null, size := pointerSize } base isConst) =
      (base.map roots).getD [] := by
  cases base with
  | none => rw [roots]; rfl
  | some target => rw [roots]; rfl

theorem roots_array (name : Label) (size : Amount) (item : CType) (length : Amount) :
    roots (.array { name, size } item length) = item.roots := by
  rw [roots]
  rfl

theorem roots_union (name : Label) (size : Amount) (variants : List (Field CType)) :
    roots (.union { name, size } variants) = fieldRoots variants := by
  rw [roots]
  rfl

end CType

section
variable {declared : Table Label CType} {type : CType}

theorem Covers.roots (covers : Covers declared type)
    (entries : ∀ name type, (name, type) ∈ declared →
      type.name = name ∧ ∃ number, type.serial = some number) :
    ∀ root ∈ type.roots, (root.name, root) ∈ declared := by
  induction covers with
  | node member =>
    obtain ⟨own, number, serial⟩ := entries _ _ member
    intro root among
    rw [CType.roots_of_serial serial, List.mem_singleton] at among
    rw [among, own]
    exact member
  | use member own =>
    obtain ⟨same, number, serial⟩ := entries _ _ member
    intro root among
    rw [CType.roots_wrapped serial, List.mem_singleton] at among
    rw [among, same]
    exact member
  | handle isConst =>
    intro root among
    simp [CType.roots_unnamedPointer] at among
  | pointer _ isConst ih =>
    rw [CType.roots_unnamedPointer]
    exact ih
  | array _ name size length ih =>
    rw [CType.roots_array]
    exact ih

theorem Backed.references (backed : Backed declared type)
    (entries : ∀ name type, (name, type) ∈ declared →
      type.name = name ∧ ∃ number, type.serial = some number) :
    ∀ root ∈ type.references, (root.name, root) ∈ declared := by
  cases type with
  | builtin => simp [CType.references]
  | enum => simp [CType.references]
  | synonym => exact Covers.roots backed entries
  | pointer header base isConst =>
    cases base with
    | none => simp [CType.references]
    | some target => exact Covers.roots (backed target rfl) entries
  | record header fields =>
    intro root among
    rw [CType.references, CType.fieldRoots_eq] at among
    obtain ⟨field, member, among⟩ := List.mem_flatMap.mp among
    rcases backed field member with covers | ⟨size, variants, same, covers⟩
    · exact covers.roots entries root among
    · rw [same, CType.roots_union, CType.fieldRoots_eq] at among
      obtain ⟨variant, inside, among⟩ := List.mem_flatMap.mp among
      exact (covers variant inside).roots entries root among
  | signature header result parameters =>
    intro root among
    rcases List.mem_append.mp among with among | among
    · exact backed.1.roots entries root among
    · obtain ⟨parameter, member, among⟩ := List.mem_flatMap.mp among
      exact (backed.2 parameter member).roots entries root among
  | callback header own result parameters =>
    intro root among
    rcases List.mem_append.mp among with among | among
    · exact backed.1.roots entries root among
    · obtain ⟨parameter, member, among⟩ := List.mem_flatMap.mp among
      exact (backed.2 parameter member).roots entries root among
  | array => exact absurd backed id
  | union => exact absurd backed id
  | bare => exact absurd backed id

end

namespace Graph

variable {graph : Graph}

/-- Every entry has its own name and its position as its serial number, and the nodes it refers to
are entries before it, each under its name. -/
def Closed (graph : Graph) : Prop :=
  ∀ (i : Nat) name type, graph.declarations[i]? = some (name, type) →
    type.name = name ∧ type.serial = some i ∧
      ∀ root ∈ type.references, ∃ j < i, graph.declarations[j]? = some (root.name, root)

theorem closed_of_orderly (orderly : Orderly graph.declarations) : graph.Closed := by
  intro i name type found
  obtain ⟨own, -, serial, backed⟩ := orderly i name type found
  refine ⟨own, serial, fun root refers => ?_⟩
  have entries : ∀ name type, (name, type) ∈ graph.declarations.take i →
      type.name = name ∧ ∃ number, type.serial = some number := by
    intro name type member
    obtain ⟨own, serial, -⟩ := orderly.entry (List.mem_of_mem_take member)
    exact ⟨own, serial⟩
  obtain ⟨j, declared⟩ := List.mem_iff_getElem?.mp (backed.references entries root refers)
  rw [List.getElem?_take] at declared
  split at declared
  · exact ⟨j, ‹_›, declared⟩
  · cases declared

/-- Whether an entry of a graph refers to a node. -/
def Refers (graph : Graph) (type root : CType) : Prop :=
  (∃ name, (name, type) ∈ graph.declarations) ∧ root ∈ type.references

/-- References go down in number, so no node refers to itself through others. -/
theorem Closed.acyclic (closed : graph.Closed) (type : CType) :
    ¬ Relation.TransGen graph.Refers type type := by
  have down {type root : CType} (refers : Relation.TransGen graph.Refers type root) :
      ∃ i j : Nat, type.serial = some i ∧ root.serial = some j ∧ j < i := by
    have step {type root : CType} (refers : graph.Refers type root) :
        ∃ i j : Nat, type.serial = some i ∧ root.serial = some j ∧ j < i := by
      obtain ⟨⟨name, member⟩, refers⟩ := refers
      obtain ⟨i, found⟩ := List.mem_iff_getElem?.mp member
      obtain ⟨-, serial, earlier⟩ := closed i name type found
      obtain ⟨j, before, declared⟩ := earlier root refers
      exact ⟨i, j, serial, (closed j _ root declared).2.1, before⟩
    induction refers with
    | single refers => exact step refers
    | tail _ refers ih =>
      obtain ⟨i, j, first, second, less⟩ := ih
      obtain ⟨k, l, third, fourth, lower⟩ := step refers
      rw [second] at third
      obtain rfl := Option.some.inj third
      exact ⟨i, l, first, fourth, by omega⟩
  intro cycle
  obtain ⟨i, j, first, second, less⟩ := down cycle
  rw [first] at second
  obtain rfl := Option.some.inj second
  exact Nat.lt_irrefl i less

end Graph

end NativeBindings
