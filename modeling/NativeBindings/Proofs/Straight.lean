import NativeBindings.Proofs.Views

/-!
Aliases that go straight to the record they name. An alias may hold its record itself or one use of
it, and a module reads the same either way; types are compared without such uses.
-/
namespace NativeBindings

namespace CType

/-- What an alias of a target holds. A use of a record, under the record's own name, gives way to the
record, unless the alias is such a use itself. -/
def aliasTarget (own : Label) : CType → CType
  | synonym inner (record header fields) false =>
    if inner.serial = none ∧ inner.name = header.name ∧ header.name.isNull = false ∧
        own ≠ header.name then record header fields
    else synonym inner (record header fields) false
  | target => target

mutual

/-- A type in which every alias of a record goes straight to it. -/
def straight : CType → CType
  | synonym header target true => synonym header (straight target) true
  | synonym header target false => synonym header (aliasTarget header.name (straight target)) false
  | pointer header none isConst => pointer header none isConst
  | pointer header (some base) isConst => pointer header (some (straight base)) isConst
  | array header item length => array header (straight item) length
  | record header fields => record header (straightFields fields)
  | union header variants => union header (straightFields variants)
  | signature header result parameters =>
    signature header (straight result) (straightParameters parameters)
  | callback header own result parameters =>
    callback header own (straight result) (straightParameters parameters)
  | builtin header carrier => builtin header carrier
  | enum header fields => enum header fields
  | bare header => bare header

def straightFields : List (Field CType) → List (Field CType)
  | [] => []
  | field :: rest => { field with type := straight field.type } :: straightFields rest

def straightParameters : List (Parameter CType) → List (Parameter CType)
  | [] => []
  | parameter :: rest => { parameter with type := straight parameter.type } :: straightParameters rest

end

theorem straightFields_eq (fields : List (Field CType)) :
    straightFields fields = fields.map fun field => { field with type := field.type.straight } := by
  induction fields with
  | nil => rfl
  | cons field rest ih => rw [straightFields, ih, List.map_cons]

theorem straightParameters_eq (parameters : List (Parameter CType)) :
    straightParameters parameters =
      parameters.map fun parameter => { parameter with type := parameter.type.straight } := by
  induction parameters with
  | nil => rfl
  | cons parameter rest ih => rw [straightParameters, ih, List.map_cons]

@[simp] theorem header_straight (type : CType) : type.straight.header = type.header := by
  cases type with
  | synonym header target transparent => cases transparent <;> rfl
  | pointer header base isConst => cases base <;> rfl
  | _ => rfl

@[simp] theorem name_straight (type : CType) : type.straight.name = type.name :=
  congrArg Header.name (header_straight type)

@[simp] theorem size_straight (type : CType) : type.straight.size = type.size :=
  congrArg Header.size (header_straight type)

@[simp] theorem serial_straight (type : CType) : type.straight.serial = type.serial :=
  congrArg Header.serial (header_straight type)

/-- A record and one use of it are the same target to an alias of another name. -/
theorem aliasTarget_use {own : Label} {type : CType} {header : Header} {fields : List (Field CType)}
    (shape : type = record header fields) (named : header.name.isNull = false)
    (apart : own ≠ header.name) :
    aliasTarget own type.use.straight = aliasTarget own type.straight := by
  subst shape
  have kept : (record header fields).use.straight =
      synonym { name := header.name, size := header.size } (record header (straightFields fields))
        false := by
    rw [use, straight, straight, aliasTarget]
    · rfl
    · nofun
    · nofun
  rw [kept, straight, aliasTarget, if_pos ⟨rfl, rfl, named, apart⟩]
  rfl

theorem straight_numbered (serial : Nat) (type : CType) :
    (type.numbered serial).straight = type.straight.numbered serial := by
  unfold numbered
  rw [serial_straight]
  cases type.serial with
  | some _ => rfl
  | none =>
    cases type with
    | synonym header target transparent => cases transparent <;> rfl
    | pointer header base isConst => cases base <;> rfl
    | _ => rfl

/-- Types without the detours of their aliases. -/
def View.straight : View where
  look := CType.straight
  mark := id
  aim := aliasTarget
  name _ := rfl
  size _ := rfl
  builtin _ _ := rfl
  given _ _ := rfl
  named _ _ := rfl
  handle _ _ := rfl
  pointer _ _ _ := rfl
  array _ _ _ := rfl
  enum _ _ := rfl
  record _ fields := by
    rw [CType.straight, straightFields_eq]
    rfl
  union _ variants := by
    rw [CType.straight, straightFields_eq]
    rfl
  signature _ _ parameters := by
    rw [CType.straight, straightParameters_eq]
    rfl
  callback _ _ _ parameters := by
    rw [CType.straight, straightParameters_eq]
    rfl
  bare _ := rfl

end CType

namespace Graph

/-- A graph of straight types. -/
def straight (graph : Graph) : Graph :=
  { graph with declarations := graph.declarations.map fun entry => (entry.1, entry.2.straight) }

theorem has_straight (graph : Graph) (name : Label) : graph.straight.has name = graph.has name :=
  graph.has_seen .straight name

theorem names_straight (graph : Graph) : graph.straight.names = graph.names := graph.names_seen .straight

end Graph

end NativeBindings
