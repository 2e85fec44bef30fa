import NativeBindings.Proofs.Emit.Views

/-!
Types without serial numbers. A module does not show the numbers of its nodes.
-/
namespace NativeBindings

/-- A header without its serial number. -/
def Header.unnumbered (header : Header) : Header := { header with serial := none }

namespace CType

mutual

/-- A type without the serial numbers of its nodes. -/
def unnumbered : CType → CType
  | builtin header carrier => builtin header.unnumbered carrier
  | synonym header target transparent => synonym header.unnumbered (unnumbered target) transparent
  | pointer header none isConst => pointer header.unnumbered none isConst
  | pointer header (some base) isConst => pointer header.unnumbered (some (unnumbered base)) isConst
  | array header item length => array header.unnumbered (unnumbered item) length
  | enum header fields => enum header.unnumbered fields
  | record header fields => record header.unnumbered (unnumberedFields fields)
  | union header variants => union header.unnumbered (unnumberedFields variants)
  | signature header result parameters =>
    signature header.unnumbered (unnumbered result) (unnumberedParameters parameters)
  | callback header own result parameters =>
    callback header.unnumbered own (unnumbered result) (unnumberedParameters parameters)
  | bare header => bare header.unnumbered

def unnumberedFields : List (Field CType) → List (Field CType)
  | [] => []
  | field :: rest => { field with type := unnumbered field.type } :: unnumberedFields rest

def unnumberedParameters : List (Parameter CType) → List (Parameter CType)
  | [] => []
  | parameter :: rest =>
    { parameter with type := unnumbered parameter.type } :: unnumberedParameters rest

end

theorem unnumberedFields_eq (fields : List (Field CType)) :
    unnumberedFields fields = fields.map fun field => { field with type := unnumbered field.type } := by
  induction fields with
  | nil => rfl
  | cons field rest ih => rw [unnumberedFields, ih, List.map_cons]

theorem unnumberedParameters_eq (parameters : List (Parameter CType)) :
    unnumberedParameters parameters =
      parameters.map fun parameter => { parameter with type := unnumbered parameter.type } := by
  induction parameters with
  | nil => rfl
  | cons parameter rest ih => rw [unnumberedParameters, ih, List.map_cons]

/-- Types without serial numbers. -/
def View.unnumbered : View where
  look := CType.unnumbered
  mark := Header.unnumbered
  aim _ target := target
  name _ := rfl
  size _ := rfl
  builtin _ _ := rfl
  given _ _ := rfl
  named _ _ := rfl
  handle _ _ := rfl
  pointer _ _ _ := rfl
  array _ _ _ := rfl
  enum _ _ := rfl
  record _ fields := by rw [CType.unnumbered, unnumberedFields_eq]
  union _ variants := by rw [CType.unnumbered, unnumberedFields_eq]
  signature _ _ parameters := by rw [CType.unnumbered, unnumberedParameters_eq]
  callback _ _ _ parameters := by rw [CType.unnumbered, unnumberedParameters_eq]
  bare _ := rfl

theorem unnumbered_withHeader {new : Header} {type : CType}
    (same : new.unnumbered = type.header.unnumbered) :
    (type.withHeader new).unnumbered = type.unnumbered := by
  cases type with
  | pointer header base isConst =>
    cases base <;> exact congrArg (fun header => CType.pointer header _ _) same
  | builtin => exact congrArg (fun header => CType.builtin header _) same
  | synonym => exact congrArg (fun header => CType.synonym header _ _) same
  | array => exact congrArg (fun header => CType.array header _ _) same
  | enum => exact congrArg (fun header => CType.enum header _) same
  | record => exact congrArg (fun header => CType.record header _) same
  | union => exact congrArg (fun header => CType.union header _) same
  | signature => exact congrArg (fun header => CType.signature header _ _) same
  | callback => exact congrArg (fun header => CType.callback header _ _ _) same
  | bare => exact congrArg CType.bare same

theorem unnumbered_numbered (serial : Nat) (type : CType) :
    (type.numbered serial).unnumbered = type.unnumbered := by
  unfold numbered
  split
  · rfl
  · exact unnumbered_withHeader rfl

end CType

namespace Emit

theorem legible_unnumbered : Legible CType.View.unnumbered where
  hint _ _ := rfl
  access _ _ _ _ := rfl
  unaliased _ _ := rfl
  pointee _ _ := rfl

end Emit

end NativeBindings
