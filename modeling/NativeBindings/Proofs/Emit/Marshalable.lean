import NativeBindings.Emit.Module
import NativeBindings.Proofs.Outcome
import NativeBindings.Proofs.Resolve.Orderly

/-!
Which types can be marshaled, told from the types alone, and which declarations of a graph fail.
-/
namespace NativeBindings.Emit

open Outcome

/-- Whether a type goes by value into a native call or out of it. -/
def crosses (type : CType) : Bool :=
  match type.unaliased with
  | .builtin _ _ | .enum _ _ | .pointer _ _ _ | .callback _ _ _ _ => true
  | _ => false

mutual

/-- Whether the values of a type can be read and written. -/
def marshalable : CType → Bool
  | .builtin _ carrier => carrier != .void
  | .enum _ _ | .pointer _ _ _ => true
  | .callback _ _ result parameters =>
    crosses result && parameters.all fun parameter => crosses parameter.type
  | .synonym _ target _ => marshalable target
  | .array _ item _ => marshalable item
  | .record _ fields | .union _ fields => marshalableFields fields
  | .signature _ _ _ | .bare _ => false

def marshalableFields : List (Field CType) → Bool
  | [] => true
  | field :: rest => marshalable field.type && marshalableFields rest

end

/-- Whether a size or an offset has a text. -/
def isPrintable : Amount → Bool
  | .int n => Numeral.isWritable n
  | _ => true

/-- Whether all operators of a constant can be looked up in a table. -/
def hasKeys : Constant → Bool
  | .literal _ | .reference _ _ => true
  | .paren inner => hasKeys inner
  | .unary operator operand => operator.asKey.isOk && hasKeys operand
  | .binary operator left right => operator.asKey.isOk && hasKeys left && hasKeys right

section
variable (options : Options)

mutual

/-- Whether the numbers and operators that a module shows of a type have a text: strides and lengths
of arrays, offsets of members, sizes of records and operators of enum constants. -/
def printable : CType → Bool
  | .enum _ constants => constants.all fun constant => hasKeys constant.2
  | .synonym _ target _ => printable target
  | .array _ item length => printable item && isPrintable item.size && isPrintable length
  | .record header fields =>
    printableFields fields &&
      (!(options.recordSizes || options.allocators && options.writers) || isPrintable header.size)
  | .union _ variants => printableFields variants
  | _ => true

def printableFields : List (Field CType) → Bool
  | [] => true
  | field :: rest => printable field.type && isPrintable field.offset && printableFields rest

end

/-- Whether a module has marshalers for a type. -/
def supported (type : CType) : Bool := marshalable type && printable options type

def supportedField (field : Field CType) : Bool :=
  supported options field.type && isPrintable field.offset

end

/-- The symbols of a declaration that are reported as failed, where it is known which types are
supported. The halves of a pointer to a function are reported apart. -/
def failuresOf (supports : CType → Bool) (name : Label) (type : CType) : List Label :=
  match type with
  | .record _ _ | .enum _ _ => if supports type then [] else [name]
  | .synonym _ target transparent =>
    if transparent || isVoid target || supports target then [] else [name]
  | .callback _ _ _ _ =>
    if supports type then [] else [halfSymbol .reading name, halfSymbol .writing name]
  | _ => []

section
variable {options : Options}

theorem marshalableFields_eq (fields : List (Field CType)) :
    marshalableFields fields = fields.all fun field => marshalable field.type := by
  induction fields with
  | nil => rw [marshalableFields, List.all_nil]
  | cons field rest ih => rw [marshalableFields, List.all_cons, ih]

theorem printableFields_eq (fields : List (Field CType)) :
    printableFields options fields =
      fields.all fun field => printable options field.type && isPrintable field.offset := by
  induction fields with
  | nil => rw [printableFields, List.all_nil]
  | cons field rest ih => rw [printableFields, List.all_cons, ih]

theorem supported_synonym (header : Header) (target : CType) (transparent : Bool) :
    supported options (.synonym header target transparent) = supported options target := by
  rw [supported, marshalable, printable, supported]

theorem supported_callback (header own : Header) (result : CType)
    (parameters : List (Parameter CType)) :
    supported options (.callback header own result parameters) =
      (crosses result && parameters.all fun parameter => crosses parameter.type) := by
  rw [supported, marshalable,
    show printable options (.callback header own result parameters) = true from rfl, Bool.and_true]

theorem supported_array (header : Header) (item : CType) (length : Amount) :
    supported options (.array header item length) = true ↔
      supported options item = true ∧ isPrintable item.size = true ∧ isPrintable length = true := by
  rw [supported, marshalable, printable, supported]
  simp only [Bool.and_eq_true]
  constructor
  · rintro ⟨values, ⟨texts, stride⟩, count⟩
    exact ⟨⟨values, texts⟩, stride, count⟩
  · rintro ⟨⟨values, texts⟩, stride, count⟩
    exact ⟨values, ⟨texts, stride⟩, count⟩

theorem supported_union (header : Header) (variants : List (Field CType)) :
    supported options (.union header variants) = true ↔
      ∀ variant ∈ variants, supportedField options variant = true := by
  rw [supported, marshalable, printable, marshalableFields_eq, printableFields_eq]
  simp only [supportedField, supported, Bool.and_eq_true, List.all_eq_true]
  constructor
  · rintro ⟨values, texts⟩ variant member
    exact ⟨⟨values variant member, (texts variant member).1⟩, (texts variant member).2⟩
  · intro fields
    exact ⟨fun variant member => (fields variant member).1.1,
      fun variant member => ⟨(fields variant member).1.2, (fields variant member).2⟩⟩

/-- Whether the size of a record has to be shown and can be. -/
def showsSize (options : Options) (size : Amount) : Bool :=
  !(options.recordSizes || options.allocators && options.writers) || isPrintable size

theorem supported_record (header : Header) (fields : List (Field CType)) :
    supported options (.record header fields) = true ↔
      (∀ field ∈ fields, supportedField options field = true) ∧
        showsSize options header.size = true := by
  have same : supported options (.record header fields) =
      (supported options (.union header fields) && showsSize options header.size) := by
    rw [supported, marshalable, printable, supported, marshalable, printable, showsSize, Bool.and_assoc]
  rw [same, Bool.and_eq_true, supported_union]

/-- Nothing of type void is marshaled. -/
theorem not_supported_of_isVoid {type : CType} (void : isVoid type = true) :
    supported options type = false := by
  have plain : marshalable type = false := by
    induction type using CType.unaliased.induct with
    | case1 header target transparent ih =>
      rw [marshalable]
      exact ih (by simpa [isVoid, CType.unaliased] using void)
    | case2 type other =>
      cases type with
      | synonym header target transparent => exact absurd rfl (other header target transparent)
      | builtin header carrier => simpa [isVoid, CType.unaliased, marshalable] using void
      | _ => simp [isVoid, CType.unaliased] at void
  rw [supported, plain]
  rfl

end

end NativeBindings.Emit
