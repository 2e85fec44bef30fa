import NativeBindings.Amount
import NativeBindings.Constant

/-!
Types of C, as trees that hold everything they refer to. A node that was declared carries a serial
number of its own; a copy of it inside another tree keeps the number, so one can tell the declared
node from a look-alike.
-/
namespace NativeBindings

/-- How a value crosses the boundary to native code. -/
inductive Carrier where
  | int8 | int16 | int32 | int64
  | uint8 | uint16 | uint32 | uint64
  | float | double | void | cstring | pointer
  deriving DecidableEq, Repr

/-- What every node has. -/
structure Header where
  name : Label
  size : Amount
  serial : Option Nat := none
  deriving DecidableEq, Repr

structure Field (α : Type) where
  name : Label
  offset : Amount
  size : Amount
  type : α
  deriving DecidableEq, Repr

/-- A parameter, which may be unnamed. -/
structure Parameter (α : Type) where
  name : Label
  type : α
  deriving DecidableEq, Repr

/-- The nodes. A pointer without base is an opaque handle; a transparent alias is a synonym of the
language and never declared by the module. -/
inductive CType where
  | builtin (header : Header) (carrier : Carrier)
  | synonym (header : Header) (target : CType) (transparent : Bool)
  | pointer (header : Header) (base : Option CType) (isConst : Bool)
  | array (header : Header) (item : CType) (length : Amount)
  | enum (header : Header) (fields : List (Label × Constant))
  | record (header : Header) (fields : List (Field CType))
  | union (header : Header) (variants : List (Field CType))
  | signature (header : Header) (result : CType) (parameters : List (Parameter CType))
  | callback (header own : Header) (result : CType) (parameters : List (Parameter CType))
  | bare (header : Header)
  deriving Repr

namespace CType

mutual

def same : CType → CType → Bool
  | builtin header carrier, builtin header' carrier' => header = header' && carrier = carrier'
  | synonym header target transparent, synonym header' target' transparent' =>
    header = header' && same target target' && transparent = transparent'
  | pointer header none isConst, pointer header' none isConst' => header = header' && isConst = isConst'
  | pointer header (some base) isConst, pointer header' (some base') isConst' =>
    header = header' && same base base' && isConst = isConst'
  | array header item length, array header' item' length' =>
    header = header' && same item item' && length = length'
  | enum header fields, enum header' fields' => header = header' && fields = fields'
  | record header fields, record header' fields' => header = header' && sameFields fields fields'
  | union header variants, union header' variants' => header = header' && sameFields variants variants'
  | signature header result parameters, signature header' result' parameters' =>
    header = header' && same result result' && sameParameters parameters parameters'
  | callback header own result parameters, callback header' own' result' parameters' =>
    header = header' && own = own' && same result result' && sameParameters parameters parameters'
  | bare header, bare header' => header = header'
  | _, _ => false

def sameFields : List (Field CType) → List (Field CType) → Bool
  | [], [] => true
  | ⟨name, offset, size, type⟩ :: rest, ⟨name', offset', size', type'⟩ :: rest' =>
    name = name' && offset = offset' && size = size' && same type type' && sameFields rest rest'
  | _, _ => false

def sameParameters : List (Parameter CType) → List (Parameter CType) → Bool
  | [], [] => true
  | ⟨name, type⟩ :: rest, ⟨name', type'⟩ :: rest' =>
    name = name' && same type type' && sameParameters rest rest'
  | _, _ => false

end

mutual

theorem same_iff (type type' : CType) : same type type' = true ↔ type = type' := by
  cases type with
  | pointer header base isConst =>
    cases type' with
    | pointer header' base' isConst' =>
      match base, base' with
      | none, none => simp [same]
      | none, some _ => simp [same]
      | some _, none => simp [same]
      | some base, some base' => simp [same, same_iff base base', and_assoc]
    | _ => cases base <;> simp [same]
  | synonym header target transparent =>
    cases type' <;> simp [same, same_iff target, and_assoc]
  | array header item length => cases type' <;> simp [same, same_iff item, and_assoc]
  | record header fields => cases type' <;> simp [same, sameFields_iff fields]
  | union header variants => cases type' <;> simp [same, sameFields_iff variants]
  | signature header result parameters =>
    cases type' <;> simp [same, same_iff result, sameParameters_iff parameters, and_assoc]
  | callback header own result parameters =>
    cases type' <;> simp [same, same_iff result, sameParameters_iff parameters, and_assoc]
  | _ => cases type' <;> simp [same]

theorem sameFields_iff (fields fields' : List (Field CType)) :
    sameFields fields fields' = true ↔ fields = fields' := by
  match fields, fields' with
  | [], [] => simp [sameFields]
  | [], _ :: _ => simp [sameFields]
  | _ :: _, [] => simp [sameFields]
  | ⟨_, _, _, type⟩ :: rest, ⟨_, _, _, type'⟩ :: rest' =>
    simp [sameFields, same_iff type type', sameFields_iff rest rest', and_assoc]

theorem sameParameters_iff (parameters parameters' : List (Parameter CType)) :
    sameParameters parameters parameters' = true ↔ parameters = parameters' := by
  match parameters, parameters' with
  | [], [] => simp [sameParameters]
  | [], _ :: _ => simp [sameParameters]
  | _ :: _, [] => simp [sameParameters]
  | ⟨_, type⟩ :: rest, ⟨_, type'⟩ :: rest' =>
    simp [sameParameters, same_iff type type', sameParameters_iff rest rest', and_assoc]

end

instance : DecidableEq CType := fun type type' => decidable_of_iff _ (same_iff type type')

instance : Inhabited CType := ⟨bare { name := .null, size := .int 0 }⟩

def pointerBytes : Int := 8

def pointerSize : Amount := .int pointerBytes

def enumSize : Amount := .int 4

def header : CType → Header
  | builtin header _ | synonym header _ _ | pointer header _ _ | array header _ _
  | enum header _ | record header _ | union header _ | signature header _ _
  | callback header _ _ _ | bare header => header

def name (type : CType) : Label := type.header.name

def size (type : CType) : Amount := type.header.size

def serial (type : CType) : Option Nat := type.header.serial

def kind : CType → String
  | builtin _ _ => "builtin"
  | synonym _ _ _ => "alias"
  | pointer _ _ _ => "pointer"
  | array _ _ _ => "static_array"
  | enum _ _ => "enum"
  | record _ _ => "struct"
  | union _ _ => "union"
  | signature _ _ _ => "func_decl"
  | callback _ _ _ _ => "func_pointer"
  | bare _ => "type"

def withHeader (new : Header) : CType → CType
  | builtin _ carrier => builtin new carrier
  | synonym _ target transparent => synonym new target transparent
  | pointer _ base isConst => pointer new base isConst
  | array _ item length => array new item length
  | enum _ fields => enum new fields
  | record _ fields => record new fields
  | union _ variants => union new variants
  | signature _ result parameters => signature new result parameters
  | callback _ own result parameters => callback new own result parameters
  | bare _ => bare new

/-- The node with a serial number, unless it has one. -/
def numbered (serial : Nat) (type : CType) : CType :=
  match type.serial with
  | some _ => type
  | none => type.withHeader { type.header with serial := some serial }

/-- A node that stands for one use of a declared one. Synonyms of the language give way to their
target instead. -/
def use (type : CType) : CType :=
  match type with
  | synonym _ target true => target
  | _ => synonym { name := type.name, size := type.size } type false

/-- What a chain of aliases ends in. -/
def unaliased : CType → CType
  | synonym _ target _ => target.unaliased
  | type => type

/-- What aliases and pointers end in. An opaque pointer is an end. -/
def pointee : CType → CType
  | synonym _ target _ => target.pointee
  | pointer _ (some base) _ => base.pointee
  | type => type

end CType

end NativeBindings
