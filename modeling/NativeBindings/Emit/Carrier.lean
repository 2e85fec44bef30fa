import NativeBindings.CType
import NativeBindings.Fault

/-!
How values cross the boundary to native code: the descriptors of the foreign function interface,
the formats in memory and the types on the module's side.
-/
namespace NativeBindings

namespace Carrier

def descriptor : Carrier → String
  | int8 => "_ctypes.c_int8"
  | int16 => "_ctypes.c_int16"
  | int32 => "_ctypes.c_int32"
  | int64 => "_ctypes.c_int64"
  | uint8 => "_ctypes.c_uint8"
  | uint16 => "_ctypes.c_uint16"
  | uint32 => "_ctypes.c_uint32"
  | uint64 => "_ctypes.c_uint64"
  | float => "_ctypes.c_float"
  | double => "_ctypes.c_double"
  | void => "None"
  | cstring => "_ctypes.c_char_p"
  | pointer => "_ctypes.c_void_p"

/-- The format in memory; nothing is stored of a void. -/
def format? : Carrier → Option String
  | int8 => some "_I8"
  | int16 => some "_I16"
  | int32 => some "_I32"
  | int64 => some "_I64"
  | uint8 => some "_U8"
  | uint16 => some "_U16"
  | uint32 => some "_U32"
  | uint64 => some "_U64"
  | float => some "_F32"
  | double => some "_F64"
  | void => none
  | cstring | pointer => some "_PTR"

def host : Carrier → String
  | int8 | int16 | int32 | int64 | uint8 | uint16 | uint32 | uint64 => "int"
  | float | double => "float"
  | void => "None"
  | cstring => "CString"
  | pointer => "Pointer"

/-- What is written for a value that may be missing. -/
def stored : Carrier → String
  | cstring | pointer => "_address_of(x)"
  | float | double => "x or 0.0"
  | _ => "x or 0"

/-- The descriptor of a result. A text comes back as its address. -/
def resultDescriptor : Carrier → String
  | cstring => descriptor pointer
  | carrier => carrier.descriptor

end Carrier

namespace Emit

def nameOrAnonymous (type : CType) : String :=
  if type.name.holds then type.name.plain else "<anonymous>"

/-- The carrier of a type. Records, arrays and signatures do not cross by value. -/
def carrierOf (type : CType) : Except Fault Carrier :=
  match type.unaliased with
  | .builtin _ carrier => .ok carrier
  | .enum _ _ => .ok .int32
  | .pointer _ _ _ | .callback _ _ _ _ => .ok .pointer
  | target => .error (.unmappable
      ("no marshal type for " ++ target.kind ++ " " ++ nameOrAnonymous target))

def descriptorOf (type : CType) : Except Fault String := (carrierOf type).map Carrier.descriptor

def resultDescriptorOf (type : CType) : Except Fault String :=
  (carrierOf type).map Carrier.resultDescriptor

def descriptorsOf (parameters : List (Parameter CType)) : Except Fault (List String) :=
  parameters.mapM fun parameter => descriptorOf parameter.type

def prototype (result : CType) (parameters : List (Parameter CType)) : Except Fault String := do
  let first ← descriptorOf result
  let others ← descriptorsOf parameters
  return "_ctypes.CFUNCTYPE(" ++ ", ".intercalate (first :: others) ++ ")"

def tuple : List String → String
  | [item] => "(" ++ item ++ ",)"
  | items => "(" ++ ", ".intercalate items ++ ")"

end Emit

end NativeBindings
