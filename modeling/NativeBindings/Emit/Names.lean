import NativeBindings.Json.Key
import NativeBindings.Keyword

/-!
Names in a generated module. A name that is taken there gets a low line at its end.
-/
namespace NativeBindings.Emit

/-- The names that the module's own text defines. -/
def reserved : List String :=
  ["Any", "Callable", "ConstPtrT", "NULL", "Optional", "Pointer", "PtrT", "TypeAlias",
    "Union", "_F32", "_F64", "_I16", "_I32", "_I64", "_I8", "_LIB_PATH", "_LIB_SUFFIX", "_PTR",
    "_Path", "_T", "_U16", "_U32", "_U64", "_U8", "_address_of", "_argtypes",
    "_callback_address", "_callbacks", "_ctypes", "_enum", "_enum_member", "_keep_alive",
    "_name", "_read", "_restype", "_struct", "_symbol", "_symbol_signatures", "_sys",
    "_typing", "_write", "alloc_CString", "alloc_opaque_pointer", "annotations",
    "imported_lib", "read_array", "write_array"]

/-- Whether a declaration cannot have a name, or its marshalers could not have theirs. -/
def isTaken (name : String) : Bool :=
  isKeyword name || reserved.contains name || reserved.contains ("read_" ++ name)

def ident (name : String) : String := if isTaken name then name ++ "_" else name

/-- The identifier for a label. Only a text can be taken, and only a key has an identifier. -/
def identOf (name : Label) : Except Fault Label := do
  match ← name.asKey with
  | .str s => return .str (ident s)
  | other => return other

def identText (name : Label) : Except Fault String := return (← identOf name).plain

/-- The name of an enum constant; only keywords are taken inside an enum. -/
def member (name : String) : String := if isKeyword name then name ++ "_" else name

def memberOf (name : Label) : Except Fault String := do
  match ← name.asKey with
  | .str s => return member s
  | other => return other.plain

/-- How a module refers to a symbol of the library. -/
def symbol (name : String) : String :=
  if isKeyword name then "getattr(imported_lib, \"" ++ name ++ "\")" else "imported_lib." ++ name

def symbolOf : Label → String
  | .str name => symbol name
  | other => "imported_lib." ++ other.plain

end NativeBindings.Emit
