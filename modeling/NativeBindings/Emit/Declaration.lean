import NativeBindings.Emit.Access
import NativeBindings.Emit.Options

/-!
The lines of one declaration. Nothing is emitted of a declaration that fails; one that succeeds may
make the marshalers of its identifier known.
-/
namespace NativeBindings.Emit

/-- The lines of a declaration, and the identifier whose marshalers it makes known. -/
structure Rendered where
  lines : List Fragment
  ident : Option String := none

section
variable (options : Options) (known : List Marshaler)

def put (level : Nat) (pieces : List Piece) : Fragment := line options.indentWidth level pieces

/-- Lines for readers, if the module has them. -/
def reading (lines : List Fragment) : List Fragment := if options.readers then lines else []

/-- Lines for writers, if the module has them. -/
def writing (lines : List Fragment) : List Fragment := if options.writers then lines else []

/-- The first line of a reader. -/
def readerHead (ident result : String) : Fragment :=
  put options 0 ["def ", .define { direction := .reading, ident },
    .text ("(source: Any, offset: int = 0) -> " ++ result ++ ":")]

/-- The first line of a writer. -/
def writerHead (ident value : String) : Fragment :=
  put options 0 ["def ", .define { direction := .writing, ident },
    .text ("(x: " ++ value ++ ", buffer: Any, offset: int = 0) -> None:")]

/-- The line that names a type. -/
def aliasLine (ident : String) (hint : Label) : Fragment :=
  put options 0 [.text (ident ++ ": TypeAlias = \"" ++ hint.plain ++ "\"")]

/-- A marshaler that is another one under a new name. -/
def sameMarshaler (direction : Direction) (ident : String) (function : List Piece) : Fragment :=
  put options 0 (.define { direction, ident } :: .text " = " :: function)

def builtin (name : Label) (carrier : Carrier) : Except Fault Rendered := do
  let ident ← identText name
  let naming :=
    if name != .str carrier.host then [put options 0 [.text (ident ++ " = " ++ carrier.host)]]
    else []
  match carrier.format? with
  | none => return { lines := naming }
  | some format =>
    let value := "_read(" ++ format ++ ", source, offset)"
    let result := if carrier = .cstring then "CString(" ++ value ++ ")" else value
    return {
      lines := naming ++
        reading options [readerHead options ident ident,
          put options 1 [.text ("return " ++ result)]] ++
        writing options [writerHead options ident ident,
          put options 1
            [.text ("_write(" ++ format ++ ", buffer, offset, " ++ carrier.stored ++ ")")]]
      ident := some ident }

def constantLine (enum : Label) (constant : Label × Constant) : Except Fault Fragment := do
  let member ← memberOf constant.1
  let value ← constant.2.render Constant.moduleOperators enum
  return put options 1 [.text (member ++ " = " ++ value.plain)]

def enumeration (name : Label) (fields : List (Label × Constant)) : Except Fault Rendered := do
  let ident ← identText name
  let values ← fields.mapM (constantLine options name)
  let constants := if fields.isEmpty then [put options 1 ["pass"]] else values
  return {
    lines := put options 0 [.text ("class " ++ ident ++ "(_enum.IntEnum):")] :: constants ++
      [blankLine] ++
      reading options [readerHead options ident ident,
        put options 1
          [.text ("return _enum_member(" ++ ident ++ ", _read(_U32, source, offset))")]] ++
      writing options [writerHead options ident ident,
        put options 1 ["_write(_U32, buffer, offset, int(x or 0) & 0xFFFFFFFF)"]]
    ident := some ident }

/-- Whether aliases end in void. -/
def isVoid (type : CType) : Bool :=
  match type.unaliased with
  | .builtin _ carrier => carrier = .void
  | _ => false

/-- The lines of one direction, if the module has it. -/
def direct (direction : Direction) (lines : Except Fault (List Fragment)) :
    Except Fault (List Fragment) :=
  match direction with
  | .reading => if options.readers then lines else .ok []
  | .writing => if options.writers then lines else .ok []

/-- A marshaler for an alias: that of its target. -/
def aliasMarshaler (direction : Direction) (ident : String) (target : CType) :
    Except Fault (List Fragment) :=
  direct options direction do
    let function ← access known direction target
    return [sameMarshaler options direction ident function]

def synonym (name : Label) (target : CType) : Except Fault Rendered := do
  let ident ← identText name
  let naming := aliasLine options ident (← hint target)
  if isVoid target then return { lines := [naming] }
  let readers ← aliasMarshaler options known .reading ident target
  let writers ← aliasMarshaler options known .writing ident target
  return { lines := naming :: readers ++ writers, ident := some ident }

def pointer (name : Label) (base : Option CType) (isConst : Bool) : Except Fault Rendered := do
  let ident ← identText name
  let naming := aliasLine options ident (← pointerHintTo base isConst)
  return {
    lines := naming ::
      reading options [sameMarshaler options .reading ident
        [.use { direction := .reading, ident := "opaque_pointer" }]] ++
      writing options [sameMarshaler options .writing ident
        [.use { direction := .writing, ident := "opaque_pointer" }]]
    ident := some ident }

/-- A function has no lines of its own here but the name of its signature. -/
def function (name : Label) (result : CType) (parameters : List (Parameter CType)) :
    Except Fault Rendered := do
  if options.signatureTypes then
    let ident ← identText name
    let hint ← signatureHint result parameters
    return { lines := [aliasLine options (ident ++ "__signature") hint] }
  else return { lines := [] }

/-- The entry of a member in what a reader returns. -/
def readEntry (owner : String) (field : Field CType) : Except Fault Fragment := do
  let value ← fieldRead known owner field
  return put options 2 (.text ("\"" ++ field.name.plain ++ "\": ") :: value ++ [.text ","])

def fieldsReader (owner result : String) (fields : List (Field CType)) :
    Except Fault (List Fragment) :=
  direct options .reading do
    let entries ← fields.mapM (readEntry options known owner)
    return [readerHead options owner result, put options 1 ["return \x7b"]] ++ entries ++
      [put options 1 ["\x7d"]]

/-- The lines that write a member if it is given. -/
def writeEntry (owner : String) (field : Field CType) : Except Fault (List Fragment) := do
  let statement ← fieldWrite known owner field
  let condition := put options 1 [.text ("if \"" ++ field.name.plain ++ "\" in x:")]
  return [condition, put options 2 statement]

def fieldsWriter (owner value : String) (fields : List (Field CType)) :
    Except Fault (List Fragment) :=
  direct options .writing do
    let entries ← fields.mapM (writeEntry options known owner)
    let body := if fields.isEmpty then [put options 1 ["pass"]] else entries.flatten
    return writerHead options owner value :: body

/-- The helpers for a member that is a union. -/
def unionHelpers (owner : String) (field : Field CType) : Except Fault (List Fragment) :=
  match meaning field.type with
  | .union _ variants => do
    let helper := owner ++ "__" ++ field.name.plain
    let readers ← fieldsReader options known helper "dict[str, Any]" variants
    let writers ← fieldsWriter options known helper "dict[str, Any]" variants
    return readers ++ writers
  | _ => .ok []

/-- The entry of a member in a typed dictionary. -/
def hintEntry (field : Field CType) : Except Fault Fragment := do
  let hint ← hint field.type
  return put options 2 [.text ("\"" ++ field.name.plain ++ "\": \"" ++ hint.plain ++ "\",")]

def dictionary (name : Label) (ident : String) (fields : List (Field CType)) :
    Except Fault (List Fragment) := do
  let entries ← fields.mapM (hintEntry options)
  return [put options 0 [.text (ident ++ " = _typing.TypedDict(")],
      put options 1 [.text ("\"" ++ name.plain ++ "\",")], put options 1 ["\x7b"]] ++
    entries ++
    [put options 1 ["\x7d,"], put options 1 ["total=False,"], put options 0 [")"]]

/-- The function that writes a record into new memory. -/
def allocator (ident size : String) : List Fragment :=
  [put options 0
      [.text ("def alloc_" ++ ident ++ "(x: " ++ ident ++ ", buffer: Any = None) -> Any:")],
    put options 1 ["if buffer is None:"],
    put options 2 [.text ("buffer = _ctypes.create_string_buffer(" ++ size ++ ")")],
    put options 1 [.use { direction := .writing, ident }, "(x, buffer, 0)"],
    put options 1 ["return buffer"]]

/-- The text of a size, if anything shows it. -/
def shownSize (size : Amount) : Except Fault String :=
  if options.recordSizes || options.allocators && options.writers then Amount.written size
  else return ""

def record (name : Label) (size : Amount) (fields : List (Field CType)) :
    Except Fault Rendered := do
  let ident ← identText name
  let dictionary ← dictionary options name ident fields
  let helpers ← fields.mapM (unionHelpers options known ident)
  let readers ← fieldsReader options known ident ident fields
  let writers ← fieldsWriter options known ident ident fields
  let size ← shownSize options size
  let sizes :=
    if options.recordSizes then [put options 0 [.text (ident ++ "__ffi_size = " ++ size)]] else []
  let allocators :=
    if options.allocators && options.writers then allocator options ident size else []
  return {
    lines := dictionary ++ helpers.flatten ++ readers ++ writers ++ sizes ++
      allocators
    ident := some ident }

/-- The lines of a declaration, pointers to functions apart. -/
def declaration (name : Label) : CType → Except Fault Rendered
  | .builtin _ carrier => builtin options name carrier
  | .enum _ fields => enumeration options name fields
  | .synonym _ target _ => synonym options known name target
  | .pointer _ base isConst => pointer options name base isConst
  | .signature _ result parameters => function options name result parameters
  | .record header fields => record options known name header.size fields
  | type => .error (.generation ("cannot generate top-level " ++ type.kind))

def callbackHalf (direction : Direction) (name : Label) (result : CType)
    (parameters : List (Parameter CType)) : Except Fault (List Fragment) := do
  let ident ← identText name
  let type ← prototype result parameters
  let handle : Piece := .use { direction, ident := "opaque_pointer" }
  match direction with
  | .reading =>
    return [readerHead options ident ident,
      put options 1 ["return _ctypes.cast(", handle, .text ("(source, offset), " ++ type ++ ")")]]
  | .writing =>
    return [writerHead options ident ident,
      put options 1 [handle, .text ("(_callback_address(" ++ type ++ ", x), buffer, offset)")]]

end

end NativeBindings.Emit
