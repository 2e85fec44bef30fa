import NativeBindings.Emit.Hint
import NativeBindings.Emit.Piece

/-!
Expressions that read and write values. Every marshaler they use has to be known; those for arrays
are part of the fixed text, and a pointer without a name goes by the opaque one.
-/
namespace NativeBindings.Emit

namespace Direction

def noun : Direction → String
  | reading => "reader"
  | writing => "writer"

/-- The function for an array with its item marshaler in place. Only a reader is given the length. -/
def arrayFunction (direction : Direction) (inner : List Piece) (stride : String)
    (length : Amount) : Except Fault (List Piece) :=
  match direction with
  | reading => do
    let count ← Amount.written length
    return .text "lambda source, offset=0: " :: .use { direction, ident := "array" } ::
      .text "(" :: inner ++ [.text (", source, offset, " ++ stride ++ ", " ++ count ++ ")")]
  | writing =>
    return .text "lambda x, buffer, offset=0: " :: .use { direction, ident := "array" } ::
      .text "(" :: inner ++ [.text (", x, buffer, offset, " ++ stride ++ ")")]

end Direction

/-- The marshaler of a declared name, if it is known. -/
def marshaler (known : List Marshaler) (direction : Direction) (name : Label) :
    Except Fault (List Piece) := do
  let wanted : Marshaler := { direction, ident := ← identText name }
  if known.contains wanted then return [.use wanted]
  else .error (.generation (wanted.text ++ " is not available"))

def namedMarshaler (known : List Marshaler) (direction : Direction) (type : CType) :
    Except Fault (List Piece) :=
  if type.name.isNull then
    .error (.generation ("anonymous " ++ type.kind ++ " has no " ++ direction.noun))
  else marshaler known direction type.name

/-- The function that reads or writes a type. -/
def access (known : List Marshaler) (direction : Direction) : CType → Except Fault (List Piece)
  | .synonym header target transparent =>
    if transparent then access known direction target
    else namedMarshaler known direction (.synonym header target transparent)
  | .array _ item length => do
    let inner ← access known direction item
    direction.arrayFunction inner (← Amount.written item.size) length
  | .pointer header base isConst =>
    if header.name.isNull then .ok [.use { direction, ident := "opaque_pointer" }]
    else namedMarshaler known direction (.pointer header base isConst)
  | type => namedMarshaler known direction type

/-- What a synonym of the language stands for. -/
def meaning : CType → CType
  | .synonym _ target true => meaning target
  | type => type

/-- Where a member lies. -/
def place (field : Field CType) : Except Fault String :=
  (Amount.written field.offset).map ("offset + " ++ ·)

/-- The expression that reads a member of the record with the given identifier. -/
def fieldRead (known : List Marshaler) (owner : String) (field : Field CType) :
    Except Fault (List Piece) := do
  let place ← place field
  let tail := "(source, " ++ place ++ ")"
  match meaning field.type with
  | .union _ _ =>
    return [.use { direction := .reading, ident := owner ++ "__" ++ field.name.plain }, .text tail]
  | .array _ item length =>
    let inner ← access known .reading item
    let stride ← Amount.written item.size
    let count ← Amount.written length
    return .use { direction := .reading, ident := "array" } :: .text "(" :: inner ++
      [.text (", source, " ++ place ++ ", " ++ stride ++ ", " ++ count ++ ")")]
  | type =>
    let function ← access known .reading type
    return function ++ [.text tail]

/-- The statement that writes a member. -/
def fieldWrite (known : List Marshaler) (owner : String) (field : Field CType) :
    Except Fault (List Piece) := do
  let value := "x[\"" ++ field.name.plain ++ "\"]"
  let place ← place field
  let tail := "(" ++ value ++ ", buffer, " ++ place ++ ")"
  match meaning field.type with
  | .union _ _ =>
    return [.use { direction := .writing, ident := owner ++ "__" ++ field.name.plain }, .text tail]
  | .array _ item _ =>
    let inner ← access known .writing item
    let stride ← Amount.written item.size
    return .use { direction := .writing, ident := "array" } :: .text "(" :: inner ++
      [.text (", " ++ value ++ ", buffer, " ++ place ++ ", " ++ stride ++ ")")]
  | type =>
    let function ← access known .writing type
    return function ++ [.text tail]

end NativeBindings.Emit
