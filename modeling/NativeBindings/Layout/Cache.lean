import NativeBindings.Ast.Node
import NativeBindings.Json.Reader
import NativeBindings.Json.Writer
import NativeBindings.Layout.Query
import NativeBindings.Text.LineEnd
import NativeBindings.World

/-!
Answers of the compiler that are kept from run to run: one table of sizes and one of offsets, each
in a file of its own.
-/
namespace NativeBindings.Layout

/-- A value as an integer, cut off if it has a fraction. -/
def integerValue : Json → Except Fault Int
  | .int n => .ok n
  | .bool b => .ok (if b then 1 else 0)
  | .real x =>
    match x, x.truncate? with
    | _, some n => .ok n
    | .nan, none => .error (.value "cannot convert float NaN to integer")
    | _, none => .error (.overflow "cannot convert float infinity to integer")
  | .str s => Numeral.read s
  | node => .error (.mismatch
      ("int() argument must be a string, a bytes-like object or a real number, not " ++
        Text.quoted node.className))

/-- The cache; without a path it is never written. -/
structure Cache where
  path : Option Path := none
  sizes : Table String Amount := []
  offsets : Table String Amount := []
  modified : Bool := false
  deriving Repr

/-- Where an answer is kept: in one of the two tables, under a key. -/
inductive Slot where
  | size (key : String)
  | offset (key : String)
  deriving DecidableEq, Repr

/-- The key of a type of a header, or of a member of it. Its parts are texts. -/
def key (header type field : Label) : Except Fault String := do
  let parts ← Json.texts ([header, type] ++ if field.isNull then [] else [field])
  return "::".intercalate parts

/-- The slot of a question about a header. Sizes of members are kept with the sizes of types. -/
def slot (header : String) : Query → Except Fault Slot
  | .sizeOf type => (key (.str header) type .null).map .size
  | .offsetOf type field => (key (.str header) type field).map .offset
  | .fieldSizeOf type field => (key (.str header) type field).map .size

namespace Cache

/-- What is kept in a slot; null where nothing is. -/
def find (cache : Cache) : Slot → Amount
  | .size key => (Table.find? key cache.sizes).getD .null
  | .offset key => (Table.find? key cache.offsets).getD .null

def put (cache : Cache) (slot : Slot) (n : Amount) : Cache :=
  if cache.find slot == n then cache
  else
    match slot with
    | .size key => { cache with sizes := Table.insert key n cache.sizes, modified := true }
    | .offset key => { cache with offsets := Table.insert key n cache.offsets, modified := true }

/-- The file of a table. The path needs a last part to be extended. -/
def tablePath (path : Path) (table : String) : Except Fault Path :=
  if path.name == "" then
    .error (.value ("PosixPath(" ++ Text.quoted path.text ++ ") has an empty name"))
  else .ok (path.withName (path.name ++ "_" ++ table ++ ".json"))

def integers : List (String × Json) → Except Fault (Table String Amount)
  | [] => return []
  | (key, value) :: rest => do
    let n ← integerValue value
    return (key, .int n) :: (← integers rest)

/-- The table of a file. A file that is missing or not well formed holds nothing; one that
goes beyond a limit is a fault. -/
def load (path : Path) (table : String) : Act World (Table String Amount) := do
  let file ← tablePath path table
  let world ← get
  if !(← world.exists? file) then
    note (Journal.info (table ++ " cache not found at " ++ file.text ++
      ", layout queries may take some time"))
    return []
  let read : Except Json.Problem Json :=
    match world.files.read world.here file with
    | .ok text => Json.read (String.ofList (Text.lineFeeds text.toList))
    | .error problem => .error (.malformed (Fault.file problem file.text).message)
  match read with
  | .error (.beyond fault) => throw fault
  | .error (.malformed reason) =>
    note (Journal.warning
      ("Failed to load " ++ table ++ " cache from " ++ file.text ++ ": " ++ reason))
    return []
  | .ok (.obj entries) =>
    let count := entries.length
    note (Journal.info ("Loaded " ++ table ++ " cache from " ++ file.text ++
      s!" ({count} entries)"))
    integers entries
  | .ok _ =>
    note (Journal.warning
      ("Ignoring " ++ table ++ " cache at " ++ file.text ++ ": expected a JSON object"))
    return []

def openAt : Option Path → Act World Cache
  | none => return {}
  | some path => do
    let sizes ← load path "sizeof"
    let offsets ← load path "offsetof"
    return { path := some path, sizes, offsets }

/-- Writes a table to its file. Of one that has no text up to its end, the start is left there. -/
def writeTable (file : Path) (table : Table String Amount) : Act World Unit := do
  let (text, ending) := Json.written (Json.parts 0 "" (.obj table))
  World.write file text
  ending

/-- Writes both tables beside a path. -/
def writeTables (cache : Cache) (path : Path) : Act World Unit := do
  World.makeDirectories path.parent
  writeTable (← tablePath path "sizeof") cache.sizes
  writeTable (← tablePath path "offsetof") cache.offsets

/-- Saves the tables if there is something new. A problem with the files is only noted. -/
def save (cache : Cache) : Act World Cache := do
  match cache.path with
  | none => return cache
  | some path =>
    if !cache.modified then return cache
    match ← Act.outcome (writeTables cache path) with
    | .ok _ =>
      let sizes := cache.sizes.length
      let offsets := cache.offsets.length
      note (Journal.info ("Saved layout cache to " ++ path.text ++
        s!" ({sizes} sizes, {offsets} offsets)"))
      return { cache with modified := false }
    | .error (.file problem place) =>
      let reason := (Fault.file problem place).message
      note (Journal.error ("Failed to save layout cache to " ++ path.text ++ ": " ++ reason))
      return cache
    | .error fault => throw fault

def statistics (cache : Cache) : Json :=
  .obj [("sizes", .int cache.sizes.length), ("offsets", .int cache.offsets.length),
    ("modified", .bool cache.modified),
    ("cache_path", match cache.path with
      | some path => .str path.text
      | none => .null)]

end Cache

end NativeBindings.Layout
