import NativeBindings.Act
import NativeBindings.Ast.Location
import NativeBindings.Path
import NativeBindings.Journal

/-!
Which nodes belong to the header. A location names its file only where the file changes, so the
includer of the current file is remembered from node to node.
-/
namespace NativeBindings.Origin

open Json

/-- The file that the current file was included from, null if there is none. -/
abbrev Includer := Json

/-- The file of a location and the file that included it. -/
def fileOf (location : Json) : Except Fault (Json × Json) := do
  if !location.holds then return (null, null)
  let used ← Location.expansion location
  let source ← used.field "includedFrom"
  let file ← used.field "file"
  let includer ← if source.holds then source.field "file" else .ok null
  return (file, includer)

/-- Notes the includer of a location that names a file. -/
def track (location : Json) : Act Includer Unit := do
  match ← fileOf location with
  | (null, _) => return
  | (_, includer) => set includer

/-- Notes a node: its place, then the start of its range. -/
def trackNode (node : Json) : Act Includer Unit := do
  let location ← node.field "loc"
  let range := (← node.field "range").orElse (obj [])
  let start ← range.field "begin"
  track location
  track start

/-- Whether a file was included by another file than the header. -/
def isForeign (header : String) : Includer → Except Fault Bool
  | null => return false
  | str file => return (Path.ofText file).name != header
  | other => .error (.mismatch
      ("expected str, bytes or os.PathLike object, not " ++ other.className))

/-- Notes a node, and tells whether its file was included by another file than the header. -/
def entersForeign (header : Path) (node : Json) : Act Includer Bool := do
  trackNode node
  isForeign header.name (← get)

/-- Names that the compiler keeps to itself. -/
def isInternal (name : String) : Bool :=
  "__NS".toList.isPrefixOf name.toList || "__builtin_".toList.isPrefixOf name.toList

/-- Whether a typedef names what is there already: its own type, a primitive type, its own tag. -/
def isSynonym (known : Label → Bool) (node : Json) : Except Fault (Bool × Journal) := do
  let name ← node.field "name"
  let type := (← node.field "type").orElse (obj [])
  let spelling ← type.field "qualType"
  if name == spelling then return (true, [])
  let inner := (← node.field "inner").orElse (arr [])
  if !inner.holds then return (false, [])
  let first ← inner.item 0
  let kind ← first.field "kind"
  if kind.isKind "BuiltinType" then
    if known (← name.asKey) then
      return (true, Journal.debug ("Skipping builtin re-declaration " ++ name.plain))
  if kind.isKind "ElaboratedType" then
    let tag ← ((← first.field "inner").orElse (arr [obj []])).item 0
    let declared := (← tag.field "decl").orElse (obj [])
    return ((← declared.field "name") == name, [])
  return (false, [])

/-- Whether a node of the header itself is left out. -/
def isDropped (known : Label → Bool) (node : Json) : Except Fault (Bool × Journal) := do
  if (← node.field "isImplicit").holds then return (true, [])
  let name ← ((← node.field "name").orElse (str "")).asText "startswith"
  if isInternal name then return (true, [])
  if (← node.field "kind").isKind "TypedefDecl" then isSynonym known node else return (false, [])

/-- Notes a node, and tells whether it is left out. -/
def skips (header : Path) (known : Label → Bool) (node : Json) : Act Includer (Bool × Journal) := do
  if ← entersForeign header node then return (true, []) else isDropped known node

end NativeBindings.Origin
