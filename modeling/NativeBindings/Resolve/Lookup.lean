import NativeBindings.Ast.Node
import NativeBindings.Graph
import NativeBindings.Seed
import NativeBindings.Spelling

/-!
Finding the type that a spelling or a type node names among the declarations of a graph.
-/
namespace NativeBindings.Resolve

open Json

/-- Whether a pointee is spelled as a pointer or an array rather than by a name. -/
def isComposite (base : String) : Bool :=
  base.toList.contains '*' || base.toList.getLast? == some ']'

/-- What a pointee spelling names; nothing, if the name is not declared. `inner` finds the type of a
composite one. -/
def pointeeBy (inner : String → Except Fault CType) (graph : Graph) (base : String) :
    Except Fault (Option CType) :=
  if isComposite base then (inner base).map some
  else
    let name := .str (Spelling.normal base)
    if graph.has name then (graph.use name).map some else .ok none

/-- How far spellings may go down: an array goes down one step, a pointer three. -/
def depthLimit : Nat := 975

/-- The type of a spelling at a depth, with fuel for its inner spellings. -/
def typeOfWith (graph : Graph) : Nat → Nat → String → Except Fault CType
  | 0, _, spelling => .error (.unknownName (.str spelling))
  | fuel + 1, depth, spelling =>
    if depthLimit < depth then .error (.endless " while calling a Python object") else
    match Spelling.parse spelling with
    | .error fault => .error fault
    | .ok (.array element length) => do
      let item ← typeOfWith graph fuel (depth + 1) element
      let size ← Amount.times item.size (.int length)
      return .array { name := .str (Text.stripped spelling), size } item (.int length)
    | .ok .cstring => graph.find (.str Seed.cstring)
    | .ok (.pointer base isConst) =>
      match graph.findPointer (.str base) isConst with
      | some declared => .ok declared.use
      | none => do
        let target ← pointeeBy (typeOfWith graph fuel (depth + 3)) graph base
        return .pointer { name := .null, size := CType.pointerSize } target isConst
    | .ok (.name name) => graph.use (.str name)

/-- The type of a spelling. Every inner spelling is shorter, so its length is fuel enough. -/
def typeOf (graph : Graph) (spelling : String) : Except Fault CType :=
  typeOfWith graph (spelling.length + 1) 0 spelling

/-- What a pointee spelling names; nothing, if the name is not declared. -/
def pointeeOf (graph : Graph) (base : String) : Except Fault (Option CType) :=
  pointeeBy (typeOf graph) graph base

/-- The spelling in a node, if it is a text. -/
def spellingOf (node : Json) : Except Fault Json := do
  let type := (← node.field "type").orElse (obj [])
  type.fieldOr "qualType" (str "")

/-- The type that a node's spelling names. -/
def spelledType (graph : Graph) (node : Json) : Except Fault CType := do
  typeOf graph (← (← spellingOf node).asText "strip")

/-- The type that a node's spelling names, read at a depth. -/
def spelledTypeAt (graph : Graph) (depth : Nat) (node : Json) : Except Fault CType := do
  let spelling ← (← spellingOf node).asText "strip"
  typeOfWith graph (spelling.length + 1) depth spelling

/-- Type nodes that stand for their first child. -/
def wrappers : List String := ["ElaboratedType", "QualType", "ParenType"]

/-- The type of a node in a function prototype at a depth, with fuel for the wrappers. A wrapper goes down
one step, and so does a pointer before its spelling is read. -/
def nodeTypeWith (graph : Graph) : Nat → Nat → Json → Except Fault CType
  | 0, _, _ => .error (.resolution "type node too deep")
  | fuel + 1, depth, node =>
    if depthLimit < depth then .error (.endless " while calling a Python object") else do
    let kind ← node.field "kind"
    if kind.isKind "BuiltinType" then
      match ← graph.find (← spellingOf node) with
      | .synonym _ target true => return target
      | type => return type
    else if kind.isKind "TypedefType" then
      graph.use (← (← node.need "decl").need "name")
    else if kind.isKind "PointerType" then spelledTypeAt graph (depth + 1) node
    else if kind.isKind "RecordType" || kind.isKind "EnumType" then
      graph.use (← (← node.need "decl").need "name")
    else if ← kind.isAmong wrappers then
      nodeTypeWith graph fuel (depth + 1) (← (← node.need "inner").item 0)
    else
      .error (.resolution ("unknown type node " ++ kind.shown ++ " in function prototype"))

/-- The type of a node in a function prototype. -/
def nodeType (graph : Graph) (node : Json) : Except Fault CType :=
  nodeTypeWith graph (node.depth + 1) 0 node

end NativeBindings.Resolve
