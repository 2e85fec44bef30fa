import NativeBindings.Resolve.Enum
import NativeBindings.Resolve.Typedef

/-!
Resolving the top-level nodes of a header, in order. An unnamed enum or record takes the name of
the typedef that wraps it, which is then done too.
-/
namespace NativeBindings.Resolve

open Json

/-- The name of the typedef that wraps an unnamed node. -/
def adoptedName (following : Option Json) (node : Json) : Except Fault Label := do
  match following with
  | none | some null => return null
  | some next =>
    if !(← next.field "kind").isKind "TypedefDecl" then return null
    if ← Location.encloses next node then next.field "name" else return null

/-- The name of a node and whether it took it from the following one. -/
def nameOf (following : Option Json) (node : Json) : Except Fault (Label × Bool) := do
  let own ← node.field "name"
  if own.holds then return (own, false)
  else
    let name ← adoptedName following node
    return (name, !name.isNull)

def unwrapped (what : String) (node : Json) : Except Fault Journal := do
  let place ← node.field "loc"
  return Journal.info
    ("Unnamed " ++ what ++ " at " ++ place.plain ++ " is not wrapped by a typedef, skipping")

section
variable {σ : Type} (header : Path) (oracle : Layout.Oracle σ)

/-- Declares an enum. Tells whether the following node is done too. -/
def topEnum (following : Option Json) (node : Json) : Resolving σ Bool := do
  match ← nameOf following node with
  | (null, _) =>
    note (← unwrapped "enum" node)
    return false
  | (name, adopted) =>
    let type ← enum name (← (← children node).items)
    let _ ← register name type
    return adopted

/-- Declares a record, if the node has a body. Tells whether the following node is done too. -/
def topRecord (following : Option Json) (node : Json) : Resolving σ Bool := do
  match ← nameOf following node with
  | (null, _) =>
    note (← unwrapped (← node.fieldOr "tagUsed" (str "record")).plain node)
    return false
  | (name, adopted) =>
    if (← node.field "inner").isNull then
      note (Journal.debug ("Skipping forward declaration of " ++ name.plain))
    else
      let _ ← record oracle node name name
    return adopted

/-- One node. Tells whether the following one is done too. -/
def topNode (following : Option Json) (node : Json) : Resolving σ Bool := do
  if ← isSkipped header node then return false
  let kind ← node.field "kind"
  if kind.isKind "EnumDecl" then topEnum following node
  else if ← kind.isAmong recordKinds then topRecord oracle following node
  else if kind.isKind "TypedefDecl" then
    typedef node
    return false
  else if kind.isKind "FunctionDecl" then
    function node
    return false
  else
    let name ← node.fieldOr "name" (str "")
    note (Journal.info ("Unknown statement " ++ kind.plain ++ " " ++ name.shown ++ ", skipping"))
    return false

/-- The nodes from first to last. `done` tells that the first one is done. -/
def topNodes (done : Bool) : List Json → Resolving σ Unit
  | [] => return
  | node :: rest => do
    if done then topNodes false rest
    else topNodes (← topNode header oracle rest.head? node) rest

/-- The fault that names the typedefs that still wait, in the order of their names if they have
one. -/
def unresolved (registry : Registry) : Except Fault Fault := do
  registry.waiting.forM fun (_, names) => names.forM fun name => do let _ ← name.asKey
  return .pendingAliases (← orderedBy Prod.fst registry.pending)

/-- Sows the seeds, resolves the nodes and sees that no typedef still waits. -/
def resolveNodes (nodes : List Json) : Resolving σ Graph := do
  changeGraph Seed.sow
  topNodes header oracle false nodes
  let registry := (← get).registry
  if !registry.waiting.isEmpty then throw (← unresolved registry)
  let count := registry.graph.declarations.length
  note (Journal.info s!"Resolved {count} declarations from \"{header.text}\"")
  return registry.graph

def resolve (nodes : List Json) : Resolving σ Graph :=
  timed "AstResolver.resolve" (resolveNodes header oracle nodes)

end

end NativeBindings.Resolve
