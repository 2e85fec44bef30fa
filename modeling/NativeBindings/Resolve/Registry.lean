import NativeBindings.Graph
import NativeBindings.Journal

/-!
What is declared, and what waits. A typedef of a tag that is not declared yet waits for the tag.
-/
namespace NativeBindings.Resolve

/-- The graph so far, and the typedefs that wait for each tag. -/
structure Registry where
  graph : Graph := {}
  waiting : Table Label (List Label) := []

namespace Registry

def waiters (registry : Registry) : Nat := (Table.values registry.waiting).flatten.length

/-- Declares a name last in order; an older declaration of the name is given up. -/
def declare (registry : Registry) (name : Label) (type : CType) : Registry × Journal :=
  match registry.graph.find? name with
  | some old =>
    ({ registry with graph := (registry.graph.remove name).assign name type },
      Journal.warning ("Overwriting declaration \"" ++ name.plain ++ "\" (" ++ old.kind ++ " -> " ++
        type.kind ++ ")") ++
      Journal.debug ("Registered " ++ type.kind ++ " " ++ name.plain))
  | none =>
    ({ registry with graph := registry.graph.assign name type },
      Journal.debug ("Registered " ++ type.kind ++ " " ++ name.plain))

/-- The node that the next declaration of a type puts into the graph. -/
def numbered (registry : Registry) (type : CType) : CType := type.numbered registry.graph.issued

/-- An alias for a node under a name of its own. -/
def aliasOf (name : Label) (type : CType) : CType :=
  .synonym { name, size := type.size } type false

/-- The typedefs that wait for a tag; afterwards none does. -/
def release (registry : Registry) (tag : Label) : List Label × Registry :=
  ((Table.find? tag registry.waiting).getD [],
    { registry with waiting := Table.erase tag registry.waiting })

def defer (registry : Registry) (tag name : Label) : Registry :=
  let names := (Table.find? tag registry.waiting).getD []
  { registry with waiting := Table.insert tag (names ++ [name]) registry.waiting }

/-- The typedefs that still wait, each with its tag; of a repeated name the last tag counts. -/
def pending (registry : Registry) : Table Label Label :=
  registry.waiting.foldl (fun found (tag, names) =>
    names.foldl (fun found name => Table.insert name tag found) found) []

end Registry

end NativeBindings.Resolve
