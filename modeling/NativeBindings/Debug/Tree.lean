import NativeBindings.Debug.Entry
import NativeBindings.Json.Depth

/-!
Debug information that is given as JSON trees. A tree holds its tag, its attributes, the tree of its
type and its children; a reference stands for the tree that has its number, so that links may run
in circles. The entries are numbered in the order in which their trees begin.
-/
namespace NativeBindings.Debug.Tree

open Json

def listOf : Option Json → List Json
  | some (arr items) => items
  | _ => []

def entriesOf : Option Json → List (String × Json)
  | some (obj entries) => entries
  | _ => []

/-- What a reference refers to; `none` for a tree. -/
def reference? (tree : Json) : Option Json := tree.get? "ref"

/-- The tree of the type, or a reference to it. -/
def type? (tree : Json) : Option Json :=
  match tree.get? "type" with
  | none | some null => none
  | some type => some type

/-- The tree of the type, if it is no reference. -/
def ownType (tree : Json) : List Json :=
  (type? tree).toList.filter fun type => (reference? type).isNone

def children (tree : Json) : List Json := listOf (tree.get? "children")

/-- A tree and all those below it, with fuel for its depth. -/
def withinWith : Nat → Json → List Json
  | 0, _ => []
  | fuel + 1, tree => tree :: (ownType tree ++ children tree).flatMap (withinWith fuel)

def within (tree : Json) : List Json := withinWith tree.depth tree

/-- The numbers that trees have by name; the last one of a name counts. -/
def numbered (trees : List Json) : Table Json Nat :=
  (trees.zipIdx.filterMap fun (tree, n) => (tree.get? "id").map fun id => (id, n)).reverse

/-- The numbers of trees in a row, where the first one has a given number. -/
def numbersFrom (n : Nat) : List Json → List Nat
  | [] => []
  | tree :: rest => n :: numbersFrom (n + (within tree).length) rest

/-- The link to the type of the tree with a number. The tree of a type comes right after it. -/
def linkOf (ids : Table Json Nat) (n : Nat) (tree : Json) : Link :=
  match type? tree with
  | none => .nothing
  | some type =>
    match reference? type with
    | none => .entry (n + 1)
    | some id => ((Table.find? id ids).map Link.entry).getD (.lost id)

/-- The name of a tree: text beside its attributes, or an attribute that holds bytes, either as a
list or as text that stands for them. -/
def nameOf (tree : Json) : Option Name :=
  match tree.get? "name_str", Table.find? "name" (entriesOf (tree.get? "attrs")) with
  | some (str s), _ => some (.text s)
  | _, some (arr items) => some (.bytes (items.map fun
      | int n => n.toNat
      | _ => 0))
  | _, some value => some (.bytes (value.plain.toUTF8.toList.map UInt8.toNat))
  | _, none => none

def entryAt (ids : Table Json Nat) (n : Nat) (tree : Json) : Entry :=
  let first := n + 1 + ((ownType tree).flatMap within).length
  { tag := ((tree.get? "tag").map plain).getD ""
    name := nameOf tree
    attributes := (entriesOf (tree.get? "attrs")).filter fun (key, _) => key != "name"
    type := linkOf ids n tree
    children := numbersFrom first (children tree) }

/-- The debug information of units, each a list of trees. -/
def read (units : List Json) : Info :=
  let lists := units.map fun unit => listOf (some unit)
  let trees := lists.flatten.flatMap within
  let ids := numbered trees
  let split := lists.foldl (fun (done, rest) list =>
    (done ++ [rest.take list.length], rest.drop list.length))
    (([] : List (List Nat)), numbersFrom 0 lists.flatten)
  { entries := trees.zipIdx.map fun (tree, n) => entryAt ids n tree, units := split.1 }

end NativeBindings.Debug.Tree
