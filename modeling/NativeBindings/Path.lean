/-!
File paths with slashes. A path is a root and its parts; single dots and doubled slashes leave no
part, double dots do. Two leading slashes are a root of their own.
-/
namespace NativeBindings

structure Path where
  root : String := ""
  parts : List String := []
  deriving DecidableEq, Repr, Inhabited

namespace Path

/-- The root that a text starts with. -/
def rootOf (s : List Char) : String :=
  match (s.takeWhile (· == '/')).length with
  | 0 => ""
  | 2 => "//"
  | _ => "/"

def ofText (s : String) : Path :=
  { root := rootOf s.toList
    parts := ((s.toList.splitOn '/').map String.ofList).filter fun part =>
      part != "" && part != "." }

def text (path : Path) : String :=
  if path.root == "" && path.parts.isEmpty then "." else path.root ++ "/".intercalate path.parts

def isAbsolute (path : Path) : Bool := path.root != ""

/-- A path below another one; an absolute path stays itself. -/
def join (base path : Path) : Path :=
  if path.isAbsolute then path else { base with parts := base.parts ++ path.parts }

/-- The last part; empty if there is none. -/
def name (path : Path) : String := path.parts.getLastD ""

def parent (path : Path) : Path := { path with parts := path.parts.dropLast }

/-- The place of the dot that cuts off a last suffix: not the first character, not the last. -/
def suffixStart? (name : List Char) : Option Nat :=
  let after := (name.reverse.takeWhile (· != '.')).length
  if after < name.length && 0 < after && after + 1 < name.length then some (name.length - after - 1)
  else none

/-- The name without its last suffix. -/
def stem (path : Path) : String :=
  match suffixStart? path.name.toList with
  | some i => String.ofList (path.name.toList.take i)
  | none => path.name

/-- The path with another last part, which is not empty and holds no slash. -/
def withName (path : Path) (name : String) : Path :=
  { path with parts := path.parts.dropLast ++ [name] }

/-- Parts with each double dot taking the part before it away. -/
def collapse (parts : List String) : List String :=
  parts.foldl (fun done part => if part == ".." then done.dropLast else done ++ [part]) []

def absolute (here path : Path) : Path :=
  { root := "/", parts := collapse (here.join path).parts }

end Path

end NativeBindings
