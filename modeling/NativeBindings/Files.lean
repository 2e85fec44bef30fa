import NativeBindings.Fault
import NativeBindings.Path
import NativeBindings.Table

/-!
Files and directories by their absolute places. A path is walked part by part: every part but the
last has to be a directory, and double dots go up from where the walk is.
-/
namespace NativeBindings

inductive FileNode where
  | directory
  | text (s : String)
  deriving DecidableEq, Repr

abbrev Place := List String

abbrev Files := Table Place FileNode

namespace Files

/-- What is at a place. The root is always a directory. -/
def node? (files : Files) (place : Place) : Option FileNode :=
  if place.isEmpty then some .directory else Table.find? place files

def nameLimit : Nat := 255

def pathLimit : Nat := 4095

def walk (files : Files) (start : Place) : List String → Except FileProblem Place
  | [] => .ok start
  | part :: rest =>
    match files.node? start with
    | none => .error .missing
    | some (.text _) => .error .notDirectory
    | some .directory =>
      if nameLimit < part.utf8ByteSize then .error .longName
      else walk files (if part == ".." then start.dropLast else start ++ [part]) rest

/-- The place of a path, seen from a directory. Whether anything is there is left open. -/
def placeOf (files : Files) (here : Place) (path : Path) : Except FileProblem Place :=
  if pathLimit < path.text.utf8ByteSize then .error .longName
  else walk files (if path.isAbsolute then [] else here) path.parts

/-- What a path leads to, if to anything. Only a name that is too long is a problem. -/
def lookup (files : Files) (here : Place) (path : Path) :
    Except FileProblem (Option FileNode) :=
  match files.placeOf here path with
  | .ok place => .ok (files.node? place)
  | .error .longName => .error .longName
  | .error _ => .ok none

def read (files : Files) (here : Place) (path : Path) : Except FileProblem String := do
  let place ← files.placeOf here path
  match files.node? place with
  | some (.text s) => return s
  | some .directory => .error .isDirectory
  | none => .error .missing

def write (files : Files) (here : Place) (path : Path) (s : String) : Except FileProblem Files := do
  let place ← files.placeOf here path
  match files.node? place with
  | some .directory => .error .isDirectory
  | some (.text _) => return Table.insert place (.text s) files
  | none =>
    match files.node? place.dropLast with
    | some .directory => return Table.insert place (.text s) files
    | some (.text _) => .error .notDirectory
    | none => .error .missing

def makeDirectory (files : Files) (here : Place) (path : Path) : Except FileProblem Files := do
  let place ← files.placeOf here path
  match files.node? place with
  | some _ => .error .exists
  | none => return Table.insert place .directory files

/-- Adds a directory and what is missing above it. -/
def addDirectory (files : Files) (place : Place) : Files :=
  (List.range place.length).foldl (fun files n =>
    let above := place.take (n + 1)
    if Table.has above files then files else Table.insert above .directory files) files

def addText (files : Files) (place : Place) (s : String) : Files :=
  Table.insert place (.text s) (files.addDirectory place.dropLast)

/-- What is below a place, by its path from there. -/
def below (files : Files) (start : Place) : List (String × FileNode) :=
  files.filterMap fun (place, node) =>
    if start.isPrefixOf place && place != start then
      some ("/".intercalate (place.drop start.length), node)
    else none

end Files

end NativeBindings
