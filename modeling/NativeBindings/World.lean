import NativeBindings.Debug.Entry
import NativeBindings.Files
import NativeBindings.Noted
import NativeBindings.Text.Blank

/-!
The surroundings of a run: files, environment variables, the answers of commands, and what the run
has done so far.
-/
namespace NativeBindings

/-- How long to wait, in seconds. -/
inductive Seconds where
  | whole (n : Int)
  | real (x : Text.Binary64)
  deriving DecidableEq, Repr

def Seconds.text : Seconds → String
  | whole n => toString n
  | real x => x.text

/-- How a command ends. -/
inductive Reply where
  | output (stdout : String)
  | failure (code : Int) (stderr : String)
  | timeout
  | missing

/-- A command that was run. -/
structure Call where
  command : List String
  stdin : Option String
  timeout : Option Seconds
  deriving DecidableEq, Repr

structure World where
  files : Files := []
  here : Place := []
  environment : Table String String := []
  replies : List Reply := []
  calls : List Call := []
  /-- The debug information of the objects that are compiled. -/
  debug : Option Debug.Info := none
  /-- Where private directories are made. -/
  scratch : Path
  journal : Journal := []

instance : Noting World where
  tell told world := { world with journal := world.journal ++ told }

namespace World

def value? (world : World) (name : String) : Option String :=
  Table.find? name world.environment

/-- What a path leads to, if to anything. -/
def lookup (world : World) (path : Path) : Except Fault (Option FileNode) :=
  (world.files.lookup world.here path).mapError fun problem => .file problem path.text

def exists? (world : World) (path : Path) : Except Fault Bool :=
  return (← world.lookup path).isSome

def isFile (world : World) (path : Path) : Except Fault Bool :=
  return (← world.lookup path).any fun node => node != .directory

def isDirectory (world : World) (path : Path) : Except Fault Bool :=
  return (← world.lookup path) == some .directory

/-- Sees that nothing in a path is a NUL, which no name may hold. -/
def nameable (path : Path) : Except Fault Unit :=
  if path.text.toList.contains '\x00' then .error (.value "embedded null byte") else .ok ()

/-- An absolute path with no dots in it. -/
def absolute (world : World) (path : Path) : Except Fault Path := do
  nameable path
  return Path.absolute { root := "/", parts := world.here } path

def write (path : Path) (s : String) : Act World Unit := do
  nameable path
  let world ← get
  match world.files.write world.here path s with
  | .ok files => set { world with files }
  | .error problem => throw (.file problem path.text)

/-- Makes one directory; one that is there is left as it is. -/
def makeDirectory (path : Path) : Act World Unit := do
  nameable path
  let world ← get
  match world.files.makeDirectory world.here path with
  | .ok files => set { world with files }
  | .error problem =>
    if problem = .missing || !(← world.isDirectory path) then throw (.file problem path.text)

/-- Makes a directory and what is missing above it, with fuel for the parts of the path. -/
def makeDirectoriesWith : Nat → Path → Act World Unit
  | 0, path => makeDirectory path
  | fuel + 1, path => do
    let world ← get
    match world.files.makeDirectory world.here path with
    | .error .missing =>
      if path.parent = path then throw (.file .missing path.text)
      makeDirectoriesWith fuel path.parent
      makeDirectory path
    | _ => makeDirectory path

def makeDirectories (path : Path) : Act World Unit := do
  nameable path
  makeDirectoriesWith path.parts.length path

def run (command : List String) (stdin : Option String) (timeout : Option Seconds) :
    Act World String := do
  let shown := " ".intercalate command
  note (Journal.debug ("exec " ++ shown))
  let world ← get
  let call : Call := { command, stdin, timeout }
  set { world with calls := world.calls ++ [call], replies := world.replies.tail }
  match world.replies.head? with
  | some (.output stdout) => return stdout
  | some (.failure code stderr) =>
    throw (.compiler ("command failed (" ++ toString code ++ "): " ++ shown ++ "\n" ++
      Text.stripped stderr))
  | some .timeout =>
    let limit := match timeout with
      | some seconds => seconds.text
      | none => Json.null.plain
    throw (.compiler ("command timed out after " ++ limit ++ "s: " ++ shown))
  | some .missing | none =>
    throw (.compiler ("executable not found: " ++ command.headD ""))

end World

end NativeBindings
