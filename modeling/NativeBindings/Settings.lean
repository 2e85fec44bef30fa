import NativeBindings.ModuleName
import NativeBindings.Operand
import NativeBindings.Text.LineEnd
import NativeBindings.Text.LowerCase
import NativeBindings.Variables
import NativeBindings.World

/-!
The settings of a run: from the environment, which a file of variables may complete, and from
arguments, which come first.
-/
namespace NativeBindings

def backends : List String := ["probe", "dwarf"]

structure Settings where
  header : Path
  output : Operand Path
  cache : Option (Operand Path) := none
  includes : List (Operand Path) := []
  library : Option String := none
  backend : String := "probe"
  verbose : Bool := false
  logs : Option Path := none
  deriving DecidableEq, Repr

/-- Settings that are given on their own; a missing one leaves the environment's. -/
structure Overrides where
  header : Option Path := none
  output : Option (Operand Path) := none
  cache : Option (Operand Path) := none
  includes : List (Operand Path) := []
  library : Option (Operand String) := none
  backend : Option (Operand String) := none
  verbose : Option Bool := none

namespace Settings

/-- Sets the variables of a file, if it is there. -/
def loadVariables (path : Path) : Act World Unit := do
  let world ← get
  match world.files.read world.here path with
  | .error .longName => throw (.file .longName path.text)
  | .error _ => return
  | .ok text =>
    let bindings := Variables.bindings (String.ofList (Text.lineFeeds text.toList))
    let environment ← Variables.setAll world.environment
      (Variables.resolved world.environment bindings)
    modify fun world => { world with environment }

/-- The value of a variable that is not empty. -/
def given (world : World) (name : String) : Option String :=
  match world.value? name with
  | none | some "" => none
  | some value => some value

/-- The words that say yes. -/
def yes : List String := ["true", "1", "yes"]

/-- The paths of a list with colons between them. -/
def pathsOf (s : String) : List Path :=
  ((s.toList.splitOn ':').filter fun part => !part.isEmpty).map fun part =>
    Path.ofText (String.ofList part)

/-- The settings that the variables give. -/
def ofVariables (world : World) : Except Fault Settings := do
  let header := Path.ofText ((world.value? "HEADER_PATH").getD "include/mylib.h")
  let output ← match given world "OUTPUT_PATH" with
    | some path => pure (Path.ofText path)
    | none => ModuleName.outputPath header
  return {
    header
    output := .value output
    cache := (given world "CACHE_PATH").map fun path => .value (Path.ofText path)
    includes := (pathsOf ((world.value? "INCLUDE_DIRS").getD "")).map .value
    library := given world "LIB_PATH"
    backend := Text.lowerCase ((world.value? "LAYOUT_BACKEND").getD "probe")
    verbose := yes.contains (Text.lowerCase ((world.value? "VERBOSE").getD "false"))
    logs := (given world "LOG_DIR").map Path.ofText }

/-- The settings of the environment, completed by a file of variables. -/
def ofEnvironment (file : Option Path) : Act World Settings := do
  loadVariables (file.getD (Path.ofText ".env"))
  ofVariables (← get)

/-- The output for a header that is given on its own, unless an output is asked for. -/
def outputFor (world : World) (settings : Settings) (overrides : Overrides) :
    Except Fault (Operand Path) :=
  match overrides.output, overrides.header with
  | some output, _ => .ok output
  | none, some header =>
    if (given world "OUTPUT_PATH").isNone then (ModuleName.outputPath header).map .value
    else .ok settings.output
  | none, none => .ok settings.output

/-- The settings of the environment with those that are given on their own. A blank library is the
default one. -/
def ofArguments (overrides : Overrides) : Act World Settings := do
  let settings ← ofEnvironment none
  let output ← outputFor (← get) settings overrides
  let backend ← match overrides.backend with
    | some backend => some <$> backend.valueFor "lower"
    | none => pure none
  return { settings with
    header := overrides.header.getD settings.header
    output
    cache := overrides.cache.or settings.cache
    includes := settings.includes ++ overrides.includes
    library := (overrides.library.map (Operand.getD "")).or settings.library
    backend := (backend.map Text.lowerCase).getD settings.backend
    verbose := overrides.verbose.getD settings.verbose }

/-- Sees that the header, the backend and the directories are there. -/
def validate (settings : Settings) (world : World) : Except Fault Unit := do
  if !(← world.exists? settings.header) then
    .error (.value ("Header file not found: " ++ settings.header.text))
  if !(← world.isFile settings.header) then
    .error (.value ("Not a file: " ++ settings.header.text))
  if !backends.contains settings.backend then
    .error (.value ("Unknown layout backend " ++ Text.quoted settings.backend ++
      ", expected one of (" ++ ", ".intercalate (backends.map Text.quoted) ++ ")"))
  for directory in settings.includes do
    let path ← directory.valueFor "is_dir"
    if !(← world.isDirectory path) then
      .error (.value ("Include directory not found: " ++ path.text))

def makeOutputDirectory (settings : Settings) : Act World Unit := do
  World.makeDirectories (← settings.output.valueFor "parent").parent

end Settings

end NativeBindings
