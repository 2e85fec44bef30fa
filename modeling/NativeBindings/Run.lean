import NativeBindings.CommandLine
import NativeBindings.Pipeline

/-!
A run of the program, from the arguments to what it prints and how it ends.
-/
namespace NativeBindings.Run

/-- How a run ends: with an exit code, or with a fault that nothing handles. -/
inductive Ending where
  | exit (code : Nat)
  | escaped (fault : Fault)
  deriving Repr

structure Outcome where
  ending : Ending
  stdout : String := ""
  stderr : String := ""
  world : World

/-- The settings of the arguments, seen to be valid. -/
def settingsOf (arguments : CommandLine.Arguments) : Act World Settings := do
  let settings ← Settings.ofArguments (CommandLine.overrides arguments)
  settings.validate (← get)
  return settings

/-- Opens the log file of the run. The console shows what comes from here on. -/
def openLog (stamp : String) (settings : Settings) : Act World (Option Path) := do
  match settings.logs with
  | none => return none
  | some directory =>
    World.makeDirectories directory
    let file := directory.join (Path.ofText ("header_bindgen_" ++ stamp ++ ".log"))
    World.write file ""
    note (Journal.debug ("Run log: " ++ file.text))
    return some file

def ruler : String := String.ofList (List.replicate 70 '=')

/-- Tells how the run went. The names of failed symbols come in order, if they have one. -/
def report (settings : Settings) (output : Path) (made : Emit.Module) (log : Option Path) :
    Act World Unit := do
  let lines := [ruler, "GENERATION SUMMARY", ruler, "Header: " ++ settings.header.text,
    "Output: " ++ output.text, "Failed symbols: " ++ toString made.failed.length] ++
    (match log with
      | some file => ["Log file: " ++ file.text]
      | none => [])
  note (lines.flatMap Journal.info)
  if made.failed.isEmpty then return
  note (Journal.info "Failed symbols (write these bindings by hand):")
  let names ← Json.ordered made.failed
  note (names.flatMap fun name => Journal.info ("  - " ++ name.plain))

/-- Generates and writes the module. Gives the exit code. -/
def work (stamp : String) (settings : Settings) (arguments : CommandLine.Arguments) :
    Act World Nat := do
  let log ← openLog stamp settings
  note (Journal.debug ("Header: " ++ settings.header.text))
  note (Journal.debug ("Output: " ++ settings.output.shown Path.text))
  settings.makeOutputDirectory
  let options := CommandLine.options arguments settings.library
  let outcome ← Act.outcome do
    let (outcome, _) ← Pipeline.within settings do
      let made ← Pipeline.generate settings options
      let output ← Pipeline.write settings made none
      return (made, output)
    outcome
  match outcome with
  | .ok (made, output) =>
    report settings output made log
    return 0
  | .error fault =>
    if !fault.isExpected then throw fault
    note (Journal.error ("Fatal error during generation: " ++ fault.message))
    if settings.verbose then note (Journal.error "Traceback")
    return 1

/-- The lines of the journal that the console shows. -/
def console (verbose : Bool) (journal : Journal) : String :=
  let shown := journal.filter fun entry => verbose || entry.level != .debug
  String.join (shown.map fun entry => entry.level.title ++ ": " ++ entry.text ++ "\n")

/-- What is told of a fault that ends the program itself. -/
def lastWords (fault : Fault) : Journal :=
  Journal.error ("main: " ++ fault.title ++ " after " ++ elapsed ++ ": " ++ fault.message)

def proceed (stamp : String) (settings : Settings) (arguments : CommandLine.Arguments)
    (world : World) : Outcome :=
  match (work stamp settings arguments).runOn world with
  | (.ok code, after) =>
    { ending := .exit code, stderr := console settings.verbose after.journal, world := after }
  | (.error fault, after) =>
    let told := after.journal ++ lastWords fault
    { ending := .escaped fault, stderr := console settings.verbose told, world := after }

/-- A run of the program. Nothing is told of what comes before the console is set up, except that a
setting is wrong. -/
def main (stamp : String) (arguments : List String) (world : World) : Outcome :=
  match CommandLine.parse arguments with
  | .error .help => { ending := .exit 0, stdout := CommandLine.help, world }
  | .error (.misuse reason) =>
    { ending := .exit 2
      stderr := CommandLine.usage ++ CommandLine.program ++ ": error: " ++ reason ++ "\n"
      world }
  | .ok arguments =>
    match (settingsOf arguments).runOn world with
    | (.ok settings, after) => proceed stamp settings arguments { after with journal := [] }
    | (.error (.value reason), after) =>
      { ending := .exit 1, stderr := "Configuration error: " ++ reason ++ "\n", world := after }
    | (.error fault, after) => { ending := .escaped fault, world := after }

end NativeBindings.Run
