import NativeBindings.Json.Writer
import NativeBindings.Run
import NativeBindings.Script
import Std.Time

/-!
The command line. Files are those below the working directory. The compiler is run by whoever
started the program: each command is printed as a JSON object on a line of its own, and the next
line of the input tells how it ended.
-/
namespace NativeBindings.Main

/-- The environment variables that a run looks at. -/
def variableNames : List String :=
  ["HEADER_PATH", "OUTPUT_PATH", "CACHE_PATH", "INCLUDE_DIRS", "LIB_PATH", "LAYOUT_BACKEND",
    "VERBOSE", "LOG_DIR"] ++
    ["CLANG_BINARY", "CLANG_LANGUAGE", "CLANG_TIMEOUT_S", "CACHE_DIR",
      "ENABLE_PERSISTENT_CACHE"].map (ToolSettings.start ++ ·)

def environment : IO (Table String String) := do
  let found ← variableNames.mapM fun name => return (name, ← IO.getEnv name)
  return found.filterMap fun (name, value) => value.map fun value => (name, value)

/-- Adds the entries of a directory and what is below them. A file that cannot be read counts as
empty. -/
partial def gather (place : Place) (files : Files) (entries : Array IO.FS.DirEntry) : IO Files :=
  entries.foldlM (fun files entry => do
    let below := place ++ [entry.fileName]
    if ← entry.path.isDir then
      let entries ← try entry.path.readDir catch _ => pure #[]
      gather below (files.addDirectory below) entries
    else
      let text ← try IO.FS.readFile entry.path catch _ => pure ""
      return files.addText below text) files

def keep (before after : Files) : IO Unit :=
  after.forM fun (place, node) => do
    if Table.find? place before == some node then return
    let path := "/" ++ "/".intercalate place
    match node with
    | .directory => IO.FS.createDirAll path
    | .text s => IO.FS.writeFile path s

def request (call : Call) : Json :=
  .obj [("command", .arr (call.command.map Json.str)),
    ("stdin", (call.stdin.map Json.str).getD .null)]

/-- Runs the program, and runs it again with one more reply as long as a command waits for one. -/
partial def converse (run : World → Run.Outcome) (world : World) : IO Run.Outcome := do
  let outcome := run world
  match outcome.world.calls.drop world.replies.length with
  | [] => return outcome
  | call :: _ =>
    let stdout ← IO.getStdout
    stdout.putStrLn (request call).compact
    stdout.flush
    let line ← (← IO.getStdin).getLine
    match Json.read line with
    | .error _ => return outcome
    | .ok reply =>
      let debug := if (reply.get? "cus").isSome then Script.debug reply else world.debug
      converse run { world with replies := world.replies ++ [Script.reply reply], debug }

end NativeBindings.Main

open NativeBindings in
def main (arguments : List String) : IO UInt32 := do
  let directory ← IO.currentDir
  let here := (Path.ofText directory.toString).parts
  let files ← Main.gather here (Files.addDirectory [] here) (← directory.readDir)
  let stamp := (← Std.Time.PlainDateTime.now).format "uuuuMMdd_HHmmss"
  let world : World :=
    { files, here, environment := ← Main.environment, scratch := Path.ofText "/tmp/header_bindgen" }
  let outcome ← Main.converse (Run.main stamp arguments) world
  Main.keep files outcome.world.files
  IO.print outcome.stdout
  IO.eprint outcome.stderr
  match outcome.ending with
  | .exit code => return code.toUInt32
  | .escaped fault =>
    IO.eprintln (fault.title ++ ": " ++ fault.message)
    return 1
