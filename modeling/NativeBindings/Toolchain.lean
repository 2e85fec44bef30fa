import NativeBindings.Ast.Node
import NativeBindings.Json.Reader
import NativeBindings.ToolSettings

/-!
The compiler: dumps of syntax trees, probe programs and objects with debug information. Programs
and objects are put into a private directory, which is made when it is first needed.
-/
namespace NativeBindings

structure Toolchain where
  compiler : String
  language : String
  timeout : Option Seconds
  includes : List Path := []
  work : Option Path := none
  deriving Repr

structure Workshop where
  world : World
  toolchain : Toolchain

instance : Noting Workshop where
  tell told shop := { shop with world := Noting.tell told shop.world }

namespace Toolchain

/-- A compiler with the settings of the environment where none are given. -/
def make (includes : List Path) (compiler language : String) (timeout : Option Seconds) :
    Act World Toolchain := do
  let settings ← ToolSettings.read
  return {
    compiler := if compiler == "" then settings.compiler else compiler
    language := if language == "" then settings.language else language
    timeout := timeout.or (if settings.timeout = 0 then none else some (.whole settings.timeout))
    includes }

def includeArguments (toolchain : Toolchain) : List String :=
  toolchain.includes.map fun path => "-I" ++ path.text

end Toolchain

namespace Workshop

def inWorld {α : Type} (act : Act World α) : Act Workshop α :=
  Act.zoom Workshop.world (fun shop world => { shop with world }) act

def run (command : List String) (stdin : Option String) : Act Workshop String := do
  inWorld (World.run command stdin (← get).toolchain.timeout)

def work : Act Workshop Path := do
  let shop ← get
  match shop.toolchain.work with
  | some path => return path
  | none =>
    let path := shop.world.scratch
    set { shop with toolchain := { shop.toolchain with work := some path } }
    note (Journal.debug ("Created work directory " ++ path.text))
    return path

def dump (header : String) : Act Workshop (List Json) := do
  let toolchain := (← get).toolchain
  note (Journal.info ("Dumping AST for \"" ++ header ++ "\""))
  let output ← run ([toolchain.compiler, "-Xclang", "-ast-dump=json", "-fsyntax-only"] ++
    toolchain.includeArguments ++ [header]) none
  match Json.read output with
  | .ok root => ((← root.field "inner").orElse (.arr [])).items
  | .error (.beyond fault) => throw fault
  | .error (.malformed reason) =>
    throw (.compiler ("clang produced invalid AST JSON for " ++ header ++ ": " ++ reason))

/-- Compiles a program, runs it and gives what it prints. -/
def compileAndRun (code : String) : Act Workshop String := do
  let program := ((← work).join (Path.ofText "layout_probe")).text
  let toolchain := (← get).toolchain
  let _ ← run ([toolchain.compiler] ++ toolchain.includeArguments ++
    ["-x", toolchain.language, "-", "-o", program]) (some code)
  run [program] none

/-- Compiles a program into an object with the debug information of every type. -/
def compileObject (code name : String) : Act Workshop Path := do
  let object := (← work).join (Path.ofText (name ++ ".o"))
  let toolchain := (← get).toolchain
  let _ ← run ([toolchain.compiler] ++ toolchain.includeArguments ++
    ["-x", toolchain.language, "-c", "-g", "-fno-eliminate-unused-debug-types", "-", "-o",
      object.text]) (some code)
  return object

def clean : Act Workshop Unit := do
  let shop ← get
  match shop.toolchain.work with
  | none => return
  | some path =>
    note (Journal.debug ("Removing work directory " ++ path.text))
    modify fun shop => { shop with toolchain := { shop.toolchain with work := none } }

end Workshop

end NativeBindings
