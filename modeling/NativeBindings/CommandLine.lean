import NativeBindings.Emit.Options
import NativeBindings.Settings
import NativeBindings.Text.Quoted

/-!
The command line. Options may be shortened to any start that only one of them has, letters may be
put together behind one dash, and a value may follow an equals sign or the letter itself. What
comes after two dashes is no option; in place of a value they leave the option blank.
-/
namespace NativeBindings.CommandLine

open Text

inductive Action where
  | help
  | output
  | includes
  | cache
  | library
  | backend
  | failFast
  | recordSizes
  | signatureTypes
  | noReaders
  | noWriters
  | noHelpers
  | noWrappers
  | noSymbols
  | noAllocators
  | verbose
  deriving DecidableEq, Repr

/-- The spellings of the options, in the order in which they are listed. -/
def spellings : List (String × Action) :=
  [("-h", .help), ("--help", .help), ("-o", .output), ("--output", .output), ("-I", .includes),
    ("--include", .includes), ("--cache", .cache), ("--lib-path", .library),
    ("--layout-backend", .backend), ("--fail-fast", .failFast), ("--struct-sizes", .recordSizes),
    ("--func-decl-types", .signatureTypes), ("--no-readers", .noReaders),
    ("--no-writers", .noWriters), ("--no-helpers", .noHelpers), ("--no-wrappers", .noWrappers),
    ("--no-symbol-import", .noSymbols), ("--no-allocs", .noAllocators), ("-v", .verbose),
    ("--verbose", .verbose)]

/-- The name of an option in messages: all its spellings. -/
def Action.name (action : Action) : String :=
  "/".intercalate ((spellings.filter fun spelling => spelling.2 = action).map (·.1))

def Action.takesValue : Action → Bool
  | output | includes | cache | library | backend => true
  | _ => false

structure Arguments where
  header : Option Path := none
  output : Option (Operand Path) := none
  includes : List (Operand Path) := []
  cache : Option (Operand Path) := none
  library : Option (Operand String) := none
  backend : Option (Operand String) := none
  failFast : Bool := false
  recordSizes : Bool := false
  signatureTypes : Bool := false
  noReaders : Bool := false
  noWriters : Bool := false
  noHelpers : Bool := false
  noWrappers : Bool := false
  noSymbols : Bool := false
  noAllocators : Bool := false
  verbose : Bool := false
  deriving DecidableEq, Repr

/-- Why there is nothing to run: help was asked for, or the arguments are wrong. -/
inductive Ending where
  | help
  | misuse (reason : String)
  deriving DecidableEq, Repr

def wrong {α : Type} (action : Action) (reason : String) : Except Ending α :=
  .error (.misuse ("argument " ++ action.name ++ ": " ++ reason))

/-- An argument by its form. The value of an option is what the same argument says after it. -/
inductive Token where
  | plain (s : String)
  | separator
  | option (action : Action) (spelled : String) (value : Option (List Char))
  | unknown (s : String)
  deriving DecidableEq, Repr

def Token.text : Token → String
  | plain s | unknown s => s
  | separator => "--"
  | option _ spelled _ => spelled

/-- The part before the first equals sign, and the part after it if there is one. -/
def splitValue (s : List Char) : String × Option (List Char) :=
  match s.dropWhile (· != '=') with
  | [] => (String.ofList s, none)
  | _ :: value => (String.ofList (s.takeWhile (· != '=')), some value)

/-- The options that an argument may mean, with their spellings. -/
def readings (s : List Char) : List (String × Token) :=
  match s with
  | '-' :: '-' :: _ =>
    let (start, value) := splitValue s
    spellings.filterMap fun (spelled, action) =>
      if start.toList.isPrefixOf spelled.toList then
        some (spelled, .option action spelled value)
      else none
  | _ =>
    spellings.filterMap fun (spelled, action) =>
      if spelled.toList = s.take 2 then
        some (spelled, .option action spelled (some (s.drop 2)))
      else none

def isNegativeNumber : List Char → Bool
  | '-' :: rest =>
    let body := if rest.getLast? = some '\n' then rest.dropLast else rest
    match body.dropWhile isDecimal with
    | [] => !body.isEmpty
    | '.' :: more => !more.isEmpty && more.all isDecimal
    | _ => false
  | _ => false

/-- The form of one argument before the two dashes. -/
def classify (s : String) : Except Ending Token :=
  match s.toList with
  | '-' :: c :: rest =>
    let whole := '-' :: c :: rest
    match spellings.lookup s with
    | some action => .ok (.option action s none)
    | none =>
      let (start, value) := splitValue whole
      match value, spellings.lookup start with
      | some value, some action => .ok (.option action start (some value))
      | _, _ =>
        match readings whole with
        | [(_, token)] => .ok token
        | first :: second :: more =>
          let spelled := (first :: second :: more).map (·.1)
          .error (.misuse
            ("ambiguous option: " ++ s ++ " could match " ++ ", ".intercalate spelled))
        | [] =>
          if isNegativeNumber whole || whole.contains ' ' then .ok (.plain s)
          else .ok (.unknown s)
  | _ => .ok (.plain s)

/-- The forms of all arguments. -/
def classifyAll : List String → Except Ending (List Token)
  | [] => .ok []
  | s :: rest =>
    if s == "--" then .ok (.separator :: rest.map Token.plain)
    else do return (← classify s) :: (← classifyAll rest)

/-- What letters behind one dash end with. -/
inductive Tail where
  | nothing
  | value (action : Action) (s : String)
  | next (action : Action)
  deriving DecidableEq, Repr

def ignored {α : Type} (action : Action) (value : List Char) : Except Ending α :=
  wrong action ("ignored explicit argument " ++ quoted (String.ofList value))

/-- An option with something right after it: flags, and what they end with. Behind a letter that
takes no value comes the next letter; one that takes a value takes all that is left. -/
def cluster (action : Action) (short : Bool) : List Char → Except Ending (List Action × Tail)
  | [] => if action.takesValue then .ok ([], .value action "") else ignored action []
  | c :: rest =>
    if action.takesValue then .ok ([], .value action (String.ofList (c :: rest)))
    else if !short then ignored action (c :: rest)
    else
      match spellings.lookup (String.ofList ['-', c]), rest with
      | none, _ => ignored action (c :: rest)
      | some next, [] =>
        if next.takesValue then .ok ([action], .next next) else .ok ([action, next], .nothing)
      | some next, d :: more => do
        let (flags, tail) ← cluster next true (d :: more)
        return (action :: flags, tail)

def flag (arguments : Arguments) : Action → Except Ending Arguments
  | .help => .error .help
  | .failFast => .ok { arguments with failFast := true }
  | .recordSizes => .ok { arguments with recordSizes := true }
  | .signatureTypes => .ok { arguments with signatureTypes := true }
  | .noReaders => .ok { arguments with noReaders := true }
  | .noWriters => .ok { arguments with noWriters := true }
  | .noHelpers => .ok { arguments with noHelpers := true }
  | .noWrappers => .ok { arguments with noWrappers := true }
  | .noSymbols => .ok { arguments with noSymbols := true }
  | .noAllocators => .ok { arguments with noAllocators := true }
  | .verbose => .ok { arguments with verbose := true }
  | _ => .ok arguments

def value (arguments : Arguments) (action : Action) (s : String) : Except Ending Arguments :=
  let path := Operand.ofArgument Path.ofText s
  let text := Operand.ofArgument id s
  match action with
  | .output => .ok { arguments with output := some path }
  | .includes => .ok { arguments with includes := arguments.includes ++ [path] }
  | .cache => .ok { arguments with cache := some path }
  | .library => .ok { arguments with library := some text }
  | .backend =>
    if text = .blank || backends.contains s then .ok { arguments with backend := some text }
    else wrong action ("invalid choice: " ++ quoted s ++ " (choose from " ++
      ", ".intercalate (backends.map quoted) ++ ")")
  | _ => .ok arguments

/-- The arguments so far, and those that belong nowhere. The header is the first plain argument
that comes, as long as its place is open. -/
structure Progress where
  arguments : Arguments := {}
  headerOpen : Bool := true
  extras : List String := []

def isOption : Token → Bool
  | .option _ _ _ | .unknown _ => true
  | _ => false

/-- The last arguments, with no option among them. -/
def finish (progress : Progress) (tokens : List Token) : Progress :=
  let rest := fun (tokens : List Token) => progress.extras ++ tokens.map Token.text
  let header := fun (s : String) =>
    { progress.arguments with header := some (Path.ofText s) }
  if !progress.headerOpen then { progress with extras := rest tokens }
  else
    match tokens with
    | .separator :: .plain s :: more => { arguments := header s, extras := rest more }
    | .separator :: more => { progress with extras := rest more }
    | .plain s :: .separator :: more => { arguments := header s, extras := rest more }
    | .plain s :: more => { arguments := header s, extras := rest more }
    | more => { progress with extras := rest more }

def process (progress : Progress) : List Token → Except Ending Progress
  | [] => .ok (finish progress [])
  | token :: rest =>
    if !(token :: rest).any isOption then .ok (finish progress (token :: rest))
    else
      match token with
      | .plain s =>
        if progress.headerOpen then
          let arguments := { progress.arguments with header := some (Path.ofText s) }
          process { progress with arguments, headerOpen := false } rest
        else process { progress with extras := progress.extras ++ [s] } rest
      | .separator => process { progress with extras := progress.extras ++ ["--"] } rest
      | .unknown s => process { progress with extras := progress.extras ++ [s] } rest
      | .option action spelled given => do
        let (flags, tail) ← match given with
          | some s => cluster action ((spelled.toList.drop 1).head? != some '-') s
          | none =>
            if action.takesValue then pure ([], .next action) else pure ([action], .nothing)
        match tail with
        | .nothing =>
          let arguments ← flags.foldlM flag progress.arguments
          process { progress with arguments } rest
        | .value action s =>
          let arguments ← value (← flags.foldlM flag progress.arguments) action s
          process { progress with arguments } rest
        | .next action =>
          match rest with
          | .plain s :: more =>
            let arguments ← value (← flags.foldlM flag progress.arguments) action s
            process { progress with arguments } more
          | _ => wrong action "expected one argument"

def parse (arguments : List String) : Except Ending Arguments := do
  let progress ← process {} (← classifyAll arguments)
  if progress.extras.isEmpty then return progress.arguments
  else .error (.misuse ("unrecognized arguments: " ++ " ".intercalate progress.extras))

def options (arguments : Arguments) (library : Option String) : Emit.Options :=
  { readers := !arguments.noReaders
    writers := !arguments.noWriters
    helpers := !arguments.noHelpers
    signatureTypes := arguments.signatureTypes
    wrappers := !arguments.noWrappers
    symbols := !arguments.noSymbols
    recordSizes := arguments.recordSizes
    allocators := !arguments.noAllocators
    failFast := arguments.failFast
    library := match library with
      | none | some "" => Emit.defaultLibrary
      | some path => path }

/-- The settings that the arguments give. -/
def overrides (arguments : Arguments) : Overrides :=
  { header := arguments.header
    output := arguments.output
    cache := arguments.cache
    includes := arguments.includes
    library := arguments.library
    backend := arguments.backend
    verbose := if arguments.verbose then some true else none }

def program : String := "header-bindgen"

def usage : String := "\n".intercalate [
  "usage: header-bindgen [-h] [-o OUTPUT] [-I DIR] [--cache PATH]",
  "                      [--lib-path EXPR] [--layout-backend \x7bprobe,dwarf\x7d]",
  "                      [--fail-fast] [--struct-sizes] [--func-decl-types]",
  "                      [--no-readers] [--no-writers] [--no-helpers]",
  "                      [--no-wrappers] [--no-symbol-import] [--no-allocs] [-v]",
  "                      [header]",
  ""]

def help : String := usage ++ "\n".intercalate [
  "",
  "Generate Python ctypes bindings with exact native struct layout from a C header",
  "",
  "positional arguments:",
  "  header                Path to the C header (optional if using .env)",
  "",
  "options:",
  "  -h, --help            show this help message and exit",
  "  -o OUTPUT, --output OUTPUT",
  "                        Generated module path (default: <header>_bindings.py)",
  "  -I DIR, --include DIR",
  "                        Additional include directory for clang (repeatable)",
  "  --cache PATH          Layout cache path prefix",
  "  --lib-path EXPR       Python expression for the shared library path without",
  "                        suffix (default: str(_Path(__file__).parent /",
  "                        \"mylib\"))",
  "  --layout-backend \x7bprobe,dwarf\x7d",
  "                        How sizes and offsets are computed",
  "  --fail-fast           Abort on the first symbol that fails to generate",
  "  --struct-sizes        Emit <Struct>__ffi_size constants",
  "  --func-decl-types     Emit <func>__signature type aliases",
  "  --no-readers          Do not emit read_* functions",
  "  --no-writers          Do not emit write_* functions",
  "  --no-helpers          Do not emit PtrT/NULL/alloc_* helpers",
  "  --no-wrappers         Do not emit callable function wrappers",
  "  --no-symbol-import    Do not load the shared library",
  "  --no-allocs           Do not emit alloc_<Struct> functions",
  "  -v, --verbose         Enable verbose output with debug logs",
  "",
  "Examples:",
  "  # Generate mylib_bindings.py next to the current directory",
  "  header-bindgen include/mylib.h",
  "",
  "  # Extra include directories and a custom output file",
  "  header-bindgen include/mylib.h -I third_party/include -o bindings/mylib.py",
  "",
  "  # Load the library from an explicit path expression",
  "  header-bindgen include/mylib.h --lib-path '\"/opt/mylib/lib/libmylib\"'",
  "",
  "  # Read layouts from DWARF instead of running probe programs",
  "  header-bindgen include/mylib.h --layout-backend dwarf",
  "",
  "  # Using .env file for configuration",
  "  echo 'HEADER_PATH=include/mylib.h' > .env",
  "  header-bindgen",
  "        ",
  ""]

end NativeBindings.CommandLine
