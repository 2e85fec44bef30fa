import NativeBindings.Emit.Declaration
import NativeBindings.Emit.Prelude
import NativeBindings.Emit.Tracker
import NativeBindings.Graph
import NativeBindings.Noted

/-!
A whole module: the fixed text, the declarations in order, the table of symbols and the callables.
Each symbol that cannot be emitted is left out and recorded.
-/
namespace NativeBindings.Emit

/-- The module so far: its fragments, the marshalers that may be used, the failed symbols and the
journal. -/
structure Progress where
  out : List Fragment := []
  known : List Marshaler := []
  failed : Failures := []
  journal : Journal := []

abbrev Emitting := Act Progress

instance : Noting Progress where
  tell told progress := { progress with journal := progress.journal ++ told }

def append (fragments : List Fragment) : Emitting Unit :=
  modify fun progress => { progress with out := progress.out ++ fragments }

def know (marshalers : List Marshaler) : Emitting Unit :=
  modify fun progress => { progress with known := progress.known ++ marshalers }

/-- One unit of work on the marshalers known so far. -/
def unit {α : Type} (options : Options) (symbol : Label) (context : String)
    (work : List Marshaler → Except Fault α) : Emitting (Option α) :=
  Act.ofRun fun progress =>
    let (outcome, failed, told) :=
      tryUnit Fault.message id options.failFast progress.failed symbol context
        (work progress.known)
    (outcome, { progress with failed, journal := progress.journal ++ told })

section
variable (options : Options)

/-- The marshalers of an identifier that the module has. -/
def marshalersOf (ident : String) : List Marshaler :=
  (if options.readers then [{ direction := .reading, ident }] else []) ++
    (if options.writers then [{ direction := .writing, ident }] else [])

/-- Emits a declaration with an empty line after it. -/
def emitDeclaration (name : Label) (type : CType) : Emitting Unit := do
  match ← unit options name "" fun known => declaration options known name type with
  | none => return
  | some rendered =>
    know ((rendered.ident.map (marshalersOf options)).getD [])
    if !rendered.lines.isEmpty then append (rendered.lines ++ [blankLine])

/-- The name under which the failure of a callback's half is recorded. -/
def halfSymbol (direction : Direction) (name : Label) : Label :=
  .str (direction.start ++ name.plain)

/-- Emits one half of a pointer to a function. -/
def emitHalf (direction : Direction) (name : Label) (result : CType)
    (parameters : List (Parameter CType)) : Emitting Unit := do
  let symbol := halfSymbol direction name
  match ← unit options symbol "" fun _ => callbackHalf options direction name result parameters with
  | none => return
  | some lines =>
    append lines
    know [{ direction, ident := ← identText name }]

/-- Emits a pointer to a function: its type and, if that does not fail, its halves, which fail apart
from each other. -/
def emitCallback (name : Label) (result : CType) (parameters : List (Parameter CType)) :
    Emitting Unit := do
  let ident ← identText name
  match ← unit options name "" fun _ => signatureHint result parameters with
  | none => return
  | some hint =>
    append [aliasLine options ident hint]
    if options.readers then emitHalf options .reading name result parameters
    if options.writers then emitHalf options .writing name result parameters

/-- Emits one entry of the graph. Synonyms of the language are not emitted. -/
def emitEntry (name : Label) : CType → Emitting Unit
  | .synonym _ _ true => return
  | .callback _ _ result parameters => emitCallback options name result parameters
  | type => emitDeclaration options name type

/-- The entry of a function in the table of symbols. -/
def symbolEntry (name : Label) (result : CType) (parameters : List (Parameter CType)) :
    Except Fault Fragment := do
  let first ← resultDescriptorOf result
  let others ← descriptorsOf parameters
  return line options.indentWidth 1
    [.text ("\"" ++ name.plain ++ "\": (" ++ first ++ ", " ++ tuple others ++ "),")]

/-- Emits the handle of the library and the table of the symbols. -/
def emitSymbols (graph : Graph) : Emitting Unit := do
  let (lines, path) := options.libraryCode options.library
  append (lines.map fun text => [.text text])
  append [put options 0 [.text ("imported_lib = _ctypes.CDLL(" ++ path ++ ")")], blankLine,
    put options 0 ["_symbol_signatures = \x7b"]]
  graph.declarations.forM fun (name, type) => do
    match type with
    | .signature _ result parameters =>
      match ← unit options name "failed to generate symbol import" fun _ =>
          symbolEntry options name result parameters with
      | some entry => append [entry]
      | none => return
    | _ => return
  append [put options 0 ["\x7d"],
    put options 0 ["for _name, (_restype, _argtypes) in _symbol_signatures.items():"],
    put options 1 ["_symbol = getattr(imported_lib, _name)"],
    put options 1 ["_symbol.restype = _restype"],
    put options 1 ["_symbol.argtypes = _argtypes"], blankLine]

/-- An argument of a callable: its name, its hint, the expression that is passed on and the lines
that prepare it. -/
structure Argument where
  name : String
  hint : Label
  passed : Label
  steps : List (List Piece) := []

/-- The lines that put a record given as a dictionary into memory. -/
def recordSteps (name ident size : String) : List (List Piece) :=
  let inner := String.ofList (List.replicate options.indentWidth.toNat ' ')
  [[.text ("_" ++ name ++ " = " ++ name)], [.text ("if isinstance(" ++ name ++ ", dict):")],
    [.text (inner ++ "_" ++ name ++ " = _ctypes.create_string_buffer(" ++ size ++ ")")],
    [.text inner, .use { direction := .writing, ident },
      .text ("(" ++ name ++ ", _" ++ name ++ ", 0)")]]

/-- The name of a parameter in the module. One without a name goes by its place. -/
def argumentName (index : Nat) (name : Label) : Except Fault Label :=
  identOf (name.orElse (.str ("arg" ++ toString index)))

/-- The argument for a parameter. Callbacks become addresses, records behind pointers may be given
as dictionaries. -/
def argument (known : List Marshaler) (index : Nat) (parameter : Parameter CType) :
    Except Fault Argument := do
  let passed ← argumentName index parameter.name
  let name := passed.plain
  let simple : Argument := { name, hint := ← hint parameter.type, passed }
  if (← carrierOf parameter.type) ≠ .pointer then return simple
  match parameter.type.unaliased with
  | .callback _ _ result parameters =>
    let type ← prototype result parameters
    return { simple with
      passed := .str ("_" ++ name)
      steps := [[.text ("_" ++ name ++ " = _callback_address(" ++ type ++ ", " ++ name ++ ")")]] }
  | _ =>
    match parameter.type.pointee with
    | .record header _ =>
      if header.name.isNull || !options.writers then return simple
      let _ ← marshaler known .writing header.name
      let target ← identText header.name
      return { simple with
        hint := .str (simple.hint.plain ++ " | " ++ target)
        passed := .str ("_" ++ name)
        steps := recordSteps options name target (← Amount.written header.size) }
    | _ => return simple

/-- The arguments for the parameters, counted from an index on. -/
def arguments (known : List Marshaler) (index : Nat) :
    List (Parameter CType) → Except Fault (List Argument)
  | [] => return []
  | parameter :: rest => do
    let first ← argument options known index parameter
    return first :: (← arguments known (index + 1) rest)

/-- The callable of a function: the symbol itself, if nothing has to be prepared. -/
def callable (known : List Marshaler) (name : Label) (result : CType)
    (parameters : List (Parameter CType)) : Except Fault (List Fragment) := do
  let ident ← identText name
  let carrier ← carrierOf result
  let arguments ← arguments options known 0 parameters
  let isText := carrier = .cstring
  if !isText && arguments.all fun argument => argument.steps.isEmpty then
    return [put options 0 [.text (ident ++ " = " ++ symbolOf name)]]
  let given := arguments.map fun argument => argument.name ++ ": " ++ argument.hint.plain
  let returned ← hint result
  let passed ← Json.texts (arguments.map Argument.passed)
  let call := symbolOf name ++ "(" ++ ", ".intercalate passed ++ ")"
  return put options 0 [.text ("def " ++ ident ++ "(" ++ ", ".intercalate given ++ ") -> " ++
      returned.plain ++ ":")] ::
    (arguments.flatMap fun argument => argument.steps.map (put options 1)) ++
    [put options 1 [.text (if isText then "return CString(" ++ call ++ ")" else "return " ++ call)]]

def emitCallables (graph : Graph) : Emitting Unit :=
  graph.declarations.forM fun (name, type) => do
    match type with
    | .signature _ result parameters =>
      match ← unit options name ("failed to generate wrapper for " ++ name.plain) fun known =>
          callable options known name result parameters with
      | some lines => append lines
      | none => return
    | _ => return

/-- Emits a whole module. What an earlier module made known is forgotten. -/
def emitModule (graph : Graph) : Emitting Unit := do
  modify fun progress =>
    { progress with out := [[.text prelude]], known := [], failed := [] }
  if options.helpers then append [[.text helpers]]
  graph.declarations.forM fun (name, type) => emitEntry options name type
  if options.symbols then emitSymbols options graph
  if options.wrappers then
    if options.symbols then emitCallables options graph
    else note (Journal.warning
      "Function wrappers need the symbol import table, skipping wrappers")
  let progress ← get
  let fragments := progress.out.length
  let failures := progress.failed.length
  note (Journal.info s!"Generated {fragments} fragments, {failures} failed symbols")

structure Module where
  fragments : List Fragment
  failed : Failures

def Module.text (result : Module) : String := String.join (result.fragments.map Fragment.text)

def generate (graph : Graph) : Emitting Module :=
  timed "LayoutCodeGen.generate_all" do
    emitModule options graph
    let progress ← get
    return { fragments := progress.out, failed := progress.failed }

end

end NativeBindings.Emit
