import NativeBindings.Resolve.Record

/-!
Typedefs and functions. A typedef is an alias, a pointer or a pointer to a function; one of a tag
that is not declared yet waits for the tag, and one of another unknown name is left out.
-/
namespace NativeBindings.Resolve

open Json

/-- The first child of a node, or an empty node. -/
def firstChild (node : Json) : Except Fault Json := do
  ((← node.field "inner").orElse (arr [obj []])).item 0

/-- The prototype in a typedef of a pointer to a function. -/
def prototype? (node : Json) : Except Fault (Option Json) := do
  let inner ← children node
  if !inner.holds then return none
  let pointer ← inner.item 0
  if !(← pointer.field "kind").isKind "PointerType" then return none
  let paren ← firstChild pointer
  if !(← paren.field "kind").isKind "ParenType" then return none
  let prototype ← firstChild paren
  if !(← prototype.field "kind").isKind "FunctionProtoType" then return none
  return some prototype

def prototypeParameters (graph : Graph) : List Json → Except Fault (List (Parameter CType))
  | [] => return []
  | node :: rest => do
    let name ← node.field "name"
    let type ← nodeType graph node
    return { name, type } :: (← prototypeParameters graph rest)

/-- The pointer to a function that a prototype describes. -/
def callback (graph : Graph) (name : Label) (prototype : Json) : Except Fault CType := do
  let inner ← children prototype
  if !inner.holds then
    .error (.resolution ("function pointer \"" ++ name.plain ++ "\" has no return type"))
  let result ← nodeType graph (← inner.item 0)
  let parameters ← prototypeParameters graph ((← inner.items).drop 1)
  let header : Header := { name, size := CType.pointerSize }
  return .callback header header result parameters

def functionParameters (graph : Graph) : List Json → Except Fault (List (Parameter CType))
  | [] => return []
  | node :: rest => do
    if !(← node.field "kind").isKind "ParmVarDecl" then functionParameters graph rest
    else
      let name ← node.field "name"
      let type ← spelledType graph node
      return { name, type } :: (← functionParameters graph rest)

/-- The text before the parameters in the spelling of a function. -/
def resultSpelling (spelling : String) : String :=
  Text.stripped (String.ofList (spelling.toList.takeWhile (· != '(')))

def signature (graph : Graph) (name : Label) (node : Json) : Except Fault CType := do
  let spelling ← (← spellingOf node).asText "split"
  let result ← typeOf graph (resultSpelling spelling)
  let parameters ← functionParameters graph (← (← children node).items)
  return .signature { name, size := CType.pointerSize } result parameters

/-- Whether a spelling names a tag that may be declared later. -/
def mayWait (spelling : String) : Bool :=
  "struct ".toList.isPrefixOf spelling.toList || "union ".toList.isPrefixOf spelling.toList

section
variable {σ : Type}

/-- Declares an alias, unless it has the name of its target. -/
def registerAlias (name : Label) (target : CType) : Resolving σ Unit := do
  if target.name == name then note (Journal.debug ("Skipping self-alias " ++ name.plain))
  else
    let _ ← register name (Registry.aliasOf name target)

/-- Declares what a spelling names as an alias, or lets it wait. -/
def typedefOf (name : Label) (spelling : String) : Resolving σ Unit := do
  match typeOf (← graph) spelling with
  | .ok target => registerAlias name target
  | .error (.unknownName _) =>
    if mayWait spelling then
      let tag := Spelling.normal spelling
      note (Journal.debug
        ("Deferring typedef " ++ name.plain ++ " until " ++ tag ++ " is declared"))
      modify fun session => { session with registry := session.registry.defer (.str tag) name }
    else
      note (Journal.info
        ("Unknown typedef " ++ name.plain ++ " -> " ++ Text.quoted spelling ++ ", skipping"))
  | .error fault => throw fault

def typedef (node : Json) : Resolving σ Unit := do
  let name ← node.need "name"
  let spelling ← spellingOf node
  let type := (← node.field "type").orElse (obj [])
  if (← type.field "typeAliasDeclId").holds then
    let target ← (← graph).find (.str (Spelling.normal (← spelling.asText "strip")))
    registerAlias name target
  else
    match ← prototype? node with
    | some prototype =>
      let _ ← register name (← callback (← graph) name prototype)
      changeGraph fun graph => graph.addCallback name
    | none =>
      let text ← spelling.asText "strip"
      match ← Spelling.parse text with
      | .pointer base isConst =>
        let target ← pointeeOf (← graph) base
        let _ ← register name (.pointer { name, size := CType.pointerSize } target isConst)
        changeGraph fun graph => graph.addPointer name
      | _ => typedefOf name text

def function (node : Json) : Resolving σ Unit := do
  let name ← node.need "name"
  let type ← signature (← graph) name node
  if (← node.field "variadic").holds then
    note (Journal.debug ("Variadic arguments of " ++ name.plain ++ " are not bound"))
  let _ ← register name type

end

end NativeBindings.Resolve
