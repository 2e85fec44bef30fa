import NativeBindings.Fault
import NativeBindings.Text.Affix
import NativeBindings.Text.Blank

/-!
Files of variables. A statement names a variable and mostly gives it a value, which ends with the
line unless it is in quotes. A value may refer to variables by their names in braces.
-/
namespace NativeBindings.Variables

open Text

/-- The value of a variable, if its statement gives one. -/
abbrev Binding := String × Option String

/-- A part of a statement and what follows it; or what is left where the part is missing. -/
abbrev Scan (α : Type) := Except (List Char) (α × List Char)

def isGap (c : Char) : Bool := isBlank c && c != '\n' && c != '\r'

def singleQuote : Char := '\x27'

def doubleQuote : Char := '\x22'

/-- The text up to a quote without a backslash before it; if there is none, up to the last quote
that has one. -/
def upToQuote (quote : Char) : List Char → Option (List Char × List Char)
  | [] => none
  | '\\' :: c :: rest =>
    if c = quote then
      match upToQuote quote rest with
      | some (text, after) => some ('\\' :: c :: text, after)
      | none => some (['\\'], rest)
    else (upToQuote quote (c :: rest)).map fun (text, after) => ('\\' :: text, after)
  | c :: rest =>
    if c = quote then some ([], rest)
    else (upToQuote quote rest).map fun (text, after) => (c :: text, after)

def singleEscapes : List (Char × Char) := [('\\', '\\'), (singleQuote, singleQuote)]

def doubleEscapes : List (Char × Char) :=
  singleEscapes ++ [(doubleQuote, doubleQuote), ('a', '\x07'), ('b', '\x08'), ('f', '\x0c'),
    ('n', '\n'), ('r', '\r'), ('t', '\t'), ('v', '\x0b')]

/-- A text with its escapes resolved. A backslash before anything else stays. -/
def unescaped (escapes : List (Char × Char)) : List Char → List Char
  | '\\' :: c :: rest =>
    match escapes.lookup c with
    | some shown => shown :: unescaped escapes rest
    | none => '\\' :: unescaped escapes (c :: rest)
  | c :: rest => c :: unescaped escapes rest
  | [] => []

/-- What comes before a blank and a number sign. -/
def uncommented : List Char → List Char
  | [] => []
  | [c] => [c]
  | c :: d :: rest => if isBlank c && d == '#' then [] else c :: uncommented (d :: rest)

/-- A value in quotes or up to a comment or the end of the line. -/
def valueAt (s : List Char) : Scan (List Char) :=
  let inQuotes := fun (quote : Char) (escapes : List (Char × Char)) (rest : List Char) =>
    match upToQuote quote rest with
    | some (text, after) => .ok (unescaped escapes text, after)
    | none => .error s
  match s with
  | '\x27' :: rest => inQuotes singleQuote singleEscapes rest
  | '\x22' :: rest => inQuotes doubleQuote doubleEscapes rest
  | _ => .ok (trimRight (uncommented (s.takeWhile (· != '\n'))), s.dropWhile (· != '\n'))

def isNameChar (c : Char) : Bool := !isBlank c && c != '=' && c != '#'

/-- The name of a variable, which may be in quotes. Before a comment there is none. -/
def nameAt (s : List Char) : Scan (Option (List Char)) :=
  match s with
  | '#' :: _ => .ok (none, s)
  | '\x27' :: rest =>
    match rest.takeWhile (· != singleQuote), rest.dropWhile (· != singleQuote) with
    | c :: name, _ :: after => .ok (some (c :: name), after)
    | _, _ => .error s
  | _ =>
    match s.takeWhile isNameChar with
    | [] => .error s
    | name => .ok (some name, s.dropWhile isNameChar)

/-- A text without the word for exporting at its start. -/
def unexported (s : List Char) : List Char :=
  match afterStart? "export".toList s with
  | some rest => if rest.head?.any isGap then rest.dropWhile isGap else s
  | none => s

/-- What follows the line that ends here. A comment may end it. -/
def lineEnd (s : List Char) : Except (List Char) (List Char) :=
  let rest := match s.dropWhile isGap with
    | '#' :: comment => comment.dropWhile (· != '\n')
    | rest => rest
  match rest with
  | [] => .ok []
  | '\n' :: next => .ok next
  | _ => .error rest

/-- A statement after blanks and empty lines. -/
def statementAt (s : List Char) : Except (List Char) (Option Binding × List Char) := do
  match s.dropWhile isBlank with
  | [] => return (none, [])
  | start =>
    let (name, rest) ← nameAt (unexported start)
    let (value, rest) ← match rest.dropWhile isGap with
      | '=' :: given => do
        let (value, rest) ← valueAt (given.dropWhile isGap)
        pure (some (String.ofList value), rest)
      | rest => pure (none, rest)
    let next ← lineEnd rest
    return (name.map fun name => (String.ofList name, value), next)

def afterLine (s : List Char) : List Char := (s.dropWhile (· != '\n')).drop 1

/-- The bindings of a text, with fuel for its characters. The rest of a line with a fault is left
out. -/
def bindingsWith : Nat → List Char → List Binding
  | 0, _ => []
  | _, [] => []
  | fuel + 1, c :: s =>
    match statementAt (c :: s) with
    | .ok (binding, next) => binding.toList ++ bindingsWith fuel next
    | .error rest => bindingsWith fuel (afterLine rest)

def bindings (s : String) : List Binding := bindingsWith s.length s.toList

/-- A reference at the start of a text: a name, what stands for it if it is missing, and what
follows. -/
def reference? : List Char → Option (List Char × List Char × List Char)
  | '$' :: '{' :: rest =>
    let isPart := fun c => c != '}' && c != ':'
    match rest.dropWhile isPart with
    | '}' :: after => some (rest.takeWhile isPart, [], after)
    | ':' :: '-' :: other =>
      match other.dropWhile (· != '}') with
      | _ :: after => some (rest.takeWhile isPart, other.takeWhile (· != '}'), after)
      | [] => none
    | _ => none
  | _ => none

/-- A value with its references resolved, with fuel for its characters. -/
def expandedWith (value? : String → Option String) : Nat → List Char → List Char
  | 0, s => s
  | _, [] => []
  | fuel + 1, c :: rest =>
    match reference? (c :: rest) with
    | some (name, other, after) =>
      ((value? (String.ofList name)).map String.toList).getD other ++
        expandedWith value? fuel after
    | none => c :: expandedWith value? fuel rest

def expanded (value? : String → Option String) (s : String) : String :=
  String.ofList (expandedWith value? s.length s.toList)

/-- The value that a reference stands for: that of the environment, or that of an earlier binding,
which may be empty. -/
def valueIn (environment : Table String String) (done : Table String (Option String))
    (name : String) : Option String :=
  (Table.find? name environment).or ((Table.find? name done).map (·.getD ""))

/-- The bindings with their references resolved in order. The last one of a name counts. -/
def resolved (environment : Table String String) (bindings : List Binding) :
    Table String (Option String) :=
  bindings.foldl (fun done (name, value) =>
    Table.insert name (value.map (expanded (valueIn environment done))) done) []

def assign (environment : Table String String) (name value : String) :
    Except Fault (Table String String) :=
  if name.contains '\x00' || value.contains '\x00' then .error (.value "embedded null byte")
  else if name.contains '=' then .error (.value "illegal environment variable name")
  else .ok (environment ++ [(name, value)])

/-- Sets the variables that have a value. Those that are set stay as they are. -/
def setAll (environment : Table String String) :
    Table String (Option String) → Except Fault (Table String String)
  | [] => .ok environment
  | (_, none) :: rest => setAll environment rest
  | (name, some value) :: rest => do
    if Table.has name environment then setAll environment rest
    else setAll (← assign environment name value) rest

end NativeBindings.Variables
