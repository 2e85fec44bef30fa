import NativeBindings.Fault
import NativeBindings.Keyword
import NativeBindings.Path
import NativeBindings.Text.Affix
import NativeBindings.Text.Template

/-!
Names of modules. Whatever is not a letter, a digit or a low line of ASCII is replaced, runs of the
replacement become one, and none is left at the ends. A name that would start with a digit or be a
keyword gets the replacement before it.
-/
namespace NativeBindings.ModuleName

open Text

/-- The name where nothing else is left. -/
def fallback : String := "bindings"

def isPlain (c : Char) : Bool :=
  'a' ≤ c && c ≤ 'z' || 'A' ≤ c && c ≤ 'Z' || '0' ≤ c && c ≤ '9' || c == '_'

/-- Digits in the first 256 characters, the small ones on top of a line too. -/
def isDigit (c : Char) : Bool := '0' ≤ c && c ≤ '9' || c == '²' || c == '³' || c == '¹'

def templateFault : TemplateFault → Fault
  | .malformed => .pattern "bad template"
  | .unknownName => .index "unknown group name"

/-- Runs of the replacement as one. -/
def collapse (replacement s : List Char) : Except Fault (List Char) :=
  if !within replacement s then .ok s
  else if replacement.isEmpty then .error (.pattern "nothing to repeat at position 0")
  else
    match Template.parts replacement with
    | .ok parts => .ok (replaceRuns replacement parts s)
    | .error fault => .error (templateFault fault)

/-- A text without the characters of the replacement at its ends. -/
def stripChars (chars s : List Char) : List Char :=
  let start := s.dropWhile chars.contains
  (start.reverse.dropWhile chars.contains).reverse

/-- A name that can be imported, where the replacement is a low line. -/
def sanitize (name replacement : String) : Except Fault String := do
  if name == "" then return fallback
  let filled := name.toList.flatMap fun c => if isPlain c then [c] else replacement.toList
  let collapsed ← collapse replacement.toList filled
  match stripChars replacement.toList collapsed with
  | [] => return fallback
  | c :: rest =>
    let stripped := String.ofList (c :: rest)
    if isDigit c || isKeyword stripped then return replacement ++ stripped else return stripped

/-- The path of the module for a header, in the current directory. -/
def outputPath (header : Path) : Except Fault Path := do
  return Path.ofText ((← sanitize header.stem "_") ++ "_bindings.py")

end NativeBindings.ModuleName
