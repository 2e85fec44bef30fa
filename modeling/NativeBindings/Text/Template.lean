import NativeBindings.Text.Identifier
import NativeBindings.Text.Integer

/-!
Replacing runs of a word by a template. A run is the word with its last character repeated any
number of times. In a template a backslash starts an escape: a control character, an octal number,
the matched run, or itself.
-/
namespace NativeBindings.Text

/-- A part of a template. -/
inductive Part where
  | char (c : Char)
  | run
  deriving DecidableEq, Repr

/-- Why a template cannot be used: it is not well formed, or it names a group. -/
inductive TemplateFault where
  | malformed
  | unknownName
  deriving DecidableEq, Repr

namespace Template

def controls : List (Char × Char) :=
  [('a', '\x07'), ('b', '\x08'), ('f', '\x0c'), ('n', '\n'), ('r', '\r'), ('t', '\t'),
    ('v', '\x0b'), ('\\', '\\')]

def isAsciiDigit (c : Char) : Bool := '0' ≤ c && c ≤ '9'

def isOctal (c : Char) : Bool := '0' ≤ c && c ≤ '7'

def octal (digits : List Char) : Nat := digits.foldl (fun n c => 8 * n + (c.toNat - 48)) 0

def isAsciiLetter (c : Char) : Bool := 'a' ≤ c && c ≤ 'z' || 'A' ≤ c && c ≤ 'Z'

/-- The group that a name in angle brackets stands for: only the whole run has one. -/
def group (name : List Char) : Except TemplateFault Part :=
  if isIdentifier name then .error .unknownName
  else
    match readInteger name with
    | .ok 0 => .ok .run
    | _ => .error .malformed

/-- A group by name, after its opening bracket, and what follows. A last backslash right after the
name is seen before the name counts. -/
def namedGroup (rest : List Char) : Except TemplateFault (Part × List Char) :=
  match rest.takeWhile (· != '>'), rest.dropWhile (· != '>') with
  | [], _ => .error .malformed
  | _, [] | _, [_, '\\'] => .error .malformed
  | name, _ :: after => (group name).map fun part => (part, after)

/-- An escape after its backslash, and what follows. -/
def escape : List Char → Except TemplateFault (Part × List Char)
  | [] => .error .malformed
  | 'g' :: '<' :: rest => namedGroup rest
  | 'g' :: _ => .error .malformed
  | '0' :: rest =>
    let digits := (rest.take 2).takeWhile isOctal
    .ok (.char (Char.ofNat (octal digits % 256)), rest.drop digits.length)
  | c :: rest =>
    if isAsciiDigit c then
      match rest with
      | d :: e :: after =>
        if isOctal c && isOctal d && isOctal e && octal [c, d, e] ≤ 255 then
          .ok (.char (Char.ofNat (octal [c, d, e])), after)
        else .error .malformed
      | _ => .error .malformed
    else
      match controls.lookup c with
      | some shown => .ok (.char shown, rest)
      | none => if isAsciiLetter c then .error .malformed else .ok (.char '\\', c :: rest)

/-- The parts of a template, with fuel for its characters. -/
def partsWith : Nat → List Char → Except TemplateFault (List Part)
  | 0, _ => .ok []
  | _, [] => .ok []
  | fuel + 1, '\\' :: rest => do
    let (part, after) ← escape rest
    return part :: (← partsWith fuel after)
  | fuel + 1, c :: rest => do return .char c :: (← partsWith fuel rest)

def parts (template : List Char) : Except TemplateFault (List Part) :=
  partsWith template.length template

def fill (parts : List Part) (run : List Char) : List Char :=
  parts.flatMap fun
    | .char c => [c]
    | .run => run

end Template

/-- Replaces the runs of a word, from left to right, with fuel for the characters. -/
def replaceRunsWith (word : List Char) (last : Char) (parts : List Part) :
    Nat → List Char → List Char
  | 0, s => s
  | _, [] => []
  | fuel + 1, c :: rest =>
    if word.isPrefixOf (c :: rest) then
      let after := (c :: rest).drop word.length
      let more := after.takeWhile (· == last)
      Template.fill parts (word ++ more) ++
        replaceRunsWith word last parts fuel (after.dropWhile (· == last))
    else c :: replaceRunsWith word last parts fuel rest

/-- Replaces the runs of a word that is not empty. -/
def replaceRuns (word : List Char) (parts : List Part) (s : List Char) : List Char :=
  match word.getLast? with
  | some last => replaceRunsWith word last parts s.length s
  | none => s

end NativeBindings.Text
