import NativeBindings.Fault
import NativeBindings.Text.Hex
import NativeBindings.Text.Integer

/-!
Reading JSON texts, with the place and the reason of the first fault. Beyond the standard it reads
`NaN` and the infinities, and the last value of a repeated name counts. An escaped surrogate
without its partner is no character and is read as U+FFFD. An integer of too many digits is not
read, nor is what lies too deep.
-/
namespace NativeBindings.Json

namespace Reader

open Text

/-- Why reading ends early: a reason, and how many characters were left there; or an integer of too
many digits, or a list or an object inside too many others. -/
inductive Stop where
  | malformed (reason : String) (left : Nat)
  | tooLong (digits : Nat)
  | tooDeep (what : String)
  deriving DecidableEq, Repr

def stopAt {α : Type} (reason : String) (rest : List Char) : Except Stop α :=
  .error (.malformed reason rest.length)

def isSpace (c : Char) : Bool := c == ' ' || c == '\t' || c == '\n' || c == '\r'

def skip (s : List Char) : List Char := s.dropWhile isSpace

def isDigit (c : Char) : Bool := '0' ≤ c && c ≤ '9'

def natural (digits : List Char) : Nat :=
  digits.foldl (fun n c => 10 * n + (c.toNat - 48)) 0

/-- The fraction after a number, if a digit follows the point. -/
def fraction : List Char → List Char × List Char
  | '.' :: c :: rest =>
    if isDigit c then (c :: rest.takeWhile isDigit, rest.dropWhile isDigit)
    else ([], '.' :: c :: rest)
  | rest => ([], rest)

/-- The digits of an exponent; none if there is no digit. -/
def exponentDigits (negative : Bool) (s : List Char) : Option (Int × List Char) :=
  let digits := s.takeWhile isDigit
  if digits.isEmpty then none
  else
    let n : Int := natural digits
    some (if negative then -n else n, s.dropWhile isDigit)

/-- The exponent after a number. -/
def exponent : List Char → Option (Int × List Char)
  | c :: rest =>
    if c == 'e' || c == 'E' then
      match rest with
      | '-' :: more => exponentDigits true more
      | '+' :: more => exponentDigits false more
      | _ => exponentDigits false rest
    else none
  | [] => none

/-- A number without its sign; a fraction or an exponent makes it a real one. -/
def unsigned (negative : Bool) (s : List Char) : Option (Json × List Char) :=
  let (whole, rest) :=
    match s with
    | '0' :: rest => (['0'], rest)
    | _ => (s.takeWhile isDigit, s.dropWhile isDigit)
  if whole.isEmpty then none
  else
    let (parts, rest) := fraction rest
    match parts, exponent rest with
    | [], none =>
      let n : Int := natural whole
      some (int (if negative then -n else n), rest)
    | _, power =>
      let (scale, rest) := power.getD (0, rest)
      let digits := natural (whole ++ parts)
      some (real (Binary64.ofDecimal negative digits (scale - parts.length)), rest)

def number : List Char → Option (Json × List Char)
  | '-' :: rest => unsigned true rest
  | s => unsigned false s

/-- How many digits the integer at the start of a text has. -/
def digitsOf : List Char → Nat
  | '-' :: rest => (rest.takeWhile isDigit).length
  | s => (s.takeWhile isDigit).length

def numeral (s : List Char) : Except Stop (Json × List Char) :=
  match number s with
  | some (int n, rest) =>
    if digitLimit < digitsOf s then .error (.tooLong (digitsOf s)) else .ok (int n, rest)
  | some found => .ok found
  | none => stopAt "Expecting value" s

/-- The words that are values, longest first where one starts another. -/
def literals : List (String × Json) :=
  [("null", null), ("true", bool true), ("false", bool false), ("NaN", real .nan),
    ("Infinity", real (.infinite false)), ("-Infinity", real (.infinite true))]

def literal (s : List Char) : Option (Json × List Char) :=
  literals.findSome? fun (word, value) =>
    if word.toList.isPrefixOf s then some (value, s.drop word.length) else none

/-- Four hexadecimal digits that are not the end of the text. -/
def unit? : List Char → Option (Nat × List Char)
  | a :: b :: c :: d :: e :: rest => do
    let w ← hexValue? a
    let x ← hexValue? b
    let y ← hexValue? c
    let z ← hexValue? d
    some (((w * 16 + x) * 16 + y) * 16 + z, e :: rest)
  | _ => none

def isHigh (n : Nat) : Bool := 0xD800 ≤ n && n < 0xDC00

def isLow (n : Nat) : Bool := 0xDC00 ≤ n && n < 0xE000

/-- The letters after a backslash that stand for one character. -/
def escapes : List (Char × Char) :=
  [('\x22', '\x22'), ('\\', '\\'), ('/', '/'), ('b', '\x08'), ('f', '\x0c'), ('n', '\n'),
    ('r', '\r'), ('t', '\t')]

def unterminated {α : Type} (start : List Char) : Except Stop α :=
  .error (.malformed "Unterminated string starting at" (start.length + 1))

/-- A text after its opening quote; `start` is what followed that quote. -/
def chars (start : List Char) : Nat → List Char → List Char → Except Stop (String × List Char)
  | 0, _, _ => unterminated start
  | _, _, [] => unterminated start
  | fuel + 1, done, c :: rest =>
    if c == '\x22' then .ok (String.ofList done.reverse, rest)
    else if c.toNat < 0x20 then stopAt "Invalid control character at" (c :: rest)
    else if c != '\\' then chars start fuel (c :: done) rest
    else
      match rest with
      | [] => unterminated start
      | 'u' :: more =>
        match unit? more with
        | none => stopAt "Invalid \\uXXXX escape" rest
        | some (high, after) =>
          if isHigh high then
            match after with
            | '\\' :: 'u' :: second =>
              if second.length < 5 then chars start fuel (Char.ofNat 0xFFFD :: done) after
              else
                match unit? second with
                | none => stopAt "Invalid \\uXXXX escape" ('u' :: second)
                | some (low, last) =>
                  if isLow low then
                    let n := 0x10000 + (high - 0xD800) * 0x400 + (low - 0xDC00)
                    chars start fuel (Char.ofNat n :: done) last
                  else chars start fuel (Char.ofNat 0xFFFD :: done) after
            | _ => chars start fuel (Char.ofNat 0xFFFD :: done) after
          else if isLow high then chars start fuel (Char.ofNat 0xFFFD :: done) after
          else chars start fuel (Char.ofNat high :: done) after
      | letter :: more =>
        match escapes.lookup letter with
        | some shown => chars start fuel (shown :: done) more
        | none => stopAt "Invalid \\escape" (c :: rest)

/-- How many lists and objects a value may lie in. -/
def levelLimit : Nat := 985

/-- One level further down, where what begins there does not lie too deep. -/
def below (level : Nat) (what : String) : Except Stop Nat :=
  if level < levelLimit then .ok (level + 1) else .error (.tooDeep what)

mutual

/-- One value inside so many others. Each character takes two from the fuel at most. -/
def value (fuel level : Nat) (s : List Char) : Except Stop (Json × List Char) :=
  match fuel with
  | 0 => stopAt "Expecting value" s
  | fuel + 1 =>
    match s with
    | '\x22' :: rest => do
      let (shown, rest) ← chars rest fuel [] rest
      .ok (str shown, rest)
    | '[' :: rest => do
      let level ← below level "array"
      match skip rest with
      | ']' :: after => .ok (arr [], after)
      | inside =>
        let (items, after) ← items fuel level inside
        .ok (arr items, after)
    | '{' :: rest => do
      let level ← below level "object"
      match skip rest with
      | '}' :: after => .ok (obj [], after)
      | inside =>
        let (entries, after) ← entries fuel level [] inside
        .ok (obj entries, after)
    | _ =>
      match literal s with
      | some found => .ok found
      | none => numeral s

def items (fuel level : Nat) (s : List Char) : Except Stop (List Json × List Char) :=
  match fuel with
  | 0 => stopAt "Expecting value" s
  | fuel + 1 => do
    let (first, rest) ← value fuel level s
    match skip rest with
    | ']' :: after => .ok ([first], after)
    | ',' :: after => do
      let (more, after) ← items fuel level (skip after)
      .ok (first :: more, after)
    | rest => stopAt "Expecting ',' delimiter" rest

/-- The entries up to the closing brace, onto those read before. -/
def entries (fuel level : Nat) (done : List (String × Json)) (s : List Char) :
    Except Stop (List (String × Json) × List Char) :=
  match fuel with
  | 0 => stopAt "Expecting value" s
  | fuel + 1 =>
    match s with
    | '\x22' :: rest => do
      let (name, rest) ← chars rest fuel [] rest
      match skip rest with
      | ':' :: rest => do
        let (first, rest) ← value fuel level (skip rest)
        let done := Table.insert name first done
        match skip rest with
        | '}' :: after => .ok (done, after)
        | ',' :: after => entries fuel level done (skip after)
        | rest => stopAt "Expecting ',' delimiter" rest
      | rest => stopAt "Expecting ':' delimiter" rest
    | _ => stopAt "Expecting property name enclosed in double quotes" s

end

def document (s : List Char) : Except Stop Json :=
  match s with
  | '\uFEFF' :: _ => stopAt "Unexpected UTF-8 BOM (decode using utf-8-sig)" s
  | _ => do
    let (found, rest) ← value (2 * s.length + 2) 0 (skip s)
    if (skip rest).isEmpty then .ok found else stopAt "Extra data" (skip rest)

/-- The line, the column and the offset of the place where so many characters are left. -/
def placeIn (s : List Char) (left : Nat) : String :=
  let before := s.take (s.length - left)
  let line := before.count '\n' + 1
  let column := (before.reverse.takeWhile (· != '\n')).length + 1
  let offset := before.length
  s!"line {line} column {column} (char {offset})"

end Reader

/-- Why a text is not read: it is not well formed, or goes beyond a limit. -/
inductive Problem where
  | malformed (message : String)
  | beyond (fault : Fault)
  deriving DecidableEq, Repr

/-- The problem of a text whose reading ended early. -/
def problemOf (s : String) : Reader.Stop → Problem
  | .malformed reason left => .malformed (reason ++ ": " ++ Reader.placeIn s.toList left)
  | .tooLong digits => .beyond (.value (Text.IntegerProblem.reason s (.tooLong digits)))
  | .tooDeep what =>
    .beyond (.endless (" while decoding a JSON " ++ what ++ " from a unicode string"))

/-- The value that a text writes, or its first problem. -/
def read (s : String) : Except Problem Json := (Reader.document s.toList).mapError (problemOf s)

end NativeBindings.Json
