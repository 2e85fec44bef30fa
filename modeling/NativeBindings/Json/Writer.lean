import NativeBindings.Json.Basic
import NativeBindings.Numeral
import NativeBindings.Text.Hex

/-!
Writing JSON: on one line, or with two blanks of indentation a level, everything outside ASCII
escaped and the names of every object in order.
-/
namespace NativeBindings.Json

open Text

/-- A UTF-16 code unit as an escape. -/
def unitEscape (n : Nat) : List Char := '\\' :: 'u' :: hex 4 n

def escapedChar (c : Char) : List Char :=
  if c == '\x22' then ['\\', '\x22']
  else if c == '\\' then ['\\', '\\']
  else if c == '\n' then ['\\', 'n']
  else if c == '\r' then ['\\', 'r']
  else if c == '\t' then ['\\', 't']
  else if c == '\x0c' then ['\\', 'f']
  else if c == '\x08' then ['\\', 'b']
  else if 0x20 ≤ c.toNat && c.toNat < 0x7F then [c]
  else if c.toNat < 0x10000 then unitEscape c.toNat
  else
    let n := c.toNat - 0x10000
    unitEscape (0xD800 + n / 0x400) ++ unitEscape (0xDC00 + n % 0x400)

def escaped (s : String) : String :=
  "\"" ++ String.ofList (s.toList.flatMap escapedChar) ++ "\""

def realText : Binary64 → String
  | .nan => "NaN"
  | .infinite negative => if negative then "-Infinity" else "Infinity"
  | x => x.text

mutual

def compact : Json → String
  | null => "null"
  | bool b => if b then "true" else "false"
  | int n => toString n
  | real x => realText x
  | str s => escaped s
  | arr items => "[" ++ compactItems items ++ "]"
  | obj entries => "\x7b" ++ compactEntries entries ++ "\x7d"

def compactItems : List Json → String
  | [] => ""
  | [item] => compact item
  | item :: rest => compact item ++ ", " ++ compactItems rest

def compactEntries : List (String × Json) → String
  | [] => ""
  | [(name, item)] => escaped name ++ ": " ++ compact item
  | (name, item) :: rest => escaped name ++ ": " ++ compact item ++ ", " ++ compactEntries rest

end

def inOrder {α : Type} (entries : List (String × α)) : List (String × α) :=
  entries.mergeSort fun a b => a.1 ≤ b.1

/-- The start of a line at a level of indentation. -/
def newLine (level : Nat) : String := "\n" ++ String.ofList (List.replicate (2 * level) ' ')

mutual

/-- The parts of the text over several lines, inside so many brackets, in the order in which they are
written. A start goes with the first part. An integer beyond the limit of digits has no text. -/
def parts (level : Nat) (start : String) : Json → List (Except Fault String)
  | int n => [(Numeral.write n).map (start ++ ·)]
  | arr items =>
    if items.isEmpty then [.ok (start ++ "[]")]
    else
      .ok start :: partsOfItems (level + 1) ("[" ++ newLine (level + 1)) items ++
        [.ok (newLine level ++ "]")]
  | obj entries =>
    if entries.isEmpty then [.ok (start ++ "\x7b\x7d")]
    else
      let lines := (inOrder (partsOfEntries (level + 1) entries)).map (·.2)
      .ok (start ++ "\x7b" ++ newLine (level + 1)) ::
        [.ok ("," ++ newLine (level + 1))].intercalate lines ++ [.ok (newLine level ++ "\x7d")]
  | value => [.ok (start ++ compact value)]

def partsOfItems (level : Nat) (start : String) : List Json → List (Except Fault String)
  | [] => []
  | item :: rest => parts level start item ++ partsOfItems level ("," ++ newLine level) rest

def partsOfEntries (level : Nat) :
    List (String × Json) → List (String × List (Except Fault String))
  | [] => []
  | (name, item) :: rest =>
    (name, .ok (escaped name ++ ": ") :: parts level "" item) :: partsOfEntries level rest

end

/-- What is written of parts up to the first that has no text, and how the writing ends. -/
def written : List (Except Fault String) → String × Except Fault Unit
  | [] => ("", .ok ())
  | .ok s :: rest => (s ++ (written rest).1, (written rest).2)
  | .error fault :: _ => ("", .error fault)

end NativeBindings.Json
