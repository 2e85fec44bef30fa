import NativeBindings.Json.Basic
import NativeBindings.Text.Quoted

/-!
How a JSON value is shown in messages.
-/
namespace NativeBindings.Json

mutual

def shown : Json → String
  | null => "None"
  | bool b => if b then "True" else "False"
  | int n => toString n
  | real x => x.text
  | str s => Text.quoted s
  | arr items => "[" ++ shownItems items ++ "]"
  | obj entries => "\x7b" ++ shownEntries entries ++ "\x7d"

def shownItems : List Json → String
  | [] => ""
  | [item] => shown item
  | item :: rest => shown item ++ ", " ++ shownItems rest

def shownEntries : List (String × Json) → String
  | [] => ""
  | [(name, item)] => Text.quoted name ++ ": " ++ shown item
  | (name, item) :: rest =>
    Text.quoted name ++ ": " ++ shown item ++ ", " ++ shownEntries rest

end

/-- A text as it is, every other value as it is shown inside a list. -/
def plain : Json → String
  | str s => s
  | item => shown item

end NativeBindings.Json
