import NativeBindings.Debug.Tree
import NativeBindings.Json.Writer
import NativeBindings.World

/-!
What a run meets outside itself, written down in JSON: how its commands end, in order, and the debug
information of what it compiles.
-/
namespace NativeBindings.Script

open Json

def numberOf : Option Json → Int
  | some (int n) => n
  | _ => 1

def textOf : Option Json → String
  | none | some null => ""
  | some value => value.plain

def flagOf (other : Bool) : Option Json → Bool
  | some (.bool b) => b
  | _ => other

/-- How a command ends. A text is what it prints; `ast` stands for the dump of a syntax tree. -/
def reply : Json → Reply
  | str s => .output s
  | item =>
    match item.get? "ast", item.get? "exit" with
    | some nodes, _ => .output (compact (obj [("inner", nodes)]))
    | none, some code => .failure (numberOf (some code)) (textOf (item.get? "stderr"))
    | none, none =>
      if flagOf false (item.get? "timeout") then .timeout
      else if flagOf false (item.get? "missing") then .missing
      else .output (textOf (item.get? "stdout"))

def replies (script : Json) : List Reply := (Debug.Tree.listOf (script.get? "responses")).map reply

/-- The debug information; `none` if objects carry none. -/
def debug (script : Json) : Option Debug.Info :=
  if flagOf true (script.get? "has_dwarf") then
    some (Debug.Tree.read (Debug.Tree.listOf (script.get? "cus")))
  else none

end NativeBindings.Script
