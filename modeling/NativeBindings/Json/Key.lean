import NativeBindings.Fault

/-!
Values as keys of tables. Lists and objects cannot be keys.
-/
namespace NativeBindings.Json

/-- The value, if it can be a key. -/
def asKey (value : Json) : Except Fault Json :=
  match value with
  | arr _ | obj _ => .error (.mismatch ("unhashable type: " ++ Text.quoted value.className))
  | _ => .ok value

/-- Whether a value is one of the words of a set. -/
def isAmong (words : List String) (value : Json) : Except Fault Bool := do
  match ← value.asKey with
  | str s => return words.contains s
  | _ => return false

/-- The texts of a list that takes nothing else; `position` counts its items. -/
def textsFrom (position : Nat) : List Json → Except Fault (List String)
  | [] => return []
  | str s :: rest => return s :: (← textsFrom (position + 1) rest)
  | value :: _ => .error (.mismatch
      (s!"sequence item {position}: expected str instance, " ++ value.className ++ " found"))

def texts (values : List Json) : Except Fault (List String) := textsFrom 0 values

end NativeBindings.Json
