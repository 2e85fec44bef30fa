import NativeBindings.Fault

/-!
Values that are given with an option. Two dashes in place of a value are taken away and leave none:
the option is given then, and blank.
-/
namespace NativeBindings

inductive Operand (α : Type) where
  | value (a : α)
  | blank
  deriving DecidableEq, Repr

namespace Operand

variable {α : Type}

/-- The operand that an argument stands for, whose value `read` gives. -/
def ofArgument (read : String → α) (s : String) : Operand α :=
  if s == "--" then blank else value (read s)

def getD (other : α) : Operand α → α
  | value a => a
  | blank => other

/-- How an operand is shown in messages; a blank one is an empty list. -/
def shown (text : α → String) : Operand α → String
  | value a => text a
  | blank => "[]"

/-- The value, of which the attribute with a name is used. -/
def valueFor (name : String) : Operand α → Except Fault α
  | value a => .ok a
  | blank => .error (.noAttribute "list" name)

/-- The value where only one that names a file will do. -/
def asPath : Operand α → Except Fault α
  | value a => .ok a
  | blank => .error (.mismatch "expected str, bytes or os.PathLike object, not list")

end Operand

end NativeBindings
