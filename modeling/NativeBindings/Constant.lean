import NativeBindings.Json.Key
import NativeBindings.Json.Order

/-!
Values of enum constants, kept as the expressions that the header writes.
-/
namespace NativeBindings

/-- An expression. A reference knows the enum that owns the constant, if any does. -/
inductive Constant where
  | literal (text : String)
  | reference (name owner : Label)
  | paren (inner : Constant)
  | unary (operator : Label) (operand : Constant)
  | binary (operator : Label) (left right : Constant)
  deriving DecidableEq, Repr, Inhabited

namespace Constant

abbrev Operators := List (String × String)

/-- The operators that a generated module spells its own way. -/
def moduleOperators : Operators := [("/", "//"), ("!", "not"), ("&&", "and"), ("||", "or")]

def spell (operators : Operators) (operator : Label) : String :=
  match operator with
  | .str word => (operators.lookup word).getD word
  | other => other.plain

/-- Whether a constant belongs to another enum than the one around it. -/
def isForeign (owner enum : Label) : Bool :=
  !enum.isNull && !owner.isNull && owner != enum

/-- A constant of another enum is named with its owner. -/
def spellReference (name owner enum : Label) : String :=
  if isForeign owner enum then owner.plain ++ "." ++ name.plain else name.plain

def text (operators : Operators) (enum : Label) : Constant → String
  | literal text => text
  | reference name owner => spellReference name owner enum
  | paren inner => "(" ++ inner.text operators enum ++ ")"
  | unary operator operand =>
    "(" ++ spell operators operator ++ " " ++ operand.text operators enum ++ ")"
  | binary operator left right =>
    "((" ++ left.text operators enum ++ ") " ++ spell operators operator ++ " (" ++
      right.text operators enum ++ "))"

/-- Sees that every operator can be looked up, the outermost first. -/
def haveKeys : Constant → Except Fault Unit
  | literal _ | reference _ _ => return
  | paren inner => inner.haveKeys
  | unary operator operand => do
    let _ ← operator.asKey
    operand.haveKeys
  | binary operator left right => do
    let _ ← operator.asKey
    left.haveKeys
    right.haveKeys

/-- A value inside an enum: its text, or the bare name of a constant. -/
def render (operators : Operators) (enum : Label) (constant : Constant) : Except Fault Json := do
  constant.haveKeys
  match constant with
  | reference name owner =>
    return if isForeign owner enum then .str (spellReference name owner enum) else name
  | _ => return .str (constant.text operators enum)

/-- The kind that answers show. -/
def kind : Constant → String
  | literal _ => "int"
  | reference _ _ => "alias"
  | _ => "expr"

end Constant

end NativeBindings
