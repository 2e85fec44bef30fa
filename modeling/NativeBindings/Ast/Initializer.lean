import NativeBindings.Ast.Node
import NativeBindings.Constant

/-!
Initializers of enum constants. Casts and constant wrappers are looked through, everything else
keeps its form.
-/
namespace NativeBindings.Initializer

open Json

/-- Which enum declares each constant seen so far. -/
abbrev Owners := Table Label Label

/-- Nodes that stand for their first child. -/
def wrappers : List String := ["ConstantExpr", "ImplicitCastExpr"]

/-- The expression of a node; a list stands for its first item. `enum` owns what `owners` does not
know. The depth of the node is fuel enough. -/
def evaluateWith (owners : Owners) (enum : Label) : Nat → Json → Except Fault Constant
  | 0, _ => .error (.enumExpression "initializer too deep")
  | _ + 1, arr [] => .error (.enumExpression "empty enum initializer")
  | fuel + 1, arr (first :: _) => evaluateWith owners enum fuel first
  | fuel + 1, node => do
    let kind ← node.field "kind"
    if ← kind.isAmong wrappers then
      evaluateWith owners enum fuel ((← node.field "inner").orElse (arr []))
    else if kind.isKind "IntegerLiteral" then
      return .literal (← node.need "value").plain
    else if kind.isKind "ParenExpr" then
      return .paren (← evaluateWith owners enum fuel (← node.need "inner"))
    else if kind.isKind "UnaryOperator" then
      let operator ← node.need "opcode"
      return .unary operator (← evaluateWith owners enum fuel (← node.need "inner"))
    else if kind.isKind "BinaryOperator" then
      let inner ← node.need "inner"
      let operator ← node.need "opcode"
      let left ← evaluateWith owners enum fuel (← inner.item 0)
      let right ← evaluateWith owners enum fuel (← inner.item 1)
      return .binary operator left right
    else if kind.isKind "DeclRefExpr" then
      let name ← (← (← node.need "referencedDecl").need "name").asKey
      return .reference name ((Table.find? name owners).getD enum)
    else
      .error (.enumExpression
        ("unknown enum value expression " ++ kind.shown ++ ": " ++ node.shown))

def evaluate (owners : Owners) (enum : Label) (node : Json) : Except Fault Constant :=
  evaluateWith owners enum (node.depth + 1) node

end NativeBindings.Initializer
