import NativeBindings.Numeral
import NativeBindings.Resolve.Session

/-!
Enums. A constant without a value continues the count of the literal before it.
-/
namespace NativeBindings.Resolve

open Json

section
variable {σ : Type}

/-- The count after a value; none after anything but a literal. -/
def countAfter : Constant → Except Fault (Option Int)
  | .literal text => do return some ((← Numeral.read text) + 1)
  | _ => .ok none

/-- The value of a constant and the count after it. -/
def constantOf (owners : Initializer.Owners) (enum name : Label) (count : Option Int)
    (node : Json) : Except Fault (Constant × Option Int) := do
  if (← node.field "inner").holds then
    let value ← Initializer.evaluate owners enum (← node.need "inner")
    return (value, ← countAfter value)
  else
    match count with
    | some n => return (.literal (← Numeral.write n), some (n + 1))
    | none => .error (.mixedCounter enum name)

/-- The constants of an enum, onto those before. Each one belongs to the enum at once. -/
def constants (enum : Label) (count : Option Int) (done : Table Label Constant) :
    List Json → Resolving σ (Table Label Constant)
  | [] => return done
  | node :: rest => do
    if (← node.field "kind").isKind "EnumConstantDecl" then
      let name ← node.need "name"
      let (value, next) ← constantOf (← get).owners enum name count node
      let name ← name.asKey
      modify fun session => { session with owners := Table.insert name enum session.owners }
      constants enum next (Table.insert name value done) rest
    else constants enum count done rest

def enum (name : Label) (members : List Json) : Resolving σ CType := do
  let fields ← constants name (some 0) [] members
  return .enum { name, size := CType.enumSize } fields

end

end NativeBindings.Resolve
