import NativeBindings.Fault
import NativeBindings.Text.Integer

/-!
The texts of integers. Neither way goes beyond a limit of digits.
-/
namespace NativeBindings.Numeral

/-- The integer that a text writes. -/
def read (s : String) : Except Fault Int :=
  match Text.readInteger s.toList with
  | .ok n => .ok n
  | .error problem => .error (.value (problem.reason s))

/-- Whether the digits of an integer are within the limit. -/
def isWritable (n : Int) : Bool := n.natAbs < Nat.pow 10 Text.digitLimit

def write (n : Int) : Except Fault String :=
  if isWritable n then .ok (toString n)
  else .error (.value (s!"Exceeds the limit ({Text.digitLimit} digits) for integer string " ++
    "conversion; use sys.set_int_max_str_digits() to increase the limit"))

end NativeBindings.Numeral
