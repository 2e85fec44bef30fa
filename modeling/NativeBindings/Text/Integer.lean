import NativeBindings.Text.Blank
import NativeBindings.Text.Digit
import NativeBindings.Text.Quoted

/-!
Reading integers: an optional sign and decimal digits of any script, with single low lines between
digits and blanks around the whole. The information separators are blank, but not here. A number of
more than 4300 digits is not read.
-/
namespace NativeBindings.Text

def isPadding (c : Char) : Bool := isBlank c && !(0x1C ≤ c.toNat && c.toNat ≤ 0x1F)

/-- The most digits that a number may have in a text. -/
def digitLimit : Nat := 4300

/-- Why a text is no integer. -/
inductive IntegerProblem where
  | malformed
  | tooLong (digits : Nat)
  deriving DecidableEq, Repr

/-- Whether a run of digits and low lines starts and ends with a digit, its low lines single. -/
def isDigitRun : List Char → Bool
  | [] => false
  | [c] => c != '_'
  | c :: '_' :: rest => c != '_' && isDigitRun rest
  | c :: rest => c != '_' && isDigitRun rest

/-- A number without its sign, blanks after it. -/
def readNatural (s : List Char) : Except IntegerProblem Nat :=
  let isPart := fun c => isDecimal c || c == '_'
  let run := s.takeWhile isPart
  let digits := run.filter isDecimal
  if !isDigitRun run then .error .malformed
  else if digitLimit < digits.length then .error (.tooLong digits.length)
  else if (s.dropWhile isPart).all isPadding then .ok (decimalValue digits)
  else .error .malformed

def readInteger (s : List Char) : Except IntegerProblem Int :=
  match s.dropWhile isPadding with
  | '-' :: rest => (readNatural rest).map fun n => -(n : Int)
  | '+' :: rest => (readNatural rest).map fun n => (n : Int)
  | body => (readNatural body).map fun n => (n : Int)

/-- What is said of a text that is no integer. Only the start of a long one is shown. -/
def IntegerProblem.reason (s : String) : IntegerProblem → String
  | malformed =>
    "invalid literal for int() with base 10: " ++ String.ofList ((quotedChars s.toList).take 200)
  | tooLong digits =>
    s!"Exceeds the limit ({digitLimit} digits) for integer string conversion: value has " ++
      s!"{digits} digits; use sys.set_int_max_str_digits() to increase the limit"

end NativeBindings.Text
