import NativeBindings.Text.Digit
import NativeBindings.Text.WordChar

/-!
Durations in texts: digits, a point, digits and the letter s at the end of a word.
-/
namespace NativeBindings.Text

/-- What comes after a duration at the start of a text. -/
def afterDuration? (s : List Char) : Option (List Char) :=
  match s.takeWhile isDecimal, s.dropWhile isDecimal with
  | _ :: _, '.' :: rest =>
    match rest.takeWhile isDecimal, rest.dropWhile isDecimal with
    | _ :: _, 's' :: after => if after.head?.any isWordChar then none else some after
    | _, _ => none
  | _, _ => none

/-- A text with a mark in the place of each duration, with fuel for its characters. Where a run of
digits starts no duration, none of its ends does. -/
def untimedWith (mark : List Char) : Nat → List Char → List Char
  | 0, s => s
  | _, [] => []
  | fuel + 1, c :: rest =>
    if !isDecimal c then c :: untimedWith mark fuel rest
    else
      match afterDuration? (c :: rest) with
      | some after => mark ++ untimedWith mark fuel after
      | none =>
        c :: rest.takeWhile isDecimal ++ untimedWith mark fuel (rest.dropWhile isDecimal)

def untimed (mark s : String) : String :=
  String.ofList (untimedWith mark.toList s.length s.toList)

end NativeBindings.Text
