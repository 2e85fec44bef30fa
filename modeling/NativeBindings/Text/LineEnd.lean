/-!
Line ends.
-/
namespace NativeBindings.Text

/-- A text with every line end as a line feed. -/
def lineFeeds : List Char → List Char
  | [] => []
  | '\r' :: '\n' :: rest => '\n' :: lineFeeds rest
  | '\r' :: rest => '\n' :: lineFeeds rest
  | c :: rest => c :: lineFeeds rest

/-- Whether a character ends a line of a text that is shown. -/
def isLineBreak (c : Char) : Bool :=
  let n := c.toNat
  0xA ≤ n && n ≤ 0xD || 0x1C ≤ n && n ≤ 0x1E || n == 0x85 || n == 0x2028 || n == 0x2029

/-- The last line of a text. A line break at the end of the text starts no line. -/
def lastLine (s : String) : String :=
  match (lineFeeds s.toList).reverse with
  | c :: rest =>
    let line := if isLineBreak c then rest else c :: rest
    String.ofList (line.takeWhile fun c => !isLineBreak c).reverse
  | [] => ""

end NativeBindings.Text
