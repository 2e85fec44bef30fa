import NativeBindings.Text.Range

/-!
Blank characters and trimming. The blanks are those of Unicode's bidirectional classes B, S and WS
and of category Zs, which adds the four information separators to the White_Space property.
-/
namespace NativeBindings.Text

def blanks : Ranges :=
  [(0x9, 0xD), (0x1C, 0x20), (0x85, 0x85), (0xA0, 0xA0), (0x1680, 0x1680), (0x2000, 0x200A),
    (0x2028, 0x2029), (0x202F, 0x202F), (0x205F, 0x205F), (0x3000, 0x3000)]

def isBlank (c : Char) : Bool := blanks.has c

def trimLeft (s : List Char) : List Char := s.dropWhile isBlank

def trimRight (s : List Char) : List Char := (s.reverse.dropWhile isBlank).reverse

def trim (s : List Char) : List Char := trimRight (trimLeft s)

/-- Maximal runs of characters that are not blank. -/
def words (s : List Char) : List (List Char) :=
  (s.splitBy fun a b => isBlank a == isBlank b).filter fun run => run.any fun c => !isBlank c

/-- A text without its surrounding blanks. -/
def stripped (s : String) : String := String.ofList (trim s.toList)

theorem length_dropWhile_le {p : Char → Bool} (s : List Char) :
    (s.dropWhile p).length ≤ s.length := by
  induction s with
  | nil => simp
  | cons c rest ih => rw [List.dropWhile_cons]; split <;> grind

theorem length_trimLeft_le (s : List Char) : (trimLeft s).length ≤ s.length :=
  length_dropWhile_le s

theorem length_trimRight_le (s : List Char) : (trimRight s).length ≤ s.length := by
  have := length_dropWhile_le (p := isBlank) s.reverse
  simpa [trimRight] using this

theorem length_trim_le (s : List Char) : (trim s).length ≤ s.length :=
  Nat.le_trans (length_trimRight_le _) (length_trimLeft_le s)

end NativeBindings.Text
