/-!
Words at the two ends of a text and inside it.
-/
namespace NativeBindings.Text

/-- What follows a word at the start. -/
def afterStart? (word s : List Char) : Option (List Char) :=
  if word.isPrefixOf s then some (s.drop word.length) else none

/-- What precedes a word at the end. -/
def beforeEnd? (word s : List Char) : Option (List Char) :=
  if word.isSuffixOf s then some (s.take (s.length - word.length)) else none

def within (word : List Char) : List Char → Bool
  | [] => word.isEmpty
  | c :: rest => word.isPrefixOf (c :: rest) || within word rest

theorem afterStart?_eq_some {word s rest : List Char} :
    afterStart? word s = some rest ↔ s = word ++ rest := by
  unfold afterStart?
  constructor
  · intro found
    split at found
    · rename_i starts
      obtain ⟨tail, rfl⟩ := List.isPrefixOf_iff_prefix.mp starts
      simp at found
      rw [found]
    · simp at found
  · rintro rfl
    simp

theorem beforeEnd?_eq_some {word s rest : List Char} :
    beforeEnd? word s = some rest ↔ s = rest ++ word := by
  unfold beforeEnd?
  constructor
  · intro found
    split at found
    · rename_i ends
      obtain ⟨head, rfl⟩ := List.isSuffixOf_iff_suffix.mp ends
      simp at found
      rw [found]
    · simp at found
  · rintro rfl
    simp

end NativeBindings.Text
