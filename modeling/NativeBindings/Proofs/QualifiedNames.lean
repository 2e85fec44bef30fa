import NativeBindings.Proofs.SpelledTypes

/-!
Names in rows of words. A name without marks of its own is read from among tags and qualifiers before it
and qualifiers behind it, in whatever order they stand.
-/
namespace NativeBindings.Spelling

open Text

/-- A name as it stands alone: no blanks around it, no marks of a pointer or an array in it, and its first
and its last word its own. -/
structure IsBare (s : List Char) : Prop where
  tight : Tight s
  first : firstRun s ∉ keptWords
  last : (firstRun s.reverse).reverse ∉ keptWords
  starless : '*' ∉ s
  closed : '[' ∉ s

/-- A text between words. Those behind it are listed from the end. -/
def dressed (before : List (List Char)) (s : List Char) (behind : List (List Char)) : List Char :=
  before.flatMap (· ++ [' ']) ++ (s ++ behind.reverse.flatMap (' ' :: ·))

section
variable {s word : List Char} {before behind : List (List Char)}

theorem dressed_nil : dressed [] s [] = s := by simp [dressed]

theorem dressed_before : dressed (word :: before) s behind = word ++ ' ' :: dressed before s behind := by
  simp [dressed]

theorem dressed_behind : dressed before s (word :: behind) = dressed before s behind ++ ' ' :: word := by
  simp [dressed]

theorem not_mem_dressed (front : before ⊆ keptWords) (back : behind ⊆ keptWords) {c : Char}
    (mark : c ∈ marks) (own : c ∉ s) : c ∉ dressed before s behind := by
  have apart (word : List Char) (kept : word ∈ keptWords) : c ∉ word ++ [' '] :=
    (phrase_kept word kept).not_mem mark
  intro member
  rcases List.mem_append.mp member with inside | inside
  · obtain ⟨word, among, inside⟩ := List.mem_flatMap.mp inside
    exact apart word (front among) inside
  rcases List.mem_append.mp inside with inside | inside
  · exact own inside
  · obtain ⟨word, among, inside⟩ := List.mem_flatMap.mp inside
    refine apart word (back (List.mem_reverse.mp among)) ?_
    simpa [or_comm] using inside

theorem IsBare.isCore (bare : IsBare s) : IsCore s := isCore_of_runs bare.tight bare.first bare.last

theorem wraps_dressed (front : before ⊆ keptWords) (back : behind ⊆ qualifiers) :
    Wraps s (dressed before s behind) := by
  induction before with
  | nil =>
    induction behind with
    | nil =>
      rw [dressed_nil]
      exact Wraps.refl s
    | cons word behind ih =>
      rw [List.cons_subset] at back
      rw [dressed_behind]
      exact (ih back.2).behind back.1
  | cons word before ih =>
    rw [List.cons_subset] at front
    rw [dressed_before]
    exact (ih front.2).before front.1

theorem normalChars_dressed (bare : IsBare s) (front : before ⊆ keptWords) (back : behind ⊆ qualifiers) :
    normalChars (dressed before s behind) = s :=
  normalChars_wraps bare.isCore (wraps_dressed front back)

theorem constPointer?_none (star : '*' ∉ s) : constPointer? s = none := by
  rw [constPointer?]
  cases start : afterStart? "const ".toList s with
  | none => rfl
  | some body =>
    cases back : beforeEnd? " *".toList body with
    | none =>
      change (beforeEnd? _ _ >>= _) = _
      rw [back]
      rfl
    | some word =>
      rw [afterStart?_eq_some.mp start, beforeEnd?_eq_some.mp back] at star
      exact absurd (by simp) star

/-- A name is read from among its words. -/
theorem parse_dressed (bare : IsBare s) (front : before ⊆ keptWords) (back : behind ⊆ qualifiers) :
    parse (String.ofList (dressed before s behind)) = .ok (.name (String.ofList s)) := by
  have ends : behind ⊆ keptWords := List.Subset.trans back qualifiers_subset
  have star : '*' ∉ dressed before s behind := not_mem_dressed front ends (by decide) bare.starless
  have open_ : '[' ∉ dressed before s behind := not_mem_dressed front ends (by decide) bare.closed
  have text : dressed before s behind ≠ "const char *".toList := fun same => star (same ▸ by decide)
  have tight := (wraps_dressed front back).tight bare.tight
  rw [parse_single tight open_, parseSingle, if_neg text,
    constPointer?_none star, pointer?_none star, normalChars_dressed bare front back]
  rfl

end

/-- A name in words is bare. -/
theorem Name.isBare (name : Name) : IsBare name.chars where
  tight := name.chars_tight
  first := name.firstRun_chars_nil ▸ name.first.free
  last := name.lastRun_chars
  starless := name.chars_not_mem (by decide)
  closed := name.chars_not_mem (by decide)

end NativeBindings.Spelling
