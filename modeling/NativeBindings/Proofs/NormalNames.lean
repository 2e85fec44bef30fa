import Mathlib.Data.List.DropRight
import Mathlib.Data.List.TakeWhile
import NativeBindings.Spelling

/-!
Names among words. Tags and qualifiers before a name and qualifiers behind it go round by round, in
whatever order they stand, until a round changes nothing. A name is what is left of exactly those
texts that have it among such words, and nothing more goes from what is left.
-/
namespace NativeBindings.Spelling

open Text

/-- The words that are no part of a name. -/
def keptWords : List (List Char) :=
  ["struct".toList, "union".toList, "enum".toList, "const".toList, "volatile".toList]

/-- The words that go behind a name. -/
def qualifiers : List (List Char) := ["const".toList, "volatile".toList]

theorem qualifiers_subset : qualifiers ⊆ keptWords := by decide

theorem leading_eq : leading = keptWords.map (· ++ [' ']) := rfl

theorem trailing_eq : trailing = qualifiers.map (' ' :: ·) := rfl

theorem blank_space : isBlank ' ' = true := by decide

theorem solid_keptWords : ∀ word ∈ keptWords, ∀ c ∈ word, isBlank c = false := by
  have checked : (keptWords.all fun word => word.all fun c => !isBlank c) = true := by decide
  simpa using checked

/-! ### Blanks around a text -/

def AllBlank (s : List Char) : Prop := ∀ c ∈ s, isBlank c = true

instance (s : List Char) : Decidable (AllBlank s) :=
  decidable_of_iff (s.all isBlank = true) List.all_eq_true

/-- A text that neither starts nor ends with a blank. -/
structure Tight (s : List Char) : Prop where
  starts : ∃ c more, s = c :: more ∧ isBlank c = false
  ends : ∃ front c, s = front ++ [c] ∧ isBlank c = false

theorem trimLeft_of_head {c : Char} {rest : List Char} (solid : isBlank c = false) :
    trimLeft (c :: rest) = c :: rest := by
  rw [trimLeft, List.dropWhile_cons_of_neg (by simp [solid])]

theorem trimRight_of_last {c : Char} {front : List Char} (solid : isBlank c = false) :
    trimRight (front ++ [c]) = front ++ [c] := by
  rw [trimRight, List.reverse_append, List.reverse_singleton, List.singleton_append,
    List.dropWhile_cons_of_neg (by simp [solid]), List.reverse_cons, List.reverse_reverse]

section
variable {s one two front back left right gap : List Char}

theorem trimRight_eq (s : List Char) : trimRight s = (trimLeft s.reverse).reverse := rfl

theorem trimLeft_idem (s : List Char) : trimLeft (trimLeft s) = trimLeft s := List.dropWhile_idempotent ..

theorem trimRight_idem (s : List Char) : trimRight (trimRight s) = trimRight s := by
  rw [trimRight_eq, trimRight_eq, List.reverse_reverse, trimLeft_idem]

theorem trimLeft_end (s : List Char) : trimLeft s <:+ s := List.dropWhile_suffix _

theorem trimRight_start (s : List Char) : trimRight s <+: s := by
  have turned := List.reverse_prefix.mpr (trimLeft_end s.reverse)
  rwa [List.reverse_reverse] at turned

theorem trimLeft_start (start : front <+: trimLeft s) : trimLeft front = front := by
  cases front with
  | nil => rfl
  | cons c others =>
    have head := List.head?_dropWhile_not isBlank s
    obtain ⟨more, same⟩ := start
    rw [show s.dropWhile isBlank = c :: others ++ more from same.symm] at head
    apply trimLeft_of_head
    simpa using head

theorem trimRight_end (ending : back <:+ trimRight s) : trimRight back = back := by
  have turned := List.reverse_prefix.mpr ending
  rw [trimRight_eq, List.reverse_reverse] at turned
  rw [trimRight_eq, trimLeft_start turned, List.reverse_reverse]

theorem trim_trim (s : List Char) : trim (trim s) = trim s := by
  have front : trimLeft (trim s) = trim s := trimLeft_start (trimRight_start (trimLeft s))
  rw [trim, front, trim, trimRight_idem]

theorem trimLeft_of_trim (trimmed : trim s = s) : trimLeft s = s := by
  rw [← trimmed]
  exact trimLeft_start (trimRight_start (trimLeft s))

theorem trimRight_of_trim (trimmed : trim s = s) : trimRight s = s := by
  rw [← trimmed, trim, trimRight_idem]

theorem trimLeft_gap (blank : AllBlank gap) (s : List Char) : trimLeft (gap ++ s) = trimLeft s :=
  List.dropWhile_append_of_pos blank

theorem trimRight_gap (blank : AllBlank gap) (s : List Char) : trimRight (s ++ gap) = trimRight s := by
  rw [trimRight_eq, List.reverse_append, trimLeft_gap, ← trimRight_eq]
  simpa [AllBlank] using blank

/-- The blanks before a text, and the text without them. -/
theorem trimLeft_cut (s : List Char) : ∃ gap, AllBlank gap ∧ s = gap ++ trimLeft s :=
  ⟨s.takeWhile isBlank, fun _ member => List.mem_takeWhile_imp member,
    List.takeWhile_append_dropWhile.symm⟩

theorem trimRight_cut (s : List Char) : ∃ gap, AllBlank gap ∧ s = trimRight s ++ gap := by
  obtain ⟨gap, blank, cut⟩ := trimLeft_cut s.reverse
  refine ⟨gap.reverse, by simpa [AllBlank] using blank, ?_⟩
  rw [trimRight_eq, ← List.reverse_append, ← cut, List.reverse_reverse]

theorem trim_cut (s : List Char) :
    ∃ left right, AllBlank left ∧ AllBlank right ∧ s = left ++ (trim s ++ right) := by
  obtain ⟨left, ahead, cut⟩ := trimLeft_cut s
  obtain ⟨right, after, rest⟩ := trimRight_cut (trimLeft s)
  exact ⟨left, right, ahead, after, by rw [trim, ← rest, ← cut]⟩

theorem tight_of_solid (nonempty : s ≠ []) (solid : ∀ c ∈ s, isBlank c = false) : Tight s := by
  obtain ⟨c, more, same⟩ := List.exists_cons_of_ne_nil nonempty
  refine ⟨⟨c, more, same, solid c (same ▸ List.mem_cons_self)⟩, ?_⟩
  exact ⟨s.dropLast, s.getLast nonempty, (List.dropLast_concat_getLast nonempty).symm,
    solid _ (List.getLast_mem nonempty)⟩

theorem tight_of_kept {word : List Char} (kept : word ∈ keptWords) : Tight word := by
  have nonempty : ∀ word ∈ keptWords, word ≠ [] := by decide
  exact tight_of_solid (nonempty word kept) (solid_keptWords word kept)

theorem starts_of_trimLeft (filled : s ≠ []) (trimmed : trimLeft s = s) :
    ∃ c more, s = c :: more ∧ isBlank c = false := by
  obtain ⟨c, more, rfl⟩ := List.exists_cons_of_ne_nil filled
  have head := List.head?_dropWhile_not isBlank (c :: more)
  rw [show (c :: more).dropWhile isBlank = c :: more from trimmed] at head
  exact ⟨c, more, rfl, by simpa using head⟩

theorem tight_of_trim (filled : s ≠ []) (trimmed : trim s = s) : Tight s where
  starts := starts_of_trimLeft filled (trimLeft_of_trim trimmed)
  ends := by
    have turned : trimLeft s.reverse = s.reverse := by
      rw [← List.reverse_inj, ← trimRight_eq, List.reverse_reverse, trimRight_of_trim trimmed]
    obtain ⟨c, more, same, solid⟩ := starts_of_trimLeft (by simpa using filled) turned
    exact ⟨more.reverse, c, by simpa using congrArg List.reverse same, solid⟩

theorem Tight.trimLeft (tight : Tight s) (tail : List Char) : trimLeft (s ++ tail) = s ++ tail := by
  obtain ⟨c, more, rfl, solid⟩ := tight.starts
  exact trimLeft_of_head solid

theorem Tight.trimRight (tight : Tight s) : trimRight s = s := by
  obtain ⟨front, c, rfl, solid⟩ := tight.ends
  exact trimRight_of_last solid

theorem Tight.trimLeft_self (tight : Tight s) : Text.trimLeft s = s := by
  have front := tight.trimLeft []
  rwa [List.append_nil] at front

theorem Tight.trim (tight : Tight s) : trim s = s := by
  rw [Text.trim, tight.trimLeft_self, tight.trimRight]

theorem Tight.append (first : Tight one) (last : Tight two) (middle : List Char) :
    Tight (one ++ (middle ++ two)) := by
  obtain ⟨c, more, rfl, solid⟩ := first.starts
  obtain ⟨front, d, rfl, solid'⟩ := last.ends
  exact ⟨⟨c, more ++ (middle ++ (front ++ [d])), rfl, solid⟩,
    ⟨c :: more ++ (middle ++ front), d, by simp, solid'⟩⟩

theorem Tight.trim_around (tight : Tight s) (ahead : AllBlank left) (after : AllBlank right) :
    Text.trim (left ++ (s ++ right)) = s := by
  rw [Text.trim, trimLeft_gap ahead, tight.trimLeft, trimRight_gap after, tight.trimRight]

end

/-! ### What goes in a round -/

section
variable {name word s : List Char}

theorem dropLeading_append (word name : List Char) :
    dropLeading (word ++ name) word = trimLeft name := by
  rw [dropLeading, afterStart?_eq_some.mpr rfl]

theorem dropLeading_other (other : ¬ word <+: name) : dropLeading name word = name := by
  unfold dropLeading
  cases found : afterStart? word name with
  | none => rfl
  | some rest => exact absurd ⟨rest, (afterStart?_eq_some.mp found).symm⟩ other

theorem dropTrailing_append (name word : List Char) :
    dropTrailing (name ++ word) word = trimRight name := by
  rw [dropTrailing, beforeEnd?_eq_some.mpr rfl]

theorem dropTrailing_other (other : ¬ word <:+ name) : dropTrailing name word = name := by
  unfold dropTrailing
  cases found : beforeEnd? word name with
  | none => rfl
  | some rest => exact absurd ⟨rest, (beforeEnd?_eq_some.mp found).symm⟩ other

/-- A word at the start of a name goes with the blanks behind it; nothing else does. -/
theorem dropLeading_cases (name word : List Char) :
    (∃ rest, name = word ++ rest ∧ dropLeading name word = trimLeft rest) ∨
      ¬ word <+: name ∧ dropLeading name word = name := by
  by_cases start : word <+: name
  · obtain ⟨rest, rfl⟩ := start
    exact .inl ⟨rest, rfl, dropLeading_append word rest⟩
  · exact .inr ⟨start, dropLeading_other start⟩

theorem dropTrailing_cases (name word : List Char) :
    (∃ rest, name = rest ++ word ∧ dropTrailing name word = trimRight rest) ∨
      ¬ word <:+ name ∧ dropTrailing name word = name := by
  by_cases ending : word <:+ name
  · obtain ⟨rest, rfl⟩ := ending
    exact .inl ⟨rest, rfl, dropTrailing_append rest word⟩
  · exact .inr ⟨ending, dropTrailing_other ending⟩

theorem not_prefix_of_dropLeading (filled : word ≠ []) (same : dropLeading name word = name) :
    ¬ word <+: name := by
  rintro ⟨rest, rfl⟩
  rw [dropLeading_append] at same
  have shorter := length_trimLeft_le rest
  have longer := List.length_pos_iff.mpr filled
  rw [same, List.length_append] at shorter
  omega

theorem not_suffix_of_dropTrailing (filled : word ≠ []) (same : dropTrailing name word = name) :
    ¬ word <:+ name := by
  rintro ⟨rest, rfl⟩
  rw [dropTrailing_append] at same
  have shorter := length_trimRight_le rest
  have longer := List.length_pos_iff.mpr filled
  rw [same, List.length_append] at shorter
  omega

theorem trim_dropLeading (trimmed : trim name = name) (word : List Char) :
    trim (dropLeading name word) = dropLeading name word := by
  obtain ⟨rest, rfl, goes⟩ | ⟨-, same⟩ := dropLeading_cases name word
  · have ending : trimLeft rest <:+ trimRight (word ++ rest) := by
      rw [trimRight_of_trim trimmed]
      exact (trimLeft_end rest).trans (List.suffix_append word rest)
    rw [goes, trim, trimLeft_idem, trimRight_end ending]
  · rw [same, trimmed]

theorem trim_dropTrailing (trimmed : trim name = name) (word : List Char) :
    trim (dropTrailing name word) = dropTrailing name word := by
  obtain ⟨rest, rfl, goes⟩ | ⟨-, same⟩ := dropTrailing_cases name word
  · have start : trimRight rest <+: trimLeft (rest ++ word) := by
      rw [trimLeft_of_trim trimmed]
      exact (trimRight_start rest).trans (List.prefix_append rest word)
    rw [goes, trim, trimLeft_start start, trimRight_idem]
  · rw [same, trimmed]

theorem dropLeading_part (name word : List Char) : (dropLeading name word).Sublist name := by
  obtain ⟨rest, rfl, goes⟩ | ⟨-, same⟩ := dropLeading_cases name word
  · rw [goes]
    exact (trimLeft_end rest).sublist.trans (List.sublist_append_right word rest)
  · rw [same]

theorem dropTrailing_part (name word : List Char) : (dropTrailing name word).Sublist name := by
  obtain ⟨rest, rfl, goes⟩ | ⟨-, same⟩ := dropTrailing_cases name word
  · rw [goes]
    exact (trimRight_start rest).sublist.trans (List.sublist_append_left rest word)
  · rw [same]

theorem foldl_part {step : List Char → List Char → List Char}
    (part : ∀ name word, (step name word).Sublist name) (name : List Char) (words : List (List Char)) :
    (words.foldl step name).Sublist name := by
  induction words generalizing name with
  | nil => exact List.Sublist.refl name
  | cons word rest ih => exact (ih (step name word)).trans (part name word)

/-- Where steps only take something away, a row of them that changes nothing has no step that does. -/
theorem step_of_foldl {step : List Char → List Char → List Char}
    (part : ∀ name word, (step name word).Sublist name) {words : List (List Char)}
    (same : words.foldl step name = name) : ∀ word ∈ words, step name word = name := by
  induction words with
  | nil => nofun
  | cons word rest ih =>
    rw [List.foldl_cons] at same
    have whole : name.Sublist (step name word) := by
      have tail := foldl_part part (step name word) rest
      rwa [same] at tail
    have first : step name word = name := (part name word).antisymm whole
    rw [first] at same
    intro other member
    rcases List.mem_cons.mp member with rfl | member
    · exact first
    · exact ih same other member

theorem dropOnce_part (name : List Char) : (dropOnce name).Sublist name :=
  (foldl_part dropTrailing_part _ trailing).trans (foldl_part dropLeading_part name leading)

/-- What a round leaves as it is has no word at its ends. -/
theorem ends_of_dropOnce (same : dropOnce name = name) :
    (∀ word ∈ keptWords, ¬ word ++ [' '] <+: name) ∧ ∀ word ∈ qualifiers, ¬ ' ' :: word <:+ name := by
  have heads : leading.foldl dropLeading name = name := by
    apply (foldl_part dropLeading_part name leading).antisymm
    have rest := foldl_part dropTrailing_part (leading.foldl dropLeading name) trailing
    rwa [← dropOnce, same] at rest
  rw [dropOnce, heads] at same
  constructor
  · intro word kept
    apply not_prefix_of_dropLeading (by simp)
    exact step_of_foldl dropLeading_part heads _ (leading_eq ▸ List.mem_map_of_mem kept)
  · intro word own
    apply not_suffix_of_dropTrailing (by simp)
    exact step_of_foldl dropTrailing_part same _ (trailing_eq ▸ List.mem_map_of_mem own)

section
variable {motive : List Char → Prop}
  (front : ∀ word ∈ keptWords, ∀ name, motive name → motive (dropLeading name (word ++ [' '])))
  (back : ∀ word ∈ qualifiers, ∀ name, motive name → motive (dropTrailing name (' ' :: word)))

include front back

theorem dropOnce_keeps (own : motive name) : motive (dropOnce name) := by
  have heads : motive (leading.foldl dropLeading name) := by
    apply List.foldlRecOn leading dropLeading own
    intro left holds word member
    obtain ⟨word, kept, rfl⟩ := List.mem_map.mp (leading_eq ▸ member)
    exact front word kept left holds
  apply List.foldlRecOn trailing dropTrailing heads
  intro left holds word member
  obtain ⟨word, kept, rfl⟩ := List.mem_map.mp (trailing_eq ▸ member)
  exact back word kept left holds

theorem dropAll_keeps (own : motive name) (fuel : Nat) : motive (dropAll fuel name) := by
  induction fuel generalizing name with
  | zero => exact own
  | succ fuel ih =>
    rw [dropAll]
    split
    · exact own
    · exact ih (dropOnce_keeps front back own)

/-- What a word that goes from either end leaves true is true of what is left in the end. -/
theorem normalChars_keeps (own : motive (trim s)) : motive (normalChars s) :=
  dropAll_keeps front back own _

end

theorem trim_normalChars (s : List Char) : trim (normalChars s) = normalChars s := by
  apply normalChars_keeps (motive := fun name => trim name = name)
  · intro word _ name trimmed
    exact trim_dropLeading trimmed _
  · intro word _ name trimmed
    exact trim_dropTrailing trimmed _
  · exact trim_trim s

theorem normalChars_part (s : List Char) : (normalChars s).Sublist s := by
  apply normalChars_keeps (motive := fun name => name.Sublist s)
  · intro word _ name part
    exact (dropLeading_part name _).trans part
  · intro word _ name part
    exact (dropTrailing_part name _).trans part
  · exact (trimRight_start _).sublist.trans (trimLeft_end s).sublist

theorem dropAll_of_dropOnce (same : dropOnce name = name) (fuel : Nat) : dropAll fuel name = name := by
  cases fuel with
  | zero => rfl
  | succ fuel => rw [dropAll, if_pos same]

/-- The rounds go on until one changes nothing. -/
theorem dropOnce_dropAll {fuel : Nat} (enough : name.length ≤ fuel) :
    dropOnce (dropAll fuel name) = dropAll fuel name := by
  induction fuel generalizing name with
  | zero =>
    obtain rfl := List.eq_nil_of_length_eq_zero (Nat.le_zero.mp enough)
    rfl
  | succ fuel ih =>
    rw [dropAll]
    split
    next same => exact same
    next changed =>
      have part := dropOnce_part name
      have shorter : (dropOnce name).length < name.length :=
        Nat.lt_of_le_of_ne part.length_le fun same => changed (part.eq_of_length same)
      apply ih
      omega

theorem dropOnce_normalChars (s : List Char) : dropOnce (normalChars s) = normalChars s :=
  dropOnce_dropAll (Nat.le_refl _)

/-- Nothing goes from what is left. -/
theorem normalChars_idem (s : List Char) : normalChars (normalChars s) = normalChars s := by
  conv_lhs => rw [normalChars, trim_normalChars]
  exact dropAll_of_dropOnce (dropOnce_normalChars s) _

end

/-! ### Words around a name -/

/-- Words before a name, each with a space and blanks behind it. -/
inductive Before : List Char → Prop
  | nil : Before []
  | cons {word gap rest : List Char} (kept : word ∈ keptWords) (blank : AllBlank gap) (more : Before rest) :
      Before (word ++ ' ' :: (gap ++ rest))

/-- Qualifiers behind a name, each with blanks and a space before it. -/
inductive Behind : List Char → Prop
  | nil : Behind []
  | snoc {rest gap word : List Char} (more : Behind rest) (blank : AllBlank gap) (own : word ∈ qualifiers) :
      Behind (rest ++ (gap ++ ' ' :: word))

/-- A text that has another one among words. -/
inductive Wraps (core : List Char) : List Char → Prop
  | of {front back : List Char} (before : Before front) (behind : Behind back) :
      Wraps core (front ++ (core ++ back))

/-- A text that nothing goes from, whatever words stand around it: no blanks at its ends, no word and
space at its start, no space and qualifier at its end, and not a word itself. -/
structure IsCore (core : List Char) : Prop where
  filled : core ≠ []
  trimmed : trim core = core
  starts : ∀ word ∈ keptWords, ¬ word ++ [' '] <+: core
  ends : ∀ word ∈ qualifiers, ¬ ' ' :: word <:+ core
  free : core ∉ keptWords

section
variable {core inner s word front back one two body tail : List Char}

theorem Before.append (first : Before one) (second : Before two) : Before (one ++ two) := by
  induction first with
  | nil => exact second
  | @cons word gap rest kept blank more ih =>
    have whole := Before.cons kept blank ih
    simpa using whole

theorem Behind.append (first : Behind one) (second : Behind two) : Behind (one ++ two) := by
  induction second with
  | nil => simpa using first
  | @snoc rest gap word more blank own ih =>
    have whole := Behind.snoc ih blank own
    simpa using whole

theorem Wraps.refl (core : List Char) : Wraps core core := by
  have alone : Wraps core ([] ++ (core ++ [])) := .of .nil .nil
  simpa using alone

theorem Wraps.trans (outer : Wraps inner s) (own : Wraps core inner) : Wraps core s := by
  obtain ⟨before, behind⟩ := outer
  obtain ⟨ahead, after⟩ := own
  have whole : Wraps core _ := .of (before.append ahead) (after.append behind)
  simpa using whole

theorem wraps_before {gap : List Char} (kept : word ∈ keptWords) (blank : AllBlank gap) :
    Wraps core (word ++ ' ' :: (gap ++ core)) := by
  have one : Wraps core _ := .of (.cons kept blank .nil) .nil
  simpa using one

theorem wraps_behind {gap : List Char} (blank : AllBlank gap) (own : word ∈ qualifiers) :
    Wraps core (core ++ (gap ++ ' ' :: word)) := by
  have one : Wraps core _ := .of .nil (.snoc .nil blank own)
  simpa using one

theorem Wraps.before (wraps : Wraps core s) (kept : word ∈ keptWords) : Wraps core (word ++ ' ' :: s) := by
  have outer : Wraps s (word ++ ' ' :: ([] ++ s)) := wraps_before kept nofun
  exact outer.trans wraps

theorem Wraps.behind (wraps : Wraps core s) (own : word ∈ qualifiers) : Wraps core (s ++ ' ' :: word) := by
  have outer : Wraps s (s ++ ([] ++ ' ' :: word)) := wraps_behind nofun own
  exact outer.trans wraps

/-! ### What goes are words around what is left -/

theorem wraps_dropLeading (kept : word ∈ keptWords) (s : List Char) :
    Wraps (dropLeading s (word ++ [' '])) s := by
  obtain ⟨rest, rfl, goes⟩ | ⟨-, same⟩ := dropLeading_cases s (word ++ [' '])
  · obtain ⟨gap, blank, cut⟩ := trimLeft_cut rest
    have one : Wraps (trimLeft rest) _ := wraps_before kept blank
    rw [← cut] at one
    rw [goes]
    simpa using one
  · rw [same]
    exact Wraps.refl s

theorem wraps_dropTrailing (own : word ∈ qualifiers) (s : List Char) :
    Wraps (dropTrailing s (' ' :: word)) s := by
  obtain ⟨rest, rfl, goes⟩ | ⟨-, same⟩ := dropTrailing_cases s (' ' :: word)
  · obtain ⟨gap, blank, cut⟩ := trimRight_cut rest
    have one : Wraps (trimRight rest) _ := wraps_behind blank own
    rw [← List.append_assoc, ← cut] at one
    rwa [goes]
  · rw [same]
    exact Wraps.refl s

/-- What is left of a text stands in it among words. -/
theorem wraps_normalChars (s : List Char) : Wraps (normalChars s) (trim s) := by
  apply normalChars_keeps (motive := fun name => Wraps name (trim s))
  · intro word kept name wraps
    exact wraps.trans (wraps_dropLeading kept name)
  · intro word own name wraps
    exact wraps.trans (wraps_dropTrailing own name)
  · exact Wraps.refl (trim s)

/-! ### A core is left -/

/-- A word and a space that do not start a text do not start it with a blank behind it either, unless the
text is that word. -/
theorem not_prefix_append (solid : ∀ c ∈ word, isBlank c = false) (starts : ¬ word ++ [' '] <+: core)
    (other : core ≠ word) (stops : ∀ c ∈ tail.head?, isBlank c = true) :
    ¬ word ++ [' '] <+: core ++ tail := by
  intro start
  rcases List.prefix_or_prefix_of_prefix start (List.prefix_append core tail) with inside | outside
  · exact starts inside
  rcases List.prefix_concat_iff.mp outside with same | ⟨more, rfl⟩
  · exact starts (same ▸ List.prefix_refl _)
  -- The word goes on behind the text, where a blank stands.
  cases more with
  | nil => simp at other
  | cons c more =>
    rw [List.append_assoc, List.prefix_append_right_inj] at start
    obtain ⟨rest, rfl⟩ := start
    have blank := stops c (by simp)
    rw [solid c (by simp)] at blank
    cases blank

theorem not_suffix_append (solid : ∀ c ∈ word, isBlank c = false) (ends : ¬ ' ' :: word <:+ core)
    (other : core ≠ word) (stops : ∀ c ∈ front.getLast?, isBlank c = true) :
    ¬ ' ' :: word <:+ front ++ core := by
  rw [← List.reverse_prefix, List.reverse_append, List.reverse_cons]
  apply not_prefix_append
  · simpa using solid
  · rwa [← List.reverse_cons, List.reverse_prefix]
  · simpa using other
  · simpa using stops

theorem Before.last_blank (before : Before front) : ∀ c ∈ front.getLast?, isBlank c = true := by
  induction before with
  | nil => simp
  | @cons word gap rest kept blank more ih =>
    intro c last
    rw [List.append_cons, List.getLast?_append, List.getLast?_append, List.getLast?_append,
      List.getLast?_singleton, Option.some_or, Option.or_assoc, Option.mem_def, Option.or_eq_some_iff,
      Option.or_eq_some_iff] at last
    rcases last with last | ⟨-, last | ⟨-, last⟩⟩
    · exact ih c last
    · exact blank c (List.mem_of_getLast? last)
    · obtain rfl := Option.some.inj last
      exact blank_space

theorem Behind.head_blank (behind : Behind back) : ∀ c ∈ back.head?, isBlank c = true := by
  induction behind with
  | nil => simp
  | @snoc rest gap word more blank own ih =>
    intro c first
    rw [List.head?_append, List.head?_append, Option.mem_def, Option.or_eq_some_iff,
      Option.or_eq_some_iff] at first
    rcases first with first | ⟨-, first | ⟨-, first⟩⟩
    · exact ih c first
    · exact blank c (List.mem_of_mem_head? first)
    · obtain rfl := Option.some.inj first
      exact blank_space

theorem space_not_mem (solid : ∀ c ∈ s, isBlank c = false) : ' ' ∉ s := by
  intro member
  have space := solid ' ' member
  rw [blank_space] at space
  cases space

theorem not_prefix_other {first : List Char} (kept : word ∈ keptWords) (own : first ∈ keptWords)
    (other : first ≠ word) (rest : List Char) : ¬ word ++ [' '] <+: first ++ ' ' :: rest := by
  apply not_prefix_append (solid_keptWords word kept) _ other
  · simp [blank_space]
  · intro start
    exact space_not_mem (solid_keptWords first own) (start.subset (by simp))

theorem not_suffix_other {last : List Char} (kept : word ∈ keptWords) (own : last ∈ keptWords)
    (other : last ≠ word) (rest : List Char) : ¬ ' ' :: word <:+ rest ++ ' ' :: last := by
  rw [List.append_cons]
  apply not_suffix_append (solid_keptWords word kept) _ other
  · simp [blank_space]
  · intro ending
    exact space_not_mem (solid_keptWords last own) (ending.subset (by simp))

theorem isCore_of_solid (filled : core ≠ []) (solid : ∀ c ∈ core, isBlank c = false)
    (free : core ∉ keptWords) : IsCore core where
  filled := filled
  trimmed := (tight_of_solid filled solid).trim
  starts _ _ start := space_not_mem solid (start.subset (by simp))
  ends _ _ ending := space_not_mem solid (ending.subset (by simp))
  free := free

theorem Before.tight (before : Before front) (tight : Tight body) : Tight (front ++ body) := by
  induction before with
  | nil => exact tight
  | @cons word gap rest kept blank more ih =>
    have whole := (tight_of_kept kept).append ih (' ' :: gap)
    simpa using whole

theorem Behind.tight (behind : Behind back) (tight : Tight body) : Tight (body ++ back) := by
  induction behind with
  | nil => simpa using tight
  | @snoc rest gap word more blank own ih =>
    have whole := ih.append (tight_of_kept (qualifiers_subset own)) (gap ++ [' '])
    simpa using whole

theorem Wraps.tight (wraps : Wraps core s) (tight : Tight core) : Tight s := by
  obtain ⟨before, behind⟩ := wraps
  exact before.tight (behind.tight tight)

section
variable (isCore : IsCore core)
include isCore

theorem IsCore.tight : Tight core := tight_of_trim isCore.filled isCore.trimmed

theorem IsCore.ne_of_kept (kept : word ∈ keptWords) : core ≠ word :=
  fun same => isCore.free (same ▸ kept)

theorem Wraps.dropLeading (wraps : Wraps core s) (kept : word ∈ keptWords) :
    Wraps core (dropLeading s (word ++ [' '])) := by
  obtain @⟨front, back, before, behind⟩ := wraps
  cases before with
  | nil =>
    rw [dropLeading_other]
    · exact .of .nil behind
    · apply not_prefix_append (solid_keptWords word kept) (isCore.starts word kept) (isCore.ne_of_kept kept)
      exact behind.head_blank
  | @cons first gap rest own blank more =>
    by_cases same : first = word
    · subst same
      have cut : first ++ ' ' :: (gap ++ rest) ++ (core ++ back) =
          (first ++ [' ']) ++ (gap ++ (rest ++ (core ++ back))) := by simp
      have tight : Tight (rest ++ (core ++ back)) := more.tight (behind.tight isCore.tight)
      rw [cut, dropLeading_append, trimLeft_gap blank, tight.trimLeft_self]
      exact .of more behind
    · rw [dropLeading_other]
      · exact .of (.cons own blank more) behind
      · rw [List.append_assoc]
        exact not_prefix_other kept own same _

theorem Wraps.dropTrailing (wraps : Wraps core s) (own : word ∈ qualifiers) :
    Wraps core (dropTrailing s (' ' :: word)) := by
  obtain @⟨front, back, before, behind⟩ := wraps
  have kept := qualifiers_subset own
  cases behind with
  | nil =>
    rw [dropTrailing_other]
    · exact .of before .nil
    · rw [List.append_nil]
      apply not_suffix_append (solid_keptWords word kept) (isCore.ends word own) (isCore.ne_of_kept kept)
      exact before.last_blank
  | @snoc rest gap last more blank own' =>
    by_cases same : last = word
    · subst same
      have cut : front ++ (core ++ (rest ++ (gap ++ ' ' :: last))) =
          (front ++ (core ++ rest) ++ gap) ++ ' ' :: last := by simp
      have tight : Tight (front ++ (core ++ rest)) := before.tight (more.tight isCore.tight)
      rw [cut, dropTrailing_append, trimRight_gap blank, tight.trimRight]
      exact .of before more
    · have cut : front ++ (core ++ (rest ++ (gap ++ ' ' :: last))) =
          (front ++ (core ++ (rest ++ gap))) ++ ' ' :: last := by simp
      rw [dropTrailing_other]
      · exact .of before (.snoc more blank own')
      · rw [cut]
        exact not_suffix_other kept (qualifiers_subset own') same _

/-- A core is left of every text that has it among words. -/
theorem normalChars_wraps (wraps : Wraps core s) : normalChars s = core := by
  have left : Wraps core (normalChars s) := by
    apply normalChars_keeps (motive := Wraps core)
    · intro word kept name wraps
      exact wraps.dropLeading isCore kept
    · intro word own name wraps
      exact wraps.dropTrailing isCore own
    · rwa [(wraps.tight isCore.tight).trim]
  obtain ⟨starts, ends⟩ := ends_of_dropOnce (dropOnce_normalChars s)
  generalize normalChars s = own at left starts ends
  obtain @⟨front, back, before, behind⟩ := left
  cases before with
  | @cons word gap rest kept blank more =>
    exact absurd ⟨gap ++ (rest ++ (core ++ back)), by simp⟩ (starts word kept)
  | nil =>
    cases behind with
    | @snoc rest gap word more blank kept =>
      exact absurd ⟨core ++ (rest ++ gap), by simp⟩ (ends word kept)
    | nil => simp

end

/-- What is left of a text is nothing, a word alone or a core. -/
theorem isCore_normalChars (filled : normalChars s ≠ []) (free : normalChars s ∉ keptWords) :
    IsCore (normalChars s) := by
  obtain ⟨starts, ends⟩ := ends_of_dropOnce (dropOnce_normalChars s)
  exact ⟨filled, trim_normalChars s, starts, ends, free⟩

/-- A text that has another one among words, with blanks around them. -/
inductive Spells (core : List Char) : List Char → Prop
  | of {left inner right : List Char} (ahead : AllBlank left) (wraps : Wraps core inner)
      (after : AllBlank right) : Spells core (left ++ (inner ++ right))

theorem spells_normalChars (s : List Char) : Spells (normalChars s) s := by
  obtain ⟨left, right, ahead, after, cut⟩ := trim_cut s
  have whole := Spells.of ahead (wraps_normalChars s) after
  rwa [← cut] at whole

theorem normalChars_spells (isCore : IsCore core) (spells : Spells core s) : normalChars s = core := by
  obtain ⟨ahead, wraps, after⟩ := spells
  have tight := wraps.tight isCore.tight
  rw [normalChars, tight.trim_around ahead after, ← normalChars_wraps isCore wraps, normalChars, tight.trim]

-- A word that stands alone is no core: before a qualifier it goes itself.
example : normalChars "struct const".toList = "const".toList := by decide

/-- A name is what is left of those texts that have it among words, and of no others; nothing goes from
what is left. -/
theorem normal_unwraps :
    (∀ core s : String, IsCore core.toList → (normal s = core ↔ Spells core.toList s.toList)) ∧
      ∀ s, normal (normal s) = normal s := by
  constructor
  · intro core s isCore
    constructor
    · rintro rfl
      rw [normal, String.toList_ofList]
      exact spells_normalChars s.toList
    · intro spells
      rw [normal, normalChars_spells isCore spells, String.ofList_toList]
  · intro s
    rw [normal, normal, String.toList_ofList, normalChars_idem]

theorem normal_unwraps_unsigned :
    IsCore "unsigned int".toList ∧
      Spells "unsigned int".toList "\n const \tvolatile struct unsigned int\t const volatile ".toList ∧
      normal "\n const \tvolatile struct unsigned int\t const volatile " = "unsigned int" := by
  have isCore : IsCore "unsigned int".toList :=
    ⟨by decide, by decide, by decide, by decide, by decide⟩
  have before : Before ("const".toList ++ ' ' :: (['\t'] ++
      ("volatile".toList ++ ' ' :: ([] ++ ("struct".toList ++ ' ' :: ([] ++ [])))))) :=
    .cons (by decide) (by decide)
      (.cons (by decide) (by decide) (.cons (by decide) (by decide) .nil))
  have behind : Behind ([] ++ (['\t'] ++ ' ' :: "const".toList) ++ ([] ++ ' ' :: "volatile".toList)) :=
    .snoc (.snoc .nil (by decide) (by decide)) (by decide) (by decide)
  have ahead : AllBlank ['\n', ' '] := by decide
  have after : AllBlank [' '] := by decide
  have spells : Spells "unsigned int".toList
      "\n const \tvolatile struct unsigned int\t const volatile ".toList :=
    .of ahead (.of before behind) after
  exact ⟨isCore, spells, (normal_unwraps.1 _ _ isCore).mpr spells⟩

end

end NativeBindings.Spelling
