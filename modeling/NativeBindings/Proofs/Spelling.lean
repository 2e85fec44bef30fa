import NativeBindings.Proofs.NormalNames

/-!
Spellings of a tag and a word. They are read as the word. The name of a spelling is what is left of it
without tags and qualifiers; that of an array ends in a bracket.
-/
namespace NativeBindings.Spelling

open Text

theorem has_false_of_disjoint {table other : Ranges}
    (disjoint : ∀ range ∈ table, ∀ gap ∈ other, range.2 < gap.1 ∨ gap.2 < range.1) {c : Char}
    (inside : table.has c = true) : other.has c = false := by
  obtain ⟨range, member, within⟩ := List.any_eq_true.mp inside
  have bounds : range.1 ≤ c.toNat ∧ c.toNat ≤ range.2 := by simpa using within
  refine List.any_eq_false.mpr fun gap found => ?_
  have apart := disjoint range member gap found
  have outside : ¬ (gap.1 ≤ c.toNat ∧ c.toNat ≤ gap.2) := by omega
  simpa using outside

theorem isBlank_of_isWordChar {c : Char} (word : isWordChar c = true) : isBlank c = false := by
  have disjoint : ∀ range ∈ wordChars, ∀ gap ∈ blanks, range.2 < gap.1 ∨ gap.2 < range.1 := by
    decide +kernel
  exact has_false_of_disjoint disjoint word

section
variable {word : List Char}

theorem ne_of_mem_word {c other : Char} (isWord : word.all isWordChar = true)
    (no : isWordChar other = false) (member : c ∈ word) : c ≠ other := by
  rintro rfl
  rw [List.all_eq_true.mp isWord c member] at no
  cases no

theorem not_mem_word {other : Char} (isWord : word.all isWordChar = true)
    (no : isWordChar other = false) : other ∉ word :=
  fun member => ne_of_mem_word isWord no member rfl

theorem not_blank_of_mem {c : Char} (isWord : word.all isWordChar = true) (member : c ∈ word) :
    isBlank c = false :=
  isBlank_of_isWordChar (List.all_eq_true.mp isWord c member)

end

theorem pointer?_none {s : List Char} (star : '*' ∉ s) : pointer? s = none := by
  have passed : s.reverse.dropWhile (· != '*') = [] := by
    rw [List.dropWhile_eq_nil_iff]
    intro c member
    have apart : c ≠ '*' := fun same => star (same ▸ List.mem_reverse.mp member)
    simpa using apart
  have starless : beforeStar? s = none := by
    rw [beforeStar?, passed]
    split
    · rfl
    · rfl
  rw [pointer?, starless]
  rfl

theorem array?_none {before s : List Char} (open_ : '[' ∉ s) : array? before s = none := by
  induction s generalizing before with
  | nil => rfl
  | cons c rest ih =>
    have closed : dimension? (trimLeft rest) = none := by
      cases trimmed : trimLeft rest with
      | nil => rfl
      | cons first others =>
        have inside : first ∈ rest := by
          have suffix : trimLeft rest <:+ rest := List.dropWhile_suffix _
          exact suffix.subset (trimmed ▸ List.mem_cons_self)
        have apart : first ≠ '[' := fun same => open_ (same ▸ List.mem_cons_of_mem _ inside)
        unfold dimension?
        split
        next same => cases same; exact absurd rfl apart
        next => rfl
    rw [array?, closed]
    split
    · rfl
    · exact ih fun member => open_ (List.mem_cons_of_mem _ member)

/-- The tags of the records. -/
def recordTags : List (List Char) := ["struct ".toList, "union ".toList]

section
variable {tag word : List Char} (tagged : tag ∈ recordTags) (isWord : isWord word = true)

theorem eq_of_mem_recordTags (tagged : tag ∈ recordTags) :
    tag = "struct ".toList ∨ tag = "union ".toList := by
  simpa [recordTags] using tagged

include isWord

theorem all_of_isWord : word ≠ [] ∧ word.all isWordChar = true := by
  simpa [Spelling.isWord] using isWord

include tagged

theorem trim_tagged : trim (tag ++ word) = tag ++ word := by
  obtain ⟨nonempty, all⟩ := all_of_isWord isWord
  have front : trimLeft (tag ++ word) = tag ++ word := by
    rcases eq_of_mem_recordTags tagged with rfl | rfl
    · exact trimLeft_of_head (by decide)
    · exact trimLeft_of_head (by decide)
  have last := not_blank_of_mem all (List.getLast_mem nonempty)
  rw [trim, front, ← List.dropLast_concat_getLast nonempty, ← List.append_assoc]
  exact trimRight_of_last last

theorem normalChars_tagged : normalChars (tag ++ word) = word := by
  obtain ⟨nonempty, all⟩ := all_of_isWord isWord
  by_cases kept : word ∈ keptWords
  · -- A word that is itself no part of a name is left alone all the same.
    have whole : ∀ tag ∈ recordTags, ∀ word ∈ keptWords, normalChars (tag ++ word) = word := by
      decide
    exact whole tag tagged word kept
  · have isCore : IsCore word :=
      isCore_of_solid nonempty (fun c member => not_blank_of_mem all member) kept
    obtain ⟨own, among, rfl⟩ : ∃ own ∈ keptWords, tag = own ++ [' '] := by
      rcases eq_of_mem_recordTags tagged with rfl | rfl
      · exact ⟨"struct".toList, by decide, rfl⟩
      · exact ⟨"union".toList, by decide, rfl⟩
    rw [List.append_assoc]
    exact normalChars_wraps isCore ((Wraps.refl word).before among)

theorem star_not_mem : '*' ∉ tag ++ word := by
  intro member
  rcases List.mem_append.mp member with inside | inside
  · rcases eq_of_mem_recordTags tagged with rfl | rfl
    · exact absurd inside (by decide)
    · exact absurd inside (by decide)
  · exact not_mem_word (all_of_isWord isWord).2 (by decide +kernel) inside

theorem bracket_not_mem : '[' ∉ tag ++ word := by
  intro member
  rcases List.mem_append.mp member with inside | inside
  · rcases eq_of_mem_recordTags tagged with rfl | rfl
    · exact absurd inside (by decide)
    · exact absurd inside (by decide)
  · exact not_mem_word (all_of_isWord isWord).2 (by decide +kernel) inside

theorem parseSingle_tagged : parseSingle (tag ++ word) = .name (String.ofList word) := by
  have unpointed := pointer?_none (star_not_mem tagged isWord)
  have unconst : constPointer? (tag ++ word) = none := by
    rcases eq_of_mem_recordTags tagged with rfl | rfl
    · rfl
    · rfl
  have text : tag ++ word ≠ "const char *".toList := by
    rcases eq_of_mem_recordTags tagged with rfl | rfl
    · exact fun same => absurd (List.cons.inj same).1 (by decide)
    · exact fun same => absurd (List.cons.inj same).1 (by decide)
  rw [parseSingle, if_neg text, unconst, unpointed, normalChars_tagged tagged isWord]
  rfl

theorem parse_tagged : parse (String.ofList (tag ++ word)) = .ok (.name (String.ofList word)) := by
  rw [parse, String.toList_ofList, trim_tagged tagged isWord,
    array?_none (bracket_not_mem tagged isWord), parseSingle_tagged tagged isWord]

theorem normal_tagged : normal (String.ofList (tag ++ word)) = String.ofList word := by
  rw [normal, String.toList_ofList, normalChars_tagged tagged isWord]

end

theorem getLast?_of_suffix {s rest : List Char} (suffix : rest <:+ s) (nonempty : rest ≠ []) :
    rest.getLast? = s.getLast? := by
  obtain ⟨front, rfl⟩ := suffix
  exact (List.getLast?_append_of_ne_nil front nonempty).symm

/-- The blanks before a text go, and the end of it stays. -/
theorem getLast?_trimLeft {s : List Char} {c : Char} (last : s.getLast? = some c)
    (solid : isBlank c = false) : (trimLeft s).getLast? = some c := by
  rw [← last]
  refine getLast?_of_suffix (List.dropWhile_suffix _) fun empty => ?_
  have blank := List.dropWhile_eq_nil_iff.mp empty c (List.mem_of_getLast? last)
  rw [solid] at blank
  cases blank

theorem isDimensions_last {inside : Option Nat} {s : List Char} (row : isDimensions inside s = true)
    (more : inside.isSome = true ∨ s ≠ []) : s.getLast? = some ']' := by
  induction s generalizing inside with
  | nil =>
    rcases more with given | nonempty
    · cases inside with
      | none => cases given
      | some n => cases row
    · exact absurd rfl nonempty
  | cons c rest ih =>
    have further {inside : Option Nat} (row : isDimensions inside rest = true)
        (more : inside.isSome = true ∨ rest ≠ []) : (c :: rest).getLast? = some ']' := by
      have last := ih row more
      have nonempty : rest ≠ [] := by
        rintro rfl
        cases last
      rw [← last]
      exact (getLast?_of_suffix (List.suffix_cons c rest) nonempty).symm
    cases inside with
    | none =>
      rw [isDimensions, Bool.and_eq_true] at row
      exact further row.2 (.inl rfl)
    | some n =>
      rw [isDimensions] at row
      split at row
      · exact further row (.inl rfl)
      · simp only [Bool.and_eq_true, beq_iff_eq] at row
        obtain ⟨⟨rfl, -⟩, row⟩ := row
        cases rest with
        | nil => rfl
        | cons first others => exact further row (.inr (by simp))

theorem dimension?_eq {s digits after : List Char} (found : dimension? s = some (digits, after)) :
    s = '[' :: (digits ++ ']' :: after) ∧ ∀ c ∈ digits, isDecimal c = true := by
  unfold dimension? at found
  split at found
  next rest =>
    split at found
    · cases found
    next read remaining _ =>
      obtain ⟨rfl, rfl⟩ := Prod.mk.inj (Option.some.inj found)
      refine ⟨?_, fun c member => List.mem_takeWhile_imp member⟩
      rw [← remaining, List.takeWhile_append_dropWhile]
    · cases found
  · cases found

theorem dimension?_last {s digits after : List Char} (found : dimension? s = some (digits, after)) :
    ∃ front, s = front ++ ']' :: after :=
  ⟨'[' :: digits, (dimension?_eq found).1⟩

/-- The spelling of an array ends in a bracket. -/
theorem array?_last {before s : List Char} {found : List Char × List Char}
    (array : array? before s = some found) : s.getLast? = some ']' := by
  induction s generalizing before with
  | nil => cases array
  | cons c rest ih =>
    have step (last : rest.getLast? = some ']') : (c :: rest).getLast? = some ']' := by
      have nonempty : rest ≠ [] := by
        rintro rfl
        cases last
      rw [← last]
      exact (getLast?_of_suffix (List.suffix_cons c rest) nonempty).symm
    rw [array?] at array
    split at array
    · cases array
    split at array
    next digits after read =>
      split at array
      next row =>
        obtain ⟨front, cut⟩ := dimension?_last read
        refine step ?_
        have nonempty : trimLeft rest ≠ [] := by simp [cut]
        have suffix : trimLeft rest <:+ rest := List.dropWhile_suffix _
        rw [← getLast?_of_suffix suffix nonempty, cut]
        cases after with
        | nil => simp
        | cons first others =>
          have last := isDimensions_last row (.inr (by simp))
          rw [← last, List.getLast?_append_of_ne_nil _ (by simp)]
          exact (getLast?_of_suffix (List.suffix_cons _ _) (by simp)).symm
      · exact step (ih array)
    · exact step (ih array)

section
variable {name word : List Char} (last : name.getLast? = some ']')

include last

theorem dropLeading_last (blank : word.getLast? = some ' ') :
    (dropLeading name word).getLast? = some ']' := by
  obtain ⟨rest, rfl, goes⟩ | ⟨-, same⟩ := dropLeading_cases name word
  · have nonempty : rest ≠ [] := by
      rintro rfl
      rw [List.append_nil, blank] at last
      cases last
    rw [List.getLast?_append_of_ne_nil _ nonempty] at last
    rw [goes]
    exact getLast?_trimLeft last (by decide)
  · rwa [same]

theorem dropTrailing_last (nonempty : word ≠ []) (other : word.getLast? ≠ some ']') :
    dropTrailing name word = name := by
  apply dropTrailing_other
  intro suffix
  rw [getLast?_of_suffix suffix nonempty] at other
  exact other last

end

/-- The name of an array ends in a bracket. -/
theorem normal_last {text : String} {found : List Char × List Char}
    (array : array? [] (trim text.toList) = some found) : (normal text).toList.getLast? = some ']' := by
  rw [normal, String.toList_ofList]
  apply normalChars_keeps (motive := fun name => name.getLast? = some ']')
  · intro word _ name last
    exact dropLeading_last last (by simp)
  · intro word own name last
    have ends : ∀ word ∈ qualifiers, (' ' :: word).getLast? ≠ some ']' := by decide
    rw [dropTrailing_last last (by simp) (ends word own)]
    exact last
  · exact array?_last array

/-- What is not an array and not a pointer is read as its name, or is the text type. -/
theorem parse_eq {text : String} (single : array? [] (trim text.toList) = none)
    (plain : ∀ base isConst, parse text ≠ .ok (.pointer base isConst)) :
    parse text = .ok (.name (normal text)) ∨ trim text.toList = "const char *".toList := by
  rw [parse, single] at plain ⊢
  dsimp only at plain ⊢
  unfold parseSingle at plain ⊢
  split at plain
  next same => exact .inr same
  next other =>
    rw [if_neg other]
    left
    split at plain
    next word found => exact absurd rfl (plain _ _)
    next found =>
      have shape : ∀ shape, pointer? (trim text.toList) = some shape →
          ∃ base isConst, shape = .pointer base isConst := by
        intro shape pointed
        obtain ⟨body, -, pointed⟩ := Option.bind_eq_some_iff.mp pointed
        obtain ⟨base, -, pointed⟩ := Option.bind_eq_some_iff.mp pointed
        dsimp only at pointed
        split at pointed
        · exact ⟨_, _, (Option.some.inj pointed).symm⟩
        · exact ⟨_, _, (Option.some.inj pointed).symm⟩
      cases pointed : pointer? (trim text.toList) with
      | some shape_ =>
        obtain ⟨base, isConst, rfl⟩ := shape shape_ pointed
        rw [pointed] at plain
        exact absurd rfl (plain base isConst)
      | none =>
        rw [Option.getD_none, normalChars, trim_trim]
        rfl

end NativeBindings.Spelling
