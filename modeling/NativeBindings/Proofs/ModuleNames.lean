import Mathlib.Data.List.Destutter
import Mathlib.Data.List.DropRight
import NativeBindings.ModuleName

/-!
What a low line makes of a text. A name has a stem, which has no low line at its ends and no two in a row;
the module is called by its stem, with a low line before it where the stem cannot be a name itself. The stem
of such a name is the same again.
-/
namespace NativeBindings.ModuleName

open Text

/-- Two characters of which at most one is a low line. -/
def Apart (a b : Char) : Prop := ¬ (a = '_' ∧ b = '_')

instance : DecidableRel Apart := fun a b => inferInstanceAs (Decidable (¬ (a = '_' ∧ b = '_')))

/-- A name to import a module by: letters, digits and low lines of ASCII, no two low lines in a row, no
digit at the start, and no word that is taken. -/
structure Importable (name : String) : Prop where
  filled : name ≠ ""
  plain : ∀ c ∈ name.toList, c.isAlphanum = true ∨ c = '_'
  apart : name.toList.IsChain Apart
  starts : ∀ c ∈ name.toList.head?, c.isDigit = false
  free : name ∉ keywords

theorem isPlain_iff (c : Char) : isPlain c = true ↔ c.isAlphanum = true ∨ c = '_' := by
  have ranges : c.isAlphanum =
      (decide ('A' ≤ c ∧ c ≤ 'Z') || 'a' ≤ c && c ≤ 'z' || '0' ≤ c && c ≤ '9') := rfl
  simp only [isPlain, ranges, Bool.or_eq_true, Bool.and_eq_true, decide_eq_true_eq, beq_iff_eq]
  tauto

/-! ### Runs of low lines -/

theorem apart_of_ne {a : Char} (plain : a ≠ '_') (b : Char) : Apart a b := fun both => plain both.1

/-- After a character that is no low line nothing is left out. -/
theorem destutter_plain {c : Char} (plain : c ≠ '_') (s : List Char) :
    (c :: s).destutter Apart = c :: s.destutter Apart := by
  cases s with
  | nil => rfl
  | cons next rest => exact List.destutter'_cons_pos rest (apart_of_ne plain next)

/-- After a low line all those are left out that follow at once. -/
theorem destutter_low (s : List Char) :
    ('_' :: s).destutter Apart = '_' :: (s.dropWhile (· == '_')).destutter Apart := by
  induction s with
  | nil => rfl
  | cons c rest ih =>
    by_cases low : c = '_'
    · subst low
      exact ih
    · have kept : Apart '_' c := fun both => low both.2
      rw [List.destutter_cons_cons, if_pos kept, List.dropWhile_cons_of_neg (by simpa using low)]
      rfl

theorem replaceRunsWith_low {fuel : Nat} {s : List Char} (enough : s.length ≤ fuel) :
    replaceRunsWith ['_'] '_' [.char '_'] fuel s = s.destutter Apart := by
  induction fuel generalizing s with
  | zero =>
    obtain rfl := List.eq_nil_of_length_eq_zero (Nat.le_zero.mp enough)
    rfl
  | succ fuel ih =>
    cases s with
    | nil => rfl
    | cons c rest =>
      have shorter : rest.length ≤ fuel := Nat.le_of_succ_le_succ enough
      by_cases low : c = '_'
      · subst low
        have left := (List.dropWhile_sublist (· == '_') (l := rest)).length_le
        rw [destutter_low, ← ih (left.trans shorter)]
        rfl
      · rw [destutter_plain low, ← ih shorter, replaceRunsWith, if_neg]
        simpa using Ne.symm low

theorem within_low {s : List Char} : within ['_'] s = true ↔ '_' ∈ s := by
  induction s with
  | nil => simp [within]
  | cons c rest ih => simp [within, ih]

theorem collapse_low (s : List Char) : collapse ['_'] s = .ok (s.destutter Apart) := by
  unfold collapse
  split
  next absent =>
    have plain : '_' ∉ s := fun low => by simp [within_low.mpr low] at absent
    have single : s.IsChain Apart := List.Pairwise.isChain <| List.pairwise_of_forall_mem_list
      fun a member b _ => apart_of_ne (ne_of_mem_of_not_mem member plain) b
    rw [List.destutter_of_isChain _ _ single]
  next =>
    have template : Template.parts ['_'] = .ok [.char '_'] := rfl
    rw [if_neg (by simp), template]
    exact congrArg Except.ok (replaceRunsWith_low (Nat.le_refl _))

/-! ### Stems -/

/-- A character, or a low line in its place. -/
def filled (c : Char) : Char := if isPlain c then c else '_'

/-- What is left of a name without the low lines at its ends. -/
def stem (name : String) : List Char := stripChars ['_'] ((name.toList.map filled).destutter Apart)

/-- A row of characters with single low lines in between. -/
structure IsStem (s : List Char) : Prop where
  plain : ∀ c ∈ s, isPlain c = true
  apart : s.IsChain Apart
  starts : ∀ c ∈ s.head?, c ≠ '_'
  ends : ∀ c ∈ s.getLast?, c ≠ '_'

/-- The name of the module with a stem. -/
def called : List Char → String
  | [] => fallback
  | c :: rest =>
    let stripped := String.ofList (c :: rest)
    if isDigit c || isKeyword stripped then "_" ++ stripped else stripped

/-- A name is replaced by the one that its stem makes. -/
theorem sanitize_low (name : String) : sanitize name "_" = .ok (called (stem name)) := by
  unfold sanitize
  split
  next nothing =>
    obtain rfl := eq_of_beq nothing
    rfl
  next =>
    have low : "_".toList = ['_'] := rfl
    have mapped : (name.toList.flatMap fun c => if isPlain c then [c] else ['_']) =
        name.toList.map filled := by
      rw [List.map_eq_flatMap]
      refine List.flatMap_congr fun c _ => ?_
      unfold filled
      split <;> rfl
    rw [low, mapped]
    dsimp only
    rw [collapse_low]
    change (match stem name with
      | [] => pure fallback
      | c :: rest => _) = _
    cases stem name with
    | nil => rfl
    | cons c rest =>
      dsimp only [called]
      split <;> rfl

section
variable {chars s : List Char}

theorem stripChars_eq : stripChars chars s = (s.dropWhile chars.contains).rdropWhile chars.contains := rfl

theorem stripChars_within : stripChars chars s <:+: s := by
  have front : stripChars chars s <+: s.dropWhile chars.contains := List.rdropWhile_prefix _ _
  exact front.isInfix.trans (List.dropWhile_suffix _).isInfix

theorem stripChars_head : ∀ c ∈ (stripChars chars s).head?, c ∉ chars := by
  intro c first
  obtain ⟨rest, shape⟩ := List.head?_eq_some_iff.mp first
  obtain ⟨more, whole⟩ := List.rdropWhile_prefix chars.contains (s.dropWhile chars.contains)
  have stopped := List.head?_dropWhile_not chars.contains s
  rw [← whole, ← stripChars_eq, shape] at stopped
  simpa using stopped

theorem stripChars_last : ∀ c ∈ (stripChars chars s).getLast?, c ∉ chars := by
  intro c last
  rw [stripChars_eq] at last
  obtain ⟨kept, rfl⟩ := List.mem_getLast?_eq_getLast last
  simpa using List.rdropWhile_last_not chars.contains (s.dropWhile chars.contains) kept

theorem stripChars_eq_self (starts : ∀ c ∈ s.head?, c ∉ chars) (ends : ∀ c ∈ s.getLast?, c ∉ chars) :
    stripChars chars s = s := by
  have front : s.dropWhile chars.contains = s := by
    cases s with
    | nil => rfl
    | cons c rest => exact List.dropWhile_cons_of_neg (by simpa using starts c rfl)
  have back : s.rdropWhile chars.contains = s := by
    refine List.rdropWhile_eq_self_iff.mpr fun filled => ?_
    simpa using ends _ (List.getLast?_eq_some_getLast filled)
  rw [stripChars_eq, front, back]

end

theorem filled_of_isPlain {c : Char} (plain : isPlain c = true) : filled c = c := if_pos plain

theorem isPlain_filled (c : Char) : isPlain (filled c) = true := by
  unfold filled
  split
  next plain => exact plain
  next => rfl

theorem isStem_stem (name : String) : IsStem (stem name) where
  plain c member := by
    have inside := (List.destutter_sublist Apart _).subset (stripChars_within.subset member)
    obtain ⟨own, -, rfl⟩ := List.mem_map.mp inside
    exact isPlain_filled own
  apart := List.IsChain.infix (List.isChain_destutter Apart _) stripChars_within
  starts c first := by simpa using stripChars_head c first
  ends c last := by simpa using stripChars_last c last

/-! ### The name of a stem -/

theorem toList_low_append (s : String) : ("_" ++ s).toList = '_' :: s.toList := by
  have low : "_".toList = ['_'] := rfl
  rw [String.toList_append, low, List.singleton_append]

/-- No word that is taken begins with a low line. -/
theorem low_not_keyword (word : String) : "_" ++ word ∉ keywords := by
  have begins : ∀ word ∈ keywords, word.toList.head? ≠ some '_' := by decide +kernel
  intro taken
  refine begins _ taken ?_
  rw [toList_low_append]
  rfl

theorem not_isDigit {c : Char} (free : ¬ isDigit c = true) : c.isDigit = false := by
  simp only [isDigit, Bool.or_eq_true, Bool.and_eq_true, decide_eq_true_eq, not_or] at free
  simpa [Char.isDigit, Char.le_def, ge_iff_le] using free.1.1.1

section
variable {s : List Char} (isStem : IsStem s)
include isStem

theorem IsStem.strip : stripChars ['_'] s = s := by
  refine stripChars_eq_self (fun c first => ?_) fun c last => ?_
  · simpa using isStem.starts c first
  · simpa using isStem.ends c last

theorem IsStem.map_filled : s.map filled = s :=
  (List.map_congr_left fun c member => filled_of_isPlain (isStem.plain c member)).trans (List.map_id s)

theorem IsStem.apart_low : ('_' :: s).IsChain Apart :=
  List.isChain_cons.mpr ⟨fun c first both => isStem.starts c first both.2, isStem.apart⟩

theorem IsStem.stem_ofList : stem (String.ofList s) = s := by
  rw [stem, String.toList_ofList, isStem.map_filled, List.destutter_of_isChain _ _ isStem.apart,
    isStem.strip]

theorem IsStem.stem_low : stem ("_" ++ String.ofList s) = s := by
  have low : filled '_' = '_' := rfl
  rw [stem, toList_low_append, String.toList_ofList, List.map_cons, low, isStem.map_filled,
    List.destutter_of_isChain _ _ isStem.apart_low]
  exact isStem.strip

/-- A low line before a stem is left out with the others, and comes back for the same reason. -/
theorem IsStem.called_again : called (stem (called s)) = called s := by
  cases s with
  | nil => decide +kernel
  | cons c rest =>
    have same : stem (called (c :: rest)) = c :: rest := by
      dsimp only [called]
      split
      · exact isStem.stem_low
      · exact isStem.stem_ofList
    rw [same]

theorem IsStem.importable_ofList (given : s ≠ []) (starts : ∀ c ∈ s.head?, c.isDigit = false)
    (free : String.ofList s ∉ keywords) : Importable (String.ofList s) where
  filled := by simpa using given
  plain c member := by
    rw [String.toList_ofList] at member
    exact (isPlain_iff c).mp (isStem.plain c member)
  apart := String.toList_ofList.symm ▸ isStem.apart
  starts := String.toList_ofList.symm ▸ starts
  free := free

theorem IsStem.importable_low : Importable ("_" ++ String.ofList s) where
  filled := fun nothing => by simp at nothing
  plain c member := by
    rw [toList_low_append, String.toList_ofList] at member
    rcases List.mem_cons.mp member with rfl | inside
    · exact .inr rfl
    · exact (isPlain_iff c).mp (isStem.plain c inside)
  apart := by
    rw [toList_low_append, String.toList_ofList]
    exact isStem.apart_low
  starts c first := by
    rw [toList_low_append] at first
    obtain rfl := Option.some.inj first
    rfl
  free := low_not_keyword _

/-- What a stem is called can be imported. -/
theorem IsStem.importable_called : Importable (called s) := by
  cases s with
  | nil =>
    have same : stem fallback = fallback.toList := by decide +kernel
    have own : IsStem fallback.toList := same ▸ isStem_stem fallback
    have begun : fallback.toList.head? = some 'b' := by decide +kernel
    have letter : ∀ c ∈ fallback.toList.head?, c.isDigit = false := by
      rw [begun]
      rintro c ⟨⟩
      rfl
    have named := own.importable_ofList (by decide +kernel) letter (by decide +kernel)
    rwa [String.ofList_toList] at named
  | cons c rest =>
    dsimp only [called]
    split
    next => exact isStem.importable_low
    next free =>
      rw [Bool.or_eq_true, not_or] at free
      refine isStem.importable_ofList (List.cons_ne_nil c rest) (fun first same => ?_) ?_
      · obtain rfl := Option.some.inj same
        exact not_isDigit free.1
      · simpa [isKeyword] using free.2

end

/-- Every text becomes a name that can be imported; that name becomes itself. -/
theorem sanitize_importable (name : String) :
    ∃ own, sanitize name "_" = .ok own ∧ Importable own ∧ sanitize own "_" = .ok own := by
  have isStem := isStem_stem name
  refine ⟨called (stem name), sanitize_low name, isStem.importable_called, ?_⟩
  rw [sanitize_low, isStem.called_again]

end NativeBindings.ModuleName
