import NativeBindings.Json.Reader
import NativeBindings.Json.Writer
import NativeBindings.Proofs.Outcome
import NativeBindings.Text.LineEnd

/-!
What is read from a table of integers that was written: the same entries, in the order of their names.
-/
namespace NativeBindings.Json

open Outcome Text Reader

section
variable {n : Nat} {c : Char}

theorem hexValue_hexDigit (small : n < 16) : hexValue? (hexDigit n) = some n := by
  have each : ∀ m < 16, hexValue? (hexDigit m) = some m := by decide
  exact each n small

theorem hex_four (n : Nat) :
    hex 4 n = [hexDigit (n / 4096 % 16), hexDigit (n / 256 % 16), hexDigit (n / 16 % 16),
      hexDigit (n % 16)] := by
  simp only [hex, List.nil_append, List.cons_append, Nat.div_div_eq_div_mul]

/-- A unit is read back. It must not be the end of the text. -/
theorem unit_hex (small : n < 0x10000) (next : Char) (rest : List Char) :
    unit? (hex 4 n ++ next :: rest) = some (n, next :: rest) := by
  have whole : (((n / 4096 % 16) * 16 + n / 256 % 16) * 16 + n / 16 % 16) * 16 + n % 16 = n := by omega
  have digit (m : Nat) : hexValue? (hexDigit (m % 16)) = some (m % 16) :=
    hexValue_hexDigit (Nat.mod_lt m (by decide))
  rw [hex_four]
  simp only [List.cons_append, List.nil_append, unit?, digit, Option.bind_eq_bind, Option.bind_some,
    whole]

/-- Characters are no surrogates. -/
theorem scalar (c : Char) : c.toNat < 0xD800 ∨ 0xDFFF < c.toNat ∧ c.toNat < 0x110000 := c.valid

theorem not_surrogate (c : Char) : isHigh c.toNat = false ∧ isLow c.toNat = false := by
  have valid := scalar c
  simp only [isHigh, isLow, Bool.and_eq_false_iff, decide_eq_false_iff_not]
  omega

end

section
variable {start : List Char} {fuel : Nat} {done rest : List Char}

theorem chars_plain {c : Char} (printed : 0x20 ≤ c.toNat) (quote : c ≠ '\x22') (slash : c ≠ '\\') :
    chars start (fuel + 1) done (c :: rest) = chars start fuel (c :: done) rest := by
  rw [chars.eq_def]
  simp [quote, slash, Nat.not_lt.mpr printed]

theorem chars_letter {letter shown : Char} (known : escapes.lookup letter = some shown) :
    chars start (fuel + 1) done ('\\' :: letter :: rest) = chars start fuel (shown :: done) rest := by
  have other : letter ≠ 'u' := by
    rintro rfl
    cases known
  rw [chars.eq_def]
  simp [known]

theorem chars_unit {n : Nat} (small : n < 0x10000) (high : isHigh n = false) (low : isLow n = false)
    (next : Char) :
    chars start (fuel + 1) done (unitEscape n ++ next :: rest) =
      chars start fuel (Char.ofNat n :: done) (next :: rest) := by
  rw [unitEscape, List.cons_append, List.cons_append, chars.eq_def]
  simp [unit_hex small, high, low]

theorem chars_pair {high low : Nat} (first : isHigh high = true) (second : isLow low = true)
    (next : Char) :
    chars start (fuel + 1) done (unitEscape high ++ unitEscape low ++ next :: rest) =
      chars start fuel (Char.ofNat (0x10000 + (high - 0xD800) * 0x400 + (low - 0xDC00)) :: done)
        (next :: rest) := by
  have narrow : high < 0x10000 ∧ low < 0x10000 := by
    simp only [isHigh, isLow, Bool.and_eq_true, decide_eq_true_eq] at first second
    omega
  have long : ¬ 4 + (rest.length + 1) < 5 := by omega
  rw [unitEscape, unitEscape, List.append_assoc, List.cons_append, List.cons_append, List.cons_append,
    List.cons_append, chars.eq_def]
  simp [unit_hex narrow.1, unit_hex narrow.2, first, second, length_hex, long]

/-- Whatever stands for a character is read as this character. -/
theorem chars_escaped (c next : Char) :
    chars start (fuel + 1) done (escapedChar c ++ next :: rest) =
      chars start fuel (c :: done) (next :: rest) := by
  have valid := scalar c
  unfold escapedChar
  split
  next same => exact chars_letter (by rw [beq_iff_eq.mp same]; rfl)
  split
  next same => exact chars_letter (by rw [beq_iff_eq.mp same]; rfl)
  split
  next same => exact chars_letter (by rw [beq_iff_eq.mp same]; rfl)
  split
  next same => exact chars_letter (by rw [beq_iff_eq.mp same]; rfl)
  split
  next same => exact chars_letter (by rw [beq_iff_eq.mp same]; rfl)
  split
  next same => exact chars_letter (by rw [beq_iff_eq.mp same]; rfl)
  split
  next same => exact chars_letter (by rw [beq_iff_eq.mp same]; rfl)
  next quote slash _ _ _ _ _ =>
  split
  next printed =>
    simp only [Bool.and_eq_true, decide_eq_true_eq] at printed
    exact chars_plain printed.1 (by simpa using quote) (by simpa using slash)
  split
  next small =>
    have apart := not_surrogate c
    rw [chars_unit small apart.1 apart.2, Char.ofNat_toNat]
  next large =>
    -- Beyond the first plane a character takes two units.
    have first : isHigh (0xD800 + (c.toNat - 0x10000) / 0x400) = true := by
      simp only [isHigh, Bool.and_eq_true, decide_eq_true_eq]
      omega
    have second : isLow (0xDC00 + (c.toNat - 0x10000) % 0x400) = true := by
      simp only [isLow, Bool.and_eq_true, decide_eq_true_eq]
      omega
    have whole : 0x10000 + (0xD800 + (c.toNat - 0x10000) / 0x400 - 0xD800) * 0x400 +
        (0xDC00 + (c.toNat - 0x10000) % 0x400 - 0xDC00) = c.toNat := by omega
    rw [chars_pair first second, whole, Char.ofNat_toNat]

theorem chars_end : chars start (fuel + 1) done ('\x22' :: rest) =
    .ok (String.ofList done.reverse, rest) := by
  rw [chars.eq_def]
  rfl

/-- An escaped text is read back after its opening quote. -/
theorem chars_text {s : List Char} (enough : s.length < fuel) :
    chars start fuel done (s.flatMap escapedChar ++ '\x22' :: rest) =
      .ok (String.ofList (done.reverse ++ s), rest) := by
  induction s generalizing fuel done with
  | nil =>
    obtain ⟨fuel, rfl⟩ := Nat.exists_eq_add_one_of_ne_zero (Nat.ne_of_gt enough)
    rw [List.flatMap_nil, List.nil_append, chars_end, List.append_nil]
  | cons c s ih =>
    obtain ⟨fuel, rfl⟩ := Nat.exists_eq_add_one_of_ne_zero (Nat.ne_of_gt (Nat.zero_lt_of_lt enough))
    have shorter : s.length < fuel := Nat.lt_of_succ_lt_succ enough
    have later : chars start fuel (c :: done) (s.flatMap escapedChar ++ '\x22' :: rest) = _ :=
      ih shorter
    rw [List.flatMap_cons, List.append_assoc]
    cases tail : s.flatMap escapedChar ++ '\x22' :: rest with
    | nil => simp at tail
    | cons next after =>
      rw [chars_escaped, ← tail, later, List.reverse_cons, List.append_assoc, List.singleton_append]

end

section
variable {n : Nat} {rest : List Char}

theorem isDigit_eq (c : Char) : Reader.isDigit c = c.isDigit := by
  unfold Reader.isDigit Char.isDigit
  rfl

theorem isDigit_of_mem {c : Char} (member : c ∈ Nat.toDigits 10 n) : Reader.isDigit c = true := by
  rw [isDigit_eq]
  exact Nat.isDigit_of_mem_toDigits (by decide) (by decide) member

/-- What ends a number: nothing of it can be a part of the number. -/
def Closes (rest : List Char) : Prop :=
  ∀ c after, rest = c :: after → Reader.isDigit c = false ∧ c ≠ '.' ∧ c ≠ 'e' ∧ c ≠ 'E'

theorem takeWhile_digits (ends : Closes rest) :
    (Nat.toDigits 10 n ++ rest).takeWhile Reader.isDigit = Nat.toDigits 10 n := by
  rw [List.takeWhile_append_of_pos fun c member => isDigit_of_mem member]
  cases rest with
  | nil => rw [List.takeWhile_nil, List.append_nil]
  | cons c after => simp [(ends c after rfl).1]

theorem dropWhile_digits (ends : Closes rest) :
    (Nat.toDigits 10 n ++ rest).dropWhile Reader.isDigit = rest := by
  rw [List.dropWhile_append_of_pos fun c member => isDigit_of_mem member]
  cases rest with
  | nil => rfl
  | cons c after => simp [(ends c after rfl).1]

theorem natural_digits (n : Nat) : natural (Nat.toDigits 10 n) = n := by
  have read : Nat.ofDigitChars 10 (Nat.toDigits 10 n) 0 = n := Nat.ofDigitChars_ten_toDigits
  rwa [Nat.ofDigitChars_eq_foldl] at read

theorem fraction_ends (ends : Closes rest) : fraction rest = ([], rest) := by
  unfold fraction
  split
  next c after => exact absurd rfl (ends '.' _ rfl).2.1
  next => rfl

theorem exponent_ends (ends : Closes rest) : exponent rest = none := by
  cases rest with
  | nil => rfl
  | cons c after =>
    have apart := ends c after rfl
    simp [exponent, apart.2.2.1, apart.2.2.2]

/-- The digits of a number start with a zero only if it is zero. -/
theorem toDigits_zero_head {digits : List Char} (same : Nat.toDigits 10 n = '0' :: digits) :
    digits = [] := by
  induction n using Nat.strongRecOn generalizing digits with
  | _ n ih =>
  by_cases small : n < 10
  · rw [Nat.toDigits_of_lt_base small] at same
    exact (List.cons.inj same).2.symm
  · rw [Nat.toDigits_of_base_le (by decide) (Nat.le_of_not_lt small)] at same
    cases first : Nat.toDigits 10 (n / 10) with
    | nil => exact absurd first Nat.toDigits_ne_nil
    | cons c more =>
      rw [first, List.cons_append] at same
      obtain ⟨rfl, -⟩ := List.cons.inj same
      have zero := natural_digits (n / 10)
      rw [first, ih (n / 10) (by omega) first] at zero
      have nothing : n / 10 = 0 := zero.symm
      omega

theorem unsigned_digits (negative : Bool) (ends : Closes rest) :
    unsigned negative (Nat.toDigits 10 n ++ rest) =
      some (.int (if negative then -n else n), rest) := by
  have some_digit : (Nat.toDigits 10 n).isEmpty = false := by
    rw [List.isEmpty_eq_false_iff]
    exact Nat.toDigits_ne_nil
  unfold unsigned
  split
  next whole after cut =>
  have found : Nat.toDigits 10 n = whole ∧ rest = after := by
    split at cut
    next more same =>
      obtain ⟨rfl, rfl⟩ := Prod.mk.inj cut
      cases digits : Nat.toDigits 10 n with
      | nil => exact absurd digits Nat.toDigits_ne_nil
      | cons c digits' =>
        rw [digits, List.cons_append] at same
        obtain ⟨rfl, rfl⟩ := List.cons.inj same
        rw [toDigits_zero_head digits]
        exact ⟨rfl, rfl⟩
    next =>
      rw [takeWhile_digits ends, dropWhile_digits ends] at cut
      exact Prod.mk.inj cut
  obtain ⟨rfl, rfl⟩ := found
  simp only [some_digit, fraction_ends ends, exponent_ends ends, natural_digits]
  rfl

theorem length_digits {n : Int} (short : Numeral.isWritable n = true) :
    (Nat.toDigits 10 n.natAbs).length ≤ digitLimit := by
  have below (limit : Nat) (positive : 0 < limit) (short : decide (n.natAbs < Nat.pow 10 limit) = true) :
      (Nat.toDigits 10 n.natAbs).length ≤ limit :=
    (Nat.length_toDigits_le_iff (by decide) positive).mpr (of_decide_eq_true short)
  exact below digitLimit (by decide) short

theorem text_natural (n : Nat) : (toString (Int.ofNat n)).toList = Nat.toDigits 10 n := by
  change (toString n).toList = _
  rw [Nat.toString_eq_ofList_toDigits, String.toList_ofList]

theorem text_negative (n : Nat) :
    (toString (Int.negSucc n)).toList = '-' :: Nat.toDigits 10 (n + 1) := by
  have minus : "-".toList = ['-'] := rfl
  change ("-" ++ toString (n + 1)).toList = _
  rw [String.toList_append, minus, Nat.toString_eq_ofList_toDigits, String.toList_ofList]
  rfl

theorem toDigits_cons (n : Nat) :
    ∃ c more, Nat.toDigits 10 n = c :: more ∧ Reader.isDigit c = true := by
  cases digits : Nat.toDigits 10 n with
  | nil => exact absurd digits Nat.toDigits_ne_nil
  | cons c more => exact ⟨c, more, rfl, isDigit_of_mem (digits.symm ▸ List.mem_cons_self)⟩

theorem numeral_text {n : Int} (short : Numeral.isWritable n = true) (ends : Closes rest) :
    numeral ((toString n).toList ++ rest) = .ok (.int n, rest) := by
  have few : ¬ digitLimit < (Nat.toDigits 10 n.natAbs).length := Nat.not_lt.mpr (length_digits short)
  cases n with
  | ofNat n =>
    have first : ∀ after, Nat.toDigits 10 n ++ rest ≠ '-' :: after := by
      intro after same
      obtain ⟨c, more, digits, digit⟩ := toDigits_cons n
      rw [digits, List.cons_append] at same
      rw [(List.cons.inj same).1] at digit
      cases digit
    have value : number (Nat.toDigits 10 n ++ rest) = some (.int n, rest) := by
      unfold number
      split
      next after same => exact absurd same (first after)
      next => exact unsigned_digits false ends
    have count : digitsOf (Nat.toDigits 10 n ++ rest) = (Nat.toDigits 10 n).length := by
      unfold digitsOf
      split
      next after same => exact absurd same (first after)
      next => rw [takeWhile_digits ends]
    rw [text_natural, numeral, value]
    dsimp only
    rw [count]
    exact if_neg few
  | negSucc n =>
    have value : number ('-' :: Nat.toDigits 10 (n + 1) ++ rest) = some (.int (Int.negSucc n), rest) :=
      unsigned_digits true ends
    have count : digitsOf ('-' :: Nat.toDigits 10 (n + 1) ++ rest) =
        (Nat.toDigits 10 (n + 1)).length :=
      congrArg List.length (takeWhile_digits ends)
    rw [text_negative, numeral, value]
    dsimp only
    rw [count]
    exact if_neg few

/-- One of the first two characters of an integer is a digit. -/
theorem text_starts (n : Int) (rest : List Char) :
    ∃ c more, (toString n).toList ++ rest = c :: more ∧
      (Reader.isDigit c = true ∨ c = '-' ∧ ∃ d after, more = d :: after ∧ Reader.isDigit d = true) := by
  cases n with
  | ofNat n =>
    obtain ⟨c, more, digits, digit⟩ := toDigits_cons n
    rw [text_natural, digits]
    exact ⟨c, more ++ rest, rfl, .inl digit⟩
  | negSucc n =>
    obtain ⟨d, more, digits, digit⟩ := toDigits_cons (n + 1)
    rw [text_negative, digits]
    exact ⟨'-', d :: (more ++ rest), rfl, .inr ⟨rfl, d, more ++ rest, rfl, digit⟩⟩

theorem isSpace_digit {c : Char} (digit : Reader.isDigit c = true) : isSpace c = false := by
  cases space : isSpace c with
  | false => rfl
  | true =>
    simp only [isSpace, Bool.or_eq_true, beq_iff_eq] at space
    rcases space with ((rfl | rfl) | rfl) | rfl
    all_goals cases digit

theorem literals_plain : ∀ entry ∈ literals, 2 ≤ entry.1.toList.length ∧
    ∀ c ∈ entry.1.toList, Reader.isDigit c = false := by
  intro entry member
  simp only [literals, List.mem_cons, List.not_mem_nil, or_false] at member
  rcases member with rfl | rfl | rfl | rfl | rfl | rfl
  all_goals simp [Reader.isDigit]

theorem literal_text (n : Int) (rest : List Char) : literal ((toString n).toList ++ rest) = none := by
  rw [literal, List.findSome?_eq_none_iff]
  intro entry member
  obtain ⟨long, plain⟩ := literals_plain entry member
  have other : entry.1.toList.isPrefixOf ((toString n).toList ++ rest) = false := by
    obtain ⟨c, more, text, starts⟩ := text_starts n rest
    rw [text]
    obtain ⟨a, b, letters, word⟩ : ∃ a b letters, entry.1.toList = a :: b :: letters := by
      match entry.1.toList, long with
      | a :: b :: letters, _ => exact ⟨a, b, letters, rfl⟩
    rw [word] at plain ⊢
    have firstPlain := plain a (by simp)
    have secondPlain := plain b (by simp)
    rcases starts with digit | ⟨rfl, d, after, rfl, digit⟩
    · have apart : a ≠ c := by
        rintro rfl
        rw [firstPlain] at digit
        cases digit
      simp [List.isPrefixOf, apart]
    · have apart : b ≠ d := by
        rintro rfl
        rw [secondPlain] at digit
        cases digit
      simp [List.isPrefixOf, apart]
  simp only [other]
  rfl

/-- An integer is read back as a value. -/
theorem value_text {n : Int} {fuel level : Nat} (short : Numeral.isWritable n = true)
    (ends : Closes rest) :
    value (fuel + 1) level ((toString n).toList ++ rest) = .ok (.int n, rest) := by
  have other : ∀ c after, (toString n).toList ++ rest = c :: after →
      c ≠ '\x22' ∧ c ≠ '[' ∧ c ≠ '\x7b' := by
    intro c after same
    obtain ⟨d, more, text, starts⟩ := text_starts n rest
    rw [text] at same
    obtain ⟨rfl, rfl⟩ := List.cons.inj same
    refine ⟨?_, ?_, ?_⟩
    all_goals
      rintro rfl
      rcases starts with digit | ⟨sign, -⟩
      · cases digit
      · cases sign
  unfold value
  split
  next after same => exact absurd rfl (other _ _ same).1
  next after same => exact absurd rfl (other _ _ same).2.1
  next after same => exact absurd rfl (other _ _ same).2.2
  next => rw [literal_text, numeral_text short ends]

end

/-- Integers as the values of a table. -/
def ofIntegers (entries : List (String × Int)) : List (String × Json) :=
  entries.map fun entry => (entry.1, .int entry.2)

/-- The entries of a table, one on a line, and its end. -/
def rows : List (String × Int) → String
  | [] => newLine 0 ++ "\x7d"
  | [(name, n)] => escaped name ++ ": " ++ toString n ++ (newLine 0 ++ "\x7d")
  | (name, n) :: next :: rest =>
    escaped name ++ ": " ++ toString n ++ ("," ++ newLine 1) ++ rows (next :: rest)

/-- The parts of one line of a table. -/
def partsOfLine (entry : String × Int) : List (Except Fault String) :=
  .ok (escaped entry.1 ++ ": ") :: parts 1 "" (.int entry.2)

section
variable {entries : List (String × Int)} {text : String}

theorem partsOfEntries_integers (entries : List (String × Int)) :
    partsOfEntries 1 (ofIntegers entries) = entries.map fun entry => (entry.1, partsOfLine entry) := by
  induction entries with
  | nil => rfl
  | cons entry rest ih =>
    rw [ofIntegers, List.map_cons, partsOfEntries, List.map_cons]
    exact congrArg _ ih

theorem inOrder_perm {α : Type} (entries : List (String × α)) : (inOrder entries).Perm entries :=
  List.mergeSort_perm _ _

theorem inOrder_map {α β : Type} (f : String × α → β) (entries : List (String × α)) :
    inOrder (entries.map fun entry => (entry.1, f entry)) =
      (inOrder entries).map fun entry => (entry.1, f entry) := by
  symm
  apply List.map_mergeSort
  intro _ _ _ _
  rfl

theorem written_line {entry : String × Int} {rest : List (Except Fault String)}
    (done : written (partsOfLine entry ++ rest) = (text, .ok ())) :
    Numeral.isWritable entry.2 = true ∧ (written rest).2 = .ok () ∧
      text = escaped entry.1 ++ ": " ++ toString entry.2 ++ (written rest).1 := by
  rw [partsOfLine, parts, Numeral.write] at done
  split at done
  next short =>
    simp only [List.cons_append, List.nil_append, Except.map, written, Prod.mk.injEq] at done
    refine ⟨short, done.2, ?_⟩
    simp only [← done.1, String.empty_append, String.append_assoc]
  next =>
    simp only [List.cons_append, List.nil_append, Except.map, written, Prod.mk.injEq] at done
    cases done.2

/-- What is written of lines up to the end of their table, if no integer is too long. -/
theorem written_lines (first : entries ≠ [])
    (done : written ([.ok ("," ++ newLine 1)].intercalate (entries.map partsOfLine) ++
      [.ok (newLine 0 ++ "\x7d")]) = (text, .ok ())) :
    (∀ entry ∈ entries, Numeral.isWritable entry.2 = true) ∧ text = rows entries := by
  induction entries generalizing text with
  | nil => exact absurd rfl first
  | cons entry rest ih =>
    cases rest with
    | nil =>
      have line := written_line (by simpa [List.intercalate] using done)
      refine ⟨by simpa using line.1, ?_⟩
      simp only [line.2.2, rows, written, String.append_empty, String.append_assoc]
    | cons next rest =>
      have cut : written (partsOfLine entry ++ .ok ("," ++ newLine 1) ::
          ([.ok ("," ++ newLine 1)].intercalate ((next :: rest).map partsOfLine) ++
            [.ok (newLine 0 ++ "\x7d")])) = (text, .ok ()) := by
        simpa [List.intercalate] using done
      have line := written_line cut
      rw [written] at line
      have later := ih (List.cons_ne_nil _ _) (Prod.ext rfl line.2.1)
      refine ⟨List.forall_mem_cons.mpr ⟨line.1, later.1⟩, ?_⟩
      simp only [line.2.2, later.2, rows, String.append_assoc]

/-- What is written of a table, if no integer is too long. -/
theorem written_integers (first : entries ≠ [])
    (done : written (parts 0 "" (.obj (ofIntegers entries))) = (text, .ok ())) :
    (∀ entry ∈ inOrder entries, Numeral.isWritable entry.2 = true) ∧
      text = "\x7b" ++ newLine 1 ++ rows (inOrder entries) := by
  have some_entry : (ofIntegers entries).isEmpty = false := by
    cases entries with
    | nil => exact absurd rfl first
    | cons entry rest => rfl
  have some_line : inOrder entries ≠ [] := by
    intro none_left
    have same := inOrder_perm entries
    rw [none_left] at same
    exact first same.symm.eq_nil
  rw [parts, some_entry, partsOfEntries_integers, inOrder_map, List.map_map] at done
  rw [if_neg Bool.false_ne_true, List.cons_append, written, Prod.mk.injEq] at done
  have lines := written_lines some_line (Prod.ext rfl done.2)
  refine ⟨lines.1, ?_⟩
  rw [← done.1, ← lines.2, String.empty_append]
  rfl

end

section
variable {fuel level : Nat} {rest : List Char}

theorem skip_of_plain {c : Char} (plain : isSpace c = false) : skip (c :: rest) = c :: rest := by
  rw [skip, List.dropWhile_cons, plain]
  rfl

theorem escaped_toList (s : String) :
    (escaped s).toList = '\x22' :: (s.toList.flatMap escapedChar ++ ['\x22']) := by
  simp [escaped]

theorem escapedChar_ne_nil (c : Char) : escapedChar c ≠ [] := by
  simp only [escapedChar, unitEscape]
  grind

theorem length_escaped (s : List Char) : s.length ≤ (s.flatMap escapedChar).length := by
  induction s with
  | nil => exact Nat.le_refl 0
  | cons c s ih =>
    have some_char : 0 < (escapedChar c).length := List.length_pos_iff.mpr (escapedChar_ne_nil c)
    rw [List.flatMap_cons, List.length_append, List.length_cons]
    omega

/-- One row is read as an entry, and what comes after it decides how reading goes on. -/
theorem entries_row {name : String} {n : Int} {done : List (String × Json)}
    (short : Numeral.isWritable n = true) (ends : Closes rest) (enough : name.toList.length < fuel) :
    Reader.entries (fuel + 1) level done ((escaped name ++ ": " ++ toString n).toList ++ rest) =
      match skip rest with
      | '}' :: after => .ok (Table.insert name (.int n) done, after)
      | ',' :: after => Reader.entries fuel level (Table.insert name (.int n) done) (skip after)
      | rest => stopAt "Expecting ',' delimiter" rest := by
  obtain ⟨fuel, rfl⟩ := Nat.exists_eq_add_one_of_ne_zero (Nat.ne_of_gt (Nat.zero_lt_of_lt enough))
  have colon : ": ".toList = [':', ' '] := rfl
  have text : (escaped name ++ ": " ++ toString n).toList ++ rest =
      '\x22' :: (name.toList.flatMap escapedChar ++ '\x22' :: ':' :: ' ' ::
        ((toString n).toList ++ rest)) := by
    rw [String.toList_append, String.toList_append, escaped_toList, colon]
    simp
  obtain ⟨c, more, starts, first⟩ := text_starts n rest
  have plain : isSpace c = false := by
    rcases first with digit | ⟨rfl, -⟩
    · exact isSpace_digit digit
    · rfl
  have skipped : skip (' ' :: ((toString n).toList ++ rest)) = (toString n).toList ++ rest := by
    rw [skip, List.dropWhile_cons, starts]
    exact skip_of_plain plain
  have named (start : List Char) : chars start (fuel + 1) []
      (name.toList.flatMap escapedChar ++ '\x22' :: ':' :: ' ' :: ((toString n).toList ++ rest)) =
        .ok (name, ':' :: ' ' :: ((toString n).toList ++ rest)) := by
    rw [chars_text enough, List.reverse_nil, List.nil_append, String.ofList_toList]
  have counted : value (fuel + 1) level ((toString n).toList ++ rest) = .ok (.int n, rest) :=
    value_text short ends
  rw [text, Reader.entries.eq_def]
  simp only [named, bind, Except.bind, skip_of_plain (show isSpace ':' = false from rfl), skipped, counted]
  all_goals rfl

theorem ends_of_first {c : Char} (digit : Reader.isDigit c = false)
    (other : c ≠ '.' ∧ c ≠ 'e' ∧ c ≠ 'E') : Closes (c :: rest) := by
  rintro _ _ ⟨⟩
  exact ⟨digit, other⟩

theorem length_row (name : String) (n : Int) :
    name.toList.length < (escaped name ++ ": " ++ toString n).toList.length := by
  have written := length_escaped name.toList
  rw [String.toList_append, String.toList_append, escaped_toList]
  simp only [List.length_append, List.length_cons]
  omega

theorem rows_last (name : String) (n : Int) :
    (rows [(name, n)]).toList = (escaped name ++ ": " ++ toString n).toList ++ ['\n', '}'] := by
  have closing : (newLine 0 ++ "\x7d").toList = ['\n', '}'] := rfl
  rw [rows, String.toList_append, closing]

theorem rows_next (name : String) (n : Int) (next : String × Int) (rest : List (String × Int)) :
    (rows ((name, n) :: next :: rest)).toList =
      (escaped name ++ ": " ++ toString n).toList ++ ',' :: '\n' :: ' ' :: ' ' ::
        (rows (next :: rest)).toList := by
  have comma : ("," ++ newLine 1).toList = [',', '\n', ' ', ' '] := rfl
  rw [rows, String.toList_append, String.toList_append, comma, List.append_assoc]
  rfl

theorem rows_starts {table : List (String × Int)} (first : table ≠ []) :
    ∃ after, (rows table).toList = '\x22' :: after := by
  match table with
  | [] => exact absurd rfl first
  | [(name, n)] =>
    rw [rows_last, String.toList_append, String.toList_append, escaped_toList]
    exact ⟨_, rfl⟩
  | (name, n) :: next :: rest =>
    rw [rows_next, String.toList_append, String.toList_append, escaped_toList]
    exact ⟨_, rfl⟩

/-- The rows of a table are read as its entries, after those before them. -/
theorem entries_rows {table : List (String × Int)} {done : List (String × Json)} (first : table ≠ [])
    (short : ∀ entry ∈ table, Numeral.isWritable entry.2 = true)
    (apart : (Table.keys (done ++ ofIntegers table)).Nodup)
    (enough : (rows table).toList.length < fuel) :
    Reader.entries fuel level done (rows table).toList = .ok (done ++ ofIntegers table, []) := by
  induction table generalizing fuel done with
  | nil => exact absurd rfl first
  | cons entry rest ih =>
    obtain ⟨name, n⟩ := entry
    have absent : Table.has name done = false := by
      rw [Bool.eq_false_iff]
      intro present
      obtain ⟨own, member, same⟩ := Table.has_iff_keys.mp present
      rw [Table.keys, List.map_append, List.nodup_append] at apart
      exact apart.2.2 own member name List.mem_cons_self (beq_iff_eq.mp same)
    have inserted : Table.insert name (Json.int n) done = done ++ [(name, .int n)] :=
      Table.insert_of_absent absent
    have row := short (name, n) List.mem_cons_self
    have length := length_row name n
    obtain ⟨fuel, rfl⟩ := Nat.exists_eq_add_one_of_ne_zero (Nat.ne_of_gt (Nat.zero_lt_of_lt enough))
    cases rest with
    | nil =>
      rw [rows_last, List.length_append] at enough
      have ends : Closes ['\n', '}'] := ends_of_first rfl (by decide)
      rw [rows_last, entries_row row ends (by omega), inserted]
      rfl
    | cons next rest =>
      rw [rows_next, List.length_append, List.length_cons, List.length_cons] at enough
      have ends : Closes (',' :: '\n' :: ' ' :: ' ' :: (rows (next :: rest)).toList) :=
        ends_of_first rfl (by decide)
      have others : (Table.keys (done ++ [(name, .int n)] ++ ofIntegers (next :: rest))).Nodup := by
        rwa [List.append_assoc]
      have later : Reader.entries fuel level (done ++ [(name, .int n)]) (rows (next :: rest)).toList =
          .ok (done ++ [(name, .int n)] ++ ofIntegers (next :: rest), []) :=
        ih (List.cons_ne_nil _ _) (fun entry member => short entry (List.mem_cons_of_mem _ member)) others
          (by simp only [List.length_cons] at enough; omega)
      obtain ⟨after, starts⟩ := rows_starts (List.cons_ne_nil next rest)
      rw [rows_next, entries_row row ends (by omega), inserted]
      rw [starts] at later ⊢
      rw [List.append_assoc] at later
      exact later

end

theorem lineFeeds_eq {s : List Char} (plain : '\r' ∉ s) : lineFeeds s = s := by
  induction s with
  | nil => rfl
  | cons c s ih =>
    have other : c ≠ '\r' := fun same => plain (same ▸ List.mem_cons_self)
    have later := ih fun member => plain (List.mem_cons_of_mem _ member)
    rw [lineFeeds.eq_def]
    simp [other, later]

theorem return_not_mem_unit (n : Nat) : '\r' ∉ unitEscape n := by
  have digits : ∀ m < 16, '\r' ≠ hexDigit m := by decide
  have digit (m : Nat) : '\r' ≠ hexDigit (m % 16) := digits _ (Nat.mod_lt m (by decide))
  rw [unitEscape, hex_four]
  simp [digit]

theorem return_not_mem_escapedChar (c : Char) : '\r' ∉ escapedChar c := by
  have unit := return_not_mem_unit
  unfold escapedChar
  grind

theorem return_not_mem_text (n : Int) : '\r' ∉ (toString n).toList := by
  intro member
  have digits {m : Nat} (member : '\r' ∈ Nat.toDigits 10 m) : False := by
    cases isDigit_of_mem member
  cases n with
  | ofNat n => exact digits (text_natural n ▸ member)
  | negSucc n =>
    rw [text_negative] at member
    rcases List.mem_cons.mp member with wrong | member
    · cases wrong
    · exact digits member

theorem return_not_mem_rows (table : List (String × Int)) : '\r' ∉ (rows table).toList := by
  have row (name : String) (n : Int) : '\r' ∉ (escaped name ++ ": " ++ toString n).toList := by
    have colon : ": ".toList = [':', ' '] := rfl
    have number := return_not_mem_text n
    have text : '\r' ∉ name.toList.flatMap escapedChar := by
      intro member
      obtain ⟨c, -, inside⟩ := List.mem_flatMap.mp member
      exact return_not_mem_escapedChar c inside
    rw [String.toList_append, String.toList_append, escaped_toList, colon]
    simp only [List.mem_append, List.mem_cons, List.mem_nil_iff, not_or, text, number]
    decide
  induction table with
  | nil => decide
  | cons entry rest ih =>
    cases rest with
    | nil =>
      rw [rows_last, List.mem_append, not_or]
      exact ⟨row entry.1 entry.2, by decide⟩
    | cons next rest =>
      rw [rows_next, List.mem_append, not_or]
      exact ⟨row entry.1 entry.2, by simp [ih]⟩

theorem document_object {inside after : List Char} {found : List (String × Json)}
    (first : skip inside = '\x22' :: after)
    (read : Reader.entries (2 * (inside.length + 1) + 1) 1 [] ('\x22' :: after) = .ok (found, [])) :
    document ('\x7b' :: inside) = .ok (.obj found) := by
  have object : value (2 * (inside.length + 1) + 2) 0 ('\x7b' :: inside) = .ok (.obj found, []) := by
    rw [value, below, if_pos (show 0 < levelLimit by decide)]
    simp only [bind, Except.bind, first]
    change (Reader.entries (2 * (inside.length + 1) + 1) 1 [] ('\x22' :: after) >>=
      fun found => .ok (Json.obj found.1, found.2)) = _
    rw [read]
    rfl
  rw [document.eq_def, skip_of_plain rfl]
  simp only [List.length_cons, object, bind, Except.bind]
  rfl

/-- A table of integers that is written to its end is read back with its entries in order. -/
theorem read_written {entries : List (String × Int)} {text : String}
    (apart : (Table.keys entries).Nodup)
    (done : written (parts 0 "" (.obj (ofIntegers entries))) = (text, .ok ())) :
    read (String.ofList (lineFeeds text.toList)) = .ok (.obj (ofIntegers (inOrder entries))) := by
  by_cases first : entries = []
  · subst first
    obtain rfl : "\x7b\x7d" = text := (Prod.mk.inj done).1
    have none_left : inOrder ([] : List (String × Int)) = [] := List.mergeSort_nil
    rw [none_left]
    rfl
  · obtain ⟨short, rfl⟩ := written_integers first done
    have some_line : inOrder entries ≠ [] := by
      intro none_left
      have same := inOrder_perm entries
      rw [none_left] at same
      exact first same.symm.eq_nil
    have keys : (Table.keys (ofIntegers (inOrder entries))).Nodup := by
      have same : Table.keys (ofIntegers (inOrder entries)) = (inOrder entries).map (·.1) := by
        rw [Table.keys, ofIntegers, List.map_map]
        rfl
      rw [same]
      exact ((inOrder_perm entries).map _).nodup_iff.mpr apart
    have start : ("\x7b" ++ newLine 1 ++ rows (inOrder entries)).toList =
        '\x7b' :: '\n' :: ' ' :: ' ' :: (rows (inOrder entries)).toList := by
      have line : ("\x7b" ++ newLine 1).toList = ['\x7b', '\n', ' ', ' '] := rfl
      rw [String.toList_append, line]
      rfl
    have plain : '\r' ∉ ("\x7b" ++ newLine 1 ++ rows (inOrder entries)).toList := by
      rw [start]
      simp [return_not_mem_rows]
    rw [lineFeeds_eq plain, String.ofList_toList, read, start]
    obtain ⟨after, starts⟩ := rows_starts some_line
    have inside : Reader.entries (2 * ((rows (inOrder entries)).toList.length + 4) + 1) 1 []
        (rows (inOrder entries)).toList = .ok (ofIntegers (inOrder entries), []) :=
      entries_rows some_line short keys (by omega)
    rw [starts] at inside ⊢
    have found : document ('\x7b' :: '\n' :: ' ' :: ' ' :: '\x22' :: after) = _ :=
      document_object rfl inside
    rw [found]
    rfl

/-- The entries of an object that is read have different names. -/
theorem entries_nodup {fuel level : Nat} {done found : List (String × Json)} {s after : List Char}
    (apart : (Table.keys done).Nodup) (read : Reader.entries fuel level done s = .ok (found, after)) :
    (Table.keys found).Nodup := by
  induction fuel generalizing done s with
  | zero =>
    rw [Reader.entries] at read
    cases read
  | succ fuel ih =>
    rw [Reader.entries.eq_def] at read
    dsimp only at read
    split at read
    · obtain ⟨⟨name, rest⟩, -, read⟩ := bind_eq_ok.mp read
      dsimp only at read
      split at read
      · obtain ⟨⟨first, rest⟩, -, read⟩ := bind_eq_ok.mp read
        have kept : (Table.keys (Table.insert name first done)).Nodup := Table.nodup_insert apart
        dsimp only at read
        split at read
        · obtain ⟨rfl, -⟩ := Prod.mk.inj (Except.ok.inj read)
          exact kept
        · exact ih kept read
        · cases read
      · cases read
    · cases read

theorem literal_not_object {s after : List Char} {found : Json} (word : literal s = some (found, after))
    (entries : List (String × Json)) : found ≠ .obj entries := by
  obtain ⟨entry, member, chosen⟩ := List.exists_of_findSome?_eq_some word
  have plain : ∀ entry ∈ literals, entry.2 ≠ .obj entries := by
    simp [literals]
  dsimp only at chosen
  split at chosen
  · cases chosen
    exact plain _ member
  · cases chosen

theorem unsigned_not_object {negative : Bool} {s after : List Char} {found : Json}
    (read : unsigned negative s = some (found, after)) (entries : List (String × Json)) :
    found ≠ .obj entries := by
  unfold unsigned at read
  split at read
  split at read
  · cases read
  split at read
  split at read
  · cases read
    nofun
  · split at read
    cases read
    nofun

theorem numeral_not_object {s after : List Char} {found : Json} (read : numeral s = .ok (found, after))
    (entries : List (String × Json)) : found ≠ .obj entries := by
  unfold numeral at read
  split at read
  · split at read
    · cases read
    · cases read
      nofun
  next value _ number =>
    cases read
    unfold Reader.number at number
    split at number
    · exact unsigned_not_object number entries
    · exact unsigned_not_object number entries
  · cases read

theorem value_nodup {fuel level : Nat} {s after : List Char} {entries : List (String × Json)}
    (read : value fuel level s = .ok (.obj entries, after)) : (Table.keys entries).Nodup := by
  cases fuel with
  | zero =>
    rw [value] at read
    cases read
  | succ fuel =>
    rw [value.eq_def] at read
    dsimp only at read
    split at read
    · obtain ⟨⟨shown, rest⟩, -, read⟩ := bind_eq_ok.mp read
      cases read
    · obtain ⟨below, -, read⟩ := bind_eq_ok.mp read
      split at read
      · cases read
      · obtain ⟨⟨items, rest⟩, -, read⟩ := bind_eq_ok.mp read
        cases read
    · obtain ⟨below, -, read⟩ := bind_eq_ok.mp read
      split at read
      · cases read
        exact List.nodup_nil
      · obtain ⟨⟨found, rest⟩, inside, read⟩ := bind_eq_ok.mp read
        cases read
        have start : (Table.keys ([] : List (String × Json))).Nodup := List.nodup_nil
        exact entries_nodup start inside
    · split at read
      next found word =>
        cases read
        exact absurd rfl (literal_not_object word entries)
      · exact absurd rfl (numeral_not_object read entries)

theorem read_nodup {s : String} {entries : List (String × Json)} (found : read s = .ok (.obj entries)) :
    (Table.keys entries).Nodup := by
  have document_nodup : document s.toList = .ok (.obj entries) → (Table.keys entries).Nodup := by
    intro found
    rw [document.eq_def] at found
    split at found
    · cases found
    · obtain ⟨⟨value, rest⟩, inside, found⟩ := bind_eq_ok.mp found
      dsimp only at found
      split at found
      · obtain rfl := Except.ok.inj found
        exact value_nodup inside
      · cases found
  apply document_nodup
  rw [read] at found
  cases read : document s.toList with
  | error stop =>
    rw [read] at found
    cases found
  | ok value =>
    rw [read] at found
    exact congrArg _ (Except.ok.inj found)

end NativeBindings.Json
