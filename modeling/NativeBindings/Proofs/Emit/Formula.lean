import Mathlib.Data.Int.Bitwise
import NativeBindings.Keyword
import NativeBindings.Proofs.SpelledTypes
import NativeBindings.Text.Identifier

/-!
The expressions over integers that a module may write: how a text falls into tokens, how the tokens
are read by the precedence of their operators, and the value of what was read.
-/
namespace NativeBindings

inductive Formula where
  | number (n : Nat)
  | name (word : String)
  | member (owner word : String)
  | unary (operator : String) (operand : Formula)
  | binary (operator : String) (left right : Formula)
  deriving DecidableEq, Repr

namespace Formula

open Text

/-- The number that a text writes in decimal, without a needless zero. -/
def numeral? (text : String) : Option Nat :=
  if text = toString (decimalValue text.toList) then some (decimalValue text.toList) else none

/-- What a module may call something. -/
def isName (word : String) : Bool := isIdentifier word.toList && !isKeyword word

/-! ### Tokens -/

/-- The signs of two characters. -/
def doubleSigns : List (List Char) :=
  [['/', '/'], ['<', '<'], ['>', '>'], ['=', '='], ['!', '='], ['<', '='], ['>', '=']]

/-- Whether a character belongs to the token that was begun before it. -/
def joins (begun : List Char) (c : Char) : Bool :=
  if continuesIdentifier c then begun.all continuesIdentifier else doubleSigns.contains (begun ++ [c])

def finished (begun : List Char) : List String := if begun = [] then [] else [String.ofList begun]

/-- The tokens of a text behind the beginning of one. A token is as long as it can be. -/
def tokensFrom (begun : List Char) : List Char → List String
  | [] => finished begun
  | c :: rest =>
    if c = ' ' then finished begun ++ tokensFrom [] rest
    else if joins begun c then tokensFrom (begun ++ [c]) rest
    else finished begun ++ tokensFrom [c] rest

def tokens (text : String) : List String := tokensFrom [] text.toList

theorem joins_of_not_continues {begun : List Char} {c : Char} (apart : continuesIdentifier c = false)
    (single : doubleSigns.all (·.getLast? != some c) = true) : joins begun c = false := by
  rw [joins, if_neg (by rw [apart]; decide)]
  refine Bool.eq_false_iff.mpr fun double => ?_
  have last := List.all_eq_true.mp single _ (List.contains_iff_mem.mp double)
  rw [List.getLast?_append, List.getLast?_singleton, Option.some_or] at last
  exact absurd last (by simp)

/-- A blank ends the token before it. -/
theorem tokensFrom_blank (begun s rest : List Char) :
    tokensFrom begun (s ++ ' ' :: rest) = tokensFrom begun s ++ tokensFrom [] rest := by
  induction s generalizing begun with
  | nil => simp only [List.nil_append, tokensFrom, if_pos]
  | cons c s ih =>
    simp only [List.cons_append, tokensFrom]
    split
    · rw [ih, List.append_assoc]
    · split
      · exact ih _
      · rw [ih, List.append_assoc]

/-- A token goes no further than to a character that does not belong to it. -/
theorem tokensFrom_begun {begun rest : List Char} (ends : ∀ c ∈ rest.head?, joins begun c = false) :
    tokensFrom begun rest = finished begun ++ tokensFrom [] rest := by
  cases rest with
  | nil => simp [tokensFrom, finished]
  | cons c rest =>
    simp only [tokensFrom, ends c rfl, finished, Bool.false_eq_true, if_true, if_false, ite_self,
      List.nil_append]
    split <;> rfl

/-- A character that is a token of its own, wherever it stands. -/
structure Solitary (c : Char) : Prop where
  begins : ∀ begun, joins begun c = false
  ends : ∀ next, joins [c] next = false
  visible : c ≠ ' '

theorem tokensFrom_solitary {c : Char} (alone : Solitary c) (begun s rest : List Char) :
    tokensFrom begun (s ++ c :: rest) =
      tokensFrom begun s ++ String.ofList [c] :: tokensFrom [] rest := by
  induction s generalizing begun with
  | nil =>
    simp only [List.nil_append, tokensFrom, if_neg alone.visible, alone.begins, Bool.false_eq_true,
      if_false]
    rw [tokensFrom_begun fun next _ => alone.ends next]
    rfl
  | cons d s ih =>
    simp only [List.cons_append, tokensFrom]
    split
    · rw [ih, List.append_assoc]
    · split
      · exact ih _
      · rw [ih, List.append_assoc]

theorem tokensFrom_cons {c : Char} (alone : Solitary c) (rest : List Char) :
    tokensFrom [] (c :: rest) = String.ofList [c] :: tokensFrom [] rest :=
  tokensFrom_solitary alone [] [] rest

theorem Solitary.of_sign {c : Char} (apart : continuesIdentifier c = false)
    (single : doubleSigns.all (fun sign => sign.head? != some c && sign.getLast? != some c) = true)
    (visible : c ≠ ' ') : Solitary c := by
  have each := fun sign member => Bool.and_eq_true_iff.mp (List.all_eq_true.mp single sign member)
  refine ⟨fun begun => ?_, fun next => ?_, visible⟩
  · exact joins_of_not_continues apart (List.all_eq_true.mpr fun sign member => (each sign member).2)
  · rw [joins]
    split
    · simp [apart]
    · refine Bool.eq_false_iff.mpr fun double => ?_
      exact absurd (each _ (List.contains_iff_mem.mp double)).1 (by simp)

theorem signs_apart : ∀ c ∈ [' ', '(', ')', '.'], continuesIdentifier c = false := by
  have checked : ([' ', '(', ')', '.'].all fun c => !continuesIdentifier c) = true := by decide +kernel
  simpa using checked

theorem Solitary.opening : Solitary '(' := .of_sign (signs_apart _ (by decide)) (by decide) (by decide)

theorem Solitary.closing : Solitary ')' := .of_sign (signs_apart _ (by decide)) (by decide) (by decide)

theorem Solitary.dot : Solitary '.' := .of_sign (signs_apart _ (by decide)) (by decide) (by decide)

/-- Characters of words are one token. -/
theorem tokens_word {word : String} (filled : word.toList ≠ [])
    (all : ∀ c ∈ word.toList, continuesIdentifier c = true) : tokens word = [word] := by
  have whole (begun s : List Char) (before : begun.all continuesIdentifier = true)
      (behind : ∀ c ∈ s, continuesIdentifier c = true) : tokensFrom begun s = finished (begun ++ s) := by
    induction s generalizing begun with
    | nil => rw [tokensFrom, List.append_nil]
    | cons c s ih =>
      have here := behind c List.mem_cons_self
      have visible : c ≠ ' ' := by
        rintro rfl
        exact Bool.false_ne_true ((signs_apart _ (by decide)).symm.trans here)
      have together : joins begun c = true := by rw [joins, if_pos here, before]
      rw [tokensFrom, if_neg visible, if_pos together,
        ih _ (by simp [before, here]) fun c member => behind c (List.mem_cons_of_mem _ member),
        List.append_assoc, List.singleton_append]
  rw [tokens, whole [] word.toList rfl all, List.nil_append, finished, if_neg filled, String.ofList_toList]

theorem tokens_name {word : String} (named : isName word = true) : tokens word = [word] := by
  obtain ⟨named, -⟩ := Bool.and_eq_true_iff.mp named
  cases same : word.toList with
  | nil => rw [same] at named; exact absurd named (by decide)
  | cons c rest =>
    rw [same, isIdentifier, Bool.and_eq_true, List.all_eq_true] at named
    refine tokens_word (by simp [same]) fun d member => ?_
    rw [same] at member
    obtain rfl | member := List.mem_cons.mp member
    · rw [continuesIdentifier, named.1, Bool.true_or]
    · exact named.2 d member

theorem bounds_of_isDigit {c : Char} (digit : c.isDigit = true) : 0x30 ≤ c.toNat ∧ c.toNat ≤ 0x39 := by
  simp only [Char.isDigit, Bool.and_eq_true, decide_eq_true_eq] at digit
  exact ⟨UInt32.le_iff_toNat_le.mp digit.1, UInt32.le_iff_toNat_le.mp digit.2⟩

theorem continuesIdentifier_of_isDigit {c : Char} (digit : c.isDigit = true) :
    continuesIdentifier c = true := by
  have further : furtherChars.has c = true :=
    List.any_eq_true.mpr ⟨(0x30, 0x39), List.mem_cons_self, by simpa using bounds_of_isDigit digit⟩
  rw [continuesIdentifier, further, Bool.or_true]

theorem startsIdentifier_of_isDigit {c : Char} (digit : c.isDigit = true) :
    startsIdentifier c = false := by
  have bounds := bounds_of_isDigit digit
  have inner : noStarts.has c = true :=
    List.any_eq_true.mpr ⟨(0x30, 0x39), List.mem_cons_self, by simpa using bounds⟩
  have other : otherStarts.has c = false := by
    simp only [Ranges.has, otherStarts, List.any_cons, List.any_nil]
    grind
  rw [startsIdentifier, inner, other, Bool.not_true, Bool.and_false, Bool.or_false]

/-- A name is no number. -/
theorem numeral?_name {word : String} (named : isName word = true) : numeral? word = none := by
  rw [numeral?, if_neg]
  intro decimal
  obtain ⟨named, -⟩ := Bool.and_eq_true_iff.mp named
  cases same : word.toList with
  | nil => rw [same] at named; exact absurd named (by decide)
  | cons c rest =>
    rw [same, isIdentifier, Bool.and_eq_true] at named
    have digit : c.isDigit = true :=
      Spelling.isDigit_of_mem (decimal ▸ same ▸ List.mem_cons_self : c ∈ (toString _).toList)
    exact absurd named.1 (by simp [startsIdentifier_of_isDigit digit])

theorem tokens_numeral {text : String} {n : Nat} (written : numeral? text = some n) :
    tokens text = [text] := by
  rw [numeral?] at written
  split at written
  · next decimal =>
    rw [decimal]
    exact tokens_word (Spelling.digits_ne_nil _) fun c member =>
      continuesIdentifier_of_isDigit (Spelling.isDigit_of_mem member)
  · exact nomatch written

/-! ### Precedence -/

/-- The operators between two operands; a higher level binds closer. -/
def levels : List (String × Nat) :=
  [("or", 1), ("and", 2), ("==", 4), ("!=", 4), ("<", 4), (">", 4), ("<=", 4), (">=", 4), ("|", 5),
    ("^", 6), ("&", 7), ("<<", 8), (">>", 8), ("+", 9), ("-", 9), ("*", 10), ("//", 10), ("%", 10)]

/-- The operators before an operand. -/
def prefixLevels : List (String × Nat) := [("not", 3), ("+", 11), ("-", 11), ("~", 11)]

/-- The level of comparisons. They are not read in chains. -/
def comparisons : Nat := 4

/-- A number, a name or the member of a class. -/
def readAtom (token : String) (rest : List String) : Option (Formula × List String) :=
  match numeral? token, rest with
  | some n, rest => some (.number n, rest)
  | none, "." :: word :: rest =>
    if isName token && isName word then some (.member token word, rest) else none
  | none, rest => if isName token then some (.name token, rest) else none

mutual

/-- An operand and the operators behind it that are of some level at least. -/
def readFrom : Nat → Nat → List String → Option (Formula × List String)
  | fuel + 1, least, token :: rest =>
    if token = "(" then
      match readFrom fuel 1 rest with
      | some (inner, ")" :: rest) => readOn fuel least 11 inner rest
      | _ => none
    else
      match prefixLevels.lookup token with
      | some level =>
        if least ≤ level then
          match readFrom fuel level rest with
          | some (operand, rest) => readOn fuel least level (.unary token operand) rest
          | none => none
        else none
      | none =>
        match readAtom token rest with
        | some (atom, rest) => readOn fuel least 11 atom rest
        | none => none
  | _, _, _ => none

/-- The operators behind a left operand that are within two levels. -/
def readOn : Nat → Nat → Nat → Formula → List String → Option (Formula × List String)
  | fuel + 1, least, most, left, token :: rest =>
    match levels.lookup token with
    | some level =>
      if least ≤ level ∧ level ≤ most then
        match readFrom fuel (level + 1) rest with
        | some (right, rest) =>
          readOn fuel least (if level = comparisons then level - 1 else level)
            (.binary token left right) rest
        | none => none
      else some (left, token :: rest)
    | none => some (left, token :: rest)
  | _ + 1, _, _, left, [] => some (left, [])
  | 0, _, _, _, _ => none

end

/-- Behind a whole expression there is nothing, or the parenthesis that closes it. -/
def Closed (rest : List String) : Prop := ∀ token ∈ rest.head?, token = ")"

theorem Closed.nil : Closed [] := nofun

theorem Closed.cons (rest : List String) : Closed (")" :: rest) := fun _ same =>
  (Option.some.inj same).symm

theorem readOn_closed {rest : List String} (closed : Closed rest) {fuel : Nat} (more : 0 < fuel)
    (least most : Nat) (left : Formula) : readOn fuel least most left rest = some (left, rest) := by
  obtain ⟨fuel, rfl⟩ := Nat.exists_eq_add_of_lt more
  cases rest with
  | nil => rw [Nat.zero_add, readOn]
  | cons token rest =>
    obtain rfl := closed token rfl
    rw [Nat.zero_add]
    rfl

theorem readFrom_atom {token : String} {rest after : List String} {atom : Formula}
    (atomic : readAtom token rest = some (atom, after)) (fuel least : Nat) :
    readFrom (fuel + 1) least (token :: rest) = readOn fuel least 11 atom after := by
  have signs : ∀ sign ∈ "(" :: prefixLevels.map Prod.fst,
      numeral? sign = none ∧ isName sign = false := by decide +kernel
  have apart : token ∉ "(" :: prefixLevels.map Prod.fst := by
    intro member
    obtain ⟨number, name⟩ := signs token member
    unfold readAtom at atomic
    rw [number] at atomic
    split at atomic <;> simp_all
  have operand : prefixLevels.lookup token = none := by
    refine List.lookup_eq_none_iff.mpr fun entry member => bne_iff_ne.mpr ?_
    rintro rfl
    exact apart (List.mem_cons_of_mem _ (List.mem_map_of_mem member))
  rw [readFrom, if_neg (List.ne_of_not_mem_cons apart)]
  simp only [operand, atomic]

theorem readAtom_number {token : String} {n : Nat} (written : numeral? token = some n)
    (rest : List String) : readAtom token rest = some (.number n, rest) := by
  simp only [readAtom, written]

theorem readAtom_member {owner word : String} (owned : isName owner = true)
    (named : isName word = true) (rest : List String) :
    readAtom owner ("." :: word :: rest) = some (.member owner word, rest) := by
  simp only [readAtom, numeral?_name owned, owned, named, Bool.and_self, if_true]

theorem readAtom_name {word : String} (named : isName word = true) {rest : List String}
    (closed : Closed rest) : readAtom word rest = some (.name word, rest) := by
  have dotless : rest.head? ≠ some "." := fun same => absurd (closed _ same) (by decide)
  unfold readAtom
  rw [numeral?_name named]
  split
  · next same => exact nomatch same
  · exact absurd rfl dotless
  · rw [if_pos named]

/-- An expression in parentheses is an operand, whatever stands around it. -/
theorem readFrom_group {fuel : Nat} {rest after : List String} {inner : Formula}
    (read : readFrom fuel 1 rest = some (inner, ")" :: after)) (least : Nat) :
    readFrom (fuel + 1) least ("(" :: rest) = readOn fuel least 11 inner after := by
  simp only [readFrom, if_true, read]

theorem readFrom_prefix {fuel level least : Nat} {operator : String} {rest after : List String}
    {operand : Formula} (plain : operator ≠ "(") (known : prefixLevels.lookup operator = some level)
    (low : least ≤ level) (read : readFrom fuel level rest = some (operand, after)) :
    readFrom (fuel + 1) least (operator :: rest) =
      readOn fuel least level (.unary operator operand) after := by
  simp only [readFrom, if_neg plain, known, if_pos low, read]

/-- An operator between two operands, the second one followed by nothing of the same expression. -/
theorem readOn_operator {fuel level least most : Nat} {operator : String} {left right : Formula}
    {rest after : List String} (known : levels.lookup operator = some level)
    (within : least ≤ level ∧ level ≤ most)
    (read : readFrom fuel (level + 1) rest = some (right, after)) (closed : Closed after)
    (more : 0 < fuel) :
    readOn (fuel + 1) least most left (operator :: rest) =
      some (.binary operator left right, after) := by
  simp only [readOn, known, if_pos within, read]
  exact readOn_closed closed more ..

/-- The expression that a text writes. Every step takes a token, so their number is fuel enough. -/
def read (text : String) : Option Formula :=
  match readFrom ((tokens text).length + 1) 1 (tokens text) with
  | some (formula, []) => some formula
  | _ => none

example : read "a << 2 | - b.c // 3" =
    some (.binary "|" (.binary "<<" (.name "a") (.number 2))
      (.binary "//" (.unary "-" (.member "b" "c")) (.number 3))) := by decide +kernel

/-! ### Values -/

/-- What a truth value counts as. -/
def truth (holds : Bool) : Int := if holds then 1 else 0

/-- The operators that C and a module share. Integers have no bounds and a count is not negative. -/
def shared (operator : String) (a b : Int) : Option Int :=
  match operator with
  | "+" => some (a + b)
  | "-" => some (a - b)
  | "*" => some (a * b)
  | "<<" => if 0 ≤ b then some (a * 2 ^ b.toNat) else none
  | ">>" => if 0 ≤ b then some (a.fdiv (2 ^ b.toNat)) else none
  | "&" => some (a.land b)
  | "|" => some (a.lor b)
  | "^" => some (a.xor b)
  | "==" => some (truth (a == b))
  | "!=" => some (truth (a != b))
  | "<" => some (truth (a < b))
  | ">" => some (truth (b < a))
  | "<=" => some (truth (a ≤ b))
  | ">=" => some (truth (b ≤ a))
  | _ => none

def sharedUnary (operator : String) (a : Int) : Option Int :=
  match operator with
  | "+" => some a
  | "-" => some (-a)
  | "~" => some (-a - 1)
  | _ => none

/-- A module divides to the floor. -/
def combine (operator : String) (a b : Int) : Option Int :=
  if operator = "//" then if b = 0 then none else some (a.fdiv b)
  else if operator = "%" then if b = 0 then none else some (a.fmod b)
  else shared operator a b

/-- The integers of constants, by the enum that one is named with and its own name. -/
abbrev Assignment := Option String → String → Int

/-- The words that join truth values give one of their operands, and the right one is evaluated only
where the left one leaves it open. -/
def value (assigned : Assignment) : Formula → Option Int
  | number n => some n
  | name word => some (assigned none word)
  | member owner word => some (assigned (some owner) word)
  | unary operator operand => do
    let a ← operand.value assigned
    if operator = "not" then some (truth (a == 0)) else sharedUnary operator a
  | binary operator left right => do
    let a ← left.value assigned
    if operator = "and" then if a = 0 then some a else right.value assigned
    else if operator = "or" then if a = 0 then right.value assigned else some a
    else combine operator a (← right.value assigned)

end Formula

/-- The integer that a text of a module stands for. -/
def integerOf (assigned : Formula.Assignment) (text : String) : Option Int :=
  (Formula.read text).bind (Formula.value assigned)

example : integerOf (fun _ _ => 5) "(((- 7)) // (2)) + (2 and not x)" = some (-4) := by decide +kernel

end NativeBindings
