import NativeBindings.Proofs.Emit.ConstantReferences
import NativeBindings.Proofs.Emit.Formula

/-!
The values of enum constants. A module writes an expression as the header does, with its own
operators; division and the joining of truth values mean something else there where an operand is
negative or neither zero nor one.
-/
namespace NativeBindings

namespace Constant

open Formula (Assignment truth isName numeral?)

/-! ### What the header means -/

def unaryOperators : List String := ["+", "-", "~", "!"]

def binaryOperators : List String :=
  ["+", "-", "*", "/", "%", "<<", ">>", "&", "|", "^", "&&", "||", "==", "!=", "<", ">", "<=", ">="]

/-- Whether a value is built from integers, operators and names that a module may use. -/
def isReadable (enum : Label) : Constant → Bool
  | literal text => (numeral? text).isSome
  | reference name owner => isName name.plain && (!isForeign owner enum || isName owner.plain)
  | paren inner => inner.isReadable enum
  | unary (.str operator) operand => unaryOperators.contains operator && operand.isReadable enum
  | binary (.str operator) left right =>
    binaryOperators.contains operator && (left.isReadable enum && right.isReadable enum)
  | _ => false

/-- C divides towards zero. -/
def combine (operator : String) (a b : Int) : Option Int :=
  if operator = "/" then if b = 0 then none else some (a.tdiv b)
  else if operator = "%" then if b = 0 then none else some (a.tmod b)
  else Formula.shared operator a b

/-- The integer that a value is in C, where it is one. -/
def value (assigned : Assignment) (enum : Label) : Constant → Option Int
  | literal text => (numeral? text).map Int.ofNat
  | reference name owner =>
    some (assigned (if isForeign owner enum then some owner.plain else none) name.plain)
  | paren inner => inner.value assigned enum
  | unary (.str operator) operand => do
    let a ← operand.value assigned enum
    if operator = "!" then some (truth (a == 0)) else Formula.sharedUnary operator a
  | binary (.str operator) left right => do
    let a ← left.value assigned enum
    if operator = "&&" then
      if a = 0 then some 0 else do some (truth ((← right.value assigned enum) != 0))
    else if operator = "||" then
      if a = 0 then do some (truth ((← right.value assigned enum) != 0)) else some 1
    else combine operator a (← right.value assigned enum)
  | _ => none

/-- Whether the right operand is left out. -/
def isDecided (operator : Label) (a : Option Int) : Bool :=
  operator = .str "&&" ∧ a = some 0 ∨ operator = .str "||" ∧ a ≠ some 0

/-- A value and the values in it that C evaluates. -/
def parts (assigned : Assignment) (enum : Label) : Constant → List Constant
  | literal text => [literal text]
  | reference name owner => [reference name owner]
  | paren inner => paren inner :: inner.parts assigned enum
  | unary operator operand => unary operator operand :: operand.parts assigned enum
  | binary operator left right =>
    binary operator left right :: (left.parts assigned enum ++
      if isDecided operator (left.value assigned enum) then [] else right.parts assigned enum)

/-- Operands for which an operator gives in a module what it gives in C. -/
def agreesAt (operator : Label) (a b : Int) : Prop :=
  (operator = .str "/" ∨ operator = .str "%" → b ∣ a ∨ (0 < a ↔ 0 < b)) ∧
  (operator = .str "&&" → a = 0 ∨ b = 0 ∨ b = 1) ∧
  (operator = .str "||" → a = 1 ∨ a = 0 ∧ (b = 0 ∨ b = 1))

instance (operator : Label) (a b : Int) : Decidable (agreesAt operator a b) :=
  inferInstanceAs (Decidable (_ ∧ _ ∧ _))

/-- The outermost operator agrees at its operands. One that is left out does not matter. -/
def Agrees (assigned : Assignment) (enum : Label) : Constant → Prop
  | binary operator left right =>
    agreesAt operator ((left.value assigned enum).getD 0) ((right.value assigned enum).getD 0)
  | literal _ | reference _ _ | paren _ | unary _ _ => True

instance (assigned : Assignment) (enum : Label) : DecidablePred (Agrees assigned enum)
  | binary _ _ _ => inferInstanceAs (Decidable (agreesAt _ _ _))
  | literal _ | reference _ _ | paren _ | unary _ _ => .isTrue trivial

/-- The rendering of a value is an expression for the integer that the value is. -/
def IsKept (assigned : Assignment) (enum : Label) (constant : Constant) : Prop :=
  ∃ v shown, constant.value assigned enum = some v ∧
    constant.render moduleOperators enum = .ok shown ∧ integerOf assigned shown.plain = some v

/-! ### What the module reads -/

/-- What a module reads in the text of a value. -/
def formula (enum : Label) : Constant → Formula
  | literal text => .number ((numeral? text).getD 0)
  | reference name owner =>
    if isForeign owner enum then .member owner.plain name.plain else .name name.plain
  | paren inner => inner.formula enum
  | unary operator operand => .unary (spell moduleOperators operator) (operand.formula enum)
  | binary operator left right =>
    .binary (spell moduleOperators operator) (left.formula enum) (right.formula enum)

/-- The tokens of the text of a value. -/
def written (enum : Label) : Constant → List String
  | literal text => [text]
  | reference name owner =>
    if isForeign owner enum then [owner.plain, ".", name.plain] else [name.plain]
  | paren inner => "(" :: (inner.written enum ++ [")"])
  | unary operator operand =>
    "(" :: spell moduleOperators operator :: (operand.written enum ++ [")"])
  | binary operator left right =>
    "(" :: "(" :: (left.written enum ++ ")" :: spell moduleOperators operator :: "(" ::
      (right.written enum ++ [")", ")"]))

theorem of_readable_unary {enum operator : Label} {operand : Constant}
    (readable : (unary operator operand).isReadable enum = true) :
    ∃ word ∈ unaryOperators, operator = .str word ∧ operand.isReadable enum = true := by
  cases operator with
  | str word =>
    obtain ⟨known, readable⟩ := Bool.and_eq_true_iff.mp readable
    exact ⟨word, List.contains_iff_mem.mp known, rfl, readable⟩
  | _ => exact absurd readable Bool.false_ne_true

theorem of_readable_binary {enum operator : Label} {left right : Constant}
    (readable : (binary operator left right).isReadable enum = true) :
    ∃ word ∈ binaryOperators, operator = .str word ∧ left.isReadable enum = true ∧
      right.isReadable enum = true := by
  cases operator with
  | str word =>
    obtain ⟨known, readable⟩ := Bool.and_eq_true_iff.mp readable
    exact ⟨word, List.contains_iff_mem.mp known, rfl, Bool.and_eq_true_iff.mp readable⟩
  | _ => exact absurd readable Bool.false_ne_true

theorem tokens_spell {operator : String} (known : operator ∈ unaryOperators ++ binaryOperators) :
    Formula.tokensFrom [] (spell moduleOperators (.str operator)).toList =
      [spell moduleOperators (.str operator)] := by
  revert operator
  decide +kernel

open Formula in
theorem tokens_text {enum : Label} {constant : Constant} (readable : constant.isReadable enum = true) :
    tokensFrom [] (constant.text moduleOperators enum).toList = constant.written enum := by
  induction constant with
  | literal text =>
    obtain ⟨n, written⟩ := Option.isSome_iff_exists.mp readable
    exact tokens_numeral written
  | reference name owner =>
    obtain ⟨named, owned⟩ := Bool.and_eq_true_iff.mp readable
    have own : tokensFrom [] name.plain.toList = [name.plain] := tokens_name named
    rw [text, spellReference, written]
    split
    · next foreign =>
      rw [foreign, Bool.not_true, Bool.false_or] at owned
      have other : tokensFrom [] owner.plain.toList = [owner.plain] := tokens_name owned
      have split : (owner.plain ++ "." ++ name.plain).toList =
          owner.plain.toList ++ '.' :: name.plain.toList := by simp
      rw [split, tokensFrom_solitary .dot, other, own]
      rfl
    · exact own
  | paren inner ih =>
    have split : ("(" ++ inner.text moduleOperators enum ++ ")").toList =
        '(' :: ((inner.text moduleOperators enum).toList ++ [')']) := by simp
    rw [text, split, tokensFrom_cons .opening, tokensFrom_solitary .closing, ih readable]
    rfl
  | unary operator operand ih =>
    obtain ⟨operator, known, rfl, inner⟩ := of_readable_unary readable
    have split : ("(" ++ spell moduleOperators (.str operator) ++ " " ++
        operand.text moduleOperators enum ++ ")").toList =
        '(' :: ((spell moduleOperators (.str operator)).toList ++ ' ' ::
          ((operand.text moduleOperators enum).toList ++ [')'])) := by simp
    rw [text, split, tokensFrom_cons .opening, tokensFrom_blank, tokensFrom_solitary .closing,
      tokens_spell (List.mem_append_left _ known), ih inner]
    rfl
  | binary operator left right first second =>
    obtain ⟨operator, known, rfl, readableLeft, readableRight⟩ := of_readable_binary readable
    have split : ("((" ++ left.text moduleOperators enum ++ ") " ++
        spell moduleOperators (.str operator) ++ " (" ++ right.text moduleOperators enum ++
        "))").toList = '(' :: '(' :: ((left.text moduleOperators enum).toList ++ ')' :: ' ' ::
          ((spell moduleOperators (.str operator)).toList ++ ' ' :: '(' ::
            ((right.text moduleOperators enum).toList ++ ')' :: [')']))) := by simp
    have blank (rest : List Char) : tokensFrom [] (' ' :: rest) = tokensFrom [] rest := rfl
    rw [text, split, tokensFrom_cons .opening, tokensFrom_cons .opening,
      tokensFrom_solitary .closing, blank, tokensFrom_blank, tokensFrom_cons .opening,
      tokensFrom_solitary .closing, tokensFrom_cons .closing, tokens_spell (List.mem_append_right _ known),
      first readableLeft, second readableRight]
    rfl

theorem level_unary : ∀ operator ∈ unaryOperators,
    spell moduleOperators (.str operator) ≠ "(" ∧ ∃ level < 12, 1 ≤ level ∧
      Formula.prefixLevels.lookup (spell moduleOperators (.str operator)) = some level := by decide

theorem level_binary : ∀ operator ∈ binaryOperators, ∃ level < 11, 1 ≤ level ∧
    Formula.levels.lookup (spell moduleOperators (.str operator)) = some level := by decide

open Formula in
/-- A module reads the text of a value as the value is built. -/
theorem readFrom_written {enum : Label} {constant : Constant}
    (readable : constant.isReadable enum = true) {fuel : Nat} (least : Nat)
    (enough : (constant.written enum).length < fuel) {rest : List String} (closed : Closed rest) :
    readFrom fuel least (constant.written enum ++ rest) = some (constant.formula enum, rest) := by
  induction constant generalizing fuel least rest with
  | literal text =>
    obtain ⟨n, written⟩ := Option.isSome_iff_exists.mp readable
    obtain ⟨fuel, rfl⟩ : ∃ less, fuel = less + 1 := ⟨fuel - 1, by omega⟩
    have more : 0 < fuel := by simpa [Constant.written] using enough
    rw [Constant.written, List.singleton_append, readFrom_atom (readAtom_number written rest),
      readOn_closed closed more, formula, written]
    rfl
  | reference name owner =>
    obtain ⟨named, owned⟩ := Bool.and_eq_true_iff.mp readable
    obtain ⟨fuel, rfl⟩ : ∃ less, fuel = less + 1 := ⟨fuel - 1, by omega⟩
    rw [Constant.written] at enough ⊢
    rw [formula]
    split
    · next foreign =>
      rw [foreign, Bool.not_true, Bool.false_or] at owned
      rw [if_pos foreign] at enough
      exact (readFrom_atom (readAtom_member owned named rest) ..).trans
        (readOn_closed closed (by simp at enough; omega) ..)
    · next own =>
      rw [if_neg own] at enough
      exact (readFrom_atom (readAtom_name named closed) ..).trans
        (readOn_closed closed (by simpa using enough) ..)
  | paren inner ih =>
    rw [Constant.written, List.length_cons, List.length_append] at enough
    obtain ⟨fuel, rfl⟩ : ∃ less, fuel = less + 2 := ⟨fuel - 2, by omega⟩
    have inside := ih readable 1 (by omega : _ < fuel + 1) (.cons rest)
    rw [Constant.written, List.cons_append, List.append_assoc, List.singleton_append,
      readFrom_group inside, readOn_closed closed (by omega), formula]
  | unary operator operand ih =>
    obtain ⟨operator, known, rfl, inner⟩ := of_readable_unary readable
    obtain ⟨plain, level, -, low, found⟩ := level_unary operator known
    simp only [Constant.written, List.length_cons, List.length_append] at enough
    obtain ⟨fuel, rfl⟩ : ∃ less, fuel = less + 3 := ⟨fuel - 3, by omega⟩
    have inside := readFrom_prefix plain found low
      (ih inner level (by omega : _ < fuel + 1) (.cons rest))
    rw [readOn_closed (.cons rest) (by omega)] at inside
    rw [Constant.written, List.cons_append, List.cons_append, List.append_assoc, List.singleton_append,
      readFrom_group inside, readOn_closed closed (by omega), formula]
  | binary operator left right first second =>
    obtain ⟨operator, known, rfl, readableLeft, readableRight⟩ := of_readable_binary readable
    obtain ⟨level, high, low, found⟩ := level_binary operator known
    simp only [Constant.written, List.length_cons, List.length_append, List.length_nil] at enough
    obtain ⟨fuel, rfl⟩ : ∃ less, fuel = less + 4 := ⟨fuel - 4, by omega⟩
    have before := readFrom_group
      (first readableLeft 1 (by omega : _ < fuel + 2)
        (.cons (spell moduleOperators (.str operator) :: "(" :: (right.written enum ++ ")" :: ")" :: rest)))) 1
    have behind := readFrom_group
      (second readableRight 1 (by omega : _ < fuel) (.cons (")" :: rest))) (level + 1)
    rw [readOn_closed (.cons rest) (by omega)] at behind
    rw [readOn_operator found ⟨low, by omega⟩ behind (.cons rest) (by omega)] at before
    have whole := readFrom_group before least
    rw [readOn_closed closed (by omega)] at whole
    rw [formula, ← whole, Constant.written]
    simp only [List.cons_append, List.append_assoc, List.nil_append]

open Formula in
theorem read_text {enum : Label} {constant : Constant} (readable : constant.isReadable enum = true) :
    read (constant.text moduleOperators enum) = some (constant.formula enum) := by
  have whole := readFrom_written readable 1 (Nat.lt_succ_self _) .nil
  rw [List.append_nil, ← tokens_text readable] at whole
  rw [Formula.read, tokens, whole]

theorem render_readable {enum : Label} {constant : Constant}
    (readable : constant.isReadable enum = true) :
    ∃ shown, constant.render moduleOperators enum = .ok shown ∧
      shown.plain = constant.text moduleOperators enum := by
  have known : constant.haveKeys = .ok () := by
    induction constant with
    | literal | reference => rfl
    | paren inner ih => exact ih readable
    | unary operator operand ih =>
      obtain ⟨operator, -, rfl, inner⟩ := of_readable_unary readable
      exact ih inner
    | binary operator left right first second =>
      obtain ⟨operator, -, rfl, readableLeft, readableRight⟩ := of_readable_binary readable
      exact (congrArg (· >>= fun _ => right.haveKeys) (first readableLeft)).trans (second readableRight)
  obtain ⟨shown, done⟩ : ∃ shown, constant.render moduleOperators enum = .ok shown := by
    unfold render
    rw [known]
    cases constant <;> exact ⟨_, rfl⟩
  exact ⟨shown, done, render_eq_ok done⟩

/-- What a module makes of a value is what it reads in its text. -/
theorem isKept_iff {assigned : Assignment} {enum : Label} {constant : Constant}
    (readable : constant.isReadable enum = true) {v : Int}
    (defined : constant.value assigned enum = some v) :
    constant.IsKept assigned enum ↔ (constant.formula enum).value assigned = some v := by
  obtain ⟨shown, done, plain⟩ := render_readable readable
  have same : integerOf assigned shown.plain = (constant.formula enum).value assigned := by
    rw [plain, integerOf, read_text readable]
    rfl
  constructor
  · rintro ⟨w, other, valued, rendered, kept⟩
    obtain rfl := Except.ok.inj (done.symm.trans rendered)
    rw [← same, kept, ← valued, defined]
  · exact fun kept => ⟨v, shown, defined, done, same.trans kept⟩

/-! ### Where the meanings agree -/

theorem fdiv_eq_tdiv_iff {a b : Int} (nonzero : b ≠ 0) :
    a.fdiv b = a.tdiv b ↔ b ∣ a ∨ (0 < a ↔ 0 < b) := by
  have zero : a = 0 → b ∣ a := fun same => same ▸ Int.dvd_zero b
  rw [Int.fdiv_eq_tdiv]
  split <;> grind

theorem fmod_eq_tmod_iff {a b : Int} (nonzero : b ≠ 0) :
    a.fmod b = a.tmod b ↔ b ∣ a ∨ (0 < a ↔ 0 < b) := by
  have zero : a = 0 → b ∣ a := fun same => same ▸ Int.dvd_zero b
  rw [Int.fmod_eq_tmod]
  split <;> grind

def sharedOperators : List String :=
  ["+", "-", "*", "<<", ">>", "&", "|", "^", "==", "!=", "<", ">", "<=", ">="]

theorem mem_sharedOperators {operator : String} {a b v : Int}
    (given : Formula.shared operator a b = some v) : operator ∈ sharedOperators := by
  unfold Formula.shared at given
  split at given <;> first | decide | exact nomatch given

theorem spell_shared : ∀ operator ∈ sharedOperators,
    spell moduleOperators (.str operator) = operator ∧ operator ≠ "//" ∧ operator ≠ "%" ∧
      operator ≠ "and" ∧ operator ≠ "or" := by decide

theorem agreesAt_shared {operator : String} (among : operator ∈ sharedOperators) (a b : Int) :
    agreesAt (.str operator) a b := by
  have apart : ∀ operator ∈ sharedOperators, operator ≠ "/" ∧ operator ≠ "%" ∧ operator ≠ "&&" ∧
      operator ≠ "||" := by decide
  simp [agreesAt, apart operator among]

/-- Where an operator needs both operands, it gives the same in a module at the operands at which it
agrees, and only there. -/
theorem combine_iff {operator : String} {a b v : Int} (given : combine operator a b = some v) :
    Formula.combine (spell moduleOperators (.str operator)) a b = some v ↔
      agreesAt (.str operator) a b := by
  unfold combine at given
  split at given
  · next division =>
    subst division
    split at given
    · exact nomatch given
    · next nonzero =>
      obtain rfl := Option.some.inj given
      rw [show spell moduleOperators (.str "/") = "//" by decide, Formula.combine, if_pos rfl,
        if_neg nonzero, Option.some.injEq, fdiv_eq_tdiv_iff nonzero]
      simp [agreesAt]
  · split at given
    · next remainder =>
      subst remainder
      split at given
      · exact nomatch given
      · next nonzero =>
        obtain rfl := Option.some.inj given
        rw [show spell moduleOperators (.str "%") = "%" by decide, Formula.combine,
          if_neg (by decide), if_pos rfl, if_neg nonzero, Option.some.injEq, fmod_eq_tmod_iff nonzero]
        simp [agreesAt]
    · have among := mem_sharedOperators given
      obtain ⟨same, noDivision, noRemainder, -⟩ := spell_shared operator among
      rw [same, Formula.combine, if_neg noDivision, if_neg noRemainder]
      exact ⟨fun _ => agreesAt_shared among a b, fun _ => given⟩

theorem spell_combined {operator : String} {a b v : Int} (given : combine operator a b = some v) :
    spell moduleOperators (.str operator) ≠ "and" ∧ spell moduleOperators (.str operator) ≠ "or" := by
  have among : operator ∈ "/" :: "%" :: sharedOperators := by
    unfold combine at given
    split at given
    · next division => exact division ▸ List.mem_cons_self
    · split at given
      · next remainder => exact remainder ▸ List.mem_cons_of_mem _ List.mem_cons_self
      · exact List.mem_cons_of_mem _ (List.mem_cons_of_mem _ (mem_sharedOperators given))
  have all : ∀ operator ∈ "/" :: "%" :: sharedOperators,
      spell moduleOperators (.str operator) ≠ "and" ∧ spell moduleOperators (.str operator) ≠ "or" := by
    decide
  exact all operator among

section
variable {assigned : Assignment} {enum : Label}

theorem self_mem_parts (constant : Constant) : constant ∈ constant.parts assigned enum := by
  cases constant <;> exact List.mem_cons_self

theorem of_value_unary {operator : Label} {operand : Constant} {v : Int}
    (defined : (unary operator operand).value assigned enum = some v) :
    ∃ word a, operator = .str word ∧ operand.value assigned enum = some a := by
  cases operator with
  | str word =>
    obtain ⟨a, valued, -⟩ := Option.bind_eq_some_iff.mp defined
    exact ⟨word, a, rfl, valued⟩
  | _ => exact absurd defined.symm (Option.some_ne_none v)

theorem of_value_binary {operator : Label} {left right : Constant} {v : Int}
    (defined : (binary operator left right).value assigned enum = some v) :
    ∃ word a, operator = .str word ∧ left.value assigned enum = some a := by
  cases operator with
  | str word =>
    obtain ⟨a, valued, -⟩ := Option.bind_eq_some_iff.mp defined
    exact ⟨word, a, rfl, valued⟩
  | _ => exact absurd defined.symm (Option.some_ne_none v)

theorem unary_kept {operator : String} {operand : Constant} {v : Int}
    (defined : (unary (.str operator) operand).value assigned enum = some v)
    (kept : (operand.formula enum).value assigned = operand.value assigned enum) :
    ((unary (.str operator) operand).formula enum).value assigned =
      (unary (.str operator) operand).value assigned enum := by
  obtain ⟨a, valued, given⟩ := Option.bind_eq_some_iff.mp defined
  rw [defined, formula, Formula.value, kept, valued, Option.bind_eq_bind, Option.bind_some]
  by_cases negation : operator = "!"
  · subst negation
    rwa [if_pos rfl] at given
  · rw [if_neg negation] at given
    have among : operator ∈ ["+", "-", "~"] := by
      unfold Formula.sharedUnary at given
      split at given <;> first | decide | exact nomatch given
    have same : ∀ operator ∈ ["+", "-", "~"], spell moduleOperators (.str operator) = operator ∧
        operator ≠ "not" := by decide
    rw [(same operator among).1, if_neg (same operator among).2, given]

theorem right_evaluated {operator : String} {left right : Constant} {v : Int}
    (defined : (binary (.str operator) left right).value assigned enum = some v)
    (evaluated : isDecided (.str operator) (left.value assigned enum) = false) :
    ∃ b, right.value assigned enum = some b := by
  obtain ⟨a, valued, given⟩ := Option.bind_eq_some_iff.mp defined
  simp only [isDecided, valued, decide_eq_false_iff_not, Json.str.injEq, Option.some.injEq, ne_eq] at evaluated
  split at given
  · split at given
    · exact absurd (.inl ⟨‹_›, ‹_›⟩) evaluated
    · exact (Option.bind_eq_some_iff.mp given).imp fun b valuedRight => valuedRight.1
  · split at given
    · split at given
      · exact (Option.bind_eq_some_iff.mp given).imp fun b valuedRight => valuedRight.1
      · exact absurd (.inr ⟨‹_›, ‹_›⟩) evaluated
    · exact (Option.bind_eq_some_iff.mp given).imp fun b valuedRight => valuedRight.1

/-- One operator: where its operands keep their values, it keeps its own if it agrees at them. -/
theorem binary_iff {operator : String} {left right : Constant} {v : Int}
    (defined : (binary (.str operator) left right).value assigned enum = some v)
    (first : (left.formula enum).value assigned = left.value assigned enum)
    (second : isDecided (.str operator) (left.value assigned enum) = false →
      (right.formula enum).value assigned = right.value assigned enum) :
    ((binary (.str operator) left right).formula enum).value assigned = some v ↔
      (binary (.str operator) left right).Agrees assigned enum := by
  obtain ⟨a, valued, defined⟩ := Option.bind_eq_some_iff.mp defined
  rw [valued] at first second
  rw [formula, Formula.value, first, Option.bind_eq_bind, Option.bind_some, Agrees, valued,
    Option.getD_some]
  by_cases conjunction : operator = "&&"
  · subst conjunction
    rw [show spell moduleOperators (.str "&&") = "and" by decide, if_pos rfl]
    rw [if_pos rfl] at defined
    split at defined
    · next zero =>
      obtain rfl := Option.some.inj defined
      simp [zero, agreesAt]
    · next nonzero =>
      obtain ⟨b, valuedRight, defined⟩ := Option.bind_eq_some_iff.mp defined
      obtain rfl := Option.some.inj defined
      rw [if_neg nonzero, second (by simp [isDecided, nonzero]), valuedRight]
      simp only [agreesAt, truth]
      grind
  by_cases disjunction : operator = "||"
  · subst disjunction
    rw [show spell moduleOperators (.str "||") = "or" by decide, if_neg (by decide), if_pos rfl]
    rw [if_neg conjunction, if_pos rfl] at defined
    split at defined
    · next zero =>
      obtain ⟨b, valuedRight, defined⟩ := Option.bind_eq_some_iff.mp defined
      obtain rfl := Option.some.inj defined
      rw [if_pos zero, second (by simp [isDecided, zero]), valuedRight]
      simp only [agreesAt, truth]
      grind
    · next nonzero =>
      obtain rfl := Option.some.inj defined
      simp [nonzero, agreesAt]
  · rw [if_neg conjunction, if_neg disjunction] at defined
    obtain ⟨b, valuedRight, defined⟩ := Option.bind_eq_some_iff.mp defined
    obtain ⟨noConjunction, noDisjunction⟩ := spell_combined defined
    rw [if_neg noConjunction, if_neg noDisjunction,
      second (by simp [isDecided, conjunction, disjunction]), valuedRight]
    exact combine_iff defined

/-- The values of the parts, and where their operators agree. -/
theorem parts_iff {constant : Constant} {v : Int} (defined : constant.value assigned enum = some v) :
    (∀ part ∈ constant.parts assigned enum,
      (part.formula enum).value assigned = part.value assigned enum) ↔
    ∀ part ∈ constant.parts assigned enum, part.Agrees assigned enum := by
  induction constant generalizing v with
  | literal text =>
    obtain ⟨n, written, -⟩ := Option.map_eq_some_iff.mp defined
    simp [parts, formula, Formula.value, value, Agrees, written]
  | reference name owner =>
    simp only [parts, List.forall_mem_singleton, formula, value, Agrees]
    split <;> simp [Formula.value]
  | paren inner ih =>
    rw [parts, List.forall_mem_cons, List.forall_mem_cons, ← ih defined]
    exact and_congr_left fun kept => iff_of_true (kept inner (self_mem_parts inner)) trivial
  | unary operator operand ih =>
    obtain ⟨operator, a, rfl, valued⟩ := of_value_unary defined
    rw [parts, List.forall_mem_cons, List.forall_mem_cons, ← ih valued]
    exact and_congr_left fun kept =>
      iff_of_true (unary_kept defined (kept operand (self_mem_parts operand))) trivial
  | binary operator left right first second =>
    obtain ⟨operator, a, rfl, valued⟩ := of_value_binary defined
    rw [parts, List.forall_mem_cons, List.forall_mem_cons, List.forall_mem_append,
      List.forall_mem_append, ← first valued, defined]
    split
    · next decided =>
      refine Iff.trans (and_congr_left fun kept => ?_) (and_congr_right fun _ => by simp)
      refine binary_iff defined (kept.1 left (self_mem_parts left)) fun evaluated => ?_
      exact absurd (decided.symm.trans evaluated) (by decide)
    · next evaluated =>
      obtain ⟨b, valuedRight⟩ := right_evaluated defined (Bool.eq_false_iff.mpr evaluated)
      rw [← second valuedRight]
      refine and_congr_left fun kept => ?_
      exact binary_iff defined (kept.1 left (self_mem_parts left)) fun _ =>
        kept.2 right (self_mem_parts right)

/-- What C evaluates in a value that it evaluates is readable and has a value. -/
theorem of_mem_parts {constant part : Constant} {v : Int}
    (readable : constant.isReadable enum = true) (defined : constant.value assigned enum = some v)
    (among : part ∈ constant.parts assigned enum) :
    part.isReadable enum = true ∧ ∃ w, part.value assigned enum = some w := by
  induction constant generalizing v with
  | literal | reference =>
    obtain rfl := List.mem_singleton.mp among
    exact ⟨readable, v, defined⟩
  | paren inner ih =>
    obtain rfl | among := List.mem_cons.mp among
    · exact ⟨readable, v, defined⟩
    · exact ih readable defined among
  | unary operator operand ih =>
    obtain rfl | within := List.mem_cons.mp among
    · exact ⟨readable, v, defined⟩
    obtain ⟨operator, a, rfl, valued⟩ := of_value_unary defined
    obtain ⟨-, -, -, inner⟩ := of_readable_unary readable
    exact ih inner valued within
  | binary operator left right first second =>
    obtain rfl | within := List.mem_cons.mp among
    · exact ⟨readable, v, defined⟩
    obtain ⟨operator, a, rfl, valued⟩ := of_value_binary defined
    obtain ⟨-, -, -, before, behind⟩ := of_readable_binary readable
    obtain within | within := List.mem_append.mp within
    · exact first before valued within
    · split at within
      · exact absurd within List.not_mem_nil
      · next evaluated =>
        obtain ⟨b, valuedRight⟩ := right_evaluated defined (Bool.eq_false_iff.mpr evaluated)
        exact second behind valuedRight within

/-- A value of an enum whose operators agree at their operands is kept in a module. Its parts are all
kept in this case only. -/
theorem value_kept_iff {constant : Constant} {v : Int} (readable : constant.isReadable enum = true)
    (defined : constant.value assigned enum = some v) :
    ((∀ part ∈ constant.parts assigned enum, part.Agrees assigned enum) →
      ∃ shown, constant.render moduleOperators enum = .ok shown ∧
        integerOf assigned shown.plain = some v) ∧
    ((∀ part ∈ constant.parts assigned enum, part.IsKept assigned enum) ↔
      ∀ part ∈ constant.parts assigned enum, part.Agrees assigned enum) := by
  have parts : (∀ part ∈ constant.parts assigned enum, part.IsKept assigned enum) ↔
      ∀ part ∈ constant.parts assigned enum, part.Agrees assigned enum := by
    rw [← parts_iff defined]
    refine forall₂_congr fun part among => ?_
    obtain ⟨readable, w, defined⟩ := of_mem_parts readable defined among
    rw [isKept_iff readable defined, defined]
  refine ⟨fun agree => ?_, parts⟩
  obtain ⟨w, shown, valued, done, kept⟩ := parts.mpr agree constant (self_mem_parts constant)
  obtain rfl := Option.some.inj (defined.symm.trans valued)
  exact ⟨shown, done, kept⟩

end

/-- Masks of another enum, shifted and divided. -/
def mask : Constant :=
  .binary (.str "/")
    (.paren (.binary (.str "|") (.binary (.str "<<") (.literal "1") (.literal "4"))
      (.unary (.str "-") (.reference (.str "low") (.str "level")))))
    (.unary (.str "!") (.binary (.str "&&") (.literal "0") (.reference (.str "high") (.str "shape"))))

theorem value_kept_mask :
    (mask.isReadable (.str "shape") = true ∧
      mask.value (fun _ name => if name = "low" then 3 else 40) (.str "shape") = some (-3)) ∧
    ∃ shown, mask.render moduleOperators (.str "shape") = .ok shown ∧
      integerOf (fun _ name => if name = "low" then 3 else 40) shown.plain = some (-3) := by
  have readable : mask.isReadable (.str "shape") = true := by decide +kernel
  have defined : mask.value (fun _ name => if name = "low" then 3 else 40) (.str "shape") =
      some (-3) := by decide +kernel
  refine ⟨⟨readable, defined⟩, (value_kept_iff readable defined).1 ?_⟩
  decide +kernel

/-- Half of minus seven, and the conjunction of two and three. -/
theorem value_lost_half_both :
    (binary (.str "/") (.unary (.str "-") (.literal "7")) (.literal "2")).value (fun _ _ => 0)
        (.str "shape") = some (-3) ∧
      ((binary (.str "/") (.unary (.str "-") (.literal "7")) (.literal "2")).render moduleOperators
        (.str "shape")) = .ok (.str "(((- 7)) // (2))") ∧
      integerOf (fun _ _ => 0) "(((- 7)) // (2))" = some (-4) ∧
    (binary (.str "&&") (.literal "2") (.literal "3")).value (fun _ _ => 0) (.str "shape") = some 1 ∧
      ((binary (.str "&&") (.literal "2") (.literal "3")).render moduleOperators
        (.str "shape")) = .ok (.str "((2) and (3))") ∧
      integerOf (fun _ _ => 0) "((2) and (3))" = some 3 := by
  decide +kernel

end Constant

end NativeBindings
