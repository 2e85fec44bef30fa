import NativeBindings.Proofs.Emit.ConstantReferences

/-!
Reading the values of enum constants back. Every operator is written within parentheses of its own, so
that one value only has a text, but for the owners of the references that are written without one.
-/
namespace NativeBindings.Constant

/-- What ends a word in a text. -/
def stops : List Char := [' ', '(', ')']

def isNumeral (word : String) : Bool := !word.isEmpty && word.toList.all Char.isDigit

/-- Whether something may be a name. Every identifier may. -/
def isNameLike : Label → Bool
  | .str word => !word.isEmpty && !word.toList.head?.any Char.isDigit &&
      word.toList.all fun c => !('.' :: stops).contains c
  | _ => false

/-- The operators that a module has and C has not. -/
def moduleWords : List String := moduleOperators.map (·.2)

/-- Whether something may be an operator. Every operator of C may. -/
def isOperatorLike : Label → Bool
  | .str word => !moduleWords.contains word && word.toList.all fun c => !stops.contains c
  | _ => false

example : ["+", "-", "~", "!", "*", "/", "%", "<<", ">>", "&", "|", "^", "&&", "||", "==", "!=", "<", ">",
    "<=", ">=", "=", "++", "--", ",", "?", ":", "+=", "<<="].all
      (fun word => isOperatorLike (.str word)) = true := by
  decide +kernel

/-- Whether the words in a value are numerals, names and operators. -/
def isPlain : Constant → Bool
  | literal text => isNumeral text
  | reference name owner => isNameLike name && (owner.isNull || isNameLike owner)
  | paren inner => inner.isPlain
  | unary operator operand => isOperatorLike operator && operand.isPlain
  | binary operator left right => isOperatorLike operator && (left.isPlain && right.isPlain)

/-- A value without the owners that its text does not show. -/
def bare (enum : Label) : Constant → Constant
  | literal text => literal text
  | reference name owner => reference name (if isForeign owner enum then owner else .null)
  | paren inner => paren (inner.bare enum)
  | unary operator operand => unary operator (operand.bare enum)
  | binary operator left right => binary operator (left.bare enum) (right.bare enum)

/-- Whether a value is written without parentheses. -/
def isAtom : Constant → Bool
  | literal _ | reference _ _ => true
  | paren _ | unary _ _ | binary _ _ _ => false

/-! ### Words -/

/-- A text at its end, or at one of some characters. -/
def Ended (ends rest : List Char) : Prop := ∀ c ∈ rest.head?, c ∈ ends

theorem ended_cons {ends : List Char} {c : Char} (mark : c ∈ ends) (rest : List Char) :
    Ended ends (c :: rest) := by
  intro first head
  obtain rfl := Option.some.inj head
  exact mark

theorem ended_blank (rest : List Char) : Ended stops (' ' :: rest) := ended_cons (by decide) rest

theorem ended_closing (rest : List Char) : Ended stops (')' :: rest) := ended_cons (by decide) rest

/-- Words are cut at the next character that none of them has. -/
theorem word_cut {ends one two rest others : List Char} (first : ∀ c ∈ one, c ∉ ends)
    (second : ∀ c ∈ two, c ∉ ends) (ended : Ended ends rest) (stopped : Ended ends others)
    (same : one ++ rest = two ++ others) : one = two ∧ rest = others := by
  induction one generalizing two with
  | nil =>
    cases two with
    | nil => exact ⟨rfl, same⟩
    | cons c two =>
      obtain rfl : rest = c :: (two ++ others) := same
      exact absurd (ended c rfl) (second c List.mem_cons_self)
  | cons c one ih =>
    cases two with
    | nil =>
      obtain rfl : c :: (one ++ rest) = others := same
      exact absurd (stopped c rfl) (first c List.mem_cons_self)
    | cons d two =>
      obtain ⟨head, tail⟩ := List.cons.inj same
      obtain ⟨words, behind⟩ := ih (fun c member => first c (List.mem_cons_of_mem _ member))
        (fun c member => second c (List.mem_cons_of_mem _ member)) tail
      exact ⟨head ▸ words ▸ rfl, behind⟩

theorem of_isNumeral {word : String} (numeral : isNumeral word = true) :
    word.toList ≠ [] ∧ ∀ c ∈ word.toList, c.isDigit = true := by
  obtain ⟨filled, digits⟩ := Bool.and_eq_true_iff.mp numeral
  refine ⟨?_, List.all_eq_true.mp digits⟩
  simpa using filled

theorem of_isNameLike {name : Label} (named : isNameLike name = true) :
    ∃ word, name = .str word ∧ (∃ c rest, word.toList = c :: rest ∧ c.isDigit = false) ∧
      '.' ∉ word.toList ∧ ∀ c ∈ word.toList, c ∉ stops := by
  cases name with
  | str word =>
    rw [isNameLike, Bool.and_eq_true, Bool.and_eq_true, List.all_eq_true] at named
    obtain ⟨⟨filled, first⟩, all⟩ := named
    have apart : ∀ c ∈ word.toList, c ≠ '.' ∧ c ∉ stops := fun c member => by
      simpa using all c member
    refine ⟨word, rfl, ?_, fun member => (apart _ member).1 rfl, fun c member => (apart c member).2⟩
    cases same : word.toList with
    | nil => simp_all
    | cons c rest => exact ⟨c, rest, rfl, by simpa [same] using first⟩
  | _ => exact absurd named Bool.false_ne_true

theorem of_isOperatorLike {operator : Label} (known : isOperatorLike operator = true) :
    ∃ word, operator = .str word ∧ word ∉ moduleWords ∧ ∀ c ∈ word.toList, c ∉ stops := by
  cases operator with
  | str word => exact ⟨word, rfl, by simpa [isOperatorLike] using known⟩
  | _ => exact absurd known Bool.false_ne_true

theorem not_mem_stops_of_isDigit {c : Char} (digit : c.isDigit = true) : c ∉ stops := by
  intro mark
  have none : (stops.all fun c => !c.isDigit) = true := by decide
  exact absurd (List.all_eq_true.mp none c mark) (by simp [digit])

theorem spell_cases {table : Operators} (given : table = [] ∨ table = moduleOperators) (word : String) :
    (word, spell table (.str word)) ∈ moduleOperators ∨ spell table (.str word) = word := by
  obtain rfl | rfl := given
  · exact .inr rfl
  · cases found : moduleOperators.lookup word with
    | none => exact .inr (by rw [spell, found, Option.getD_none])
    | some other =>
      left
      rw [spell, found, Option.getD_some]
      obtain ⟨before, behind, same, -⟩ := List.lookup_eq_some_iff.mp found
      exact same ▸ List.mem_append_right _ List.mem_cons_self

theorem stops_spell {table : Operators} (given : table = [] ∨ table = moduleOperators) {operator : Label}
    (known : isOperatorLike operator = true) : ∀ c ∈ (spell table operator).toList, c ∉ stops := by
  obtain ⟨word, rfl, -, apart⟩ := of_isOperatorLike known
  obtain listed | same := spell_cases given word
  · have all : (moduleOperators.all fun entry => entry.2.toList.all fun c => !stops.contains c) = true := by
      decide +kernel
    intro c member
    simpa using List.all_eq_true.mp (List.all_eq_true.mp all _ listed) c member
  · exact same.symm ▸ apart

theorem spell_inj {table : Operators} (given : table = [] ∨ table = moduleOperators) {one two : Label}
    (first : isOperatorLike one = true) (second : isOperatorLike two = true)
    (same : spell table one = spell table two) : one = two := by
  obtain ⟨one, rfl, free, -⟩ := of_isOperatorLike first
  obtain ⟨two, rfl, free', -⟩ := of_isOperatorLike second
  have own := spell_cases given one
  have other := spell_cases given two
  rw [← same] at other
  obtain listed | plain := own <;> obtain listed' | plain' := other
  · have apart : ∀ entry ∈ moduleOperators, ∀ other ∈ moduleOperators, entry.2 = other.2 →
        entry.1 = other.1 := by decide
    rw [show one = two from apart _ listed _ listed' rfl]
  · exact absurd (List.mem_map_of_mem (plain' ▸ listed)) free'
  · exact absurd (List.mem_map_of_mem (plain ▸ listed')) free
  · rw [plain.symm.trans plain']

/-! ### Texts -/

section
variable {table : Operators} {enum : Label}

theorem text_paren (inner : Constant) (rest : List Char) :
    ((paren inner).text table enum).toList ++ rest =
      '(' :: ((inner.text table enum).toList ++ ')' :: rest) := by
  simp [text]

theorem text_unary (operator : Label) (operand : Constant) (rest : List Char) :
    ((unary operator operand).text table enum).toList ++ rest =
      '(' :: ((spell table operator).toList ++ ' ' :: ((operand.text table enum).toList ++ ')' :: rest)) := by
  simp [text]

/-- The operands stand in parentheses, as values of their own. -/
theorem text_binary (operator : Label) (left right : Constant) (rest : List Char) :
    ((binary operator left right).text table enum).toList ++ rest =
      '(' :: (((paren left).text table enum).toList ++ ' ' :: ((spell table operator).toList ++
        ' ' :: (((paren right).text table enum).toList ++ ')' :: rest))) := by
  simp [text]

variable (table enum) in
/-- A reference is written as its name, with its owner before it where that is another enum. -/
theorem text_reference {name owner : Label} (plain : (reference name owner).isPlain = true) :
    (isForeign owner enum = false ∧ ((reference name owner).text table enum).toList = name.plain.toList) ∨
      (isNameLike owner = true ∧ isForeign owner enum = true ∧
        ((reference name owner).text table enum).toList = owner.plain.toList ++ '.' :: name.plain.toList) := by
  rw [text, spellReference]
  cases foreign : isForeign owner enum with
  | false => exact .inl ⟨rfl, by rw [if_neg (by decide)]⟩
  | true =>
    have owned : owner.isNull = false := by simp_all [isForeign]
    rw [isPlain, owned, Bool.false_or, Bool.and_eq_true] at plain
    exact .inr ⟨plain.2, rfl, by simp⟩

variable (table enum) in
theorem atom_text {value : Constant} (plain : value.isPlain = true) (atom : value.isAtom = true) :
    (value.text table enum).toList ≠ [] ∧ ∀ c ∈ (value.text table enum).toList, c ∉ stops := by
  cases value with
  | literal digits =>
    obtain ⟨filled, all⟩ := of_isNumeral plain
    exact ⟨filled, fun c member => not_mem_stops_of_isDigit (all c member)⟩
  | reference name owner =>
    obtain ⟨word, rfl, ⟨c, rest, filled, -⟩, -, apart⟩ := of_isNameLike (Bool.and_eq_true_iff.mp plain).1
    obtain ⟨-, same⟩ | ⟨owned, -, same⟩ := text_reference table enum plain <;> rw [same]
    · exact ⟨filled ▸ List.cons_ne_nil c rest, apart⟩
    · obtain ⟨tag, rfl, -, -, free⟩ := of_isNameLike owned
      refine ⟨by simp, fun c member => ?_⟩
      obtain member | member := List.mem_append.mp member
      · exact free c member
      · obtain rfl | member := List.mem_cons.mp member
        · decide
        · exact apart c member
  | paren | unary | binary => exact nomatch atom

/-- A numeral begins with a digit, a reference does not. -/
theorem literal_ne_reference {digits : String} {name owner : Label}
    (numeral : (literal digits).isPlain = true) (plain : (reference name owner).isPlain = true) :
    ((literal digits).text table enum).toList ≠ ((reference name owner).text table enum).toList := by
  have first : ∃ c rest, ((reference name owner).text table enum).toList = c :: rest ∧ c.isDigit = false := by
    obtain ⟨-, same⟩ | ⟨owned, -, same⟩ := text_reference table enum plain <;> rw [same]
    · obtain ⟨word, rfl, first, -⟩ := of_isNameLike (Bool.and_eq_true_iff.mp plain).1
      exact first
    · obtain ⟨tag, rfl, ⟨c, rest, filled, other⟩, -⟩ := of_isNameLike owned
      exact ⟨c, rest ++ '.' :: name.plain.toList, by rw [Json.plain, filled, List.cons_append], other⟩
  intro same
  obtain ⟨c, rest, begins, other⟩ := first
  have among : c ∈ digits.toList := by
    rw [show digits.toList = c :: rest from same.trans begins]
    exact List.mem_cons_self
  exact absurd ((of_isNumeral numeral).2 c among |>.symm.trans other) (by decide)

theorem references_inj {name owner other tag : Label} (plain : (reference name owner).isPlain = true)
    (plain' : (reference other tag).isPlain = true)
    (same : ((reference name owner).text table enum).toList =
      ((reference other tag).text table enum).toList) :
    (reference name owner).bare enum = (reference other tag).bare enum := by
  obtain ⟨name, rfl, -, dotless, -⟩ := of_isNameLike (Bool.and_eq_true_iff.mp plain).1
  obtain ⟨other, rfl, -, dotless', -⟩ := of_isNameLike (Bool.and_eq_true_iff.mp plain').1
  obtain ⟨near, first⟩ | ⟨owned, far, first⟩ := text_reference table enum plain <;>
    obtain ⟨near', second⟩ | ⟨owned', far', second⟩ := text_reference table enum plain' <;>
    rw [first, second] at same
  · obtain rfl : name = other := String.toList_injective same
    rw [bare, bare, near, near']
    rfl
  · exact absurd (same ▸ List.mem_append_right _ List.mem_cons_self) dotless
  · exact absurd (same ▸ List.mem_append_right _ List.mem_cons_self) dotless'
  · obtain ⟨owner, rfl, -, own, -⟩ := of_isNameLike owned
    obtain ⟨tag, rfl, -, own', -⟩ := of_isNameLike owned'
    have apart : ∀ {s : List Char}, '.' ∉ s → ∀ c ∈ s, c ∉ ['.'] := by
      rintro s free c member mark
      exact free (List.mem_singleton.mp mark ▸ member)
    obtain ⟨tags, behind⟩ := word_cut (apart own) (apart own') (ended_cons List.mem_cons_self _)
      (ended_cons List.mem_cons_self _) same
    obtain rfl : owner = tag := String.toList_injective tags
    obtain rfl : name = other := String.toList_injective (List.cons.inj behind).2
    rfl

/-- A text without parentheses is that of one value only. -/
theorem bare_eq_of_atoms {one two : Constant} (plain : one.isPlain = true) (plain' : two.isPlain = true)
    (atom : one.isAtom = true) (atom' : two.isAtom = true)
    (same : (one.text table enum).toList = (two.text table enum).toList) :
    one.bare enum = two.bare enum := by
  cases one with
  | literal digits =>
    cases two with
    | literal others => exact congrArg literal (String.toList_injective same)
    | reference name owner => exact absurd same (literal_ne_reference plain plain')
    | paren | unary | binary => exact nomatch atom'
  | reference name owner =>
    cases two with
    | literal digits => exact absurd same.symm (literal_ne_reference plain' plain)
    | reference other tag => exact references_inj plain plain' same
    | paren | unary | binary => exact nomatch atom'
  | paren | unary | binary => exact nomatch atom

variable (table enum) in
theorem text_opens {value : Constant} (compound : value.isAtom = false) (rest : List Char) :
    ∃ inside, (value.text table enum).toList ++ rest = '(' :: inside := by
  cases value with
  | literal | reference => exact nomatch compound
  | paren inner => exact ⟨_, text_paren inner rest⟩
  | unary operator operand => exact ⟨_, text_unary operator operand rest⟩
  | binary operator left right => exact ⟨_, text_binary operator left right rest⟩

/-- A text begins with a parenthesis just if its value is no numeral and no reference. -/
theorem atom_apart {one two : Constant} (plain : one.isPlain = true) (atom : one.isAtom = true)
    (compound : two.isAtom = false) (rest others : List Char) :
    (one.text table enum).toList ++ rest ≠ (two.text table enum).toList ++ others := by
  intro same
  obtain ⟨filled, apart⟩ := atom_text table enum plain atom
  obtain ⟨inside, begins⟩ := text_opens table enum compound others
  obtain ⟨c, more, filled⟩ := List.exists_cons_of_ne_nil filled
  rw [begins, filled] at same
  obtain rfl := (List.cons.inj same).1
  exact apart '(' (filled ▸ List.mem_cons_self) (by decide)

theorem operator_apart_opening {operator : List Char} (apart : ∀ c ∈ operator, c ∉ stops)
    (rest others : List Char) : operator ++ ' ' :: rest ≠ '(' :: others := by
  intro same
  cases operator with
  | nil => exact absurd (List.cons.inj same).1 (by decide)
  | cons c more => exact apart c List.mem_cons_self ((List.cons.inj same).1 ▸ by decide)

/-- An operator with a blank behind it is no beginning of a value that ends before a parenthesis. -/
theorem operator_apart {operator : List Char} (apart : ∀ c ∈ operator, c ∉ stops) (value : Constant)
    (plain : value.isPlain = true) (rest others : List Char) :
    operator ++ ' ' :: rest ≠ (value.text table enum).toList ++ ')' :: others := by
  intro same
  cases atom : value.isAtom with
  | true =>
    obtain ⟨-, behind⟩ :=
      word_cut apart (atom_text table enum plain atom).2 (ended_blank _) (ended_closing _) same
    exact absurd (List.cons.inj behind).1 (by decide)
  | false =>
    obtain ⟨inside, begins⟩ := text_opens table enum atom (')' :: others)
    exact operator_apart_opening apart _ _ (same.trans begins)

end

section
variable {table : Operators} {enum : Label} (given : table = [] ∨ table = moduleOperators)

variable (table enum) in
/-- Where a value ends can be told from its text, and which value it is. -/
def IsCut (one : Constant) : Prop :=
  ∀ (two : Constant) ⦃rest others : List Char⦄, one.isPlain = true → two.isPlain = true →
    Ended stops rest → Ended stops others →
      (one.text table enum).toList ++ rest = (two.text table enum).toList ++ others →
        one.bare enum = two.bare enum ∧ rest = others

theorem isCut_atom {value : Constant} (atom : value.isAtom = true) : IsCut table enum value := by
  intro two rest others plain plain' ended stopped same
  cases atom' : two.isAtom with
  | true =>
    obtain ⟨texts, behind⟩ := word_cut (atom_text table enum plain atom).2
      (atom_text table enum plain' atom').2 ended stopped same
    exact ⟨bare_eq_of_atoms plain plain' atom atom' texts, behind⟩
  | false => exact absurd same (atom_apart plain atom atom' _ _)

include given

theorem isCut_paren {inner : Constant} (cut : IsCut table enum inner) : IsCut table enum (paren inner) := by
  intro two rest others plain plain' ended stopped same
  cases two with
  | literal | reference => exact absurd same.symm (atom_apart plain' rfl rfl _ _)
  | paren other =>
    rw [text_paren, text_paren] at same
    obtain ⟨-, inside⟩ := List.cons.inj same
    obtain ⟨bares, behind⟩ := cut other plain plain' (ended_closing _) (ended_closing _) inside
    exact ⟨congrArg paren bares, (List.cons.inj behind).2⟩
  | unary operator operand =>
    obtain ⟨known, -⟩ := Bool.and_eq_true_iff.mp plain'
    have apart := stops_spell given known
    rw [text_paren, text_unary] at same
    obtain ⟨-, inside⟩ := List.cons.inj same
    exact absurd inside.symm (operator_apart apart inner plain _ _)
  | binary operator left right =>
    obtain ⟨-, operands⟩ := Bool.and_eq_true_iff.mp plain'
    obtain ⟨first, -⟩ := Bool.and_eq_true_iff.mp operands
    rw [text_paren, text_binary] at same
    obtain ⟨-, inside⟩ := List.cons.inj same
    obtain ⟨-, behind⟩ := cut (paren left) plain first (ended_closing _) (ended_blank _) inside
    exact absurd (List.cons.inj behind).1 (by decide)

theorem isCut_unary {operator : Label} {operand : Constant} (cut : IsCut table enum operand) :
    IsCut table enum (unary operator operand) := by
  intro two rest others plain plain' ended stopped same
  obtain ⟨known, inner⟩ := Bool.and_eq_true_iff.mp plain
  have apart := stops_spell given known
  cases two with
  | literal | reference => exact absurd same.symm (atom_apart plain' rfl rfl _ _)
  | paren other =>
    rw [text_unary, text_paren] at same
    obtain ⟨-, inside⟩ := List.cons.inj same
    exact absurd inside (operator_apart apart other plain' _ _)
  | unary other behind =>
    obtain ⟨known', inner'⟩ := Bool.and_eq_true_iff.mp plain'
    rw [text_unary, text_unary] at same
    obtain ⟨-, inside⟩ := List.cons.inj same
    obtain ⟨words, operands⟩ :=
      word_cut apart (stops_spell given known') (ended_blank _) (ended_blank _) inside
    obtain ⟨-, operands⟩ := List.cons.inj operands
    obtain ⟨bares, last⟩ := cut behind inner inner' (ended_closing _) (ended_closing _) operands
    obtain rfl := spell_inj given known known' (String.toList_injective words)
    exact ⟨congrArg (unary operator) bares, (List.cons.inj last).2⟩
  | binary other left right =>
    rw [text_unary, text_binary, text_paren] at same
    obtain ⟨-, inside⟩ := List.cons.inj same
    exact absurd inside (operator_apart_opening apart _ _)

theorem isCut_binary {operator : Label} {left right : Constant} (first : IsCut table enum (paren left))
    (second : IsCut table enum (paren right)) : IsCut table enum (binary operator left right) := by
  intro two rest others plain plain' ended stopped same
  obtain ⟨known, operands⟩ := Bool.and_eq_true_iff.mp plain
  obtain ⟨before, behind⟩ := Bool.and_eq_true_iff.mp operands
  cases two with
  | literal | reference => exact absurd same.symm (atom_apart plain' rfl rfl _ _)
  | paren other =>
    rw [text_binary, text_paren other] at same
    obtain ⟨-, inside⟩ := List.cons.inj same
    obtain ⟨-, last⟩ := first other before plain' (ended_blank _) (ended_closing _) inside
    exact absurd (List.cons.inj last).1 (by decide)
  | unary other operand =>
    obtain ⟨known', -⟩ := Bool.and_eq_true_iff.mp plain'
    rw [text_binary, text_unary, text_paren] at same
    obtain ⟨-, inside⟩ := List.cons.inj same
    exact absurd inside.symm (operator_apart_opening (stops_spell given known') _ _)
  | binary other left' right' =>
    obtain ⟨known', operands'⟩ := Bool.and_eq_true_iff.mp plain'
    obtain ⟨before', behind'⟩ := Bool.and_eq_true_iff.mp operands'
    rw [text_binary, text_binary] at same
    obtain ⟨-, inside⟩ := List.cons.inj same
    obtain ⟨lefts, operators⟩ :=
      first (paren left') before before' (ended_blank _) (ended_blank _) inside
    obtain ⟨-, operators⟩ := List.cons.inj operators
    obtain ⟨words, rights⟩ := word_cut (stops_spell given known) (stops_spell given known')
      (ended_blank _) (ended_blank _) operators
    obtain ⟨-, rights⟩ := List.cons.inj rights
    obtain ⟨bares, last⟩ :=
      second (paren right') behind behind' (ended_closing _) (ended_closing _) rights
    obtain rfl := spell_inj given known known' (String.toList_injective words)
    refine ⟨?_, (List.cons.inj last).2⟩
    rw [bare, bare, paren.inj lefts, paren.inj bares]

theorem isCut (value : Constant) : IsCut table enum value := by
  induction value with
  | literal | reference => exact isCut_atom rfl
  | paren inner ih => exact isCut_paren given ih
  | unary operator operand ih => exact isCut_unary given ih
  | binary operator left right first second =>
    exact isCut_binary given (isCut_paren given first) (isCut_paren given second)

end

/-! ### Renderings -/

section
variable {table : Operators} {enum : Label}

theorem text_bare (value : Constant) : (value.bare enum).text table enum = value.text table enum := by
  induction value with
  | literal => rfl
  | reference name owner =>
    rw [bare, text, text]
    unfold spellReference
    cases foreign : isForeign owner enum with
    | false =>
      have near : isForeign .null enum = false := by simp [isForeign, Json.isNull]
      simp only [Bool.false_eq_true, if_false, near]
    | true => rw [if_pos rfl, foreign]
  | paren inner ih => rw [bare, text, text, ih]
  | unary operator operand ih => rw [bare, text, text, ih]
  | binary operator left right first second => rw [bare, text, text, first, second]

theorem haveKeys_of_isPlain {value : Constant} (plain : value.isPlain = true) : value.haveKeys = .ok () := by
  induction value with
  | literal | reference => rfl
  | paren inner ih => exact ih plain
  | unary operator operand ih =>
    obtain ⟨known, inner⟩ := Bool.and_eq_true_iff.mp plain
    obtain ⟨word, rfl, -⟩ := of_isOperatorLike known
    exact ih inner
  | binary operator left right first second =>
    obtain ⟨known, operands⟩ := Bool.and_eq_true_iff.mp plain
    obtain ⟨before, behind⟩ := Bool.and_eq_true_iff.mp operands
    obtain ⟨word, rfl, -⟩ := of_isOperatorLike known
    exact Outcome.bind_eq_ok.mpr ⟨_, rfl, Outcome.bind_eq_ok.mpr ⟨_, first before, second behind⟩⟩

variable (table enum) in
theorem render_of_isPlain {value : Constant} (plain : value.isPlain = true) :
    value.render table enum = .ok (.str (value.text table enum)) := by
  refine Outcome.bind_eq_ok.mpr ⟨_, haveKeys_of_isPlain plain, ?_⟩
  cases value with
  | reference name owner =>
    obtain ⟨word, rfl, -⟩ := of_isNameLike (Bool.and_eq_true_iff.mp plain).1
    refine congrArg Except.ok ?_
    rw [text]
    unfold spellReference
    split <;> rfl
  | literal | paren | unary | binary => rfl

/-- Values are rendered to the same text just if they are the same, but for owners that no text shows. -/
theorem render_eq_iff_bare (given : table = [] ∨ table = moduleOperators) {one two : Constant}
    (plain : one.isPlain = true) (plain' : two.isPlain = true) :
    (∃ text, one.render table enum = .ok (.str text)) ∧
      (one.render table enum = two.render table enum ↔ one.bare enum = two.bare enum) := by
  have rendered := render_of_isPlain table enum plain
  refine ⟨⟨_, rendered⟩, fun same => ?_, fun same => ?_⟩
  · rw [rendered, render_of_isPlain table enum plain'] at same
    have texts := congrArg String.toList (Json.str.inj (Except.ok.inj same))
    have none : Ended stops [] := nofun
    exact (isCut given one two plain plain' none none (congrArg (· ++ []) texts)).1
  · rw [rendered, render_of_isPlain table enum plain', ← text_bare one, same, text_bare]

end

/-- A constant of some enum that is not set, and one of another enum that is. -/
def flags (owner : Label) : Constant :=
  .binary (.str "&&") (.unary (.str "!") (.reference (.str "low") owner))
    (.paren (.reference (.str "high") (.str "level")))

theorem render_eq_iff_bare_flags :
    ((moduleOperators = [] ∨ moduleOperators = moduleOperators) ∧
      (flags (.str "shape")).isPlain = true ∧ (flags .null).isPlain = true ∧
      (flags (.str "level")).isPlain = true) ∧
    (flags (.str "shape")).render moduleOperators (.str "shape") =
      (flags .null).render moduleOperators (.str "shape") ∧
    (flags (.str "shape")).render moduleOperators (.str "shape") ≠
      (flags (.str "level")).render moduleOperators (.str "shape") := by
  have own : (flags (.str "shape")).isPlain = true := by decide +kernel
  have none : (flags .null).isPlain = true := by decide +kernel
  have other : (flags (.str "level")).isPlain = true := by decide +kernel
  refine ⟨⟨.inr rfl, own, none, other⟩, (render_eq_iff_bare (.inr rfl) own none).2.mpr ?_, ?_⟩
  · decide +kernel
  · refine fun same => absurd ((render_eq_iff_bare (.inr rfl) own other).2.mp same) ?_
    decide +kernel

end NativeBindings.Constant
