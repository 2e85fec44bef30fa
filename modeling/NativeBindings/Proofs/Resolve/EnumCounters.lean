import NativeBindings.Proofs.Resolve.ConstantOwners
import NativeBindings.Proofs.SpelledTypes

/-!
How an enum is numbered. A constant without an initializer continues the count of the nearest literal
before it, as in C. What this comes to is told by positions alone, without the count that is kept while
the members are read.
-/
namespace NativeBindings

namespace Numeral

open Text

/-- A decimal text, and the integer that it writes. -/
inductive Writes : String → Int → Prop
  | natural {digits : List Char} (decimal : ∀ c ∈ digits, c.isDigit = true) (some_digit : digits ≠ []) :
    Writes (String.ofList digits) (decimalValue digits)
  | negative {digits : List Char} (decimal : ∀ c ∈ digits, c.isDigit = true) (some_digit : digits ≠ []) :
    Writes (String.ofList ('-' :: digits)) (-(decimalValue digits : Int))

def digitCount (text : String) : Nat := (text.toList.filter Char.isDigit).length

section
variable {text : String} {n : Int}

theorem readInteger_negative (digits : List Char) :
    readInteger ('-' :: digits) = (readNatural digits).map fun n => -(n : Int) := by
  have mark : isPadding '-' = false := by decide +kernel
  rw [readInteger, List.dropWhile_cons_of_neg (by simp [mark])]
  rfl

theorem read_short (writes : Writes text n) (short : digitCount text ≤ digitLimit) :
    read text = .ok n := by
  cases writes with
  | @natural digits decimal some_digit =>
    rw [digitCount, String.toList_ofList, List.filter_eq_self.mpr decimal] at short
    rw [read, String.toList_ofList, Spelling.readInteger_decimal decimal some_digit,
      Spelling.readNatural_decimal decimal some_digit, if_neg (Nat.not_lt.mpr short)]
    rfl
  | @negative digits decimal some_digit =>
    rw [digitCount, String.toList_ofList, List.filter_cons_of_neg (by decide),
      List.filter_eq_self.mpr decimal] at short
    rw [read, String.toList_ofList, readInteger_negative,
      Spelling.readNatural_decimal decimal some_digit, if_neg (Nat.not_lt.mpr short)]
    rfl

theorem read_long {digits : List Char} (decimal : ∀ c ∈ digits, c.isDigit = true)
    (long : digitLimit < digits.length) :
    read (String.ofList digits) =
      .error (.value (IntegerProblem.reason (String.ofList digits) (.tooLong digits.length))) := by
  have some_digit : digits ≠ [] := List.ne_nil_of_length_pos (by omega)
  rw [read, String.toList_ofList, Spelling.readInteger_decimal decimal some_digit,
    Spelling.readNatural_decimal decimal some_digit, if_pos long]
  rfl

end

end Numeral

namespace Resolve

open Json Act Outcome Initializer

/-- A constant of an enum, with its initializer if it has one. -/
structure Enumerator where
  name : Label
  initializer : Option Json

/-- What is under an initializer is one only if it holds. -/
def Enumerator.read (name inner : Json) : Enumerator :=
  ⟨name, if inner.holds then some inner else none⟩

/-- The constants among the members of an enum, in order. Members are objects, and constants have
names. -/
inductive Lists : List Json → List Enumerator → Prop
  | nil : Lists [] []
  | other {node kind : Json} {rest : List Json} {constants : List Enumerator}
    (known : node.field "kind" = .ok kind) (other : kind.isKind "EnumConstantDecl" = false)
    (later : Lists rest constants) : Lists (node :: rest) constants
  | constant {node kind name inner : Json} {rest : List Json} {constants : List Enumerator}
    (known : node.field "kind" = .ok kind) (constant : kind.isKind "EnumConstantDecl" = true)
    (named : node.need "name" = .ok name) (keyed : name.asKey = .ok name)
    (held : node.field "inner" = .ok inner) (later : Lists rest constants) :
    Lists (node :: rest) (Enumerator.read name inner :: constants)

/-- An enum as the header writes it, with the owners of the constants before it. -/
structure Listing where
  name : Label
  before : Owners
  constants : List Enumerator

namespace Listing

variable (listing : Listing)

/-- The owners when the constant at a position is read. -/
def ownersAt (i : Nat) : Owners :=
  (listing.constants.take i).foldl (fun owners constant => Table.insert constant.name listing.name owners)
    listing.before

def initializer? (i : Nat) : Option Json := listing.constants[i]?.bind (·.initializer)

/-- An explicit constant, with the value of its initializer. -/
def Explicit (i : Nat) (value : Constant) : Prop :=
  ∃ node, listing.initializer? i = some node ∧
    evaluate (listing.ownersAt i) listing.name node = .ok value

def Implicit (i : Nat) : Prop := ∃ constant, listing.constants[i]? = some constant ∧
  constant.initializer = none

/-- The explicit constant nearest before a position, with its value. -/
structure Nearest (i j : Nat) (value : Constant) : Prop where
  before : j < i
  explicit : listing.Explicit j value
  between : ∀ k, j < k → k < i → listing.Implicit k

/-- What C counts at a position: on from the literal nearest before it, or from zero. -/
inductive Counts (i : Nat) : Int → Prop
  | fromZero (none : ∀ k < i, listing.Implicit k) : Counts i i
  | fromLiteral {j : Nat} {text : String} {n : Int} (nearest : listing.Nearest i j (.literal text))
    (writes : Numeral.Writes text n) : Counts i (n + (i - j))

/-- The value nearest before a position is no literal. -/
def Lost (i : Nat) : Prop :=
  ∃ j value, listing.Nearest i j value ∧ ∀ text, value ≠ .literal text

/-- An implicit constant that has nothing to count on from. -/
def Breaks (i : Nat) : Prop := listing.Implicit i ∧ listing.Lost i

/-- The value of the constant at a position. -/
inductive Value (i : Nat) : Constant → Prop
  | explicit {value : Constant} (own : listing.Explicit i value) : Value i value
  | implicit {n : Int} (implicit : listing.Implicit i) (counts : listing.Counts i n) :
    Value i (.literal (toString n))

/-- The first constants with their values, in order. -/
structure Numbers (i : Nat) (fields : Table Label Constant) : Prop where
  keys : Table.keys fields = (listing.constants.take i).map (·.name)
  values : ∀ k name value, fields[k]? = some (name, value) → listing.Value k value

/-- The names are distinct, every initializer has a value, and literals are decimal texts. -/
structure Numerable : Prop where
  distinct : listing.constants.Pairwise fun one other => (one.name == other.name) = false
  evaluates : ∀ i node, listing.initializer? i = some node → ∃ value, listing.Explicit i value
  decimal : ∀ i text, listing.Explicit i (.literal text) → ∃ n, Numeral.Writes text n

/-- No number goes beyond the limit of digits. -/
structure Short : Prop where
  literals : ∀ i text, listing.Explicit i (.literal text) → Numeral.digitCount text ≤ Text.digitLimit
  counts : ∀ i n, listing.Implicit i → listing.Counts i n → Numeral.isWritable n = true

/-- The numbering fails exactly where a count is lost, and otherwise gives every constant its value
and its owner. -/
structure Numbered {σ : Type} (session : Session σ) (ended : Except Fault CType × Session σ) : Prop where
  fails : (∃ name, ended.1 = .error (.mixedCounter listing.name name)) ↔ ∃ i, listing.Breaks i
  gives : (∀ i, ¬ listing.Breaks i) → ∃ fields owners,
    ended = (.ok (.enum { name := listing.name, size := CType.enumSize } fields),
      { session with owners }) ∧
    listing.Numbers listing.constants.length fields ∧
    ∀ constant ∈ listing.constants, Table.find? constant.name owners = some listing.name

variable {listing} {i j k : Nat} {value other : Constant} {n : Int} {node : Json} {constant : Enumerator}

theorem Explicit.not_implicit (explicit : listing.Explicit i value) : ¬ listing.Implicit i := by
  rintro ⟨constant, found, none⟩
  obtain ⟨node, initializer, -⟩ := explicit
  simp [initializer?, found, none] at initializer

theorem Explicit.unique (one : listing.Explicit i value) (two : listing.Explicit i other) :
    value = other := by
  obtain ⟨node, initializer, evaluated⟩ := one
  obtain ⟨node', initializer', evaluated'⟩ := two
  obtain rfl := Option.some.inj (initializer.symm.trans initializer')
  exact Except.ok.inj (evaluated.symm.trans evaluated')

theorem Nearest.unique (one : listing.Nearest i j value) (two : listing.Nearest i k other) :
    value = other := by
  rcases Nat.lt_trichotomy j k with before | rfl | after
  · exact absurd (one.between k before two.before) two.explicit.not_implicit
  · exact one.explicit.unique two.explicit
  · exact absurd (two.between j after one.before) one.explicit.not_implicit

theorem Counts.not_lost (counts : listing.Counts i n) : ¬ listing.Lost i := by
  rintro ⟨j, value, nearest, other⟩
  cases counts with
  | fromZero none => exact nearest.explicit.not_implicit (none j nearest.before)
  | fromLiteral literal _ => exact other _ (nearest.unique literal)

/-- An explicit constant is nearest to what comes right after it. -/
theorem Explicit.nearest (explicit : listing.Explicit i value) : listing.Nearest (i + 1) i value where
  before := Nat.lt_succ_self i
  explicit := explicit
  between k after before := by omega

theorem Nearest.succ (nearest : listing.Nearest i j value) (implicit : listing.Implicit i) :
    listing.Nearest (i + 1) j value where
  before := Nat.lt_succ_of_lt nearest.before
  explicit := nearest.explicit
  between k after before := by
    rcases Nat.lt_succ_iff_lt_or_eq.mp before with inside | rfl
    · exact nearest.between k after inside
    · exact implicit

theorem Counts.succ (counts : listing.Counts i n) (implicit : listing.Implicit i) :
    listing.Counts (i + 1) (n + 1) := by
  cases counts with
  | fromZero none =>
    refine Counts.fromZero fun k before => ?_
    rcases Nat.lt_succ_iff_lt_or_eq.mp before with inside | rfl
    · exact none k inside
    · exact implicit
  | @fromLiteral j text n nearest writes =>
    have next : n + (i - j : Int) + 1 = n + ((i + 1 : Nat) - j) := by omega
    rw [next]
    exact .fromLiteral (nearest.succ implicit) writes

/-- What is kept as the count at a position. -/
def Continues (i : Nat) : Option Int → Prop
  | some n => listing.Counts i n
  | none => listing.Lost i

theorem ownersAt_succ (found : listing.constants[i]? = some constant) :
    listing.ownersAt (i + 1) = Table.insert constant.name listing.name (listing.ownersAt i) := by
  rw [ownersAt, List.take_add_one, found, List.foldl_append]
  rfl

/-- Every constant read so far belongs to the enum. -/
theorem owned (i : Nat) : ∀ constant ∈ listing.constants.take i,
    Table.find? constant.name (listing.ownersAt i) = some listing.name := by
  induction i with
  | zero => simp
  | succ i ih =>
    intro constant member
    rw [List.take_add_one, List.mem_append] at member
    cases found : listing.constants[i]? with
    | none =>
      simp only [found, Option.toList_none, List.not_mem_nil, or_false] at member
      rw [ownersAt, List.take_add_one, found, Option.toList_none, List.append_nil]
      exact ih constant member
    | some last =>
      rw [ownersAt_succ found]
      cases same : last.name == constant.name with
      | true => rw [← Table.find?_congr same, Table.find?_insert_self]
      | false =>
        rw [Table.find?_insert_of_ne same]
        rcases member with before | own
        · exact ih constant before
        · simp only [found, Option.toList_some, List.mem_singleton] at own
          rw [own, BEq.rfl] at same
          cases same

theorem Numbers.append {fields : Table Label Constant} (numbers : listing.Numbers i fields)
    (found : listing.constants[i]? = some constant) (own : listing.Value i value) :
    listing.Numbers (i + 1) (fields ++ [(constant.name, value)]) := by
  have short : i < listing.constants.length := (List.getElem?_eq_some_iff.mp found).1
  have length : fields.length = i := by
    have counted := congrArg List.length numbers.keys
    simp only [Table.keys, List.length_map, List.length_take] at counted
    omega
  constructor
  · have keys := numbers.keys
    rw [Table.keys] at keys ⊢
    simp [List.take_add_one, found, keys]
  · intro k name other there
    rcases Nat.lt_trichotomy k i with before | rfl | after
    · rw [List.getElem?_append_left (by omega)] at there
      exact numbers.values k name other there
    · rw [List.getElem?_append_right (by omega), length, Nat.sub_self] at there
      obtain ⟨-, rfl⟩ := Prod.mk.inj (Option.some.inj there)
      exact own
    · rw [List.getElem?_append_right (by omega), List.getElem?_singleton, if_neg (by omega)] at there
      cases there

/-- The count after a value: on from a literal, and lost after anything else. -/
theorem countAfter_continues (numerable : listing.Numerable) (short : listing.Short)
    (explicit : listing.Explicit i value) :
    ∃ next, countAfter value = .ok next ∧ listing.Continues (i + 1) next := by
  cases value with
  | literal text =>
    obtain ⟨n, writes⟩ := numerable.decimal i text explicit
    have read := Numeral.read_short writes (short.literals i text explicit)
    refine ⟨some (n + 1), by rw [countAfter, read]; rfl, ?_⟩
    have counts := Counts.fromLiteral explicit.nearest writes
    have one : ((i + 1 : Nat) - i : Int) = 1 := by omega
    rw [one] at counts
    exact counts
  | _ => exact ⟨none, rfl, i, _, explicit.nearest, nofun⟩

/-- One constant gets its value, and the count goes on, unless it is lost here. -/
theorem constantOf_continues {inner name : Json} {count : Option Int} (numerable : listing.Numerable)
    (short : listing.Short) (held : node.field "inner" = .ok inner)
    (found : listing.constants[i]? = some (Enumerator.read name inner))
    (continues : listing.Continues i count) :
    (∃ value next, constantOf (listing.ownersAt i) listing.name name count node = .ok (value, next) ∧
        listing.Value i value ∧ listing.Continues (i + 1) next ∧ ¬ listing.Breaks i) ∨
      constantOf (listing.ownersAt i) listing.name name count node =
        .error (.mixedCounter listing.name name) ∧ listing.Breaks i := by
  cases holds : inner.holds with
  | true =>
    rw [Enumerator.read, holds, if_pos rfl] at found
    have initializer : listing.initializer? i = some inner := by simp [initializer?, found]
    obtain ⟨value, explicit⟩ := numerable.evaluates i inner initializer
    obtain ⟨next, counted, after⟩ := countAfter_continues numerable short explicit
    have there : node.need "inner" = .ok inner := need_of_field held (by rintro rfl; cases holds)
    obtain ⟨own, initializer', evaluated⟩ := id explicit
    obtain rfl := Option.some.inj (initializer.symm.trans initializer')
    refine .inl ⟨value, next, ?_, .explicit explicit, after, fun breaks => explicit.not_implicit breaks.1⟩
    simp only [constantOf, held, there, holds, evaluated, counted, bind, Except.bind, if_true]
    rfl
  | false =>
    rw [Enumerator.read, holds, if_neg (by decide)] at found
    have implicit : listing.Implicit i := ⟨_, found, rfl⟩
    cases count with
    | some n =>
      have written : Numeral.write n = .ok (toString n) := if_pos (short.counts i n implicit continues)
      refine .inl ⟨.literal (toString n), some (n + 1), ?_, .implicit implicit continues,
        Counts.succ continues implicit, fun breaks => Counts.not_lost continues breaks.2⟩
      simp only [constantOf, held, holds, written, bind, Except.bind, Bool.false_eq_true, if_false]
      rfl
    | none =>
      refine .inr ⟨?_, implicit, continues⟩
      simp only [constantOf, held, holds, bind, Except.bind, Bool.false_eq_true, if_false]

variable {σ : Type} {session : Session σ}

/-- The members from a position on. By induction on the members; what is known at a position is the
fields, the owners and the count so far. -/
theorem constants_number (numerable : listing.Numerable) (short : listing.Short) {nodes : List Json}
    {before rest : List Enumerator} {count : Option Int} {fields : Table Label Constant}
    (lists : Lists nodes rest) (place : listing.constants = before ++ rest)
    (owners : session.owners = listing.ownersAt before.length)
    (numbers : listing.Numbers before.length fields) (continues : listing.Continues before.length count)
    (unbroken : ∀ k < before.length, ¬ listing.Breaks k) :
    Ends (fun fields after => listing.Numbers listing.constants.length fields ∧
        after = { session with owners := listing.ownersAt listing.constants.length } ∧
        ∀ k, ¬ listing.Breaks k)
      (fun fault _ => ∃ name, fault = .mixedCounter listing.name name ∧ ∃ k, listing.Breaks k)
      (Resolve.constants listing.name count fields nodes) session := by
  induction lists generalizing before count fields session with
  | nil =>
    rw [List.append_nil] at place
    rw [← place] at owners numbers unbroken
    refine ⟨numbers, by rw [← owners], fun k breaks => ?_⟩
    obtain ⟨constant, found, -⟩ := breaks.1
    exact unbroken k (List.getElem?_eq_some_iff.mp found).1 breaks
  | other known other later ih =>
    rw [Resolve.constants, known, lift_ok_bind, other]
    exact ih place owners numbers continues unbroken
  | @constant node kind name inner rest constants known constant named keyed held later ih =>
    have found : listing.constants[before.length]? = some (Enumerator.read name inner) := by simp [place]
    have fresh : Table.has name fields = false := by
      rw [← Bool.not_eq_true, Table.has_iff_keys, numbers.keys, place, List.take_left]
      rintro ⟨own, member, same⟩
      obtain ⟨early, inside, rfl⟩ := List.mem_map.mp member
      have distinct := numerable.distinct
      rw [place] at distinct
      have apart : (early.name == name) = false :=
        (List.pairwise_append.mp distinct).2.2 early inside _ List.mem_cons_self
      rw [apart] at same
      cases same
    rw [Resolve.constants, known, lift_ok_bind, constant, if_pos rfl, named, lift_ok_bind]
    refine ends_bind.mpr (ends_get.mpr ?_)
    rw [owners]
    obtain ⟨value, next, given, own, after, whole⟩ | ⟨failed, breaks⟩ :=
      constantOf_continues numerable short held found continues
    · rw [given, lift_ok_bind]
      dsimp only
      rw [keyed, lift_ok_bind, Table.insert_of_absent fresh]
      refine ends_bind.mpr ((ends_modify _).mpr ?_)
      have length : (before ++ [Enumerator.read name inner]).length = before.length + 1 :=
        List.length_append
      apply @ih _ (before ++ [Enumerator.read name inner])
      · rw [place, List.append_assoc]
        rfl
      · rw [length, ownersAt_succ found, ← owners]
        rfl
      · rw [length]
        exact numbers.append found own
      · rw [length]
        exact after
      · intro k below
        rw [length] at below
        rcases Nat.lt_succ_iff_lt_or_eq.mp below with inside | rfl
        · exact unbroken k inside
        · exact whole
    · rw [failed]
      exact ⟨name, rfl, _, breaks⟩

end Listing

/-- Enums are numbered as in C, as long as no number goes beyond the limit of digits. -/
theorem enum_numbered {σ : Type} {session : Session σ} {listing : Listing} {members : List Json}
    (lists : Lists members listing.constants) (owners : session.owners = listing.before)
    (numerable : listing.Numerable) (short : listing.Short) :
    listing.Numbered session ((enum listing.name members).runOn session) := by
  have start : listing.Numbers 0 [] := ⟨rfl, nofun⟩
  have zero : listing.Continues 0 (some 0) := .fromZero fun k before => absurd before (Nat.not_lt_zero k)
  have first : ∀ k < ([] : List Enumerator).length, ¬ listing.Breaks k := nofun
  have ends := @Listing.constants_number listing _ session numerable short _ [] _ _ _ lists rfl owners
    start zero first
  rw [enum, runOn_bind]
  unfold Ends at ends
  revert ends
  obtain ⟨outcome, after⟩ := (constants listing.name (some 0) [] members).runOn session
  cases outcome with
  | ok fields =>
    rintro ⟨numbers, rfl, whole⟩
    constructor
    · constructor
      · rintro ⟨name, failed⟩
        cases failed
      · rintro ⟨i, breaks⟩
        exact absurd breaks (whole i)
    · intro _
      refine ⟨fields, _, rfl, numbers, fun constant member => ?_⟩
      exact Listing.owned _ constant (by rwa [List.take_length])
  | error fault =>
    rintro ⟨name, rfl, breaks⟩
    constructor
    · exact ⟨fun _ => breaks, fun _ => ⟨name, rfl⟩⟩
    · intro whole
      obtain ⟨i, breaks⟩ := breaks
      exact absurd breaks (whole i)

def literalNode (text : String) : Json := obj [("kind", str "IntegerLiteral"), ("value", str text)]

def nameNode (name : String) : Json :=
  obj [("kind", str "DeclRefExpr"), ("referencedDecl", obj [("name", str name)])]

def memberNode (name : String) (inner : List Json) : Json :=
  obj [("kind", str "EnumConstantDecl"), ("name", str name), ("inner", arr inner)]

theorem Lists.member {rest : List Json} {constants : List Enumerator} (name : String) (inner : List Json)
    (later : Lists rest constants) :
    Lists (memberNode name inner :: rest) (Enumerator.read (str name) (arr inner) :: constants) :=
  .constant rfl rfl rfl rfl rfl later

/-- A literal, a constant after it, and a reference to the first. -/
def hues : Listing where
  name := str "tint"
  before := []
  constants := [Enumerator.read (str "red") (arr [literalNode "4"]),
    Enumerator.read (str "green") (arr []), Enumerator.read (str "blue") (arr [nameNode "red"])]

theorem explicit_hues {i : Nat} {value : Constant} (explicit : hues.Explicit i value) :
    i = 0 ∧ value = .literal "4" ∨ i = 2 ∧ value = .reference (str "red") (str "tint") := by
  obtain ⟨node, initializer, evaluated⟩ := explicit
  match i with
  | 0 =>
    obtain rfl := Option.some.inj initializer
    exact .inl ⟨rfl, (Except.ok.inj evaluated).symm⟩
  | 1 => cases initializer
  | 2 =>
    obtain rfl := Option.some.inj initializer
    exact .inr ⟨rfl, (Except.ok.inj evaluated).symm⟩
  | i + 3 => cases initializer

theorem numerable_hues : hues.Numerable where
  distinct := by decide
  evaluates i node initializer := by
    match i with
    | 0 => exact ⟨_, _, initializer, by obtain rfl := Option.some.inj initializer; rfl⟩
    | 1 => cases initializer
    | 2 => exact ⟨_, _, initializer, by obtain rfl := Option.some.inj initializer; rfl⟩
    | i + 3 => cases initializer
  decimal i text explicit := by
    obtain ⟨-, same⟩ | ⟨-, same⟩ := explicit_hues explicit
    · obtain rfl := Constant.literal.inj same
      exact ⟨_, .natural (List.forall_mem_singleton.mpr rfl) (List.cons_ne_nil '4' [])⟩
    · cases same

theorem short_hues : hues.Short where
  literals i text explicit := by
    obtain ⟨-, same⟩ | ⟨-, same⟩ := explicit_hues explicit
    · obtain rfl := Constant.literal.inj same
      decide
    · cases same
  counts i n implicit counts := by
    have first : i = 1 := by
      obtain ⟨constant, found, none⟩ := implicit
      match i with
      | 0 | 2 =>
        obtain rfl := Option.some.inj found
        cases none
      | 1 => rfl
      | i + 3 => cases found
    subst first
    cases counts with
    | fromZero none =>
      obtain ⟨constant, found, none⟩ := none 0 (by decide)
      obtain rfl := Option.some.inj found
      cases none
    | @fromLiteral j text n nearest writes =>
      obtain ⟨rfl, same⟩ | ⟨-, same⟩ := explicit_hues nearest.explicit
      · obtain rfl := Constant.literal.inj same
        have four : Numeral.read "4" = .ok 4 := by decide +kernel
        have read := Numeral.read_short writes (by decide)
        obtain rfl := Except.ok.inj (four.symm.trans read)
        decide +kernel
      · cases same

theorem enum_numbered_hues :
    hues.Numerable ∧ hues.Short ∧ hues.Numbered { oracle := () } ((enum hues.name
      [memberNode "red" [literalNode "4"], obj [("kind", str "FullComment")], memberNode "green" [],
        memberNode "blue" [nameNode "red"]]).runOn { oracle := () }) :=
  have lists : Lists [memberNode "red" [literalNode "4"], obj [("kind", str "FullComment")],
      memberNode "green" [], memberNode "blue" [nameNode "red"]] hues.constants :=
    .member _ _ (.other rfl rfl (.member _ _ (.member _ _ .nil)))
  ⟨numerable_hues, short_hues, enum_numbered lists rfl numerable_hues short_hues⟩

section
variable (digits : List Char)

/-- An enum with one literal. -/
def span : Listing where
  name := str "span"
  before := []
  constants := [Enumerator.read (str "far") (arr [literalNode (String.ofList digits)])]

theorem explicit_span (i : Nat) (value : Constant) :
    (span digits).Explicit i value ↔ i = 0 ∧ value = .literal (String.ofList digits) := by
  constructor
  · rintro ⟨node, initializer, evaluated⟩
    match i with
    | 0 =>
      obtain rfl := Option.some.inj initializer
      exact ⟨rfl, (Except.ok.inj evaluated).symm⟩
    | i + 1 => cases initializer
  · rintro ⟨rfl, rfl⟩
    exact ⟨_, rfl, rfl⟩

theorem numerable_span {digits : List Char} (decimal : ∀ c ∈ digits, c.isDigit = true)
    (some_digit : digits ≠ []) : (span digits).Numerable where
  distinct := List.pairwise_singleton ..
  evaluates i node initializer := by
    match i with
    | 0 => exact ⟨_, (explicit_span digits 0 _).mpr ⟨rfl, rfl⟩⟩
    | i + 1 => cases initializer
  decimal i text explicit := by
    obtain ⟨-, same⟩ := (explicit_span digits i _).mp explicit
    obtain rfl := Constant.literal.inj same
    exact ⟨_, .natural decimal some_digit⟩

theorem span_unread {digits : List Char} (decimal : ∀ c ∈ digits, c.isDigit = true)
    (long : Text.digitLimit < digits.length) :
    ((enum (span digits).name [memberNode "far" [literalNode (String.ofList digits)]]).runOn
      { oracle := () }).1 =
      .error (.value (Text.IntegerProblem.reason (String.ofList digits) (.tooLong digits.length))) := by
  have given : constantOf [] (str "span") (str "far") (some 0)
      (memberNode "far" [literalNode (String.ofList digits)]) =
      .error (.value (Text.IntegerProblem.reason (String.ofList digits) (.tooLong digits.length))) := by
    change (countAfter (.literal (String.ofList digits)) >>= fun next => _) = _
    rw [countAfter, Numeral.read_long decimal long]
    rfl
  change ((constants (str "span") (some 0) []
    [memberNode "far" [literalNode (String.ofList digits)]] >>= fun fields => _).runOn _).1 = _
  rw [constants]
  change (((liftM (constantOf [] (str "span") (str "far") (some 0)
    (memberNode "far" [literalNode (String.ofList digits)])) >>= fun pair => _) >>= fun fields => _ :
      Resolving Unit CType).runOn _).1 = _
  rw [given]
  rfl

/-- A literal with too many digits cannot be read, even if nothing counts on from it. -/
theorem not_enum_numbered_span :
    let digits := '1' :: List.replicate Text.digitLimit '0'
    let members := [memberNode "far" [literalNode (String.ofList digits)]]
    Lists members (span digits).constants ∧ (span digits).Numerable ∧
      ¬ (span digits).Numbered { oracle := () } ((enum (span digits).name members).runOn { oracle := () }) := by
  intro digits members
  have decimal : ∀ c ∈ digits, c.isDigit = true := by simp [digits, List.mem_replicate]
  refine ⟨.member _ _ .nil, numerable_span decimal (by simp [digits]), fun numbered => ?_⟩
  have whole : ∀ i, ¬ (span digits).Breaks i := by
    rintro i ⟨⟨constant, found, none⟩, -⟩
    match i with
    | 0 =>
      obtain rfl := Option.some.inj found
      cases none
    | i + 1 => cases found
  obtain ⟨fields, owners, run, -⟩ := numbered.gives whole
  have failed := span_unread decimal (by simp [digits])
  rw [run] at failed
  cases failed

end

end Resolve

end NativeBindings
