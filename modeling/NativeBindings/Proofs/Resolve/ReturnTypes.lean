import NativeBindings.Proofs.Resolve.ConstantOwners
import NativeBindings.Proofs.SpelledTypes

/-!
What functions return. A C compiler spells a function type inside out: the parameters stand in the middle
of the type that it returns, where a pointer to a function or an array has its star. The text before the
first parenthesis is all of the returned type only if that is spelled without one.
-/
namespace NativeBindings

namespace Spelling

open Text

/-- The characters that tell where a type spelled inside out ends: stars, and closing parentheses. -/
def isSign (c : Char) : Bool := c == ')' || c == '*'

def signs (s : List Char) : List Char := s.filter isSign

/-- No star stands behind the last parenthesis. -/
def Closed (s : List Char) : Prop := (signs s).getLast? = some ')'

section
variable {c : Char} {s word name before : List Char}

theorem not_isSign_of_isBlank (blank : isBlank c = true) : isSign c = false := by
  rw [Bool.eq_false_iff]
  intro sign
  simp only [isSign, Bool.or_eq_true, beq_iff_eq] at sign
  rcases sign with rfl | rfl
  · exact absurd blank (by decide +kernel)
  · exact absurd blank (by decide +kernel)

theorem not_isSign_of_isDecimal (decimal : isDecimal c = true) : isSign c = false := by
  rw [Bool.eq_false_iff]
  intro sign
  simp only [isSign, Bool.or_eq_true, beq_iff_eq] at sign
  rcases sign with rfl | rfl
  · exact absurd decimal (by decide +kernel)
  · exact absurd decimal (by decide +kernel)

theorem signs_append (s t : List Char) : signs (s ++ t) = signs s ++ signs t := List.filter_append ..

theorem signs_reverse (s : List Char) : signs s.reverse = (signs s).reverse := List.filter_reverse ..

theorem signs_eq_nil (none : ∀ c ∈ s, isSign c = false) : signs s = [] := by
  simpa [signs, List.filter_eq_nil_iff] using none

theorem signs_trimLeft (s : List Char) : signs (trimLeft s) = signs s := by
  have front : signs (s.takeWhile isBlank) = [] := signs_eq_nil fun c member =>
    not_isSign_of_isBlank (List.mem_takeWhile_imp member)
  conv_rhs => rw [← List.takeWhile_append_dropWhile (p := isBlank) (l := s), signs_append, front]
  rfl

theorem signs_trimRight (s : List Char) : signs (trimRight s) = signs s := by
  rw [trimRight, signs_reverse]
  have turned := signs_trimLeft s.reverse
  rw [trimLeft] at turned
  rw [turned, signs_reverse, List.reverse_reverse]

theorem signs_trim (s : List Char) : signs (trim s) = signs s := by
  rw [trim, signs_trimRight, signs_trimLeft]

theorem signs_dropLeading (plain : signs word = []) : signs (dropLeading name word) = signs name := by
  obtain ⟨rest, rfl, goes⟩ | ⟨-, same⟩ := dropLeading_cases name word
  · rw [goes, signs_trimLeft, signs_append, plain, List.nil_append]
  · rw [same]

theorem signs_dropTrailing (plain : signs word = []) : signs (dropTrailing name word) = signs name := by
  obtain ⟨rest, rfl, goes⟩ | ⟨-, same⟩ := dropTrailing_cases name word
  · rw [goes, signs_trimRight, signs_append, plain, List.append_nil]
  · rw [same]

theorem signs_normalChars (s : List Char) : signs (normalChars s) = signs s := by
  apply normalChars_keeps (motive := fun name => signs name = signs s)
  · intro word kept name same
    have plain : ∀ word ∈ keptWords, signs (word ++ [' ']) = [] := by decide
    rw [signs_dropLeading (plain word kept), same]
  · intro word own name same
    have plain : ∀ word ∈ qualifiers, signs (' ' :: word) = [] := by decide
    rw [signs_dropTrailing (plain word own), same]
  · exact signs_trim s

/-- The element of an array has the signs of the array. -/
theorem signs_array? {element digits : List Char} (found : array? before s = some (element, digits)) :
    signs element = signs (before.reverse ++ s) := by
  induction s generalizing before with
  | nil => cases found
  | cons c rest ih =>
    have passed : (c :: before).reverse ++ rest = before.reverse ++ c :: rest := by simp
    rw [array?] at found
    split at found
    · cases found
    split at found
    next own after read =>
      split at found
      next row =>
        obtain ⟨rfl, rfl⟩ := Prod.mk.inj (Option.some.inj found)
        obtain ⟨same, decimal⟩ := dimension?_eq read
        have none : signs own = [] := signs_eq_nil fun c member => not_isSign_of_isDecimal (decimal c member)
        have behind : signs rest = signs after := by
          rw [← signs_trimLeft rest, same, ← List.singleton_append, signs_append, signs_append, none,
            ← List.singleton_append (l := after), signs_append]
          rfl
        rw [signs_append, signs_trim, ← passed, signs_append, behind]
      · rw [← passed]
        exact ih found
    · rw [← passed]
      exact ih found

theorem mem_of_head?_signs (first : (signs s).head? = some ')') : ')' ∈ s.takeWhile (· != '*') := by
  induction s with
  | nil => cases first
  | cons c rest ih =>
    rw [signs, List.filter_cons] at first
    split at first
    · obtain rfl := Option.some.inj first
      simp
    next other =>
      have apart : (c != '*') = true := by
        simp only [isSign, Bool.or_eq_true, beq_iff_eq, not_or] at other
        simpa using other.2
      rw [List.takeWhile_cons_of_pos (by exact apart)]
      exact List.mem_cons_of_mem _ (ih first)

theorem beforeStar?_closed (closed : Closed s) : beforeStar? s = none := by
  have inside : ')' ∈ (s.reverse.takeWhile (· != '*')).reverse := by
    rw [List.mem_reverse]
    refine mem_of_head?_signs ?_
    rw [signs_reverse, List.head?_reverse]
    exact closed
  have kept : ')' ∈ signs (trimLeft (s.reverse.takeWhile (· != '*')).reverse) := by
    rw [signs_trimLeft]
    exact List.mem_filter.mpr ⟨inside, rfl⟩
  unfold beforeStar?
  dsimp only
  rw [if_neg]
  intro same
  rw [Bool.or_eq_true, decide_eq_true_eq, decide_eq_true_eq] at same
  rcases same with none | word
  · rw [none] at kept
    cases kept
  · rw [word] at kept
    exact absurd kept (by decide)

theorem constPointer?_closed (closed : Closed s) : constPointer? s = none := by
  unfold constPointer?
  cases start : afterStart? "const ".toList s with
  | none => rfl
  | some body =>
    have unended : beforeEnd? " *".toList body = none := by
      rw [Option.eq_none_iff_forall_ne_some]
      intro front found
      rw [Closed, afterStart?_eq_some.mp start, beforeEnd?_eq_some.mp found, signs_append, signs_append,
        ← List.append_assoc, List.getLast?_append_of_ne_nil _ (by decide)] at closed
      exact absurd closed (by decide)
    change (beforeEnd? " *".toList body).bind _ = none
    rw [unended]
    rfl

theorem parseSingle_closed (closed : Closed s) : parseSingle s = .name (String.ofList (normalChars s)) := by
  have other : s ≠ "const char *".toList := by
    rintro rfl
    rw [Closed] at closed
    exact absurd closed (by decide)
  have unpointed : pointer? s = none := by
    rw [pointer?, beforeStar?_closed closed]
    rfl
  rw [parseSingle, if_neg other, constPointer?_closed closed, unpointed]
  rfl

end

end Spelling

namespace Resolve

open Json Act Outcome Spelling Text

section
variable {graph : Graph} {type : CType} {s : String}

/-- Nothing declared is spelled with a closing parenthesis. -/
def Unclosed (graph : Graph) : Prop := ∀ name : String, graph.has (.str name) = true → ')' ∉ name.toList

/-- A spelling that ends behind a parenthesis, dimensions apart, is read as a name, and so denotes
nothing. -/
theorem typeOf_closed (names : Unclosed graph) (closed : Closed s.toList) : typeOf graph s ≠ .ok type := by
  have step (fuel depth : Nat) (s : String) (closed : Closed s.toList) (type : CType) :
      typeOfWith graph fuel depth s ≠ .ok type := by
    induction fuel generalizing depth s type with
    | zero =>
      intro read
      cases read
    | succ fuel ih =>
      have trimmed : Closed (trim s.toList) := by rwa [Closed, signs_trim]
      rw [typeOfWith, parse]
      split
      · intro read
        cases read
      cases array : array? [] (trim s.toList) with
      | none =>
        rw [parseSingle_closed trimmed]
        dsimp only
        have sign : ')' ∈ String.toList (String.ofList (normalChars (trim s.toList))) := by
          have kept : ')' ∈ signs (normalChars (trim s.toList)) := by
            rw [signs_normalChars]
            exact List.mem_of_getLast? trimmed
          rw [String.toList_ofList]
          exact (List.mem_filter.mp kept).1
        have absent : graph.has (.str (String.ofList (normalChars (trim s.toList)))) = false := by
          rw [Bool.eq_false_iff]
          exact fun declared => names _ declared sign
        rw [use_absent absent]
        intro read
        cases read
      | some found =>
        obtain ⟨element, digits⟩ := found
        dsimp only
        cases lengthOf digits with
        | error fault =>
          intro read
          cases read
        | ok length =>
          have inner : Closed (String.ofList element).toList := by
            rw [Closed, String.toList_ofList, signs_array? array]
            exact trimmed
          intro read
          obtain ⟨item, found, -⟩ := bind_eq_ok.mp read
          exact ih _ _ inner _ found
  exact step _ _ s closed type

end

/-- A type that a function returns, as it is spelled. A pointer to a function or to an array holds its
stars, with their qualifiers, in the middle of the type that is called or stored. -/
inductive Returned where
  | plain (text : List Char) (bare : '(' ∉ text) (tight : Tight text)
  | toFunction (result : Returned) (stars parameters : List Char)
  | toArray (item : Returned) (stars : List Char) (lengths : List Nat)

namespace Returned

/-- What the spelling starts with, up to the first parenthesis. -/
def innermost : Returned → List Char
  | plain text _ _ => text
  | toFunction result _ _ => result.innermost
  | toArray item _ _ => item.innermost

/-- What stands between a type and a declarator: nothing behind a star. -/
def gap (text : List Char) : List Char := if text.getLast? = some '*' then [] else [' ']

/-- The spelling with a declarator in the middle. -/
def around : Returned → List Char → List Char
  | plain text _ _, [] => text
  | plain text _ _, middle => text ++ (gap text ++ middle)
  | toFunction result stars parameters, middle =>
    result.around ('(' :: (stars ++ middle) ++ ')' :: '(' :: parameters ++ [')'])
  | toArray item stars lengths, middle =>
    item.around ('(' :: (stars ++ middle) ++ ')' :: lengths.flatMap Spelled.dimension)

def spelling (type : Returned) : String := String.ofList (type.around [])

/-- The spelling of a function that returns the type. -/
def ofFunction (type : Returned) (parameters : List Char) : String :=
  String.ofList (type.around ('(' :: parameters ++ [')']))

/-- A name or a pointer, spelled without parentheses. -/
def IsPlain : Returned → Prop
  | plain _ _ _ => True
  | _ => False

variable {type : Returned}

theorem takeWhile_around (type : Returned) (more : List Char) :
    trim ((type.around ('(' :: more)).takeWhile (· != '(')) = type.innermost := by
  induction type generalizing more with
  | plain text bare tight =>
    have passed : ∀ c ∈ text, (c != '(') = true := fun c member => by
      have apart : c ≠ '(' := fun same => bare (same ▸ member)
      simpa using apart
    change trim ((text ++ (gap text ++ '(' :: more)).takeWhile (· != '(')) = text
    rw [List.takeWhile_append_of_pos passed, gap]
    split
    · simp [tight.trim]
    · have blank : trim (text ++ [' ']) = text := by
        rw [trim, tight.trimLeft, tight.trimRight_blank]
      simp [blank]
  | toFunction result stars parameters ih => exact ih _
  | toArray item stars lengths ih => exact ih _

theorem resultSpelling_ofFunction (type : Returned) (parameters : List Char) :
    resultSpelling (type.ofFunction parameters) = String.ofList type.innermost := by
  rw [resultSpelling, ofFunction, Text.stripped, String.toList_ofList, String.toList_ofList]
  exact congrArg String.ofList (takeWhile_around type _)

theorem spelling_plain (plain : type.IsPlain) : type.spelling = String.ofList type.innermost := by
  cases type with
  | plain text bare tight => rfl
  | toFunction result stars parameters => cases plain
  | toArray item stars lengths => cases plain

theorem signs_dimensions (lengths : List Nat) : signs (lengths.flatMap Spelled.dimension) = [] := by
  refine signs_eq_nil fun c member => ?_
  obtain ⟨length, -, inside⟩ := List.mem_flatMap.mp member
  simp only [Spelled.dimension, List.cons_append, List.mem_cons, List.mem_append, List.not_mem_nil,
    or_false] at inside
  rcases inside with rfl | digit | rfl
  · rfl
  · exact not_isSign_of_isDecimal (isDecimal_of_mem digit)
  · rfl

theorem closed_append (front : List Char) {tail : List Char} (none : signs tail = []) :
    Closed (front ++ ')' :: tail) := by
  rw [Closed, ← List.singleton_append, signs_append, signs_append, none]
  exact List.getLast?_concat

theorem closed_around (type : Returned) {middle : List Char} (closed : Closed middle) :
    Closed (type.around middle) := by
  cases type with
  | plain text bare tight =>
    cases middle with
    | nil => cases closed
    | cons c more =>
      have signed : signs (c :: more) ≠ [] := by
        intro none
        rw [Closed, none] at closed
        cases closed
      change Closed (text ++ (gap text ++ c :: more))
      rw [Closed, ← List.append_assoc, signs_append, List.getLast?_append_of_ne_nil _ signed]
      exact closed
  | toFunction result stars parameters => exact closed_around result (closed_append _ rfl)
  | toArray item stars lengths => exact closed_around item (closed_append _ (signs_dimensions lengths))

/-- A pointer to a function or to an array ends behind a parenthesis. -/
theorem closed_spelling (inside : ¬ type.IsPlain) : Closed type.spelling.toList := by
  rw [spelling, String.toList_ofList]
  cases type with
  | plain text bare tight => exact absurd trivial inside
  | toFunction result stars parameters => exact closed_around result (closed_append _ rfl)
  | toArray item stars lengths => exact closed_around item (closed_append _ (signs_dimensions lengths))

end Returned

section
variable {σ : Type} {session : Session σ} {node : Json} {spelling : String}

/-- A function node is refused with a fault, or declares a function that returns what a spelling
denotes. -/
def DeclaresResult (node : Json) (session : Session σ) (spelling : String) : Prop :=
  (∃ fault, ((function node).runOn session).1 = .error fault) ∨
    ∃ name result parameters told, typeOf session.graph spelling = .ok result ∧
      (function node).runOn session = (do
        let _ ← register name (.signature { name, size := CType.pointerSize } result parameters)
        : Resolving σ Unit).runOn { session with journal := session.journal ++ told }

theorem signature_result {graph : Graph} {name : Label} {type : CType}
    (spelled : spellingOf node = .ok (.str spelling)) (found : signature graph name node = .ok type) :
    ∃ result parameters, type = .signature { name, size := CType.pointerSize } result parameters ∧
      typeOf graph (resultSpelling spelling) = .ok result := by
  obtain ⟨own, same, found⟩ := bind_eq_ok.mp found
  obtain rfl := Except.ok.inj (spelled.symm.trans same)
  obtain ⟨text, read, found⟩ := bind_eq_ok.mp found
  obtain rfl := Except.ok.inj read
  obtain ⟨result, returned, found⟩ := bind_eq_ok.mp found
  obtain ⟨inner, -, found⟩ := bind_eq_ok.mp found
  obtain ⟨items, -, found⟩ := bind_eq_ok.mp found
  obtain ⟨parameters, -, found⟩ := bind_eq_ok.mp found
  exact ⟨result, parameters, (pure_eq_ok.mp found).symm, returned⟩

theorem function_runOn {name : Label} (named : node.need "name" = .ok name) :
    (function node).runOn session = (do
      let type ← signature session.graph name node
      if (← node.field "variadic").holds then
        note (Journal.debug ("Variadic arguments of " ++ name.plain ++ " are not bound"))
      let _ ← register name type : Resolving σ Unit).runOn session := by
  have start : (Resolve.graph : Resolving σ Graph).runOn session = (.ok session.graph, session) := rfl
  rw [function, named, lift_ok_bind, runOn_bind, start]

/-- The result is what the text before the first parenthesis denotes. -/
theorem function_declaresResult (spelled : spellingOf node = .ok (.str spelling)) :
    DeclaresResult node session (resultSpelling spelling) := by
  cases named : node.need "name" with
  | error fault =>
    refine .inl ⟨fault, ?_⟩
    rw [function, named]
    rfl
  | ok name =>
    have run := @function_runOn _ session _ _ named
    cases made : signature session.graph name node with
    | error fault =>
      rw [made] at run
      exact .inl ⟨fault, congrArg (·.1) run⟩
    | ok type =>
      obtain ⟨result, parameters, rfl, returned⟩ := signature_result spelled made
      rw [made, lift_ok_bind] at run
      cases varied : node.field "variadic" with
      | error fault =>
        rw [varied] at run
        exact .inl ⟨fault, congrArg (·.1) run⟩
      | ok variadic =>
        rw [varied, lift_ok_bind] at run
        cases holds : variadic.holds with
        | true =>
          rw [holds] at run
          exact .inr ⟨name, result, parameters, _, returned, run⟩
        | false =>
          rw [holds] at run
          exact .inr ⟨name, result, parameters, [], returned, by rw [run, List.append_nil]; rfl⟩

/-- A function that returns a name or a pointer is declared with it. One that returns a pointer to a
function or to an array should be refused, as the returned type denotes nothing; it is declared with the
type that the spelling starts with. -/
theorem function_returns {type : Returned} {parameters : List Char}
    (spelled : spellingOf node = .ok (.str (type.ofFunction parameters))) :
    (type.IsPlain → DeclaresResult node session type.spelling) ∧
      (¬ type.IsPlain → Unclosed session.graph →
        DeclaresResult node session (String.ofList type.innermost) ∧
          (DeclaresResult node session type.spelling ↔
            ∃ fault, ((function node).runOn session).1 = .error fault)) := by
  have declares := @function_declaresResult _ session _ _ spelled
  rw [type.resultSpelling_ofFunction] at declares
  refine ⟨fun plain => ?_, fun inside names => ⟨declares, ?_, .inl⟩⟩
  · rw [type.spelling_plain plain]
    exact declares
  · rintro (refused | ⟨name, result, parameters, told, returned, -⟩)
    · exact refused
    · exact absurd returned (typeOf_closed names (type.closed_spelling inside))

/-- A pointer to a function that takes a character and returns an integer. -/
def handler : Returned :=
  .toFunction (.plain "int".toList (by decide) (Spelling.Word.tight ⟨"int".toList, by decide +kernel, by decide⟩))
    ['*'] "char".toList

/-- A function that takes an integer and returns such a pointer. -/
def pick : Json :=
  obj [("kind", str "FunctionDecl"), ("name", str "pick"),
    ("type", obj [("qualType", str "int (*(int))(char)")]),
    ("inner", arr [obj [("kind", str "ParmVarDecl"), ("type", obj [("qualType", str "int")])]])]

theorem unclosed_sown : Unclosed sownSession.graph := by
  have checked : (sownSession.graph.names.all fun own => !own.plain.toList.contains ')') = true := by
    decide +kernel
  intro name declared
  obtain ⟨own, member, same⟩ := Table.has_iff_keys.mp declared
  have plain := List.all_eq_true.mp checked own member
  obtain rfl := (beq_str_iff _ _).mp same
  simpa [Json.plain] using plain

theorem function_returns_pick :
    spellingOf pick = .ok (.str (handler.ofFunction "int".toList)) ∧ Unclosed sownSession.graph ∧
      DeclaresResult pick sownSession (String.ofList handler.innermost) ∧
      (DeclaresResult pick sownSession handler.spelling ↔
        ∃ fault, ((function pick).runOn sownSession).1 = .error fault) := by
  have spelled : spellingOf pick = .ok (.str (handler.ofFunction "int".toList)) := rfl
  exact ⟨spelled, unclosed_sown, (function_returns spelled).2 nofun unclosed_sown⟩

/-- The function is declared as one that returns an integer. -/
theorem function_mistakes_pick :
    spellingOf pick = .ok (.str (handler.ofFunction "int".toList)) ∧
      ¬ DeclaresResult pick sownSession handler.spelling ∧
      (((function pick).runOn sownSession).2.graph.find? (.str "pick")).bind (fun type => match type with
        | .signature _ result _ => some result.name
        | _ => none) = some (.str "int32_t") := by
  have fine : ((function pick).runOn sownSession).1.isOk = true := by decide +kernel
  refine ⟨rfl, ?_, by decide +kernel⟩
  rintro (⟨fault, refused⟩ | ⟨name, result, parameters, told, returned, -⟩)
  · rw [refused] at fine
    cases fine
  · exact typeOf_closed unclosed_sown (handler.closed_spelling nofun) returned

end

end Resolve

end NativeBindings
