import Mathlib.Data.List.Sigma
import NativeBindings.Proofs.Emit.Arguments
import NativeBindings.Proofs.SpelledTypes

/-!
The variables of a callable: its parameters, and a temporary for each of them that is prepared. Names
that differ in the header are spelled apart, places are counted apart and low lines put things apart,
but a name of the header can look like a place, like a word with a low line, or like a temporary.
-/
namespace NativeBindings.Emit

open Outcome

/-- A parameter and its place. -/
abbrev Seat := Parameter CType × Nat

/-- The name that a header gives a parameter. -/
def givenName (parameter : Parameter CType) : Option String :=
  match parameter.name with
  | .str word => if word = "" then none else some word
  | _ => none

/-- The name that a place gives its parameter. -/
def placeName (index : Nat) : String := "arg" ++ toString index

namespace Seat

/-- What a parameter is called in its place. -/
def shown (seat : Seat) : String := (givenName seat.1).getD (placeName seat.2)

/-- The variable for a parameter. -/
def spelled (seat : Seat) : String := ident seat.shown

/-- The variable for what a parameter is turned into. -/
def temporary (seat : Seat) : String := "_" ++ seat.spelled

/-- Whether two parameters meet under one name: a place gives one of them the name that the header gives
the other, one has a word for its name and the other the word with a low line, or one is prepared in the
variable of the other. -/
inductive Clash (options : Options) (one two : Seat) : Prop
  | place (unnamed : givenName one.1 = none) (given : givenName two.1 = some (placeName one.2))
  | word (taken : isTaken one.shown = true) (given : two.shown = one.shown ++ "_")
  | temporary (prepared : prepares options one.1.type = true) (given : two.spelled = one.temporary)

end Seat

/-- Whether two parameters of a function meet under one name. -/
def Clashing (options : Options) (parameters : List (Parameter CType)) : Prop :=
  ∃ one ∈ parameters.zipIdx, ∃ two ∈ parameters.zipIdx, Seat.Clash options one two

/-- The temporaries that the lines of arguments assign. -/
def temporariesOf (made : List Argument) : List String :=
  (made.filter fun argument => !argument.steps.isEmpty).map Argument.temporary

/-- A callable that prepares its arguments, or what it returns. -/
def wrapperLines (options : Options) (ident symbol returned : String) (isText : Bool)
    (made : List Argument) : List Fragment :=
  let given := made.map fun argument => argument.name ++ ": " ++ argument.hint.plain
  let call := symbol ++ "(" ++ ", ".intercalate (made.map fun argument => argument.passed.plain) ++ ")"
  put options 0 [.text ("def " ++ ident ++ "(" ++ ", ".intercalate given ++ ") -> " ++ returned ++ ":")] ::
    (made.flatMap fun argument => argument.steps.map (put options 1)) ++
    [put options 1 [.text (if isText then "return CString(" ++ call ++ ")" else "return " ++ call)]]

/-- An argument for the parameter in a seat: it has its name, and passes on that or its temporary. -/
structure Stands (options : Options) (seat : Seat) (argument : Argument) : Prop where
  named : argument.name = seat.spelled
  passes : Passes options seat.1.type argument

/-! ### Names that meet -/

theorem isTaken_dash (word : String) : isTaken (word ++ "_") = false := by
  have dashed (start : String) : start ++ word ++ "_" ∉ needed := fun among =>
    (needed_open _ among).1 (by simp)
  have bare : word ++ "_" ∉ needed := by simpa using dashed ""
  have reader := dashed "read_"
  rw [needed, List.mem_append, List.mem_append, not_or, not_or] at bare reader
  simp [isTaken, isKeyword, bare, reader, ← String.append_assoc]

/-- Identifiers are the same for the same names, and for a word and the word with a low line. -/
theorem ident_eq_ident {x y : String} : ident x = ident y ↔
    x = y ∨ (isTaken x = true ∧ y = x ++ "_") ∨ isTaken y = true ∧ x = y ++ "_" := by
  unfold ident
  constructor
  · intro same
    split at same <;> split at same
    next => exact .inl (by simpa using same)
    next taken _ => exact .inr (.inl ⟨taken, same.symm⟩)
    next taken => exact .inr (.inr ⟨taken, same⟩)
    next => exact .inl same
  · rintro (rfl | ⟨taken, rfl⟩ | ⟨taken, rfl⟩)
    · rfl
    · rw [if_pos taken, isTaken_dash]
      rfl
    · rw [if_pos taken, isTaken_dash]
      rfl

theorem placeName_injective : Function.Injective placeName := by
  intro i j same
  have digits := congrArg String.toList same
  rw [placeName, placeName, String.toList_append, String.toList_append, List.append_cancel_left_eq,
    Spelling.digits_eq, Spelling.digits_eq] at digits
  rw [← Nat.ofDigitChars_ten_toDigits (n := i), digits, Nat.ofDigitChars_ten_toDigits]

section
variable {options : Options} {known : List Marshaler} {parameters : List (Parameter CType)}

theorem nodup_seats : parameters.zipIdx.Nodup :=
  .of_map Prod.snd (List.nodup_zipIdx_map_snd parameters)

/-- Parameters with one name in the header are one. -/
theorem eq_of_given (distinct : (parameters.filterMap givenName).Nodup) {one two : Seat}
    (member : one ∈ parameters.zipIdx) (member' : two ∈ parameters.zipIdx) {word : String}
    (given : givenName one.1 = some word) (given' : givenName two.1 = some word) : one = two := by
  rw [← List.zipIdx_map_fst 0 parameters, List.Nodup, List.pairwise_filterMap, List.pairwise_map]
    at distinct
  have : Std.Symm fun a b : Seat => ∀ word, givenName a.1 = some word →
      ∀ word', givenName b.1 = some word' → word ≠ word' :=
    ⟨fun _ _ apart word given word' given' => (apart word' given' word given).symm⟩
  by_contra apart
  exact distinct.forall member member' apart word given word given' rfl

/-- Two parameters are called the same only if a place gives one of them the name of the other. -/
theorem eq_of_shown (distinct : (parameters.filterMap givenName).Nodup)
    (free : ¬ Clashing options parameters) {one two : Seat} (member : one ∈ parameters.zipIdx)
    (member' : two ∈ parameters.zipIdx) (same : one.shown = two.shown) : one = two := by
  unfold Seat.shown at same
  cases given : givenName one.1 with
  | none =>
    cases given' : givenName two.1 with
    | none =>
      rw [given, given'] at same
      have place : one.2 = two.2 := placeName_injective same
      exact List.inj_on_of_nodup_map (List.nodup_zipIdx_map_snd parameters) member member' place
    | some word =>
      rw [given, given'] at same
      exact (free ⟨one, member, two, member', .place given (given'.trans (congrArg some same.symm))⟩).elim
  | some word =>
    cases given' : givenName two.1 with
    | none =>
      rw [given, given'] at same
      exact (free ⟨two, member', one, member, .place given' (given.trans (congrArg some same))⟩).elim
    | some word' =>
      rw [given, given'] at same
      exact eq_of_given distinct member member' given (given'.trans (congrArg some same.symm))

/-- The variables for parameters. -/
def localNames (options : Options) (parameters : List (Parameter CType)) : List String :=
  parameters.zipIdx.map Seat.spelled ++
    (parameters.zipIdx.filter fun seat => prepares options seat.1.type).map Seat.temporary

/-- The variables for parameters with names of their own are apart, but where parameters clash. -/
theorem nodup_localNames (distinct : (parameters.filterMap givenName).Nodup) :
    (localNames options parameters).Nodup ↔ ¬ Clashing options parameters := by
  rw [localNames, List.nodup_append', List.nodup_map_iff_inj_on nodup_seats]
  constructor
  · rintro ⟨injective, -, apart⟩ ⟨one, member, two, member', clash⟩
    cases clash with
    | place unnamed given =>
      have same : Seat.shown one = Seat.shown two := by rw [Seat.shown, Seat.shown, unnamed, given]; rfl
      obtain rfl := injective one member two member' (congrArg ident same)
      cases unnamed.symm.trans given
    | word taken given =>
      obtain rfl := injective one member two member'
        (ident_eq_ident.mpr (.inr (.inl ⟨taken, given⟩)))
      exact absurd taken (by rw [given, isTaken_dash]; decide)
    | temporary prepared given =>
      refine List.disjoint_left.mp apart (List.mem_map_of_mem member') ?_
      exact given ▸ List.mem_map_of_mem (List.mem_filter.mpr ⟨member, prepared⟩)
  · intro free
    have injective : ∀ one ∈ parameters.zipIdx, ∀ two ∈ parameters.zipIdx,
        Seat.spelled one = Seat.spelled two → one = two := by
      intro one member two member' same
      obtain same | ⟨taken, same⟩ | ⟨taken, same⟩ := ident_eq_ident.mp same
      · exact eq_of_shown distinct free member member' same
      · exact (free ⟨one, member, two, member', .word taken same⟩).elim
      · exact (free ⟨two, member', one, member, .word taken same⟩).elim
    refine ⟨injective, ?_, ?_⟩
    · refine List.Nodup.map_on ?_ (nodup_seats.filter _)
      intro one member two member' same
      refine injective one (List.mem_of_mem_filter member) two (List.mem_of_mem_filter member') ?_
      simpa [Seat.temporary] using same
    · rw [List.disjoint_left]
      rintro name own temporary
      obtain ⟨two, member', rfl⟩ := List.mem_map.mp own
      obtain ⟨one, prepared, same⟩ := List.mem_map.mp temporary
      obtain ⟨member, prepared⟩ := List.mem_filter.mp prepared
      exact free ⟨one, member, two, member', .temporary prepared same.symm⟩

/-! ### The arguments of a callable -/

theorem argumentName_shown {parameter : Parameter CType} (word : isWord parameter.name = true)
    (index : Nat) : argumentName index parameter.name = .ok (.str (Seat.spelled (parameter, index))) := by
  unfold argumentName Json.orElse Seat.spelled Seat.shown givenName
  cases same : parameter.name with
  | null => rfl
  | str s =>
    by_cases empty : s = ""
    · subst empty
      rfl
    · rw [if_pos (by simpa [Json.holds] using empty)]
      dsimp only
      rw [if_neg empty]
      rfl
  | _ =>
    rw [same] at word
    cases word

theorem argument_stands {index : Nat} {parameter : Parameter CType} {made : Argument}
    (word : isWord parameter.name = true) (done : argument options known index parameter = .ok made) :
    Stands options (parameter, index) made := by
  obtain ⟨simple, plain, named, passes⟩ := argument_passes done
  obtain ⟨passed, hinted, shown, -, rfl⟩ := unprepared_eq_ok.mp plain
  obtain rfl := Except.ok.inj ((argumentName_shown word index).symm.trans shown)
  exact ⟨named, passes⟩

theorem arguments_stand {index : Nat} {made : List Argument}
    (words : ∀ parameter ∈ parameters, isWord parameter.name = true)
    (done : arguments options known index parameters = .ok made) :
    List.Forall₂ (Stands options) (parameters.zipIdx index) made := by
  induction parameters generalizing index made with
  | nil =>
    obtain rfl := Except.ok.inj done
    exact .nil
  | cons parameter rest ih =>
    rw [List.forall_mem_cons] at words
    obtain ⟨first, one, done⟩ := bind_eq_ok.mp done
    obtain ⟨others, more, done⟩ := bind_eq_ok.mp done
    obtain rfl := pure_eq_ok.mp done
    exact .cons (argument_stands words.1 one) (ih words.2 more)

/-- The variables that stand in the lines of a callable are those for its parameters. -/
theorem variables_stand {made : List Argument} {seats : List Seat}
    (stand : List.Forall₂ (Stands options) seats made) :
    made.map Argument.name = seats.map Seat.spelled ∧ temporariesOf made =
      (seats.filter fun seat => prepares options seat.1.type).map Seat.temporary := by
  induction stand with
  | nil => exact ⟨rfl, rfl⟩
  | @cons seat argument seats made first rest ih =>
    have idle : (!argument.steps.isEmpty) = prepares options seat.1.type := by
      rw [Bool.eq_iff_iff, first.passes.prepared_iff]
      simp
    refine ⟨by rw [List.map_cons, List.map_cons, ih.1, first.named], ?_⟩
    unfold temporariesOf at ih ⊢
    rw [List.filter_cons, List.filter_cons, idle]
    split
    · rw [List.map_cons, List.map_cons, ih.2, Argument.temporary, first.named, Seat.temporary]
    · exact ih.2

theorem plain_of_texts {position : Nat} {values : List Json} {texts : List String}
    (done : Json.textsFrom position values = .ok texts) : texts = values.map Json.plain := by
  induction values generalizing position texts with
  | nil => exact (pure_eq_ok.mp done).symm
  | cons value rest ih =>
    cases value with
    | str word =>
      obtain ⟨others, more, done⟩ := bind_eq_ok.mp done
      obtain rfl := pure_eq_ok.mp done
      rw [ih more]
      rfl
    | _ => cases done

/-- A callable is the symbol itself, or has lines for its arguments. -/
theorem callable_lines {name : Label} {result : CType} {lines : List Fragment}
    (done : callable options known name result parameters = .ok lines) :
    ∃ ident, identText name = .ok ident ∧
      (lines = [put options 0 [.text (ident ++ " = " ++ symbolOf name)]] ∨
        ∃ returned isText made, lines = wrapperLines options ident (symbolOf name) returned isText made ∧
          arguments options known 0 parameters = .ok made) := by
  obtain ⟨ident, named, done⟩ := bind_eq_ok.mp done
  obtain ⟨carrier, -, done⟩ := bind_eq_ok.mp done
  obtain ⟨made, all, done⟩ := bind_eq_ok.mp done
  refine ⟨ident, named, ?_⟩
  dsimp only at done
  split at done
  · exact .inl (pure_eq_ok.mp done).symm
  · obtain ⟨returned, -, done⟩ := bind_eq_ok.mp done
    obtain ⟨texts, passed, done⟩ := bind_eq_ok.mp done
    obtain rfl := pure_eq_ok.mp done
    obtain rfl := plain_of_texts passed
    refine .inr ⟨returned.plain, decide (carrier = .cstring), made, ?_, all⟩
    simp only [wrapperLines, decide_eq_true_eq, List.map_map, Function.comp_def]

/-- A callable either is the symbol itself or passes each of its arguments on by a variable for it: the
parameter, or its temporary. Where no name is given twice, the variables are apart but for parameters
that clash. -/
theorem callable_passes {name : Label} {result : CType} {lines : List Fragment}
    (words : ∀ parameter ∈ parameters, isWord parameter.name = true)
    (distinct : (parameters.filterMap givenName).Nodup)
    (done : callable options known name result parameters = .ok lines) :
    ∃ ident, identText name = .ok ident ∧
      (lines = [put options 0 [.text (ident ++ " = " ++ symbolOf name)]] ∨
        ∃ returned isText made, lines = wrapperLines options ident (symbolOf name) returned isText made ∧
          List.Forall₂ (Stands options) parameters.zipIdx made ∧
          ((made.map Argument.name ++ temporariesOf made).Nodup ↔ ¬ Clashing options parameters)) := by
  obtain ⟨ident, named, lines⟩ := callable_lines done
  refine ⟨ident, named, lines.imp id ?_⟩
  rintro ⟨returned, isText, made, rfl, all⟩
  have stand := arguments_stand words all
  obtain ⟨own, temporaries⟩ := variables_stand stand
  refine ⟨returned, isText, made, rfl, stand, ?_⟩
  rw [own, temporaries]
  exact nodup_localNames distinct

end

/-- A record, and a function that takes it by its address beside an integer and one without a name. -/
def sendNodes : List Json :=
  [recordNode (.str "point") [fieldNode "x" "int"],
    functionNode "send" "int (struct point *, int, int)"
      [(.str "to", "struct point *"), (.str "lambda", "int"), (.null, "int")]]

theorem callable_passes_send :
    let known := ((generate {} (graphOf 4 sendNodes)).runOn {}).2.known
    ∃ function ∈ functionsOf (graphOf 4 sendNodes).declarations,
      (∀ parameter ∈ function.parameters, isWord parameter.name = true) ∧
        (function.parameters.filterMap givenName).Nodup ∧
        ∃ lines, callableOf {} known function = .ok lines ∧
          ∃ ident, identText function.name = .ok ident ∧
            (lines = [put {} 0 [.text (ident ++ " = " ++ symbolOf function.name)]] ∨
              ∃ returned isText made,
                lines = wrapperLines {} ident (symbolOf function.name) returned isText made ∧
                List.Forall₂ (Stands {}) function.parameters.zipIdx made ∧
                ((made.map Argument.name ++ temporariesOf made).Nodup ↔
                  ¬ Clashing {} function.parameters)) := by
  intro known
  have fits : ∃ function ∈ functionsOf (graphOf 4 sendNodes).declarations,
      (∀ parameter ∈ function.parameters, isWord parameter.name = true) ∧
        (function.parameters.filterMap givenName).Nodup ∧
        (callableOf {} known function).isOk = true := by
    decide +kernel
  obtain ⟨function, member, words, distinct, fine⟩ := fits
  cases done : callableOf {} known function with
  | ok lines =>
    exact ⟨function, member, words, distinct, lines, done, callable_passes words distinct done⟩
  | error fault =>
    rw [done] at fine
    cases fine

/-- A record, and a function that takes it by its address under one name and an integer under the name of
the temporary for it. -/
def copyNodes : List Json :=
  [recordNode (.str "point") [fieldNode "x" "int"],
    functionNode "copy" "int (struct point *, int)" [(.str "to", "struct point *"), (.str "_to", "int")]]

/-- The arguments of that function. Both are passed on by one variable. -/
def copyArguments : List Argument :=
  [{ name := "to", hint := .str "PtrT[point] | point", passed := .str "_to",
      steps := recordSteps {} "to" "point" "4" },
    { name := "_to", hint := .str "int32_t", passed := .str "_to" }]

/-- Native code gets the address of the record in the place of the integer. -/
theorem callable_overwrites_copy :
    let known := ((generate {} (graphOf 4 copyNodes)).runOn {}).2.known
    ∃ function ∈ functionsOf (graphOf 4 copyNodes).declarations,
      (∀ parameter ∈ function.parameters, isWord parameter.name = true) ∧
        (function.parameters.filterMap givenName).Nodup ∧
        callableOf {} known function =
          .ok (wrapperLines {} "copy" "imported_lib.copy" "int32_t" false copyArguments) ∧
        ¬ (copyArguments.map Argument.name ++ temporariesOf copyArguments).Nodup := by
  decide +kernel

end NativeBindings.Emit
