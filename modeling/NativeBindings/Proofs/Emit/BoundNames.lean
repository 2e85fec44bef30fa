import NativeBindings.Proofs.Emit.Callables
import NativeBindings.Proofs.Emit.NameForms
import NativeBindings.Text.Identifier

/-!
The names that a module binds for its declarations, read off its lines. What stands at the outermost
level is a function, a class or an assignment; all of them bind the identifier of their declaration in
one of its forms.
-/
namespace NativeBindings.Emit

open Act Outcome Text

/-- The name that a line binds at the outermost level. -/
def boundName? (line : List Char) : Option String :=
  let word := line.takeWhile continuesIdentifier
  let rest := line.dropWhile continuesIdentifier
  if word = "def".toList ∨ word = "class".toList then
    match rest with
    | ' ' :: rest => some (String.ofList (rest.takeWhile continuesIdentifier))
    | _ => none
  else if word ≠ [] ∧ (" = ".toList <+: rest ∨ ": TypeAlias = ".toList <+: rest) then
    some (String.ofList word)
  else none

def Fragment.bound? (fragment : Fragment) : Option String := boundName? fragment.text.toList

/-- The names that lines bind. -/
def boundNames (lines : List Fragment) : List String := lines.filterMap Fragment.bound?

/-! ### The names of one line -/

/-- A name that a statement can bind. -/
structure Bindable (word : String) : Prop where
  chars : ∀ c ∈ word.toList, continuesIdentifier c = true
  filled : word.toList ≠ []
  free : isKeyword word = false

/-- The word that a text begins with. -/
def firstWord (text : String) : String := String.ofList (text.toList.takeWhile continuesIdentifier)

/-- The text of a line that binds a name. A function or a class is bound to the word behind the one that
announces it. -/
inductive Binds : String → String → Prop
  | function (head more : String) : Binds (firstWord head) ("def " ++ head ++ "(" ++ more)
  | class (head more : String) : Binds (firstWord head) ("class " ++ head ++ "(" ++ more)
  | value {word : String} (bindable : Bindable word) (more : String) : Binds word (word ++ " = " ++ more)
  | synonym {word : String} (bindable : Bindable word) (more : String) :
    Binds word (word ++ ": TypeAlias = " ++ more)

section
variable {word : String} {options : Options}

theorem cut_word {word : List Char} (chars : ∀ c ∈ word, continuesIdentifier c = true) {c : Char}
    (apart : continuesIdentifier c = false) (rest : List Char) :
    (word ++ c :: rest).takeWhile continuesIdentifier = word ∧
      (word ++ c :: rest).dropWhile continuesIdentifier = c :: rest := by
  rw [List.takeWhile_append_of_pos chars, List.takeWhile_cons_of_neg (by simp [apart]), List.append_nil,
    List.dropWhile_append_of_pos chars, List.dropWhile_cons_of_neg (by simp [apart])]
  exact ⟨rfl, rfl⟩

theorem marks_apart : continuesIdentifier ' ' = false ∧ continuesIdentifier '(' = false ∧
    continuesIdentifier ':' = false := by
  decide +kernel

/-- The word that begins a function or a class is followed by its name. -/
theorem boundName?_headed {start : String} (among : start = "def" ∨ start = "class") (head : List Char) :
    boundName? (start.toList ++ ' ' :: head) = some (String.ofList (head.takeWhile continuesIdentifier)) := by
  have chars : ∀ c ∈ start.toList, continuesIdentifier c = true := by
    obtain rfl | rfl := among <;> exact List.all_eq_true.mp (by decide)
  obtain ⟨before, behind⟩ := cut_word chars marks_apart.1 head
  unfold boundName?
  simp only [before, behind]
  rw [if_pos (among.imp (congrArg _) (congrArg _))]

theorem boundName?_value (bindable : Bindable word) {c : Char} (apart : continuesIdentifier c = false)
    {more : List Char} (mark : " = ".toList <+: c :: more ∨ ": TypeAlias = ".toList <+: c :: more) :
    boundName? (word.toList ++ c :: more) = some word := by
  obtain ⟨before, behind⟩ := cut_word bindable.chars apart more
  have free : ¬ (word.toList = "def".toList ∨ word.toList = "class".toList) := by
    rw [String.toList_inj, String.toList_inj]
    rintro (rfl | rfl) <;> exact absurd bindable.free (by decide)
  unfold boundName?
  simp only [before, behind]
  rw [if_neg free, if_pos ⟨bindable.filled, mark⟩, String.ofList_toList]

/-- A word goes on until what cannot stand in it. -/
theorem firstWord_append {start : String} (chars : ∀ c ∈ start.toList, continuesIdentifier c = true)
    (rest : String) : firstWord (start ++ rest) = start ++ firstWord rest := by
  rw [firstWord, String.toList_append, List.takeWhile_append_of_pos chars, String.ofList_append,
    String.ofList_toList]
  rfl

theorem firstWord_head (head : String) (more : String) :
    firstWord (head ++ "(" ++ more) = firstWord head := by
  have cut : (head ++ "(" ++ more).toList = head.toList ++ '(' :: more.toList := by simp
  rw [firstWord, firstWord, cut, List.takeWhile_append]
  split
  · next whole =>
    rw [List.takeWhile_cons_of_neg (by simp [marks_apart.2.1]), List.append_nil,
      (List.takeWhile_prefix _).eq_of_length whole]
  · rfl

theorem Bindable.firstWord (bindable : Bindable word) : firstWord word = word := by
  have whole := firstWord_append bindable.chars ""
  rwa [String.append_empty, show Emit.firstWord "" = "" from rfl, String.append_empty] at whole

theorem Binds.found {text : String} (binds : Binds word text) : boundName? text.toList = some word := by
  cases binds with
  | function head more =>
    have cut : ("def " ++ head ++ "(" ++ more).toList = "def".toList ++ ' ' :: (head ++ "(" ++ more).toList := by
      simp
    rw [cut, boundName?_headed (.inl rfl), ← firstWord, firstWord_head]
  | «class» head more =>
    have cut : ("class " ++ head ++ "(" ++ more).toList =
        "class".toList ++ ' ' :: (head ++ "(" ++ more).toList := by simp
    rw [cut, boundName?_headed (.inr rfl), ← firstWord, firstWord_head]
  | value bindable more =>
    have cut : (word ++ " = " ++ more).toList = word.toList ++ ' ' :: ('=' :: ' ' :: more.toList) := by simp
    rw [cut, boundName?_value bindable marks_apart.1 (.inl (by simp))]
  | «synonym» bindable more =>
    have cut : (word ++ ": TypeAlias = " ++ more).toList =
        word.toList ++ ':' :: (" TypeAlias = ".toList ++ more.toList) := by simp
    rw [cut, boundName?_value bindable marks_apart.2.2 (.inr (by simp))]

theorem text_put (level : Nat) (pieces : List Piece) :
    (put options level pieces).text =
      String.ofList (List.replicate (options.indentWidth.toNat * level) ' ') ++ Fragment.text pieces ++
        "\n" := by
  simp [put, line, Fragment.text, String.join_cons, String.join_append, Piece.shown, String.append_assoc]

/-- A line at the outermost level. -/
theorem bound?_put (pieces : List Piece) :
    (put options 0 pieces).bound? = boundName? (Fragment.text pieces ++ "\n").toList := by
  rw [Fragment.bound?, text_put, Nat.mul_zero]
  rfl

/-- A line that is indented binds nothing at the outermost level. -/
theorem bound?_nested (wide : 0 < options.indentWidth) (level : Nat) (pieces : List Piece) :
    (put options (level + 1) pieces).bound? = none := by
  obtain ⟨width, deep⟩ : ∃ width, options.indentWidth.toNat * (level + 1) = width + 1 :=
    Nat.exists_eq_add_one.mpr (Nat.mul_pos (Int.lt_toNat.mpr wide) (Nat.succ_pos level))
  rw [Fragment.bound?, text_put, deep, List.replicate_succ, String.toList_append, String.toList_append,
    String.toList_ofList, List.cons_append, List.cons_append, boundName?]
  simp [marks_apart.1]

theorem bound?_of_binds {pieces : List Piece} {text : String} (binds : Binds word text)
    (same : Fragment.text pieces ++ "\n" = text) : (put options 0 pieces).bound? = some word := by
  rw [bound?_put, same, binds.found]

theorem bound?_readerHead (owner result : String) :
    (readerHead options owner result).bound? = some (firstWord (Direction.reading.start ++ owner)) := by
  refine bound?_of_binds (.function _ ("source: Any, offset: int = 0) -> " ++ result ++ ":\n"))
    (String.toList_inj.mp ?_)
  simp [Fragment.text, String.join_cons, Piece.shown, Marshaler.text]

theorem bound?_writerHead (owner value : String) :
    (writerHead options owner value).bound? = some (firstWord (Direction.writing.start ++ owner)) := by
  refine bound?_of_binds (.function _ ("x: " ++ value ++ ", buffer: Any, offset: int = 0) -> None:\n"))
    (String.toList_inj.mp ?_)
  simp [Fragment.text, String.join_cons, Piece.shown, Marshaler.text]

theorem bound?_aliasLine (bindable : Bindable word) (hint : Label) :
    (aliasLine options word hint).bound? = some word := by
  refine bound?_of_binds (.synonym bindable ("\"" ++ hint.plain ++ "\"\n")) (String.toList_inj.mp ?_)
  simp [Fragment.text, String.join_cons, Piece.shown]

theorem bound?_sameMarshaler {direction : Direction} {owner : String}
    (bindable : Bindable (direction.start ++ owner)) (function : List Piece) :
    (sameMarshaler options direction owner function).bound? = some (direction.start ++ owner) := by
  refine bound?_of_binds (.value bindable (Fragment.text function ++ "\n")) (String.toList_inj.mp ?_)
  simp [Fragment.text, String.join_cons, Piece.shown, Marshaler.text]

/-- The other lines at the outermost level are each one text. -/
theorem bound?_text {text whole : String} (binds : Binds word whole)
    (same : text.toList ++ ['\n'] = whole.toList) : (put options 0 [.text text]).bound? = some word := by
  refine bound?_of_binds binds (String.toList_inj.mp (.trans ?_ same))
  simp [Fragment.text, String.join_cons, Piece.shown]

theorem bound?_blankLine : blankLine.bound? = none := by decide +kernel

end

section
variable {lines : List Fragment}

theorem boundNames_append (first second : List Fragment) :
    boundNames (first ++ second) = boundNames first ++ boundNames second :=
  List.filterMap_append

theorem boundNames_cons (line : Fragment) (rest : List Fragment) :
    boundNames (line :: rest) = line.bound?.toList ++ boundNames rest := by
  rw [boundNames, List.filterMap_cons]
  cases line.bound? <;> rfl

theorem boundNames_none (unbound : ∀ line ∈ lines, line.bound? = none) : boundNames lines = [] :=
  List.filterMap_eq_nil_iff.mpr unbound

theorem boundNames_some {line : Fragment} {word : String} (bound : line.bound? = some word)
    (unbound : ∀ line ∈ lines, line.bound? = none) : boundNames (line :: lines) = [word] := by
  rw [boundNames_cons, bound, boundNames_none unbound]
  rfl

/-- The lines of items that bind nothing. -/
theorem unbound_mapM {α : Type} {items : List α} {work : α → Except Fault Fragment}
    (walked : items.mapM work = .ok lines)
    (each : ∀ item line, work item = .ok line → line.bound? = none) : ∀ line ∈ lines, line.bound? = none := by
  intro line member
  obtain ⟨item, -, made⟩ := item_of_result (mapM_eq_ok.mp walked) member
  exact each item line made

end

/-! ### The forms of a declaration -/

section
variable (options : Options)

/-- A form for each direction that the module has. -/
def eachWay (make : Direction → Form) : List Form :=
  (if options.readers then [make .reading] else []) ++ if options.writers then [make .writing] else []

def helperForms (field : Field CType) : List Form :=
  match meaning field.type with
  | .union _ _ => eachWay options (.helper · (firstWord field.name.plain))
  | _ => []

/-- The forms in which a declaration of a type binds its identifier, in their order. -/
def formsOf (name : String) : CType → List Form
  | .builtin _ carrier =>
    (if name ≠ carrier.host then [.own] else []) ++
      if carrier.format?.isSome then eachWay options .marshaler else []
  | .synonym _ _ true => []
  | .synonym _ target false => .own :: if isVoid target then [] else eachWay options .marshaler
  | .enum _ _ | .pointer _ _ _ | .callback _ _ _ _ => .own :: eachWay options .marshaler
  | .signature _ _ _ => if options.signatureTypes then [.signature] else []
  | .record _ fields =>
    .own :: (fields.flatMap (helperForms options) ++ eachWay options .marshaler ++
      (if options.recordSizes then [.size] else []) ++
      if options.allocators && options.writers then [.allocator] else [])
  | _ => []

end

/-- The names that an identifier has in some forms. -/
def spellings (name : String) (forms : List Form) : List String :=
  forms.map (Form.spell (ident name))

@[simp] theorem spell_own (ident : String) : Form.own.spell ident = ident := by
  simp [Form.spell, Form.before, Form.behind]

@[simp] theorem spell_marshaler (direction : Direction) (ident : String) :
    (Form.marshaler direction).spell ident = direction.start ++ ident := by
  simp [Form.spell, Form.before, Form.behind]

theorem continues_low : continuesIdentifier '_' = true := by decide

theorem ident_chars {name : String} (named : isIdentifier name.toList = true) :
    (ident name).toList ≠ [] ∧ ∀ c ∈ (ident name).toList, continuesIdentifier c = true := by
  have own : name.toList ≠ [] ∧ ∀ c ∈ name.toList, continuesIdentifier c = true := by
    generalize name.toList = chars at named
    cases chars with
    | nil => exact absurd named (by decide)
    | cons c rest =>
      obtain ⟨first, others⟩ := Bool.and_eq_true_iff.mp named
      refine ⟨List.cons_ne_nil _ _, List.forall_mem_cons.mpr ⟨?_, List.all_eq_true.mp others⟩⟩
      rw [continuesIdentifier, first, Bool.true_or]
  obtain same | ⟨-, same⟩ := toList_ident name
  · rwa [same]
  · rw [same]
    refine ⟨by simp, fun c member => ?_⟩
    obtain member | member := List.mem_append.mp member
    · exact own.2 c member
    · exact List.mem_singleton.mp member ▸ continues_low

theorem spell_not_keyword (name : String) (form : Form) : isKeyword (form.spell (ident name)) = false := by
  refine Bool.eq_false_iff.mpr fun keyword => ?_
  have taken : form.spell (ident name) ∈ needed :=
    List.mem_append_left _ (List.mem_append_left _ (List.contains_iff_mem.mp keyword))
  obtain ⟨rfl, rfl⟩ | ⟨rfl, rfl | rfl⟩ := spell_needed taken <;> exact absurd keyword (by decide)

theorem before_chars (form : Form) : ∀ c ∈ form.before.toList, continuesIdentifier c = true := by
  obtain bare | started := form.before_mem
  · rw [bare]
    exact nofun
  · have all : (Form.starts.all fun start => start.toList.all continuesIdentifier) = true := by
      decide
    exact List.all_eq_true.mp (List.all_eq_true.mp all _ started)

section
variable {name : String} (named : isIdentifier name.toList = true)
include named

theorem bindable_spell {form : Form} (behind : ∀ c ∈ form.behind.toList, continuesIdentifier c = true) :
    Bindable (form.spell (ident name)) := by
  obtain ⟨filled, chars⟩ := ident_chars named
  refine ⟨?_, ?_, spell_not_keyword name form⟩
  · rw [Form.toList_spell]
    exact List.forall_mem_append.mpr ⟨before_chars form, List.forall_mem_append.mpr ⟨chars, behind⟩⟩
  · rw [Form.toList_spell]
    exact fun empty => filled (List.append_eq_nil_iff.mp (List.append_eq_nil_iff.mp empty).2).1

theorem bindable_own : Bindable (ident name) :=
  spell_own (ident name) ▸ bindable_spell named (by simp [Form.behind])

theorem bindable_marshaler (direction : Direction) : Bindable (direction.start ++ ident name) :=
  spell_marshaler direction (ident name) ▸ bindable_spell named (by simp [Form.behind])

theorem firstWord_helper (direction : Direction) (field : String) :
    firstWord (direction.start ++ (ident name ++ "__" ++ field)) =
      (Form.helper direction (firstWord field)).spell (ident name) := by
  have start : ∀ c ∈ direction.start.toList, continuesIdentifier c = true := before_chars (.marshaler direction)
  have dashes : ∀ c ∈ "__".toList, continuesIdentifier c = true := List.all_eq_true.mp (by decide)
  rw [String.append_assoc, firstWord_append start, firstWord_append (ident_chars named).2,
    firstWord_append dashes, Form.spell, Form.behind, Form.before, String.append_assoc]

end

/-! ### The names of a declaration -/

section
variable {options : Options} {known : List Marshaler} {lines : List Fragment}

theorem spellings_cons (name : String) (form : Form) (rest : List Form) :
    spellings name (form :: rest) = form.spell (ident name) :: spellings name rest := rfl

theorem spellings_append (name : String) (first second : List Form) :
    spellings name (first ++ second) = spellings name first ++ spellings name second :=
  List.map_append

theorem spellings_eachWay (name : String) (make : Direction → Form) :
    spellings name (eachWay options make) =
      (if options.readers then [(make .reading).spell (ident name)] else []) ++
        if options.writers then [(make .writing).spell (ident name)] else [] := by
  rw [eachWay, spellings_append]
  congr 1 <;> split <;> rfl

theorem spellings_marshalers (name : String) :
    spellings name (eachWay options .marshaler) =
      (if options.readers then [Direction.reading.start ++ ident name] else []) ++
        if options.writers then [Direction.writing.start ++ ident name] else [] := by
  rw [spellings_eachWay, spell_marshaler, spell_marshaler]

theorem boundNames_reading (lines : List Fragment) :
    boundNames (reading options lines) = if options.readers then boundNames lines else [] := by
  unfold reading
  split <;> rfl

theorem boundNames_writing (lines : List Fragment) :
    boundNames (writing options lines) = if options.writers then boundNames lines else [] := by
  unfold writing
  split <;> rfl

theorem boundNames_direct {direction : Direction} {made : Except Fault (List Fragment)} {word : String}
    (done : direct options direction made = .ok lines)
    (binds : ∀ lines, made = .ok lines → boundNames lines = [word]) :
    boundNames lines = if options.offers direction then [word] else [] := by
  obtain ⟨offered, made⟩ | ⟨missing, rfl⟩ := direct_eq_ok.mp done
  · rw [offered, if_pos rfl, binds lines made]
  · rw [missing, if_neg Bool.false_ne_true]
    rfl

section
variable (wide : 0 < options.indentWidth)
include wide

theorem boundNames_fieldsReader {owner result : String} {fields : List (Field CType)}
    (made : fieldsReader options known owner result fields = .ok lines) :
    boundNames lines = if options.readers then [firstWord (Direction.reading.start ++ owner)] else [] := by
  refine boundNames_direct made fun lines made => ?_
  obtain ⟨entries, walked, made⟩ := bind_eq_ok.mp made
  obtain rfl := pure_eq_ok.mp made
  have unbound : ∀ line ∈ entries, line.bound? = none := by
    refine unbound_mapM walked fun field line made => ?_
    obtain ⟨value, -, made⟩ := bind_eq_ok.mp made
    obtain rfl := pure_eq_ok.mp made
    exact bound?_nested wide 1 _
  refine boundNames_some (bound?_readerHead owner result) ?_
  exact List.forall_mem_append.mpr ⟨List.forall_mem_cons.mpr ⟨bound?_nested wide 0 _, unbound⟩,
    List.forall_mem_singleton.mpr (bound?_nested wide 0 _)⟩

theorem boundNames_fieldsWriter {owner value : String} {fields : List (Field CType)}
    (made : fieldsWriter options known owner value fields = .ok lines) :
    boundNames lines = if options.writers then [firstWord (Direction.writing.start ++ owner)] else [] := by
  refine boundNames_direct made fun lines made => ?_
  obtain ⟨entries, walked, made⟩ := bind_eq_ok.mp made
  obtain rfl := pure_eq_ok.mp made
  refine boundNames_some (bound?_writerHead owner value) ?_
  split
  · exact List.forall_mem_singleton.mpr (bound?_nested wide 0 _)
  · intro line inside
    obtain ⟨group, among, inside⟩ := List.mem_flatten.mp inside
    obtain ⟨field, -, made⟩ := item_of_result (mapM_eq_ok.mp walked) among
    obtain ⟨statement, -, made⟩ := bind_eq_ok.mp made
    obtain rfl := pure_eq_ok.mp made
    simp only [List.mem_cons, List.not_mem_nil, or_false] at inside
    obtain rfl | rfl := inside
    · exact bound?_nested wide 0 _
    · exact bound?_nested wide 1 _

end

section
variable {name : String} (named : isIdentifier name.toList = true) {rendered : Rendered}
include named

theorem boundNames_aliasMarshaler {direction : Direction} {target : CType}
    (made : aliasMarshaler options known direction (ident name) target = .ok lines) :
    boundNames lines = if options.offers direction then [direction.start ++ ident name] else [] := by
  refine boundNames_direct made fun lines made => ?_
  obtain ⟨function, -, made⟩ := bind_eq_ok.mp made
  obtain rfl := pure_eq_ok.mp made
  exact boundNames_some (bound?_sameMarshaler (bindable_marshaler named direction) function) (by simp)

theorem boundNames_synonym {target : CType}
    (made : synonym options known (.str name) target = .ok rendered) :
    boundNames rendered.lines =
      spellings name (.own :: if isVoid target then [] else eachWay options .marshaler) := by
  obtain ⟨own, found, made⟩ := bind_eq_ok.mp made
  obtain rfl : ident name = own := Except.ok.inj found
  obtain ⟨hinted, -, made⟩ := bind_eq_ok.mp made
  have naming : (aliasLine options (ident name) hinted).bound? = some (ident name) :=
    bound?_aliasLine (bindable_own named) hinted
  dsimp only at made
  split at made
  next void =>
    obtain rfl := pure_eq_ok.mp made
    rw [if_pos void, spellings_cons, spell_own]
    exact boundNames_some naming (by simp)
  next other =>
    obtain ⟨readers, read, made⟩ := bind_eq_ok.mp made
    obtain ⟨writers, written, made⟩ := bind_eq_ok.mp made
    obtain rfl := pure_eq_ok.mp made
    rw [if_neg other, spellings_cons, spell_own, spellings_marshalers, boundNames_append, boundNames_cons,
      naming, boundNames_aliasMarshaler named read, boundNames_aliasMarshaler named written]
    rfl

theorem boundNames_pointer {base : Option CType} {isConst : Bool}
    (made : pointer options (.str name) base isConst = .ok rendered) :
    boundNames rendered.lines = spellings name (.own :: eachWay options .marshaler) := by
  have same (direction : Direction) : boundNames [sameMarshaler options direction (ident name)
      [.use { direction, ident := "opaque_pointer" }]] = [direction.start ++ ident name] :=
    boundNames_some (bound?_sameMarshaler (bindable_marshaler named direction) _) (by simp)
  obtain ⟨own, found, made⟩ := bind_eq_ok.mp made
  obtain rfl : ident name = own := Except.ok.inj found
  obtain ⟨hinted, -, made⟩ := bind_eq_ok.mp made
  obtain rfl := pure_eq_ok.mp made
  rw [spellings_cons, spell_own, spellings_marshalers, boundNames_append, boundNames_cons,
    bound?_aliasLine (bindable_own named), boundNames_reading, boundNames_writing, same, same]
  rfl

theorem boundNames_function {result : CType} {parameters : List (Parameter CType)}
    (made : function options (.str name) result parameters = .ok rendered) :
    boundNames rendered.lines = spellings name (if options.signatureTypes then [.signature] else []) := by
  have bindable : Bindable (ident name ++ "__signature") := by
    have own : Bindable (Form.signature.spell (ident name)) :=
      bindable_spell named (List.all_eq_true.mp (by decide))
    rwa [Form.spell, Form.before, Form.behind, String.empty_append] at own
  unfold function at made
  split at made
  next typed =>
    obtain ⟨own, found, made⟩ := bind_eq_ok.mp made
    obtain rfl : ident name = own := Except.ok.inj found
    obtain ⟨hinted, -, made⟩ := bind_eq_ok.mp made
    obtain rfl := pure_eq_ok.mp made
    rw [if_pos typed, boundNames_some (bound?_aliasLine bindable hinted) (by simp), spellings_cons, Form.spell,
      Form.before, Form.behind, String.empty_append]
    rfl
  next untyped =>
    obtain rfl := pure_eq_ok.mp made
    rw [if_neg untyped]
    rfl

theorem boundNames_size (size : String) :
    boundNames [put options 0 [.text (ident name ++ "__ffi_size = " ++ size)]] = spellings name [.size] := by
  have bindable : Bindable (ident name ++ "__ffi_size") := by
    have own : Bindable (Form.size.spell (ident name)) :=
      bindable_spell named (List.all_eq_true.mp (by decide))
    rwa [Form.spell, Form.before, Form.behind, String.empty_append] at own
  rw [spellings_cons, Form.spell, Form.before, Form.behind, String.empty_append]
  exact boundNames_some (bound?_text (.value bindable (size ++ "\n")) (by simp)) (by simp)

section
variable (wide : 0 < options.indentWidth)
include wide

theorem boundNames_ownReader {result : String} (pieces : List Piece) :
    boundNames (reading options [readerHead options (ident name) result, put options 1 pieces]) =
      if options.readers then [Direction.reading.start ++ ident name] else [] := by
  rw [boundNames_reading, boundNames_some (bound?_readerHead (ident name) result)
    (List.forall_mem_singleton.mpr (bound?_nested wide 0 pieces)),
    (bindable_marshaler named .reading).firstWord]

theorem boundNames_ownWriter {value : String} (pieces : List Piece) :
    boundNames (writing options [writerHead options (ident name) value, put options 1 pieces]) =
      if options.writers then [Direction.writing.start ++ ident name] else [] := by
  rw [boundNames_writing, boundNames_some (bound?_writerHead (ident name) value)
    (List.forall_mem_singleton.mpr (bound?_nested wide 0 pieces)),
    (bindable_marshaler named .writing).firstWord]

theorem boundNames_builtin {carrier : Carrier}
    (made : builtin options (.str name) carrier = .ok rendered) :
    boundNames rendered.lines = spellings name ((if name ≠ carrier.host then [.own] else []) ++
      if carrier.format?.isSome then eachWay options .marshaler else []) := by
  obtain ⟨own, found, made⟩ := bind_eq_ok.mp made
  obtain rfl : ident name = own := Except.ok.inj found
  have naming : boundNames (if (Json.str name != .str carrier.host) = true then
      [put options 0 [.text (ident name ++ " = " ++ carrier.host)]] else []) =
        spellings name (if name ≠ carrier.host then [.own] else []) := by
    have host : (Json.str name != .str carrier.host) = true ↔ name ≠ carrier.host := by
      rw [bne, Bool.not_eq_true', Bool.eq_false_iff, ne_eq, Json.beq_str_iff, Json.str.injEq]
    split
    next other =>
      rw [if_pos (host.mp other), spellings_cons, spell_own]
      exact boundNames_some (bound?_text (.value (bindable_own named) (carrier.host ++ "\n")) (by simp))
        (by simp)
    next same =>
      rw [if_neg (mt host.mpr same)]
      rfl
  dsimp only at made
  split at made
  next none =>
    obtain rfl := pure_eq_ok.mp made
    rw [none, spellings_append, ← naming]
    exact (List.append_nil _).symm
  next format some =>
    obtain rfl := pure_eq_ok.mp made
    rw [some, spellings_append, ← naming, boundNames_append, boundNames_append,
      boundNames_ownReader named wide, boundNames_ownWriter named wide, Option.isSome_some, if_pos rfl,
      spellings_marshalers, List.append_assoc]

theorem boundNames_enumeration {fields : List (Label × Constant)}
    (made : enumeration options (.str name) fields = .ok rendered) :
    boundNames rendered.lines = spellings name (.own :: eachWay options .marshaler) := by
  obtain ⟨own, found, made⟩ := bind_eq_ok.mp made
  obtain rfl : ident name = own := Except.ok.inj found
  obtain ⟨values, walked, made⟩ := bind_eq_ok.mp made
  obtain rfl := pure_eq_ok.mp made
  have head : (put options 0 [.text ("class " ++ ident name ++ "(_enum.IntEnum):")]).bound? =
      some (ident name) := by
    have binds := Binds.class (ident name) "_enum.IntEnum):\n"
    rw [(bindable_own named).firstWord] at binds
    exact bound?_text binds (by simp)
  have unbound : ∀ line ∈ if fields.isEmpty then [put options 1 ["pass"]] else values, line.bound? = none := by
    split
    · exact List.forall_mem_singleton.mpr (bound?_nested wide 0 _)
    · refine unbound_mapM walked fun constant line made => ?_
      obtain ⟨member, -, made⟩ := bind_eq_ok.mp made
      obtain ⟨value, -, made⟩ := bind_eq_ok.mp made
      obtain rfl := pure_eq_ok.mp made
      exact bound?_nested wide 0 _
  have blank : boundNames [blankLine] = [] := boundNames_none (List.forall_mem_singleton.mpr bound?_blankLine)
  rw [boundNames_append, boundNames_append, boundNames_append, boundNames_some head unbound, blank,
    boundNames_ownReader named wide, boundNames_ownWriter named wide, spellings_cons, spell_own,
    spellings_marshalers]
  rfl

theorem boundNames_unionHelpers {field : Field CType}
    (made : unionHelpers options known (ident name) field = .ok lines) :
    boundNames lines = spellings name (helperForms options field) := by
  unfold unionHelpers at made
  unfold helperForms
  cases same : meaning field.type with
  | union header variants =>
    rw [same] at made
    obtain ⟨readers, read, made⟩ := bind_eq_ok.mp made
    obtain ⟨writers, written, made⟩ := bind_eq_ok.mp made
    obtain rfl := pure_eq_ok.mp made
    rw [boundNames_append, boundNames_fieldsReader wide read, boundNames_fieldsWriter wide written,
      firstWord_helper named, firstWord_helper named, spellings_eachWay]
  | _ =>
    rw [same] at made
    obtain rfl := Except.ok.inj made
    rfl

theorem boundNames_helpers {fields : List (Field CType)} {helpers : List (List Fragment)}
    (made : fields.mapM (unionHelpers options known (ident name)) = .ok helpers) :
    boundNames helpers.flatten = spellings name (fields.flatMap (helperForms options)) := by
  have related := mapM_eq_ok.mp made
  clear made
  induction related with
  | nil => rfl
  | cons made rest ih =>
    rw [List.flatten_cons, boundNames_append, boundNames_unionHelpers named wide made, ih,
      List.flatMap_cons, spellings_append]

theorem boundNames_dictionary {fields : List (Field CType)}
    (made : dictionary options (.str name) (ident name) fields = .ok lines) :
    boundNames lines = [ident name] := by
  obtain ⟨entries, walked, made⟩ := bind_eq_ok.mp made
  obtain rfl := pure_eq_ok.mp made
  have unbound : ∀ line ∈ entries, line.bound? = none := by
    refine unbound_mapM walked fun field line made => ?_
    obtain ⟨hinted, -, made⟩ := bind_eq_ok.mp made
    obtain rfl := pure_eq_ok.mp made
    exact bound?_nested wide 1 _
  have closing : (put options 0 [.text ")"]).bound? = none := by
    rw [bound?_put]
    decide +kernel
  simp only [List.cons_append, List.nil_append]
  refine boundNames_some (bound?_text (.value (bindable_own named) "_typing.TypedDict(\n") (by simp)) ?_
  intro line member
  simp only [List.mem_cons, List.mem_append, List.not_mem_nil, or_false] at member
  obtain rfl | rfl | member | rfl | rfl | rfl := member
  · exact bound?_nested wide 0 _
  · exact bound?_nested wide 0 _
  · exact unbound line member
  · exact bound?_nested wide 0 _
  · exact bound?_nested wide 0 _
  · exact closing

theorem boundNames_allocator (size : String) :
    boundNames (allocator options (ident name) size) = spellings name [.allocator] := by
  have bindable : Bindable ("alloc_" ++ ident name) := by
    have own : Bindable (Form.allocator.spell (ident name)) := bindable_spell named (by simp [Form.behind])
    rwa [Form.spell, Form.before, Form.behind, String.append_empty] at own
  have head := Binds.function ("alloc_" ++ ident name) ("x: " ++ ident name ++ ", buffer: Any = None) -> Any:\n")
  rw [bindable.firstWord] at head
  rw [spellings_cons, Form.spell, Form.before, Form.behind, String.append_empty]
  refine boundNames_some (bound?_text head (by simp)) fun line member => ?_
  simp only [List.mem_cons, List.not_mem_nil, or_false] at member
  obtain rfl | rfl | rfl | rfl := member
  · exact bound?_nested wide 0 _
  · exact bound?_nested wide 1 _
  · exact bound?_nested wide 0 _
  · exact bound?_nested wide 0 _

theorem boundNames_record {size : Amount} {fields : List (Field CType)}
    (made : record options known (.str name) size fields = .ok rendered) :
    boundNames rendered.lines = spellings name (.own :: (fields.flatMap (helperForms options) ++
      eachWay options .marshaler ++ (if options.recordSizes then [.size] else []) ++
        if options.allocators && options.writers then [.allocator] else [])) := by
  obtain ⟨own, found, made⟩ := bind_eq_ok.mp made
  obtain rfl : ident name = own := Except.ok.inj found
  obtain ⟨naming, typed, made⟩ := bind_eq_ok.mp made
  obtain ⟨helpers, helped, made⟩ := bind_eq_ok.mp made
  obtain ⟨readers, read, made⟩ := bind_eq_ok.mp made
  obtain ⟨writers, written, made⟩ := bind_eq_ok.mp made
  obtain ⟨shown, -, made⟩ := bind_eq_ok.mp made
  obtain rfl := pure_eq_ok.mp made
  have sizes : boundNames (if options.recordSizes = true then
      [put options 0 [.text (ident name ++ "__ffi_size = " ++ shown)]] else []) =
        spellings name (if options.recordSizes then [.size] else []) := by
    split
    · exact boundNames_size named shown
    · rfl
  have allocators : boundNames (if (options.allocators && options.writers) = true then
      allocator options (ident name) shown else []) =
        spellings name (if options.allocators && options.writers then [.allocator] else []) := by
    split
    · exact boundNames_allocator named wide shown
    · rfl
  rw [boundNames_append, boundNames_append, boundNames_append, boundNames_append, boundNames_append,
    boundNames_dictionary named wide typed, boundNames_helpers named wide helped, boundNames_fieldsReader wide read,
    boundNames_fieldsWriter wide written, (bindable_marshaler named .reading).firstWord,
    (bindable_marshaler named .writing).firstWord, sizes, allocators, spellings_cons, spell_own,
    spellings_append, spellings_append, spellings_append, spellings_marshalers]
  simp only [List.append_assoc, List.cons_append, List.nil_append]

/-- A declaration binds its identifier in the forms of its type, in their order. -/
theorem boundNames_declaration {type : CType} (declared : ∀ header target, type ≠ .synonym header target true)
    (made : declaration options known (.str name) type = .ok rendered) :
    boundNames rendered.lines = spellings name (formsOf options name type) := by
  cases type with
  | builtin header carrier => exact boundNames_builtin named wide made
  | enum header fields => exact boundNames_enumeration named wide made
  | synonym header target transparent =>
    cases transparent with
    | true => exact absurd rfl (declared header target)
    | false => exact boundNames_synonym named made
  | pointer header base isConst => exact boundNames_pointer named made
  | signature header result parameters => exact boundNames_function named made
  | record header fields => exact boundNames_record named wide made
  | _ => cases made

theorem boundNames_callbackHalf {direction : Direction} {result : CType} {parameters : List (Parameter CType)}
    (made : callbackHalf options direction (.str name) result parameters = .ok lines) :
    boundNames lines = [direction.start ++ ident name] := by
  obtain ⟨own, found, made⟩ := bind_eq_ok.mp made
  obtain rfl : ident name = own := Except.ok.inj found
  obtain ⟨type, -, made⟩ := bind_eq_ok.mp made
  rw [← (bindable_marshaler named direction).firstWord]
  cases direction with
  | reading =>
    obtain rfl := pure_eq_ok.mp made
    exact boundNames_some (bound?_readerHead _ _) (List.forall_mem_singleton.mpr (bound?_nested wide 0 _))
  | writing =>
    obtain rfl := pure_eq_ok.mp made
    exact boundNames_some (bound?_writerHead _ _) (List.forall_mem_singleton.mpr (bound?_nested wide 0 _))

/-- A callable is bound to the identifier itself. -/
theorem boundNames_callable {result : CType} {parameters : List (Parameter CType)}
    (made : callable options known (.str name) result parameters = .ok lines) :
    boundNames lines = [ident name] := by
  obtain ⟨own, found, made⟩ := bind_eq_ok.mp made
  obtain rfl : ident name = own := Except.ok.inj found
  obtain ⟨carrier, -, made⟩ := bind_eq_ok.mp made
  obtain ⟨given, -, made⟩ := bind_eq_ok.mp made
  dsimp only at made
  split at made
  · obtain rfl := pure_eq_ok.mp made
    exact boundNames_some (bound?_text (.value (bindable_own named) (symbolOf (.str name) ++ "\n")) (by simp))
      (by simp)
  · obtain ⟨returned, -, made⟩ := bind_eq_ok.mp made
    obtain ⟨passed, -, made⟩ := bind_eq_ok.mp made
    obtain rfl := pure_eq_ok.mp made
    have head (more : String) : Binds (ident name) ("def " ++ ident name ++ "(" ++ more) := by
      have binds := Binds.function (ident name) more
      rwa [(bindable_own named).firstWord] at binds
    rw [List.cons_append]
    refine boundNames_some (bound?_text (head (", ".intercalate (given.map fun argument =>
      argument.name ++ ": " ++ argument.hint.plain) ++ ") -> " ++ returned.plain ++ ":\n")) (by simp))
      fun line member => ?_
    simp only [List.mem_append, List.mem_flatMap, List.mem_map, List.mem_singleton] at member
    obtain ⟨argument, -, step, -, rfl⟩ | rfl := member
    · exact bound?_nested wide 0 _
    · exact bound?_nested wide 0 _

end

end

end

end NativeBindings.Emit
