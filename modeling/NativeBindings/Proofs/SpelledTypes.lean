import NativeBindings.Proofs.Json.RoundTrip
import NativeBindings.Proofs.Spelling

/-!
Types as a C compiler spells them, and what is read from their spellings. A name is spelled in words,
with a tag or without one, a pointer with stars behind it, an array with its dimensions at the end, the
outermost first. Reading goes from the outside in, and every step leaves the spelling of a type again.
-/
namespace NativeBindings.Spelling

open Text

/-- A word that a name may have. -/
structure Word where
  chars : List Char
  isWord : isWord chars = true
  free : chars ∉ keptWords

inductive Tag where
  | struct
  | union
  | enum
  deriving DecidableEq, Repr

def Tag.word : Tag → List Char
  | struct => "struct".toList
  | union => "union".toList
  | enum => "enum".toList

/-- One or more words, and the tag that they are spelled with. -/
structure Name where
  tag : Option Tag
  first : Word
  rest : List Word

namespace Name

def chars (name : Name) : List Char :=
  name.first.chars ++ name.rest.flatMap fun word => ' ' :: word.chars

def text (name : Name) : String := String.ofList name.chars

def spelling (name : Name) : List Char :=
  match name.tag with
  | some tag => tag.word ++ ' ' :: name.chars
  | none => name.chars

end Name

/-- A pointer, spelled with one star or more. -/
inductive Pointer where
  | toName (name : Name) (isConst : Bool)
  | toPointer (target : Pointer)

def Pointer.spelling : Pointer → List Char
  | toName name isConst => (if isConst then "const ".toList else []) ++ name.spelling ++ " *".toList
  | toPointer target => target.spelling ++ ['*']

/-- A type as it is spelled. -/
inductive Spelled where
  | name (name : Name)
  | pointer (pointer : Pointer)
  | array (element : Spelled) (length : Nat)

namespace Spelled

/-- What the dimensions of a type follow. -/
def front : Spelled → List Char
  | name own => own.spelling
  | pointer own => own.spelling
  | array element _ => element.front

/-- The lengths of nested arrays, the outermost first. -/
def lengths : Spelled → List Nat
  | array element length => length :: element.lengths
  | _ => []

def dimension (length : Nat) : List Char := '[' :: (toString length).toList ++ [']']

def chars (type : Spelled) : List Char := type.front ++ type.lengths.flatMap dimension

def spelling (type : Spelled) : String := String.ofList type.chars

end Spelled

/-- A type without the marks of its spelling. The text type is one of its own. -/
inductive Tree where
  | name (name : String)
  | text
  | pointer (target : Tree) (isConst : Bool)
  | array (element : Tree) (length : Nat)
  deriving DecidableEq, Repr

/-- Whether a constant pointer to a name is the text type. -/
def Name.isText (name : Name) : Bool := name.tag = none && name.text = "char"

def Pointer.tree : Pointer → Tree
  | toName name isConst => if isConst && name.isText then .text else .pointer (.name name.text) isConst
  | toPointer target => .pointer target.tree false

def Spelled.tree : Spelled → Tree
  | name own => .name own.text
  | pointer own => own.tree
  | array element length => .array element.tree length

/-- What is read from a spelling when the elements of arrays and the bases of pointers that are spelled
with a star are read in their turn. -/
inductive Reads : String → Tree → Prop
  | name {s name : String} (parsed : parse s = .ok (.name name)) : Reads s (.name name)
  | text {s : String} (parsed : parse s = .ok .cstring) : Reads s .text
  | toName {s base : String} {isConst : Bool} (parsed : parse s = .ok (.pointer base isConst))
    (plain : '*' ∉ base.toList) : Reads s (.pointer (.name base) isConst)
  | toPointer {s base : String} {isConst : Bool} {target : Tree}
    (parsed : parse s = .ok (.pointer base isConst)) (starred : '*' ∈ base.toList)
    (inner : Reads base target) : Reads s (.pointer target isConst)
  | array {s element : String} {length : Nat} {item : Tree}
    (parsed : parse s = .ok (.array element length)) (inner : Reads element item) :
    Reads s (.array item length)

theorem Reads.unique {s : String} {one two : Tree} (first : Reads s one) (second : Reads s two) :
    one = two := by
  induction first generalizing two with
  | name parsed | text parsed | toName parsed plain => cases second <;> simp_all
  | toPointer parsed starred inner ih =>
    cases second with
    | toPointer parsed' starred' inner' =>
      obtain ⟨rfl, rfl⟩ := Shape.pointer.inj (Except.ok.inj (parsed.symm.trans parsed'))
      rw [ih inner']
    | _ => simp_all
  | array parsed inner ih =>
    cases second with
    | array parsed' inner' =>
      obtain ⟨rfl, rfl⟩ := Shape.array.inj (Except.ok.inj (parsed.symm.trans parsed'))
      rw [ih inner']
    | _ => simp_all

/-- The marks of pointers and arrays, and the end of a line. -/
def marks : List Char := ['*', '[', ']', '\n']

theorem marks_apart : ∀ c ∈ marks, c ≠ ' ' ∧ isWordChar c = false := by
  have checked : (marks.all fun c => c != ' ' && !isWordChar c) = true := by decide +kernel
  simpa using checked

theorem solid_marks : ∀ c ∈ marks.dropLast, isBlank c = false := by
  have checked : (marks.dropLast.all fun c => !isBlank c) = true := by decide
  simpa using checked

theorem space_not_word : ¬ isWordChar ' ' = true :=
  fun word => Bool.false_ne_true ((isBlank_of_isWordChar word).symm.trans blank_space)

theorem closing_not_decimal : isDecimal ']' = false := by decide

section
variable {s : List Char}

/-- One blank behind a text goes. -/
theorem Tight.trimRight_blank (tight : Tight s) : Text.trimRight (s ++ [' ']) = s := by
  have back := tight.trimRight
  rw [Text.trimRight, List.reverse_append, List.reverse_singleton, List.singleton_append,
    List.dropWhile_cons_of_pos blank_space]
  exact back

theorem Tight.lineBase? (tight : Tight s) (line : '\n' ∉ s) : lineBase? s = some s := by
  have some_char : s.isEmpty = false := by
    obtain ⟨c, more, rfl, -⟩ := tight.starts
    rfl
  rw [Spelling.lineBase?, tight.trimRight]
  simp [some_char, line]

theorem Tight.lineBase?_blank (tight : Tight s) (line : '\n' ∉ s) :
    Spelling.lineBase? (s ++ [' ']) = some s := by
  have whole := tight.lineBase? line
  rw [Spelling.lineBase?, tight.trimRight] at whole
  rw [Spelling.lineBase?, tight.trimRight_blank]
  exact whole

end

/-- The characters before the first blank. -/
def firstRun (s : List Char) : List Char := s.takeWhile fun c => !isBlank c

theorem firstRun_append {word tail : List Char} (solid : ∀ c ∈ word, isBlank c = false)
    (stops : ∀ c more, tail = c :: more → isBlank c = true) : firstRun (word ++ tail) = word := by
  rw [firstRun, List.takeWhile_append_of_pos fun c member => by simp [solid c member]]
  cases tail with
  | nil => rw [List.takeWhile_nil, List.append_nil]
  | cons c more => simp [stops c more rfl]

theorem firstRun_blank {word : List Char} (solid : ∀ c ∈ word, isBlank c = false) (rest : List Char) :
    firstRun (word ++ ' ' :: rest) = word :=
  firstRun_append solid fun _ _ same => (List.cons.inj same).1 ▸ blank_space

/-- A blank after a word ends the first run, and so does the end. -/
theorem stops_blank {tail : List Char} (blank : tail = [] ∨ tail = [' ']) :
    ∀ c more, tail = c :: more → isBlank c = true := by
  rintro c more rfl
  rcases blank with none | one
  · cases none
  · exact (List.cons.inj one).1 ▸ blank_space

theorem firstRun_const (rest : List Char) : firstRun ("const ".toList ++ rest) = "const".toList :=
  firstRun_blank (solid_keptWords "const".toList (by decide)) rest

/-- A text whose first and last run are no words is left. -/
theorem isCore_of_runs {s : List Char} (tight : Tight s) (first : firstRun s ∉ keptWords)
    (last : (firstRun s.reverse).reverse ∉ keptWords) : IsCore s where
  filled := by
    obtain ⟨c, more, rfl, -⟩ := tight.starts
    simp
  trimmed := tight.trim
  starts word kept start := by
    obtain ⟨rest, rfl⟩ := start
    rw [List.append_assoc, List.singleton_append, firstRun_blank (solid_keptWords word kept)] at first
    exact first kept
  ends word own ending := by
    have kept := qualifiers_subset own
    obtain ⟨rest, rfl⟩ := ending
    rw [List.reverse_append, List.reverse_cons, List.append_assoc, List.singleton_append,
      firstRun_blank fun c member => solid_keptWords word kept c (List.mem_reverse.mp member),
      List.reverse_reverse] at last
    exact last kept
  free kept := by
    have run : firstRun (s ++ []) = s := firstRun_append (solid_keptWords s kept) nofun
    rw [List.append_nil] at run
    rw [run] at first
    exact first kept

theorem Word.solid (word : Word) : ∀ c ∈ word.chars, isBlank c = false :=
  fun _ member => not_blank_of_mem (all_of_isWord word.isWord).2 member

theorem Word.tight (word : Word) : Tight word.chars :=
  tight_of_solid (all_of_isWord word.isWord).1 word.solid

theorem Tag.kept (tag : Tag) : tag.word ∈ keptWords := by cases tag <;> decide

/-- A text of words and blanks. -/
def IsPhrase (s : List Char) : Prop := ∀ c ∈ s, c = ' ' ∨ isWordChar c = true

theorem IsPhrase.append {one two : List Char} (first : IsPhrase one) (second : IsPhrase two) :
    IsPhrase (one ++ two) :=
  fun c member => (List.mem_append.mp member).elim (first c) (second c)

theorem IsPhrase.not_mem {s : List Char} (phrase : IsPhrase s) {c : Char} (mark : c ∈ marks) :
    c ∉ s := by
  intro member
  obtain ⟨other, apart⟩ := marks_apart c mark
  rcases phrase c member with blank | word
  · exact other blank
  · rw [apart] at word
    cases word

theorem phrase_kept : ∀ word ∈ keptWords, IsPhrase (word ++ [' ']) := by
  have checked : (keptWords.all fun word => (word ++ [' ']).all fun c => c == ' ' || isWordChar c) =
      true := by decide
  intro word kept c member
  simpa using List.all_eq_true.mp (List.all_eq_true.mp checked word kept) c member

namespace Name

variable (name : Name)

theorem chars_phrase : IsPhrase name.chars := by
  have word (word : Word) : IsPhrase word.chars :=
    fun c member => .inr (List.all_eq_true.mp (all_of_isWord word.isWord).2 c member)
  refine (word name.first).append fun c member => ?_
  obtain ⟨next, -, inside⟩ := List.mem_flatMap.mp member
  rcases List.mem_cons.mp inside with blank | inside
  · exact .inl blank
  · exact word next c inside

theorem spelling_phrase : IsPhrase name.spelling := by
  unfold spelling
  split
  next tag same =>
    rw [← List.singleton_append, ← List.append_assoc]
    exact (phrase_kept _ tag.kept).append name.chars_phrase
  next => exact name.chars_phrase

/-- A name ends in one of its words. -/
theorem chars_last : ∃ front, ∃ word : Word, name.chars = front ++ word.chars ∧
    (front = [] ∨ ∃ begun, front = begun ++ [' ']) := by
  rcases List.eq_nil_or_concat name.rest with none | ⟨others, last, some⟩
  · exact ⟨[], name.first, by simp [chars, none], .inl rfl⟩
  · refine ⟨name.first.chars ++ others.flatMap (fun word => ' ' :: word.chars) ++ [' '], last, ?_,
      .inr ⟨_, rfl⟩⟩
    simp [chars, some]

theorem chars_tight : Tight name.chars := by
  obtain ⟨c, more, same, solid⟩ := name.first.tight.starts
  obtain ⟨front, word, cut, -⟩ := name.chars_last
  obtain ⟨begun, d, last, solid'⟩ := word.tight.ends
  refine ⟨⟨c, more ++ name.rest.flatMap fun word => ' ' :: word.chars, ?_, solid⟩,
    ⟨front ++ begun, d, ?_, solid'⟩⟩
  · rw [chars, same, List.cons_append]
  · rw [cut, last, List.append_assoc]

theorem spelling_tight : Tight name.spelling := by
  unfold spelling
  split
  next tag same => exact (tight_of_kept tag.kept).append name.chars_tight [' ']
  next => exact name.chars_tight

theorem firstRun_chars (tail : List Char) (stops : ∀ c more, tail = c :: more → isBlank c = true) :
    firstRun (name.chars ++ tail) = name.first.chars := by
  rw [chars, List.append_assoc]
  refine firstRun_append name.first.solid fun c more same => ?_
  cases rest : name.rest with
  | nil =>
    rw [rest] at same
    exact stops c more same
  | cons word others =>
    rw [rest, List.flatMap_cons, List.cons_append, List.cons_append] at same
    exact (List.cons.inj same).1 ▸ blank_space

theorem firstRun_chars_nil : firstRun name.chars = name.first.chars := by
  have run := name.firstRun_chars [] nofun
  rwa [List.append_nil] at run

theorem lastRun_chars : (firstRun name.chars.reverse).reverse ∉ keptWords := by
  obtain ⟨front, word, cut, blank⟩ := name.chars_last
  have run : firstRun name.chars.reverse = word.chars.reverse := by
    rw [cut, List.reverse_append]
    refine firstRun_append (fun c member => word.solid c (List.mem_reverse.mp member)) ?_
    rintro c more same
    rcases blank with rfl | ⟨begun, rfl⟩
    · cases same
    · rw [List.reverse_append] at same
      exact (List.cons.inj same).1 ▸ blank_space
  rw [run, List.reverse_reverse]
  exact word.free

theorem isCore : IsCore name.chars :=
  isCore_of_runs name.chars_tight (name.firstRun_chars_nil ▸ name.first.free) name.lastRun_chars

theorem spelling_wraps : Wraps name.chars name.spelling := by
  unfold spelling
  split
  next tag same => exact (Wraps.refl _).before tag.kept
  next => exact Wraps.refl _

/-- The name of a spelling is what it has without its tag. -/
theorem normalChars_spelling : normalChars name.spelling = name.chars :=
  normalChars_wraps name.isCore name.spelling_wraps

theorem const_tight : Tight ("const ".toList ++ name.spelling) := by
  have word : Tight "const".toList := tight_of_kept (by decide)
  exact word.append name.spelling_tight [' ']

theorem normalChars_const : normalChars ("const ".toList ++ name.spelling) = name.chars := by
  have kept : "const".toList ∈ keptWords := by decide
  exact normalChars_wraps name.isCore (name.spelling_wraps.before kept)

end Name

theorem beforeStar?_last (s : List Char) : beforeStar? (s ++ ['*']) = some s := by
  unfold beforeStar?
  rw [List.reverse_append, List.reverse_singleton, List.singleton_append,
    List.takeWhile_cons_of_neg (by simp), List.dropWhile_cons_of_neg (by simp)]
  simp [trimLeft]

theorem tags_subset : tags ⊆ keptWords := by decide

/-- A text that does not start with a tag and a blank has none. -/
theorem afterTag?_none {s : List Char} (other : firstRun s ∉ tags) : afterTag? s = none := by
  unfold afterTag?
  cases found : tags.findSome? fun tag => afterStart? tag s with
  | none => rfl
  | some rest =>
    obtain ⟨tag, member, after⟩ := List.exists_of_findSome?_eq_some found
    have solid := solid_keptWords tag (tags_subset member)
    rw [afterStart?_eq_some] at after
    have gap : (rest.takeWhile isBlank).isEmpty = true := by
      cases rest with
      | nil => rfl
      | cons c more =>
        cases blank : isBlank c with
        | false => rw [List.takeWhile_cons_of_neg (by simp [blank])]; rfl
        | true =>
          refine absurd ?_ other
          rw [after, firstRun_append solid fun d rest same => (List.cons.inj same).1 ▸ blank]
          exact member
    change (if (rest.takeWhile isBlank).isEmpty then none else _) = none
    rw [gap]
    rfl

theorem afterTag?_tag (tag : Tag) {s : List Char} (tight : Tight s) (tail : List Char) :
    afterTag? (tag.word ++ ' ' :: (s ++ tail)) = some ([' '], s ++ tail) := by
  have found : (tags.findSome? fun word => afterStart? word (tag.word ++ ' ' :: (s ++ tail))) =
      some (' ' :: (s ++ tail)) := by
    cases tag <;> rfl
  obtain ⟨c, more, rfl, solid⟩ := tight.starts
  have gap : (' ' :: (c :: more ++ tail)).takeWhile isBlank = [' '] := by
    rw [List.takeWhile_cons_of_pos blank_space, List.cons_append,
      List.takeWhile_cons_of_neg (by simp [solid])]
  have after : (' ' :: (c :: more ++ tail)).dropWhile isBlank = c :: more ++ tail := by
    rw [List.dropWhile_cons_of_pos blank_space, List.cons_append,
      List.dropWhile_cons_of_neg (by simp [solid])]
  unfold afterTag?
  rw [found]
  change (if ((' ' :: (c :: more ++ tail)).takeWhile isBlank).isEmpty then none else
    some ((' ' :: (c :: more ++ tail)).takeWhile isBlank, (' ' :: (c :: more ++ tail)).dropWhile isBlank)) = _
  rw [gap, after]
  rfl

/-- What stands before the star is the text up to it, without the blank between. -/
theorem pointee?_plain {s tail : List Char} (tight : Tight s) (line : '\n' ∉ s)
    (other : firstRun (s ++ tail) ∉ tags) (blank : tail = [] ∨ tail = [' ']) :
    pointee? (s ++ tail) = some s := by
  unfold pointee?
  rw [afterTag?_none other]
  rcases blank with rfl | rfl
  · rw [List.append_nil]
    exact tight.lineBase? line
  · exact tight.lineBase?_blank line

/-- A tag before that is left out. -/
theorem pointee?_tag (tag : Tag) {s tail : List Char} (tight : Tight s) (line : '\n' ∉ s)
    (blank : tail = [] ∨ tail = [' ']) : pointee? (tag.word ++ ' ' :: (s ++ tail)) = some s := by
  unfold pointee?
  rw [afterTag?_tag tag tight tail]
  obtain ⟨c, more, rfl, -⟩ := tight.starts
  change lineBase? (c :: more ++ tail) = _
  rcases blank with rfl | rfl
  · rw [List.append_nil]
    exact tight.lineBase? line
  · exact tight.lineBase?_blank line

/-- A pointer by what stands before its star. -/
theorem pointer?_of_pointee {body base : List Char} (found : pointee? body = some base)
    (tight : Tight base) :
    pointer? (body ++ ['*']) =
      some (if !base.contains '*' && "const ".toList.isPrefixOf base then
        .pointer (String.ofList (normalChars base)) true
      else .pointer (String.ofList base) false) := by
  unfold pointer?
  rw [beforeStar?_last]
  change (pointee? body >>= _) = _
  rw [found]
  change (if !(trim base).contains '*' && "const ".toList.isPrefixOf (trim base) then _ else _) = _
  rw [tight.trim]
  split <;> rfl

namespace Name

variable (name : Name)

theorem chars_not_mem {c : Char} (mark : c ∈ marks) : c ∉ name.chars :=
  name.chars_phrase.not_mem mark

theorem spelling_not_mem {c : Char} (mark : c ∈ marks) : c ∉ name.spelling :=
  name.spelling_phrase.not_mem mark

theorem firstRun_spelling {tail : List Char} (stops : ∀ c more, tail = c :: more → isBlank c = true) :
    firstRun (name.spelling ++ tail) ≠ "const".toList := by
  unfold spelling
  split
  next tag same =>
    rw [List.append_assoc, List.cons_append, firstRun_blank (solid_keptWords tag.word tag.kept)]
    cases tag <;> decide
  next =>
    rw [name.firstRun_chars _ stops]
    exact fun same => name.first.free (same ▸ by decide)

/-- No name starts with the qualifier. -/
theorem afterStart?_const (tail : List Char) (stops : ∀ c more, tail = c :: more → isBlank c = true) :
    afterStart? "const ".toList (name.spelling ++ tail) = none := by
  cases found : afterStart? "const ".toList (name.spelling ++ tail) with
  | none => rfl
  | some rest =>
    refine absurd ?_ (name.firstRun_spelling stops)
    rw [afterStart?_eq_some.mp found]
    exact firstRun_const rest

theorem not_const_chars : "const ".toList.isPrefixOf name.chars = false := by
  rw [Bool.eq_false_iff]
  intro starts
  obtain ⟨rest, same⟩ := List.isPrefixOf_iff_prefix.mp starts
  have run := firstRun_const rest
  rw [same, name.firstRun_chars_nil] at run
  exact name.first.free (run ▸ by decide)

/-- What stands before the star of a pointer to a name. -/
theorem pointee?_spelling {tail : List Char} (blank : tail = [] ∨ tail = [' ']) :
    pointee? (name.spelling ++ tail) = some name.chars := by
  have line : '\n' ∉ name.chars := name.chars_not_mem (by decide)
  unfold spelling
  split
  next tag same =>
    rw [List.append_assoc, List.cons_append]
    exact pointee?_tag tag name.chars_tight line blank
  next =>
    refine pointee?_plain name.chars_tight line ?_ blank
    rw [name.firstRun_chars _ (stops_blank blank)]
    exact fun member => name.first.free (tags_subset member)

/-- A qualifier before a name stays before the star. -/
theorem pointee?_const {tail : List Char} (blank : tail = [] ∨ tail = [' ']) :
    pointee? ("const ".toList ++ name.spelling ++ tail) = some ("const ".toList ++ name.spelling) := by
  refine pointee?_plain name.const_tight ?_ ?_ blank
  · intro member
    rcases List.mem_append.mp member with inside | inside
    · exact absurd inside (by decide)
    · exact name.spelling_not_mem (by decide) inside
  · rw [List.append_assoc, firstRun_const]
    decide

theorem stops_star : ∀ c more, " *".toList = c :: more → isBlank c = true :=
  fun _ _ same => (List.cons.inj same).1 ▸ blank_space

theorem parseSingle_spelling : parseSingle name.spelling = .name name.text := by
  have star : '*' ∉ name.spelling := name.spelling_not_mem (by decide)
  have text : name.spelling ≠ "const char *".toList := fun same => star (same ▸ by decide)
  have unconst : constPointer? name.spelling = none := by
    have apart := name.afterStart?_const [] nofun
    rw [List.append_nil] at apart
    rw [constPointer?, apart]
    rfl
  rw [parseSingle, if_neg text, unconst, pointer?_none star, name.normalChars_spelling]
  rfl

theorem parseSingle_pointer :
    parseSingle (name.spelling ++ " *".toList) = .pointer name.text false := by
  have apart := name.afterStart?_const " *".toList stops_star
  have text : name.spelling ++ " *".toList ≠ "const char *".toList := by
    intro same
    rw [same] at apart
    exact absurd apart (by decide)
  have unconst : constPointer? (name.spelling ++ " *".toList) = none := by
    rw [constPointer?, apart]
    rfl
  have cut : name.spelling ++ " *".toList = name.spelling ++ [' '] ++ ['*'] := by
    rw [List.append_assoc]
    rfl
  have star : name.chars.contains '*' = false := by
    simpa using name.chars_not_mem (c := '*') (by decide)
  rw [parseSingle, if_neg text, unconst, cut,
    pointer?_of_pointee (name.pointee?_spelling (.inr rfl)) name.chars_tight, star,
    name.not_const_chars]
  rfl

theorem isWord_tagged (tag : Tag) : Spelling.isWord (tag.word ++ ' ' :: name.chars) = false := by
  rw [Spelling.isWord, Bool.and_eq_false_iff, List.all_eq_false]
  exact .inr ⟨' ', by simp, space_not_word⟩

/-- The one word of a constant pointer. -/
theorem constPointer?_const :
    constPointer? ("const ".toList ++ (name.spelling ++ " *".toList)) =
      if Spelling.isWord name.chars then some name.chars else none := by
  have back : beforeEnd? " *".toList (name.spelling ++ " *".toList) = some name.spelling :=
    beforeEnd?_eq_some.mpr rfl
  rw [constPointer?, afterStart?_eq_some.mpr rfl]
  change (beforeEnd? _ _ >>= _) = _
  rw [back]
  unfold spelling
  split
  next tag same =>
    have found := afterTag?_tag tag name.chars_tight []
    rw [List.append_nil] at found
    change (if Spelling.isWord (tag.word ++ ' ' :: name.chars) then _ else _) = _
    rw [name.isWord_tagged tag, found]
    rfl
  next same =>
    have found : afterTag? name.chars = none :=
      afterTag?_none fun member => name.first.free (tags_subset (name.firstRun_chars_nil ▸ member))
    change (if Spelling.isWord name.chars then some name.chars else afterTag? name.chars >>= _) = _
    rw [found]
    rfl

/-- The one name whose constant pointer is the text type. -/
theorem isText_iff : name.isText = true ↔ name.spelling = "char".toList := by
  have plain : name.text = "char" ↔ name.chars = "char".toList := by
    rw [text]
    exact ⟨fun same => by rw [← same, String.toList_ofList], fun same => by rw [same]; rfl⟩
  rw [isText, Bool.and_eq_true, decide_eq_true_iff, decide_eq_true_iff, plain]
  unfold spelling
  split
  next tag same =>
    have blank : ' ' ∈ tag.word ++ ' ' :: name.chars := by simp
    exact ⟨fun both => absurd (same.symm.trans both.1) (by simp),
      fun same => absurd (same ▸ blank) (by decide)⟩
  next same => exact and_iff_right same

theorem parseSingle_const :
    parseSingle ("const ".toList ++ (name.spelling ++ " *".toList)) =
      if name.isText then .cstring else .pointer name.text true := by
  have text : "const ".toList ++ (name.spelling ++ " *".toList) = "const char *".toList ↔
      name.isText = true := by
    rw [name.isText_iff, show "const char *".toList = "const ".toList ++ ("char".toList ++ " *".toList) from rfl,
      List.append_cancel_left_eq, List.append_cancel_right_eq]
  rw [parseSingle, name.constPointer?_const]
  cases isText : name.isText with
  | true => exact if_pos (text.mpr isText)
  | false =>
    rw [if_neg fun same => Bool.noConfusion (isText.symm.trans (text.mp same))]
    cases word : Spelling.isWord name.chars with
    | true => rfl
    | false =>
      have cut : "const ".toList ++ (name.spelling ++ " *".toList) =
          "const ".toList ++ name.spelling ++ [' '] ++ ['*'] := by
        simp only [List.append_assoc]
        rfl
      have star : ("const ".toList ++ name.spelling).contains '*' = false := by
        have own := name.spelling_not_mem (c := '*') (by decide)
        simpa using own
      have starts : "const ".toList.isPrefixOf ("const ".toList ++ name.spelling) = true :=
        List.isPrefixOf_iff_prefix.mpr (List.prefix_append _ _)
      rw [cut, pointer?_of_pointee (name.pointee?_const (.inr rfl)) name.const_tight, star, starts,
        name.normalChars_const]
      rfl

end Name

namespace Pointer

/-- A pointer without the tag that goes when its last star does. -/
def untagged : Pointer → Pointer
  | toName name false => toName { name with tag := none } false
  | toName name true => toName name true
  | toPointer target => toPointer target.untagged

def name : Pointer → Name
  | toName name _ => name
  | toPointer target => target.name

def isConst : Pointer → Bool
  | toName _ isConst => isConst
  | toPointer target => target.isConst

/-- The stars of a pointer and the blank before them. -/
def stars : Pointer → List Char
  | toName _ _ => " *".toList
  | toPointer target => target.stars ++ ['*']

theorem spelling_eq (pointer : Pointer) :
    pointer.spelling =
      (if pointer.isConst then "const ".toList else []) ++ (pointer.name.spelling ++ pointer.stars) := by
  induction pointer with
  | toName name isConst => rw [spelling, List.append_assoc]; rfl
  | toPointer target ih =>
    rw [spelling, ih, List.append_assoc, List.append_assoc]
    rfl

theorem untagged_untagged (pointer : Pointer) : pointer.untagged.untagged = pointer.untagged := by
  induction pointer with
  | toName name isConst => cases isConst <;> rfl
  | toPointer target ih => rw [untagged, untagged, ih]

theorem tree_untagged (pointer : Pointer) : pointer.untagged.tree = pointer.tree := by
  induction pointer with
  | toName name isConst => cases isConst <;> rfl
  | toPointer target ih => rw [untagged, tree, tree, ih]

theorem isConst_untagged (pointer : Pointer) : pointer.untagged.isConst = pointer.isConst := by
  induction pointer with
  | toName name isConst => cases isConst <;> rfl
  | toPointer target ih => exact ih

theorem stars_untagged (pointer : Pointer) : pointer.untagged.stars = pointer.stars := by
  induction pointer with
  | toName name isConst => cases isConst <;> rfl
  | toPointer target ih => rw [untagged, stars, stars, ih]

theorem name_untagged (pointer : Pointer) :
    pointer.untagged.name =
      if pointer.isConst then pointer.name else { pointer.name with tag := none } := by
  induction pointer with
  | toName name isConst => cases isConst <;> rfl
  | toPointer target ih => exact ih

theorem ends (pointer : Pointer) : ∃ front, pointer.spelling = front ++ ['*'] := by
  cases pointer with
  | toName name isConst =>
    refine ⟨(if isConst then "const ".toList else []) ++ name.spelling ++ [' '], ?_⟩
    rw [spelling, List.append_assoc _ [' ']]
    rfl
  | toPointer target => exact ⟨target.spelling, rfl⟩

theorem stars_starts (pointer : Pointer) : ∃ more, pointer.stars = ' ' :: more := by
  induction pointer with
  | toName name isConst => exact ⟨['*'], rfl⟩
  | toPointer target ih =>
    obtain ⟨more, same⟩ := ih
    exact ⟨more ++ ['*'], by rw [stars, same, List.cons_append]⟩

theorem stars_marks (pointer : Pointer) : ∀ c ∈ pointer.stars, c = ' ' ∨ c = '*' := by
  induction pointer with
  | toName name isConst =>
    intro c member
    simpa [stars] using member
  | toPointer target ih =>
    intro c member
    rcases List.mem_append.mp member with inside | last
    · exact ih c inside
    · exact .inr (List.mem_singleton.mp last)

section
variable (pointer : Pointer)

theorem stops_stars : ∀ c more, pointer.stars = c :: more → isBlank c = true := by
  intro c more same
  obtain ⟨rest, first⟩ := pointer.stars_starts
  rw [first] at same
  exact (List.cons.inj same).1 ▸ blank_space

theorem spelling_not_mem {c : Char} (star : c ≠ '*') (mark : c ∈ marks) : c ∉ pointer.spelling := by
  rw [pointer.spelling_eq]
  intro member
  rcases List.mem_append.mp member with inside | inside
  · split at inside
    · exact (phrase_kept "const".toList (by decide)).not_mem mark inside
    · cases inside
  · rcases List.mem_append.mp inside with inside | inside
    · exact pointer.name.spelling_not_mem mark inside
    · exact (pointer.stars_marks c inside).elim (marks_apart c mark).1 star

theorem line : '\n' ∉ pointer.spelling :=
  pointer.spelling_not_mem (by decide) (by decide)

theorem starred : '*' ∈ pointer.spelling := by
  obtain ⟨front, same⟩ := pointer.ends
  simp [same]

theorem tight : Tight pointer.spelling := by
  obtain ⟨front, last⟩ := pointer.ends
  refine ⟨?_, ⟨front, '*', last, solid_marks _ (by decide)⟩⟩
  rw [pointer.spelling_eq]
  split
  · exact ⟨'c', _, rfl, solid_keptWords "const".toList (by decide) 'c' (by decide)⟩
  · obtain ⟨c, more, same, solid⟩ := pointer.name.spelling_tight.starts
    exact ⟨c, more ++ pointer.stars, by rw [same]; rfl, solid⟩

/-- What stands before a further star is the pointer itself, but for a tag. -/
theorem pointee?_spelling : pointee? pointer.spelling = some pointer.untagged.spelling := by
  have whole := pointer.tight
  have untagged := pointer.untagged.spelling_eq
  rw [isConst_untagged, name_untagged, stars_untagged] at untagged
  have plain (same : pointer.untagged.spelling = pointer.spelling)
      (other : firstRun pointer.spelling ∉ tags) :
      pointee? pointer.spelling = some pointer.untagged.spelling := by
    rw [same]
    have found := @pointee?_plain _ [] whole pointer.line (by rwa [List.append_nil]) (.inl rfl)
    rwa [List.append_nil] at found
  cases const : pointer.isConst with
  | true =>
    rw [const, if_pos rfl] at untagged
    refine plain (untagged.trans ?_) ?_
    · rw [pointer.spelling_eq, const]
      rfl
    · rw [pointer.spelling_eq, const]
      rw [if_pos rfl, firstRun_const]
      decide
  | false =>
    rw [const] at untagged
    have own := pointer.spelling_eq
    rw [const] at own
    cases tagged : pointer.name.tag with
    | none =>
      have same : ({ pointer.name with tag := none } : Name) = pointer.name := by rw [← tagged]
      refine plain (untagged.trans ?_) ?_
      · rw [own]
        exact congrArg (fun name : Name => [] ++ (name.spelling ++ pointer.stars)) same
      · have first : firstRun pointer.spelling = pointer.name.first.chars := by
          rw [own, Name.spelling, tagged]
          exact pointer.name.firstRun_chars _ pointer.stops_stars
        exact fun member => pointer.name.first.free (tags_subset (first ▸ member))
    | some tag =>
      have cut : pointer.spelling = tag.word ++ ' ' :: (pointer.untagged.spelling ++ []) := by
        rw [untagged, own, Name.spelling, tagged, List.append_nil]
        exact List.append_assoc ..
      rw [cut]
      exact pointee?_tag tag pointer.untagged.tight pointer.untagged.line (.inl rfl)

/-- A further star is read off, and what stands before it is left. -/
theorem parseSingle_star :
    parseSingle (pointer.spelling ++ ['*']) =
      .pointer (String.ofList pointer.untagged.spelling) false := by
  obtain ⟨front, last⟩ := pointer.ends
  -- Before the last star of the two other forms there is a blank.
  have unlike (other : List Char) : pointer.spelling ++ ['*'] ≠ other ++ " *".toList := by
    intro same
    rw [last, show other ++ " *".toList = other ++ [' '] ++ ['*'] by rw [List.append_assoc]; rfl] at same
    have blank := List.append_inj_right' (List.append_cancel_right same) rfl
    exact absurd blank (by decide)
  have text : pointer.spelling ++ ['*'] ≠ "const char *".toList := unlike "const char".toList
  have unconst : constPointer? (pointer.spelling ++ ['*']) = none := by
    unfold constPointer?
    cases first : afterStart? "const ".toList (pointer.spelling ++ ['*']) with
    | none => rfl
    | some body =>
      cases back : beforeEnd? " *".toList body with
      | none =>
        change (beforeEnd? _ _ >>= _) = _
        rw [back]
        rfl
      | some word =>
        rw [afterStart?_eq_some, beforeEnd?_eq_some.mp back, ← List.append_assoc] at first
        exact absurd first (unlike _)
  have star : pointer.untagged.spelling.contains '*' = true := by
    simpa using pointer.untagged.starred
  rw [parseSingle, if_neg text, unconst, pointer?_of_pointee pointer.pointee?_spelling pointer.untagged.tight,
    star]
  rfl

end

end Pointer

/-- A text that is no array. -/
theorem parse_single {s : List Char} (tight : Tight s) (closed : '[' ∉ s) :
    parse (String.ofList s) = .ok (parseSingle s) := by
  rw [parse, String.toList_ofList, tight.trim, array?_none closed]

theorem Name.parse_spelling (name : Name) : parse (String.ofList name.spelling) = .ok (.name name.text) := by
  rw [parse_single name.spelling_tight (name.spelling_not_mem (by decide)),
    name.parseSingle_spelling]

theorem Pointer.parse_spelling (pointer : Pointer) :
    parse (String.ofList pointer.spelling) = .ok (parseSingle pointer.spelling) :=
  parse_single pointer.tight (pointer.spelling_not_mem (by decide) (by decide))

/-- A pointer to a name, with its tag or without it. -/
theorem reads_toName (name : Name) (isConst : Bool) :
    Reads (String.ofList (Pointer.toName name isConst).spelling) (Pointer.toName name isConst).tree := by
  have parsed := (Pointer.toName name isConst).parse_spelling
  have plain : '*' ∉ name.text.toList := by
    rw [Name.text, String.toList_ofList]
    exact name.chars_not_mem (by decide)
  cases isConst with
  | false =>
    rw [Pointer.spelling] at parsed ⊢
    exact .toName (parsed.trans (congrArg _ name.parseSingle_pointer)) plain
  | true =>
    rw [Pointer.spelling, List.append_assoc] at parsed ⊢
    have shape := parsed.trans (congrArg _ name.parseSingle_const)
    rw [Pointer.tree, Bool.true_and]
    cases text : name.isText with
    | true =>
      rw [text] at shape
      exact .text shape
    | false =>
      rw [text] at shape
      exact .toName shape plain

/-- A pointer is read from its spelling and from what is left of it behind a further star. -/
theorem reads_pointer (pointer : Pointer) :
    Reads (String.ofList pointer.spelling) pointer.tree ∧
      Reads (String.ofList pointer.untagged.spelling) pointer.tree := by
  induction pointer with
  | toName name isConst =>
    refine ⟨reads_toName name isConst, ?_⟩
    cases isConst with
    | false => exact reads_toName { name with tag := none } false
    | true => exact reads_toName name true
  | toPointer target ih =>
    have deeper (inner : Pointer) (same : inner.tree = target.tree)
        (reads : Reads (String.ofList inner.untagged.spelling) inner.tree) :
        Reads (String.ofList (Pointer.toPointer inner).spelling) (Pointer.toPointer target).tree := by
      have starred : '*' ∈ (String.ofList inner.untagged.spelling).toList := by
        rw [String.toList_ofList]
        exact inner.untagged.starred
      have parsed := (Pointer.toPointer inner).parse_spelling
      rw [Pointer.spelling, inner.parseSingle_star] at parsed
      rw [Pointer.tree, ← same]
      exact .toPointer parsed starred reads
    refine ⟨deeper target rfl ih.2, deeper target.untagged target.tree_untagged ?_⟩
    rw [target.untagged_untagged, target.tree_untagged]
    exact ih.2

theorem digits_eq (n : Nat) : (toString n).toList = Nat.toDigits 10 n := Json.text_natural n

theorem digitValue?_of_isDigit {c : Char} (digit : c.isDigit = true) :
    digitValue? c = some (c.toNat - '0'.toNat) := by
  have bounds : 0x30 ≤ c.toNat ∧ c.toNat < 0x30 + 10 := by
    simp only [Char.isDigit, Bool.and_eq_true, decide_eq_true_eq] at digit
    obtain ⟨low, high⟩ := digit
    rw [ge_iff_le, UInt32.le_iff_toNat_le] at low
    rw [UInt32.le_iff_toNat_le] at high
    exact ⟨low, Nat.lt_succ_of_le high⟩
  rw [digitValue?, zeros, List.find?_cons_of_pos (by simpa using bounds)]
  rfl

theorem isDigit_of_mem {n : Nat} {c : Char} (member : c ∈ (toString n).toList) : c.isDigit = true := by
  rw [digits_eq] at member
  exact Nat.isDigit_of_mem_toDigits (by decide) (by decide) member

theorem isDecimal_of_mem {n : Nat} {c : Char} (member : c ∈ (toString n).toList) : isDecimal c = true := by
  rw [isDecimal, digitValue?_of_isDigit (isDigit_of_mem member)]
  rfl

theorem digits_ne_nil (n : Nat) : (toString n).toList ≠ [] := by
  rw [digits_eq]
  exact Nat.toDigits_ne_nil

theorem isDimensions_digits {digits : List Char} (decimal : ∀ c ∈ digits, isDecimal c = true) (count : Nat)
    (rest : List Char) :
    isDimensions (some count) (digits ++ ']' :: rest) =
      (count + digits.length != 0 && isDimensions none rest) := by
  induction digits generalizing count with
  | nil =>
    rw [List.nil_append, isDimensions, closing_not_decimal]
    simp
  | cons c more ih =>
    rw [List.forall_mem_cons] at decimal
    rw [List.cons_append, isDimensions, if_pos decimal.1, ih decimal.2, List.length_cons]
    simp only [Nat.add_assoc, Nat.add_comm 1]

theorem isDimensions_lengths (lengths : List Nat) :
    isDimensions none (lengths.flatMap Spelled.dimension) = true := by
  induction lengths with
  | nil => rfl
  | cons n rest ih =>
    rw [List.flatMap_cons, Spelled.dimension, List.cons_append, List.cons_append, List.append_assoc,
      isDimensions, List.singleton_append, isDimensions_digits fun c member => isDecimal_of_mem member, ih]
    simp

theorem dimension?_digits {digits : List Char} (decimal : ∀ c ∈ digits, isDecimal c = true)
    (some_digit : digits ≠ []) (rest : List Char) :
    dimension? ('[' :: (digits ++ ']' :: rest)) = some (digits, rest) := by
  have taken : (digits ++ ']' :: rest).takeWhile isDecimal = digits := by
    rw [List.takeWhile_append_of_pos decimal, List.takeWhile_cons_of_neg (by simp [closing_not_decimal]), List.append_nil]
  have left : (digits ++ ']' :: rest).dropWhile isDecimal = ']' :: rest := by
    rw [List.dropWhile_append_of_pos decimal, List.dropWhile_cons_of_neg (by simp [closing_not_decimal])]
  obtain ⟨c, more, rfl⟩ := List.exists_cons_of_ne_nil some_digit
  simp only [dimension?, taken, left]

theorem dimension?_none {c : Char} (other : c ≠ '[') (rest : List Char) :
    dimension? (c :: rest) = none := by
  unfold dimension?
  split
  next same =>
    cases same
    exact absurd rfl other
  next => rfl

/-- The first dimension of an array ends the search for its element. -/
theorem array?_dimension {before s digits after : List Char} (decimal : ∀ c ∈ digits, isDecimal c = true)
    (some_digit : digits ≠ []) (row : isDimensions none after = true) (closed : '[' ∉ s) (line : '\n' ∉ s)
    (last : ∃ front c, s = front ++ [c] ∧ isBlank c = false) :
    array? before (s ++ '[' :: (digits ++ ']' :: after)) =
      some (trim (s.reverse ++ before).reverse ++ after, digits) := by
  induction s generalizing before with
  | nil =>
    obtain ⟨front, c, same, -⟩ := last
    exact absurd same (by simp)
  | cons c rest ih =>
    have here : c ≠ '\n' := fun same => line (same ▸ List.mem_cons_self)
    rw [List.cons_append, array?, if_neg here]
    cases rest with
    | nil =>
      have mark : trimLeft ('[' :: (digits ++ ']' :: after)) = '[' :: (digits ++ ']' :: after) :=
        trimLeft_of_head (solid_marks _ (by decide))
      rw [List.nil_append, mark, dimension?_digits decimal some_digit]
      exact if_pos row
    | cons d more =>
      have last : ∃ front c, d :: more = front ++ [c] ∧ isBlank c = false := by
        obtain ⟨front, e, same, solid⟩ := last
        cases front with
        | nil => exact absurd (List.cons.inj same).2 (by simp)
        | cons first front => exact ⟨front, e, (List.cons.inj same).2, solid⟩
      have inside : '[' ∉ d :: more := fun member => closed (List.mem_cons_of_mem _ member)
      obtain ⟨first, others, trimmed, other⟩ : ∃ first others, trimLeft (d :: more) = first :: others ∧
          first ≠ '[' := by
        obtain ⟨front, e, same, solid⟩ := last
        cases trimmed : trimLeft (d :: more) with
        | nil =>
          have blank := List.dropWhile_eq_nil_iff.mp trimmed e (by simp [same])
          rw [solid] at blank
          cases blank
        | cons first others =>
          have suffix : trimLeft (d :: more) <:+ d :: more := List.dropWhile_suffix _
          have member : first ∈ d :: more := suffix.subset (trimmed ▸ List.mem_cons_self)
          exact ⟨first, others, rfl, fun bracket => inside (bracket ▸ member)⟩
      have mark : trimLeft (d :: more ++ '[' :: (digits ++ ']' :: after)) =
          first :: (others ++ '[' :: (digits ++ ']' :: after)) := by
        rw [trimLeft, List.dropWhile_append, show (d :: more).dropWhile isBlank = first :: others from trimmed]
        rfl
      rw [mark, dimension?_none other]
      refine (ih inside (fun member => line (List.mem_cons_of_mem _ member)) last).trans ?_
      rw [List.reverse_cons (a := c), List.append_assoc, List.singleton_append]

theorem decimalValue_eq {digits : List Char} (decimal : ∀ c ∈ digits, c.isDigit = true) :
    decimalValue digits = Nat.ofDigitChars 10 digits 0 := by
  rw [Nat.ofDigitChars_eq_foldl]
  refine List.foldl_ext _ _ 0 fun sum c member => ?_
  rw [digitValue?_of_isDigit (decimal c member)]
  rfl

theorem decimalValue_digits (n : Nat) : decimalValue (toString n).toList = n := by
  rw [decimalValue_eq fun _ member => isDigit_of_mem member, digits_eq]
  exact Nat.ofDigitChars_ten_toDigits

theorem solid_of_isDigit {c : Char} (digit : c.isDigit = true) : isBlank c = false := by
  have table : Ranges.has [(0x30, 0x39)] c = true := by
    simp only [Char.isDigit, Bool.and_eq_true, decide_eq_true_eq] at digit
    obtain ⟨low, high⟩ := digit
    rw [ge_iff_le, UInt32.le_iff_toNat_le] at low
    rw [UInt32.le_iff_toNat_le] at high
    have bounds : 0x30 ≤ c.toNat ∧ c.toNat ≤ 0x39 := ⟨low, high⟩
    simpa [Ranges.has] using bounds
  have disjoint : ∀ range ∈ [(0x30, 0x39)], ∀ gap ∈ blanks, range.2 < gap.1 ∨ gap.2 < range.1 := by
    decide
  exact has_false_of_disjoint disjoint table

theorem isDigitRun_digits {digits : List Char} (plain : '_' ∉ digits) (some_digit : digits ≠ []) :
    isDigitRun digits = true := by
  induction digits with
  | nil => exact absurd rfl some_digit
  | cons c rest ih =>
    rw [List.mem_cons, not_or] at plain
    cases rest with
    | nil => simpa [isDigitRun] using Ne.symm plain.1
    | cons d more =>
      have others := ih plain.2 (by simp)
      have first : d ≠ '_' := fun same => plain.2 (same ▸ List.mem_cons_self)
      have mark : (c != '_') = true := by simpa using Ne.symm plain.1
      rw [isDigitRun, mark, others]
      · rfl
      · rintro ⟨⟩
      · rintro rest ⟨⟩
        exact first rfl

section
variable {digits : List Char}

/-- Digits are read as the number that they write, zeros in front included, if they are not too many. -/
theorem readNatural_decimal (decimal : ∀ c ∈ digits, c.isDigit = true) (some_digit : digits ≠ []) :
    readNatural digits =
      if digitLimit < digits.length then .error (.tooLong digits.length)
      else .ok (decimalValue digits) := by
  have read : ∀ c ∈ digits, isDecimal c = true := fun c member => by
    rw [isDecimal, digitValue?_of_isDigit (decimal c member)]
    rfl
  have part : ∀ c ∈ digits, (isDecimal c || c == '_') = true :=
    fun c member => by rw [read c member, Bool.true_or]
  have plain : '_' ∉ digits := fun member => absurd (decimal _ member) (by decide)
  have run : digits.takeWhile (fun c => isDecimal c || c == '_') = digits :=
    List.takeWhile_eq_self_iff.mpr part
  have rest : digits.dropWhile (fun c => isDecimal c || c == '_') = [] :=
    List.dropWhile_eq_nil_iff.mpr part
  unfold readNatural
  dsimp only
  rw [run, rest, List.filter_eq_self.mpr read, isDigitRun_digits plain some_digit]
  rfl

theorem readInteger_decimal (decimal : ∀ c ∈ digits, c.isDigit = true) (some_digit : digits ≠ []) :
    readInteger digits = (readNatural digits).map fun n => (n : Int) := by
  obtain ⟨c, more, same⟩ := List.exists_cons_of_ne_nil some_digit
  have digit : c.isDigit = true := decimal c (same ▸ List.mem_cons_self)
  have padding : isPadding c = false := by rw [isPadding, solid_of_isDigit digit, Bool.false_and]
  unfold readInteger
  rw [same, List.dropWhile_cons_of_neg (by simp [padding])]
  split
  next first =>
    cases first
    cases digit
  next first =>
    cases first
    cases digit
  next => rfl

end

theorem readNatural_digits (n : Nat) :
    readNatural (toString n).toList =
      if digitLimit < (toString n).toList.length then .error (.tooLong (toString n).toList.length)
      else .ok n := by
  rw [readNatural_decimal (fun _ member => isDigit_of_mem member) (digits_ne_nil n), decimalValue_digits]

theorem readInteger_digits (n : Nat) :
    readInteger (toString n).toList =
      (readNatural (toString n).toList).map fun n => (n : Int) :=
  readInteger_decimal (fun _ member => isDigit_of_mem member) (digits_ne_nil n)

/-- The digits of a number are read as the number, if they are not too many. -/
theorem lengthOf_digits {n : Nat} (short : Numeral.isWritable n = true) :
    lengthOf (toString n).toList = .ok n := by
  have few : ¬ digitLimit < (toString n).toList.length := by
    rw [digits_eq, Nat.not_lt]
    exact Json.length_digits short
  rw [lengthOf, Numeral.read, String.toList_ofList, readInteger_digits, readNatural_digits, if_neg few]
  rfl

theorem lengthOf_long {n : Nat} (long : Numeral.isWritable n = false) :
    lengthOf (toString n).toList =
      .error (.value (IntegerProblem.reason (toString n) (.tooLong (toString n).toList.length))) := by
  have above (limit : Nat) (positive : 0 < limit) (long : decide (n < Nat.pow 10 limit) = false) :
      limit < (Nat.toDigits 10 n).length := by
    rw [← Nat.not_le, Nat.length_toDigits_le_iff (by decide) positive]
    exact of_decide_eq_false long
  have many : digitLimit < (toString n).toList.length := by
    rw [digits_eq]
    exact above digitLimit (by decide) long
  rw [lengthOf, Numeral.read, String.toList_ofList, readInteger_digits, readNatural_digits, if_pos many]
  rw [String.ofList_toList]
  rfl

namespace Spelled

variable (type : Spelled)

theorem front_tight : Tight type.front := by
  induction type with
  | name own => exact own.spelling_tight
  | pointer own => exact own.tight
  | array element length ih => exact ih

theorem front_not_mem {c : Char} (star : c ≠ '*') (mark : c ∈ marks) : c ∉ type.front := by
  induction type with
  | name own => exact own.spelling_not_mem mark
  | pointer own => exact own.spelling_not_mem star mark
  | array element length ih => exact ih

theorem chars_tight : Tight type.chars := by
  rcases List.eq_nil_or_concat type.lengths with none | ⟨others, last, some⟩
  · rw [chars, none, List.flatMap_nil, List.append_nil]
    exact type.front_tight
  · obtain ⟨c, more, same, solid⟩ := type.front_tight.starts
    refine ⟨⟨c, more ++ type.lengths.flatMap dimension, by rw [chars, same]; rfl, solid⟩, ?_⟩
    refine ⟨type.front ++ others.flatMap dimension ++ '[' :: (toString last).toList, ']', ?_,
      solid_marks _ (by decide)⟩
    simp [chars, some, dimension]

/-- A spelling with brackets at its end is one of an element and the length of the outermost array. -/
theorem parse_array (element : Spelled) (length : Nat) :
    parse (array element length).spelling =
      (lengthOf (toString length).toList).map (.array element.spelling) := by
  have tight : Tight (array element length).chars := (array element length).chars_tight
  have cut : (array element length).chars = element.front ++
      '[' :: ((toString length).toList ++ ']' :: element.lengths.flatMap dimension) := by
    rw [chars, lengths, List.flatMap_cons, dimension, front]
    simp
  rw [parse, spelling, String.toList_ofList, tight.trim, cut,
    array?_dimension (fun c member => isDecimal_of_mem member) (digits_ne_nil length)
      (isDimensions_lengths _) (element.front_not_mem (by decide) (by decide))
      (element.front_not_mem (by decide) (by decide)) element.front_tight.ends,
    List.append_nil, List.reverse_reverse, element.front_tight.trim]
  rfl

end Spelled

/-- A type is read from its spelling, and nothing else is. -/
theorem reads_spelling {type : Spelled}
    (short : ∀ length ∈ type.lengths, Numeral.isWritable length = true) (tree : Tree) : Reads type.spelling tree ↔ tree = type.tree := by
  have reads : Reads type.spelling type.tree := by
    induction type with
    | name own =>
      rw [Spelled.spelling, Spelled.chars, Spelled.lengths, List.flatMap_nil, List.append_nil]
      · exact .name own.parse_spelling
      · nofun
    | pointer own =>
      rw [Spelled.spelling, Spelled.chars, Spelled.lengths, List.flatMap_nil, List.append_nil]
      · exact (reads_pointer own).1
      · nofun
    | array element length ih =>
      rw [Spelled.lengths, List.forall_mem_cons] at short
      have parsed := Spelled.parse_array element length
      rw [lengthOf_digits short.1] at parsed
      exact .array parsed (ih short.2)
  exact ⟨fun other => other.unique reads, fun same => same ▸ reads⟩

/-- Two rows of three pointers to constant pointers to a record. -/
def gridType : Spelled :=
  let node : Word := { chars := "node".toList, isWord := by decide +kernel, free := by decide }
  .array (.array (.pointer (.toPointer (.toName { tag := some .struct, first := node, rest := [] } true))) 3) 2

theorem reads_spelling_grid :
    (∀ length ∈ gridType.lengths, Numeral.isWritable length = true) ∧
      gridType.spelling = "const struct node **[2][3]" ∧
      Reads gridType.spelling (.array (.array (.pointer (.pointer (.name "node") true) false) 3) 2) := by
  have short : ∀ length ∈ gridType.lengths, Numeral.isWritable length = true := by decide +kernel
  exact ⟨short, by decide, (reads_spelling short _).mpr rfl⟩

/-- Nothing is read from an array with a length of too many digits. -/
theorem not_reads_long (element : Spelled) {length : Nat} (long : Numeral.isWritable length = false)
    (tree : Tree) : ¬ Reads (Spelled.array element length).spelling tree := by
  have fails (shape : Shape) : parse (Spelled.array element length).spelling ≠ .ok shape := by
    rw [Spelled.parse_array, lengthOf_long long]
    rintro ⟨⟩
  intro reads
  cases reads with
  | name parsed | text parsed | toName parsed | toPointer parsed | array parsed => exact fails _ parsed

/-- A row of as many characters as 4301 digits say. -/
def longRow : Spelled :=
  let char : Word := { chars := "char".toList, isWord := by decide +kernel, free := by decide }
  .array (.name { tag := none, first := char, rest := [] }) (Nat.pow 10 digitLimit)

theorem not_reads_longRow : ¬ ∃ tree, Reads longRow.spelling tree := by
  rintro ⟨tree, reads⟩
  exact not_reads_long _ (by decide +kernel) tree reads

end NativeBindings.Spelling
