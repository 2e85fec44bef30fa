import NativeBindings.Proofs.Emit.NameClashes
import NativeBindings.Proofs.Emit.ParameterNames
import NativeBindings.Proofs.Resolve.Sizes

/-!
The sizes that a module shows: the strides of arrays, the sizes of records, and the memory that is made
for them. Each is the size of the node it stands for, so where aliases end in a record it is what the
oracle gave for the record.
-/
namespace NativeBindings

open Resolve

namespace CType

/-- Whether a text is the size of a type and, where aliases end in a record, what was given for it. -/
structure Spans (given : Label → Amount → Prop) (type : CType) (text : String) : Prop where
  own : Amount.written type.size = .ok text
  record : ∀ header fields, type.unaliased = .record header fields →
    ∃ layout size, Lays layout header.name ∧ given layout size ∧ Amount.written size = .ok text

section
variable {given : Label → Amount → Prop} {type whole : CType} {text : String}

theorem Coherent.spans (coherent : type.Coherent given) (own : Amount.written type.size = .ok text) :
    type.Spans given text := by
  refine ⟨own, fun header fields ends => ?_⟩
  have sized := coherent.unaliased.sized
  have same := coherent.size_unaliased
  rw [ends] at sized same
  obtain ⟨⟨layout, lays, answered⟩, -⟩ := sized
  exact ⟨layout, header.size, lays, answered, (congrArg Amount.written same).trans own⟩

theorem Within.trans {node : CType} (inner : node.Within type) (outer : type.Within whole) :
    node.Within whole := by
  induction outer with
  | here => exact inner
  | inside member _ ih => exact .inside member ih

theorem Within.child {child : CType} (within : type.Within whole) (member : child ∈ type.children) :
    child.Within whole := Within.trans (.inside member .here) within

theorem Coherent.within (coherent : whole.Coherent given) (within : type.Within whole) :
    type.Coherent given := fun node inner => coherent node (inner.trans within)

end

end CType

namespace Emit

open Outcome

theorem meaning_within (type : CType) : (meaning type).Within type := by
  induction type using meaning.induct with
  | case1 header target ih => exact .inside (List.mem_singleton.mpr rfl) ih
  | case2 type other =>
    rw [meaning.eq_2 type other]
    exact .here

/-! ### Calls of the marshalers for arrays -/

/-- Whether a piece is a marshaler for arrays. -/
def Piece.isArray : Piece → Bool
  | .use m => m.ident == "array"
  | _ => false

/-- What ends a call of a marshaler for arrays. -/
def Direction.closing (direction : Direction) (value place stride count : String) : String :=
  match direction with
  | reading => ", source, " ++ place ++ ", " ++ stride ++ ", " ++ count ++ ")"
  | writing => ", " ++ value ++ ", buffer, " ++ place ++ ", " ++ stride ++ ")"

/-- Pieces in which the marshalers for arrays are called with the strides of arrays in a type, each with
the marshaler for their items. -/
inductive Strided (given : Label → Amount → Prop) (whole : CType) : List Piece → Prop
  | nil : Strided given whole []
  | other {piece : Piece} {rest : List Piece} (plain : piece.isArray = false)
    (more : Strided given whole rest) : Strided given whole (piece :: rest)
  | call {direction : Direction} {header : Header} {item : CType} {length : Amount} {known : List Marshaler}
    {inner rest : List Piece} {value place stride count : String}
    (array : (CType.array header item length).Within whole) (spans : item.Spans given stride)
    (items : access known direction item = .ok inner) (inside : Strided given whole inner)
    (more : Strided given whole rest) :
    Strided given whole (.use { direction, ident := "array" } :: .text "(" ::
      (inner ++ .text (direction.closing value place stride count) :: rest))

section
variable {given : Label → Amount → Prop} {whole : CType} {options : Options}

theorem strided_of_plain {pieces : List Piece} (plain : ∀ piece ∈ pieces, piece.isArray = false) :
    Strided given whole pieces := by
  induction pieces with
  | nil => exact .nil
  | cons piece rest ih =>
    rw [List.forall_mem_cons] at plain
    exact .other plain.1 (ih plain.2)

theorem strided_of_unused {line : Fragment} (unused : line.used = []) : Strided given whole line := by
  refine strided_of_plain fun piece member => ?_
  cases piece with
  | use m =>
    have used : m ∈ line.used := List.mem_filterMap.mpr ⟨_, member, rfl⟩
    rw [unused] at used
    cases used
  | _ => rfl

theorem Strided.append {first second : List Piece} (one : Strided given whole first)
    (two : Strided given whole second) : Strided given whole (first ++ second) := by
  induction one with
  | nil => exact two
  | other plain _ ih => exact .other plain ih
  | call array spans items inside _ _ ih =>
    rw [List.cons_append, List.cons_append, List.append_assoc, List.cons_append]
    exact .call array spans items inside ih

theorem Strided.put {pieces : List Piece} (strided : Strided given whole pieces) (level : Nat) :
    Strided given whole (put options level pieces) :=
  .other rfl (strided.append (.other rfl .nil))

end

/-! ### Identifiers -/

theorem digits_apart (n : Nat) : 'y' ∉ Nat.toDigits 10 n := fun member =>
  absurd (Nat.isDigit_of_mem_toDigits (by decide) (by decide) member) (by decide)

theorem real_apart (x : Text.Binary64) : 'y' ∉ x.text.toList := by
  cases x with
  | nan => decide
  | infinite negative => cases negative <;> decide
  | finite negative mantissa exponent =>
    have signed (body : String) (apart : 'y' ∉ body.toList) :
        'y' ∉ ((if negative = true then "-" else "") ++ body).toList := by
      cases negative <;> simpa using apart
    rw [Text.Binary64.text]
    dsimp only
    split
    · exact signed _ (by decide)
    generalize Text.Binary64.shortest mantissa exponent = near
    obtain ⟨number, last⟩ := near
    refine signed _ ?_
    rw [String.toList_ofList]
    dsimp only
    have power := digits_apart ((Nat.toDigits 10 number).length + last - 1).natAbs
    have unpadded : 'y' ∉ ((Text.Binary64.digitsOf number).reverse.dropWhile (· == '0')).reverse := by
      intro member
      rw [List.mem_reverse] at member
      exact digits_apart number (List.mem_reverse.mp ((List.dropWhile_sublist _).subset member))
    generalize ((Text.Binary64.digitsOf number).reverse.dropWhile (· == '0')).reverse = digits at unpadded
    have first (count : Nat) : 'y' ∉ digits.take count := fun member =>
      unpadded (List.mem_of_mem_take member)
    have rest (count : Nat) : 'y' ∉ digits.drop count := fun member =>
      unpadded (List.mem_of_mem_drop member)
    have tail : 'y' ∉ digits.tail := fun member => unpadded (List.mem_of_mem_tail member)
    split_ifs <;> simp_all [Text.Binary64.digitsOf]

/-- No number or other value in the place of a name is spelled like this word. -/
theorem shown_ne_array {name : Label} (keyed : name.asKey = .ok name) (other : ∀ s, name ≠ .str s) :
    name.plain ≠ "array" := by
  intro same
  have inside : 'y' ∈ name.plain.toList := by
    rw [same]
    decide
  cases name with
  | null => exact absurd inside (by decide)
  | bool b => cases b <;> exact absurd inside (by decide)
  | int n =>
    have digits (m : Nat) : 'y' ∉ (toString m).toList := by
      rw [Spelling.digits_eq]
      exact digits_apart m
    cases n with
    | ofNat m => exact digits m inside
    | negSucc m =>
      rw [show Json.plain (.int (.negSucc m)) = "-" ++ toString (m + 1) from rfl,
        String.toList_append] at inside
      exact digits (m + 1) (by simpa using inside)
  | real x => exact real_apart x inside
  | str s => exact other s rfl
  | arr items => cases keyed
  | obj entries => cases keyed

/-- The marshalers for arrays are those of no declaration. -/
theorem identText_ne_array {name : Label} {word : String} (named : identText name = .ok word) :
    word ≠ "array" := by
  rintro rfl
  obtain ⟨label, identified, done⟩ := bind_eq_ok.mp named
  have same := pure_eq_ok.mp done
  obtain ⟨key, keyed, found⟩ := bind_eq_ok.mp identified
  obtain rfl := asKey_eq_ok keyed
  split at found
  next s =>
    obtain rfl := pure_eq_ok.mp found
    obtain ⟨rfl, free⟩ := ident_eq same (by decide)
    exact absurd free (by decide)
  next other =>
    obtain rfl := pure_eq_ok.mp found
    exact shown_ne_array keyed other same

theorem plain_of_ident {direction : Direction} {name : Label} {ident : String}
    (named : identText name = .ok ident) : Piece.isArray (.use { direction, ident }) = false :=
  beq_false_of_ne (identText_ne_array named)

theorem plain_helper (direction : Direction) (owner : String) (field : Field CType) :
    Piece.isArray (.use (helper direction owner field)) = false := by
  refine beq_false_of_ne fun same => ?_
  have inside : '_' ∈ (owner ++ "__" ++ field.name.plain).toList := by simp
  rw [show owner ++ "__" ++ field.name.plain = "array" from same] at inside
  exact absurd inside (by decide)

/-! ### Lines of declarations -/

section
variable {given : Label → Amount → Prop} {whole : CType} {options : Options} {known : List Marshaler}
  {direction : Direction} {pieces : List Piece}

theorem namedMarshaler_strided {type : CType} (found : namedMarshaler known direction type = .ok pieces) :
    Strided given whole pieces := by
  unfold namedMarshaler at found
  split at found
  · cases found
  · obtain ⟨ident, named, found⟩ := bind_eq_ok.mp found
    dsimp only at found
    split at found
    · obtain rfl := pure_eq_ok.mp found
      exact .other (plain_of_ident named) .nil
    · cases found

variable (coherent : whole.Coherent given)
include coherent

theorem call_strided {header : Header} {item : CType} {length : Amount} {inner rest : List Piece}
    {stride : String} (array : (CType.array header item length).Within whole)
    (sized : Amount.written item.size = .ok stride) (items : access known direction item = .ok inner)
    (inside : Strided given whole inner) (more : Strided given whole rest) (value place count : String) :
    Strided given whole (.use { direction, ident := "array" } :: .text "(" ::
      (inner ++ .text (direction.closing value place stride count) :: rest)) :=
  .call array ((coherent.within (array.child (List.mem_singleton.mpr rfl))).spans sized) items inside more

theorem access_strided {type : CType} (within : type.Within whole)
    (found : access known direction type = .ok pieces) : Strided given whole pieces := by
  fun_induction access known direction type generalizing pieces with
  | case1 header target ih => exact ih (within.child (List.mem_singleton.mpr rfl)) found
  | case2 => exact namedMarshaler_strided found
  | case3 header item length ih =>
    obtain ⟨inner, items, found⟩ := bind_eq_ok.mp found
    obtain ⟨stride, sized, found⟩ := bind_eq_ok.mp found
    have inside := ih (within.child (List.mem_singleton.mpr rfl)) items
    have call := call_strided coherent within sized items inside .nil
    cases direction with
    | reading =>
      obtain ⟨count, -, found⟩ := bind_eq_ok.mp found
      obtain rfl := pure_eq_ok.mp found
      exact .other rfl (call "x" "offset" count)
    | writing =>
      obtain rfl := pure_eq_ok.mp found
      refine .other rfl ?_
      have same : Direction.writing.closing "x" "offset" stride "" =
          ", x, buffer, offset, " ++ stride ++ ")" := rfl
      exact same ▸ call "x" "offset" ""
  | case4 header base isConst =>
    obtain rfl := Except.ok.inj found
    exact .other rfl .nil
  | case5 => exact namedMarshaler_strided found
  | case6 => exact namedMarshaler_strided found

theorem fieldRead_strided {owner : String} {field : Field CType} (within : field.type.Within whole)
    (found : fieldRead known owner field = .ok pieces) : Strided given whole pieces := by
  have within := (meaning_within field.type).trans within
  obtain ⟨place, -, found⟩ := bind_eq_ok.mp found
  dsimp only at found
  split at found
  next header variants union =>
    obtain rfl := pure_eq_ok.mp found
    exact .other (plain_helper .reading owner field) (.other rfl .nil)
  next header item length array =>
    rw [array] at within
    obtain ⟨inner, items, found⟩ := bind_eq_ok.mp found
    obtain ⟨stride, sized, found⟩ := bind_eq_ok.mp found
    obtain ⟨count, -, found⟩ := bind_eq_ok.mp found
    obtain rfl := pure_eq_ok.mp found
    have inside := access_strided coherent (within.child (List.mem_singleton.mpr rfl)) items
    exact call_strided coherent within sized items inside .nil "" place count
  next type =>
    obtain ⟨function, computed, found⟩ := bind_eq_ok.mp found
    obtain rfl := pure_eq_ok.mp found
    exact (access_strided coherent within computed).append (.other rfl .nil)

theorem fieldWrite_strided {owner : String} {field : Field CType} (within : field.type.Within whole)
    (found : fieldWrite known owner field = .ok pieces) : Strided given whole pieces := by
  have within := (meaning_within field.type).trans within
  obtain ⟨place, -, found⟩ := bind_eq_ok.mp found
  dsimp only at found
  split at found
  next header variants union =>
    obtain rfl := pure_eq_ok.mp found
    exact .other (plain_helper .writing owner field) (.other rfl .nil)
  next header item length array =>
    rw [array] at within
    obtain ⟨inner, items, found⟩ := bind_eq_ok.mp found
    obtain ⟨stride, sized, found⟩ := bind_eq_ok.mp found
    obtain rfl := pure_eq_ok.mp found
    have inside := access_strided coherent (within.child (List.mem_singleton.mpr rfl)) items
    exact call_strided coherent within sized items inside .nil _ place ""
  next type =>
    obtain ⟨function, computed, found⟩ := bind_eq_ok.mp found
    obtain rfl := pure_eq_ok.mp found
    exact (access_strided coherent within computed).append (.other rfl .nil)

theorem aliasMarshaler_strided {ident : String} {target : CType} {lines : List Fragment}
    (within : target.Within whole)
    (made : aliasMarshaler options known direction ident target = .ok lines) :
    ∀ line ∈ lines, Strided given whole line := by
  obtain ⟨-, made⟩ | ⟨-, rfl⟩ := direct_eq_ok.mp made
  · obtain ⟨function, found, made⟩ := bind_eq_ok.mp made
    obtain rfl := pure_eq_ok.mp made
    refine List.forall_mem_singleton.mpr (Strided.put ?_ 0)
    exact .other rfl (.other rfl (access_strided coherent within found))
  · exact fun _ member => absurd member List.not_mem_nil

variable {lines : List Fragment} {owner : String} {fields : List (Field CType)}

theorem fieldsReader_strided {result : String} (within : ∀ field ∈ fields, field.type.Within whole)
    (made : fieldsReader options known owner result fields = .ok lines) :
    ∀ line ∈ lines, Strided given whole line := by
  obtain ⟨-, made⟩ | ⟨-, rfl⟩ := direct_eq_ok.mp made
  · obtain ⟨entries, walked, made⟩ := bind_eq_ok.mp made
    obtain rfl := pure_eq_ok.mp made
    have each : ∀ line ∈ entries, Strided given whole line := by
      intro line member
      obtain ⟨field, among, entry⟩ := item_of_result (mapM_eq_ok.mp walked) member
      obtain ⟨value, read, entry⟩ := bind_eq_ok.mp entry
      obtain rfl := pure_eq_ok.mp entry
      have strided := fieldRead_strided coherent (within field among) read
      exact Strided.put (.other rfl (strided.append (.other rfl .nil))) 2
    simp only [List.forall_mem_append, List.forall_mem_cons]
    exact ⟨⟨⟨strided_of_unused (used_readerHead ..), Strided.put (.other rfl .nil) 1, List.forall_mem_nil _⟩, each⟩,
      Strided.put (.other rfl .nil) 1, List.forall_mem_nil _⟩
  · exact fun _ member => absurd member List.not_mem_nil

theorem fieldsWriter_strided {value : String} (within : ∀ field ∈ fields, field.type.Within whole)
    (made : fieldsWriter options known owner value fields = .ok lines) :
    ∀ line ∈ lines, Strided given whole line := by
  obtain ⟨-, made⟩ | ⟨-, rfl⟩ := direct_eq_ok.mp made
  · obtain ⟨entries, walked, made⟩ := bind_eq_ok.mp made
    obtain rfl := pure_eq_ok.mp made
    refine List.forall_mem_cons.mpr ⟨strided_of_unused (used_writerHead ..), fun line member => ?_⟩
    split at member
    · obtain rfl := List.mem_singleton.mp member
      exact Strided.put (.other rfl .nil) 1
    · obtain ⟨group, among, inside⟩ := List.mem_flatten.mp member
      obtain ⟨field, present, entry⟩ := item_of_result (mapM_eq_ok.mp walked) among
      obtain ⟨statement, written, entry⟩ := bind_eq_ok.mp entry
      obtain rfl := pure_eq_ok.mp entry
      have condition : Strided given whole
          (put options 1 [.text ("if \"" ++ field.name.plain ++ "\" in x:")]) :=
        Strided.put (.other rfl .nil) 1
      obtain rfl | inside := List.mem_cons.mp inside
      · exact condition
      · obtain rfl := List.mem_singleton.mp inside
        exact Strided.put (fieldWrite_strided coherent (within field present) written) 2
  · exact fun _ member => absurd member List.not_mem_nil

theorem unionHelpers_strided {field : Field CType} (within : field.type.Within whole)
    (made : unionHelpers options known owner field = .ok lines) :
    ∀ line ∈ lines, Strided given whole line := by
  unfold unionHelpers at made
  split at made
  next header variants union =>
    obtain ⟨readers, read, made⟩ := bind_eq_ok.mp made
    obtain ⟨writers, written, made⟩ := bind_eq_ok.mp made
    obtain rfl := pure_eq_ok.mp made
    have around : (CType.union header variants).Within whole :=
      union ▸ (meaning_within field.type).trans within
    have inside : ∀ variant ∈ variants, variant.type.Within whole := fun variant member =>
      around.child (List.mem_map_of_mem member)
    exact List.forall_mem_append.mpr ⟨fieldsReader_strided coherent inside read,
      fieldsWriter_strided coherent inside written⟩
  next =>
    obtain rfl := Except.ok.inj made
    exact fun _ member => absurd member List.not_mem_nil

end

/-- The lines with the size of a record. -/
def sizeLines (options : Options) (ident size : String) : List Fragment :=
  (if options.recordSizes then [put options 0 [.text (ident ++ "__ffi_size = " ++ size)]] else []) ++
    if options.allocators && options.writers then allocator options ident size else []

/-- Whether the size of a record is shown. -/
def Options.showsSizes (options : Options) : Bool :=
  options.recordSizes || options.allocators && options.writers

/-- The lines of a record: those of its marshalers, and those with its size. -/
def RecordLines (options : Options) (given : Label → Amount → Prop) (name : Label) (type : CType)
    (lines : List Fragment) : Prop :=
  ∃ ident text before, identText name = .ok ident ∧ lines = before ++ sizeLines options ident text ∧
    (options.showsSizes = true → type.Spans given text) ∧ ∀ line ∈ before, Strided given type line

section
variable {given : Label → Amount → Prop} {type : CType} {options : Options} {known : List Marshaler}
  {name : Label} {rendered : Rendered}

theorem record_sizes {header : Header} {fields : List (Field CType)}
    (coherent : (CType.record header fields).Coherent given)
    (made : record options known name header.size fields = .ok rendered) :
    RecordLines options given name (.record header fields) rendered.lines := by
  obtain ⟨ident, named, made⟩ := bind_eq_ok.mp made
  obtain ⟨naming, listed, made⟩ := bind_eq_ok.mp made
  obtain ⟨helpers, helping, made⟩ := bind_eq_ok.mp made
  obtain ⟨readers, read, made⟩ := bind_eq_ok.mp made
  obtain ⟨writers, written, made⟩ := bind_eq_ok.mp made
  obtain ⟨text, shown, made⟩ := bind_eq_ok.mp made
  obtain rfl := pure_eq_ok.mp made
  have within : ∀ field ∈ fields, field.type.Within (.record header fields) := fun field member =>
    .inside (List.mem_map_of_mem member) .here
  refine ⟨ident, text, _, named, List.append_assoc .., fun shows => coherent.spans ?_, ?_⟩
  · exact (if_pos shows).symm.trans shown
  · simp only [List.forall_mem_append]
    refine ⟨⟨⟨fun line member => strided_of_unused (dictionary_unused listed line member), ?_⟩,
      fieldsReader_strided coherent within read⟩, fieldsWriter_strided coherent within written⟩
    intro line member
    obtain ⟨group, among, inside⟩ := List.mem_flatten.mp member
    obtain ⟨field, among, helped⟩ := item_of_result (mapM_eq_ok.mp helping) among
    exact unionHelpers_strided coherent (within field among) helped line inside

theorem sizeLines_strided {ident size : String} (named : identText name = .ok ident) :
    ∀ line ∈ sizeLines options ident size, Strided given type line := by
  have plain (level : Nat) (text : String) : Strided given type (put options level [.text text]) :=
    Strided.put (.other rfl .nil) level
  have write : Strided given type
      (put options 1 [.use { direction := .writing, ident }, "(x, buffer, 0)"]) :=
    Strided.put (.other (plain_of_ident named) (.other rfl .nil)) 1
  refine List.forall_mem_append.mpr ⟨?_, ?_⟩
  · split
    · exact List.forall_mem_singleton.mpr (plain 0 _)
    · exact fun _ member => absurd member List.not_mem_nil
  · split
    · simp only [allocator, List.forall_mem_cons]
      exact ⟨plain 0 _, plain 1 _, plain 2 _, write, plain 1 _, List.forall_mem_nil _⟩
    · exact fun _ member => absurd member List.not_mem_nil

theorem RecordLines.strided {lines : List Fragment} (record : RecordLines options given name type lines) :
    ∀ line ∈ lines, Strided given type line := by
  obtain ⟨ident, text, before, named, rfl, -, strided⟩ := record
  exact List.forall_mem_append.mpr ⟨strided, sizeLines_strided named⟩

theorem reading_strided {lines : List Fragment} (strided : ∀ line ∈ lines, Strided given type line) :
    ∀ line ∈ reading options lines, Strided given type line := fun line member =>
  strided line (mem_reading.mp member).2

theorem writing_strided {lines : List Fragment} (strided : ∀ line ∈ lines, Strided given type line) :
    ∀ line ∈ writing options lines, Strided given type line := fun line member =>
  strided line (mem_writing.mp member).2

theorem aliasLine_strided (ident : String) (hint : Label) :
    Strided given type (aliasLine options ident hint) := Strided.put (.other rfl .nil) 0

theorem pointer_strided {base : Option CType} {isConst : Bool}
    (made : pointer options name base isConst = .ok rendered) :
    ∀ line ∈ rendered.lines, Strided given type line := by
  obtain ⟨ident, -, made⟩ := bind_eq_ok.mp made
  obtain ⟨hinted, -, made⟩ := bind_eq_ok.mp made
  obtain rfl := pure_eq_ok.mp made
  have same (direction : Direction) :
      ∀ line ∈ [sameMarshaler options direction ident [.use { direction, ident := "opaque_pointer" }]],
        Strided given type line :=
    List.forall_mem_singleton.mpr (Strided.put (.other rfl (.other rfl (.other rfl .nil))) 0)
  simp only [List.cons_append, List.forall_mem_cons, List.forall_mem_append]
  exact ⟨aliasLine_strided ident hinted, reading_strided (same .reading), writing_strided (same .writing)⟩

theorem synonym_strided {header : Header} {target : CType} {transparent : Bool}
    (coherent : (CType.synonym header target transparent).Coherent given)
    (made : synonym options known name target = .ok rendered) :
    ∀ line ∈ rendered.lines, Strided given (.synonym header target transparent) line := by
  obtain ⟨ident, -, made⟩ := bind_eq_ok.mp made
  obtain ⟨hinted, -, made⟩ := bind_eq_ok.mp made
  have within : target.Within (.synonym header target transparent) :=
    .inside (List.mem_singleton.mpr rfl) .here
  dsimp only at made
  split at made
  · obtain rfl := pure_eq_ok.mp made
    exact List.forall_mem_singleton.mpr (aliasLine_strided ident hinted)
  · obtain ⟨readers, read, made⟩ := bind_eq_ok.mp made
    obtain ⟨writers, written, made⟩ := bind_eq_ok.mp made
    obtain rfl := pure_eq_ok.mp made
    simp only [List.cons_append, List.forall_mem_cons, List.forall_mem_append]
    exact ⟨aliasLine_strided ident hinted, aliasMarshaler_strided coherent within read,
      aliasMarshaler_strided coherent within written⟩

theorem builtin_unused {carrier : Carrier} (made : builtin options name carrier = .ok rendered) :
    ∀ line ∈ rendered.lines, line.used = [] := by
  obtain ⟨ident, -, made⟩ := bind_eq_ok.mp made
  dsimp only at made
  have naming : ∀ line ∈ (if name != .str carrier.host then
      [put options 0 [.text (ident ++ " = " ++ carrier.host)]] else []), line.used = [] := by
    split <;> simp
  split at made
  · obtain rfl := pure_eq_ok.mp made
    exact naming
  · obtain rfl := pure_eq_ok.mp made
    simp only [List.forall_mem_append]
    exact ⟨⟨naming, reading_unused (by simp)⟩, writing_unused (by simp)⟩

theorem enumeration_unused {constants : List (Label × Constant)}
    (made : enumeration options name constants = .ok rendered) :
    ∀ line ∈ rendered.lines, line.used = [] := by
  obtain ⟨ident, -, made⟩ := bind_eq_ok.mp made
  obtain ⟨values, walked, made⟩ := bind_eq_ok.mp made
  obtain rfl := pure_eq_ok.mp made
  have listed : ∀ line ∈ (if constants.isEmpty then [put options 1 ["pass"]] else values),
      line.used = [] := by
    split
    · simp
    · intro line member
      obtain ⟨constant, -, made⟩ := item_of_result (mapM_eq_ok.mp walked) member
      exact constantLine_unused made
  simp only [List.cons_append, List.forall_mem_cons, List.forall_mem_append]
  exact ⟨by simp, ⟨⟨listed, by simp⟩, reading_unused (by simp)⟩, writing_unused (by simp)⟩

theorem function_unused {result : CType} {parameters : List (Parameter CType)}
    (made : function options name result parameters = .ok rendered) :
    ∀ line ∈ rendered.lines, line.used = [] := by
  unfold function at made
  split at made
  · obtain ⟨ident, -, made⟩ := bind_eq_ok.mp made
    obtain ⟨hinted, -, made⟩ := bind_eq_ok.mp made
    obtain rfl := pure_eq_ok.mp made
    simp [aliasLine]
  · obtain rfl := pure_eq_ok.mp made
    simp

theorem declaration_strided (coherent : type.Coherent given)
    (made : declaration options known name type = .ok rendered) :
    ∀ line ∈ rendered.lines, Strided given type line := by
  cases type with
  | builtin header carrier => exact fun line member => strided_of_unused (builtin_unused made line member)
  | enum header constants =>
    exact fun line member => strided_of_unused (enumeration_unused made line member)
  | synonym header target transparent => exact synonym_strided coherent made
  | pointer header base isConst => exact pointer_strided made
  | signature header result parameters =>
    exact fun line member => strided_of_unused (function_unused made line member)
  | record header fields => exact (record_sizes coherent made).strided
  | array => cases made
  | union => cases made
  | callback => cases made
  | bare => cases made

theorem callbackHalf_strided {direction : Direction} {result : CType}
    {parameters : List (Parameter CType)} {lines : List Fragment}
    (made : callbackHalf options direction name result parameters = .ok lines) :
    ∀ line ∈ lines, Strided given type line := by
  obtain ⟨ident, -, made⟩ := bind_eq_ok.mp made
  obtain ⟨text, -, made⟩ := bind_eq_ok.mp made
  cases direction with
  | reading =>
    obtain rfl := pure_eq_ok.mp made
    refine List.forall_mem_cons.mpr ⟨strided_of_unused (used_readerHead ..), ?_⟩
    refine List.forall_mem_singleton.mpr ?_
    exact Strided.put (.other rfl (.other rfl (.other rfl .nil))) 1
  | writing =>
    obtain rfl := pure_eq_ok.mp made
    refine List.forall_mem_cons.mpr ⟨strided_of_unused (used_writerHead ..), ?_⟩
    refine List.forall_mem_singleton.mpr ?_
    exact Strided.put (.other rfl (.other rfl .nil)) 1

/-! ### Shares of a module -/

theorem lines_tried {α : Type} (symbol : Label) (outcome : Except Fault α) (rest : α → Account) :
    (Account.tried symbol outcome rest).lines = [] ∨
      ∃ value, outcome = .ok value ∧ (Account.tried symbol outcome rest).lines = (rest value).lines := by
  cases outcome with
  | ok value => exact .inr ⟨value, rfl, rfl⟩
  | error fault => exact .inl rfl

theorem lines_rendered (options : Options) (known : List Marshaler) (name : Label) (type : CType) :
    let made := declaration options known name type
    (Account.tried name made (renderedAccount options)).lines = [] ∨ ∃ rendered, made = .ok rendered ∧
      (Account.tried name made (renderedAccount options)).lines = rendered.lines ++ [blankLine] := by
  intro made
  obtain idle | ⟨rendered, done, same⟩ := lines_tried name made (renderedAccount options)
  · exact .inl idle
  · rw [same, renderedAccount]
    split
    · exact .inl rfl
    · exact .inr ⟨rendered, done, rfl⟩

theorem strided_tried {α : Type} {symbol : Label} {outcome : Except Fault α} {rest : α → Account}
    (each : ∀ value, outcome = .ok value → ∀ line ∈ (rest value).lines, Strided given type line) :
    ∀ line ∈ (Account.tried symbol outcome rest).lines, Strided given type line := by
  obtain idle | ⟨value, done, same⟩ := lines_tried symbol outcome rest
  · rw [idle]
    exact List.forall_mem_nil _
  · rw [same]
    exact each value done

theorem callback_strided {ident : String} {result : CType} {parameters : List (Parameter CType)} :
    ∀ line ∈ (callbackAccount options name ident result parameters).lines, Strided given type line := by
  have half (direction : Direction) {chosen : Bool} :
      ∀ line ∈ (if chosen = true then halfAccount options direction name ident result parameters
        else {}).lines, Strided given type line := by
    split
    · exact strided_tried fun lines made => callbackHalf_strided made
    · exact List.forall_mem_nil _
  refine strided_tried fun hinted _ => ?_
  refine List.forall_mem_append.mpr ⟨?_, List.forall_mem_append.mpr ⟨half .reading, half .writing⟩⟩
  exact List.forall_mem_singleton.mpr (aliasLine_strided ident hinted)

theorem entry_strided (coherent : type.Coherent given) :
    ∀ line ∈ (entryAccount options known name type).lines, Strided given type line := by
  have declared : ∀ line ∈ (Account.tried name (declaration options known name type)
      (renderedAccount options)).lines, Strided given type line := by
    obtain idle | ⟨rendered, made, same⟩ := lines_rendered options known name type
    · rw [idle]
      exact List.forall_mem_nil _
    · rw [same]
      refine List.forall_mem_append.mpr ⟨declaration_strided coherent made, ?_⟩
      exact List.forall_mem_singleton.mpr (strided_of_unused used_blankLine)
  cases type with
  | synonym header target transparent =>
    cases transparent with
    | true => exact List.forall_mem_nil _
    | false => exact declared
  | callback header own result parameters =>
    rw [entryAccount]
    split
    · exact callback_strided
    · exact List.forall_mem_nil _
  | _ => exact declared

theorem entry_record {header : Header} {fields : List (Field CType)}
    (coherent : (CType.record header fields).Coherent given) :
    (entryAccount options known name (.record header fields)).lines = [] ∨ ∃ lines,
      (entryAccount options known name (.record header fields)).lines = lines ++ [blankLine] ∧
        RecordLines options given name (.record header fields) lines := by
  refine (lines_rendered ..).imp id ?_
  rintro ⟨rendered, made, same⟩
  exact ⟨rendered.lines, same, record_sizes coherent made⟩

/-- What an argument does before it is passed on: nothing, or it becomes an address, or it is put into as
much memory as the record behind its type has. -/
inductive Prepares (given : Label → Amount → Prop) (options : Options) (parameter : Parameter CType)
    (made : Argument) : Prop
  | given (idle : made.steps = [])
  | address (text : String) (steps : made.steps = addressSteps made text)
  | record (header : Header) (fields : List (Field CType)) (target size : String)
    (behind : parameter.type.pointee = .record header fields) (named : identText header.name = .ok target)
    (steps : made.steps = recordSteps options made.name target size)
    (spans : parameter.type.pointee.Spans given size)

theorem Passes.prepares {parameter : Parameter CType} {made : Argument}
    (passes : Passes options parameter.type made) (coherent : parameter.type.Coherent given) :
    Prepares given options parameter made := by
  cases passes with
  | given plain idle passed => exact .given idle
  | address prepared text steps passed => exact .address text steps
  | record prepared header fields behind stores passed =>
    obtain ⟨target, size, named, sized, steps⟩ := stores
    refine .record header fields target size behind named steps (coherent.pointee.spans ?_)
    rw [behind]
    exact sized

theorem arguments_prepare {index : Nat} {parameters : List (Parameter CType)} {made : List Argument}
    (coherent : ∀ parameter ∈ parameters, parameter.type.Coherent given)
    (done : arguments options known index parameters = .ok made) :
    List.Forall₂ (Prepares given options) parameters made := by
  induction parameters generalizing index made with
  | nil =>
    obtain rfl := pure_eq_ok.mp done
    exact .nil
  | cons parameter rest ih =>
    rw [List.forall_mem_cons] at coherent
    obtain ⟨first, one, done⟩ := bind_eq_ok.mp done
    obtain ⟨others, more, done⟩ := bind_eq_ok.mp done
    obtain rfl := pure_eq_ok.mp done
    obtain ⟨_, -, -, passes⟩ := argument_passes one
    exact .cons (passes.prepares coherent.1) (ih coherent.2 more)

theorem Prepares.strided {parameter : Parameter CType} {made : Argument}
    (prepares : Prepares given options parameter made) :
    ∀ step ∈ made.steps, Strided given type (put options 1 step) := by
  have plain (text : String) : Strided given type (put options 1 [.text text]) :=
    Strided.put (.other rfl .nil) 1
  cases prepares with
  | given idle =>
    rw [idle]
    exact List.forall_mem_nil _
  | address text steps =>
    rw [steps]
    exact List.forall_mem_singleton.mpr (plain _)
  | record header fields target size behind named steps =>
    rw [steps, recordSteps]
    simp only [List.forall_mem_cons]
    refine ⟨plain _, plain _, plain _, Strided.put (.other rfl ?_) 1, List.forall_mem_nil _⟩
    exact .other (plain_of_ident named) (.other rfl .nil)

/-- The lines of a callable: those of the symbol itself, or of a wrapper that prepares the arguments. -/
def CallLines (given : Label → Amount → Prop) (options : Options) (name : Label)
    (parameters : List (Parameter CType)) (lines : List Fragment) : Prop :=
  ∃ ident, identText name = .ok ident ∧
    (lines = [put options 0 [.text (ident ++ " = " ++ symbolOf name)]] ∨
      ∃ returned isText made, lines = wrapperLines options ident (symbolOf name) returned isText made ∧
        List.Forall₂ (Prepares given options) parameters made)

theorem callable_prepares {result : CType} {parameters : List (Parameter CType)} {lines : List Fragment}
    (coherent : ∀ parameter ∈ parameters, parameter.type.Coherent given)
    (done : callable options known name result parameters = .ok lines) :
    CallLines given options name parameters lines := by
  obtain ⟨ident, named, lines⟩ := callable_lines done
  refine ⟨ident, named, lines.imp id ?_⟩
  rintro ⟨returned, isText, made, rfl, all⟩
  exact ⟨returned, isText, made, rfl, arguments_prepare coherent all⟩

theorem CallLines.strided {parameters : List (Parameter CType)} {lines : List Fragment}
    (call : CallLines given options name parameters lines) :
    ∀ line ∈ lines, Strided given type line := by
  have plain (level : Nat) (text : String) : Strided given type (put options level [.text text]) :=
    Strided.put (.other rfl .nil) level
  obtain ⟨ident, -, rfl | ⟨returned, isText, made, rfl, prepare⟩⟩ := call
  · exact List.forall_mem_singleton.mpr (plain 0 _)
  · rw [wrapperLines]
    simp only [List.cons_append, List.forall_mem_cons, List.forall_mem_append]
    refine ⟨plain 0 _, fun line member => ?_, plain 1 _, List.forall_mem_nil _⟩
    obtain ⟨argument, among, member⟩ := List.mem_flatMap.mp member
    obtain ⟨step, inside, rfl⟩ := List.mem_map.mp member
    obtain ⟨parameter, -, prepares⟩ := item_of_result prepare among
    exact prepares.strided step inside

end

/-- The sizes in a module: the strides of arrays, those of records and those of the memory that callables
make. Behind each of them that stands for a record is a size that was given for it. -/
structure Module.Measures (made : Module) (given : Label → Amount → Prop) (options : Options)
    (graph : Graph) : Prop where
  entries : (shares options graph).map (fun share => (share.name, share.type)) = graph.declarations
  fragments : made.fragments = [.text prelude] :: (if options.helpers then [[.text helpers]] else []) ++
    (shares options graph).flatMap (·.declared.lines) ++
    (if options.symbols then symbolsAccount options (functionsOf graph.declarations) else {}).lines ++
    (shares options graph).flatMap (·.called.lines)
  strides : ∀ share ∈ shares options graph, ∀ line ∈ share.declared.lines ++ share.called.lines,
    Strided given share.type line
  /-- No arrays are read or written beside those of the declarations. -/
  others : ∀ line ∈ [.text prelude] :: (if options.helpers then [[.text helpers]] else []) ++
    (if options.symbols then symbolsAccount options (functionsOf graph.declarations) else {}).lines,
    Fragment.used line = []
  records : ∀ share ∈ shares options graph, ∀ header fields, share.type = .record header fields →
    share.declared.lines = [] ∨ ∃ lines, share.declared.lines = lines ++ [blankLine] ∧
      RecordLines options given share.name share.type lines
  callables : ∀ share ∈ shares options graph, ∀ header result parameters,
    share.type = .signature header result parameters →
      share.called.lines = [] ∨ CallLines given options share.name parameters share.called.lines

section
variable {given : Label → Amount → Prop} {options : Options} {graph : Graph}

theorem symbolEntry_unused {function : Function} {entry : Fragment}
    (made : entryOf options function = .ok entry) : entry.used = [] := by
  obtain ⟨first, -, made⟩ := bind_eq_ok.mp made
  obtain ⟨others, -, made⟩ := bind_eq_ok.mp made
  obtain rfl := pure_eq_ok.mp made
  simp [line]

theorem symbols_unused (functions : List Function) :
    ∀ line ∈ (symbolsAccount options functions).lines, line.used = [] := by
  refine List.forall_mem_append.mpr ⟨?_, List.forall_mem_append.mpr ⟨fun line member => ?_, ?_⟩⟩
  · refine List.forall_mem_append.mpr ⟨fun line member => ?_, by simp⟩
    obtain ⟨text, -, rfl⟩ := List.mem_map.mp member
    rfl
  · rw [lines_pass] at member
    obtain ⟨⟨name, entry⟩, among, member⟩ := List.mem_flatMap.mp member
    obtain rfl := List.mem_singleton.mp member
    obtain ⟨function, -, done⟩ := List.mem_filterMap.mp among
    cases made : entryOf options function with
    | ok value =>
      rw [made] at done
      obtain rfl := (Prod.mk.inj (Option.some.inj done)).2
      exact symbolEntry_unused made
    | error fault =>
      rw [made] at done
      cases done
  · simp [tableEnd]

theorem call_lines (options : Options) (final : List Marshaler) (name : Label) {header : Header}
    {result : CType} {parameters : List (Parameter CType)}
    (coherent : (CType.signature header result parameters).Coherent given) :
    let call := callAccount options final name (.signature header result parameters)
    call.lines = [] ∨ CallLines given options name parameters call.lines := by
  intro call
  have same : call = if options.wrappers && options.symbols then
      .tried name (callable options final name result parameters) fun lines => { lines } else {} := rfl
  rw [same]
  split
  · obtain idle | ⟨lines, done, same⟩ := lines_tried name
      (callable options final name result parameters) fun lines => { lines }
    · exact .inl idle
    · rw [same]
      refine .inr (callable_prepares (fun parameter among => coherent.child ?_) done)
      exact List.mem_cons_of_mem _ (List.mem_map_of_mem among)
  · exact .inl rfl

theorem callAccount_strided {final : List Marshaler} {name : Label} {type : CType}
    (coherent : type.Coherent given) :
    ∀ line ∈ (callAccount options final name type).lines, Strided given type line := by
  cases type with
  | signature header result parameters =>
    obtain idle | call := call_lines options final name coherent
    · rw [idle]
      exact List.forall_mem_nil _
    · exact call.strided
  | _ => exact List.forall_mem_nil _

theorem generate_measures {made : Module} {start after : Progress} (coherent : graph.Coherent given)
    (keyed : ∀ entry ∈ graph.declarations, entry.1.asKey = .ok entry.1)
    (run : (generate options graph).runOn start = (.ok made, after)) :
    made.Measures given options graph := by
  have parts (share : Share) (member : share ∈ shares options graph) : share.type.Coherent given :=
    coherent _ (share_accounts member).1
  have callables : ∀ share ∈ shares options graph, ∀ header result parameters,
      share.type = .signature header result parameters →
        share.called.lines = [] ∨ CallLines given options share.name parameters share.called.lines := by
    intro share member header result parameters same
    obtain ⟨-, called, -⟩ := share_accounts member
    have own := parts share member
    rw [same] at own
    rw [called, same]
    exact call_lines _ _ _ own
  refine ⟨entries_shares, ?_, ?_, ?_, ?_, callables⟩
  · exact (generate_account keyed run).1.trans (congrArg _ lines_moduleAccount)
  · intro share member
    obtain ⟨-, called, known, declared⟩ := share_accounts member
    refine List.forall_mem_append.mpr ⟨declared ▸ entry_strided (parts share member), ?_⟩
    exact called ▸ callAccount_strided (parts share member)
  · refine List.forall_mem_append.mpr ⟨List.forall_mem_cons.mpr ⟨rfl, ?_⟩, ?_⟩
    · split
      · exact List.forall_mem_singleton.mpr rfl
      · exact List.forall_mem_nil _
    · split
      · exact symbols_unused _
      · exact List.forall_mem_nil _
  · intro share member header fields same
    obtain ⟨-, -, known, declared⟩ := share_accounts member
    have own := parts share member
    rw [declared]
    rw [same] at own ⊢
    exact entry_record own

/-- However a resolution ends, the sizes of the nodes agree in every graph on its way, and every size in a
module that is made of its graph is that of a node: what the oracle gave, where aliases end in a record. -/
theorem resolve_measures {σ : Type} (oracle : Layout.Oracle σ) (header : Path) (nodes : List Json)
    (state : σ) :
    let after := ((resolve header oracle nodes).runOn { oracle := state }).2
    ∃ done, History { oracle, state } done after.oracle ∧ after.graph = replay {} done ∧
      (∀ early, early <+: done → (replay {} early).Coherent (Gave early)) ∧
      ∀ options start made later, (generate options after.graph).runOn start = (.ok made, later) →
        made.Measures (Gave done) options after.graph := by
  intro after
  obtain ⟨done, history, same⟩ := resolve_history oracle header nodes { oracle := state }
  have measured : Measured {} done := history.measured rfl
  refine ⟨done, history, same, measured, fun options start made later run => ?_⟩
  have keyed : ∀ entry ∈ (replay {} done).declarations, entry.1.asKey = .ok entry.1 :=
    history.keyed fun _ member => absurd member List.not_mem_nil
  refine generate_measures ?_ ?_ run
  · rw [show after.graph = replay {} done from same]
    exact measured done (List.prefix_refl _)
  · rw [show after.graph = replay {} done from same]
    exact keyed

end

/-- Rows of records behind an alias, and a function that takes one by its address. -/
def boardNodes : List Json :=
  [recordNode (.str "cell") [fieldNode "x" "int", fieldNode "y" "int"],
    .obj [("kind", .str "TypedefDecl"), ("name", .str "tile"),
      ("type", .obj [("qualType", .str "struct cell")])],
    recordNode (.str "board") [fieldNode "tiles" "tile[2][3]"],
    functionNode "paint" "void (tile *)" [(.str "to", "tile *")]]

theorem resolve_measures_board :
    ∃ done, graphOf 8 boardNodes = replay {} done ∧
      (∀ early, early <+: done → (replay {} early).Coherent (Gave early)) ∧
      ∃ made later, (generate {} (graphOf 8 boardNodes)).runOn {} = (.ok made, later) ∧
        made.Measures (Gave done) {} (graphOf 8 boardNodes) := by
  obtain ⟨done, -, same, measured, measures⟩ :=
    resolve_measures (sameSizes 8) { parts := ["a.h"] } boardNodes ()
  have keyed : ∀ entry ∈ (graphOf 8 boardNodes).declarations, entry.1.asKey = .ok entry.1 := by
    decide +kernel
  obtain ⟨made, later, run, -⟩ := @generate_goes_on {} (graphOf 8 boardNodes) keyed rfl {}
  exact ⟨done, same, measured, made, later, run, measures {} {} made later run⟩

end Emit

end NativeBindings
