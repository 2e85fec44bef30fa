import Mathlib.Data.List.Infix
import NativeBindings.Emit.Names
import NativeBindings.Emit.Piece
import NativeBindings.Text.Affix

/-!
The names that a module makes of an identifier. An identifier is no word that the module needs itself,
and neither is a name made of it, two declarations apart. Names made of different identifiers can be
the same; those of plain names are not.
-/
namespace NativeBindings.Emit

/-- What is bound for a declaration: itself, the functions that read and write it or a union in it, the
function that makes room for it, its size, and the type of a function. -/
inductive Form where
  | own
  | marshaler (direction : Direction)
  | helper (direction : Direction) (field : String)
  | allocator
  | size
  | signature
  deriving DecidableEq, Repr

namespace Form

def before : Form → String
  | own | size | signature => ""
  | marshaler direction | helper direction _ => direction.start
  | allocator => "alloc_"

def behind : Form → String
  | own | marshaler _ | allocator => ""
  | helper _ field => "__" ++ field
  | size => "__ffi_size"
  | signature => "__signature"

def spell (ident : String) (form : Form) : String := form.before ++ ident ++ form.behind

theorem toList_spell (ident : String) (form : Form) :
    (form.spell ident).toList = form.before.toList ++ (ident.toList ++ form.behind.toList) := by
  rw [spell, String.toList_append, String.toList_append, List.append_assoc]

def starts : List String := ["read_", "write_", "alloc_"]

theorem before_mem (form : Form) : form.before = "" ∨ form.before ∈ starts := by
  cases form with
  | marshaler direction | helper direction => cases direction <;> simp [before, starts, Direction.start]
  | _ => simp [before, starts]

theorem behind_cases (form : Form) :
    form.behind.toList = [] ∨ ['_', '_'] <+: form.behind.toList := by
  cases form with
  | helper direction field => exact .inr ⟨field.toList, by rw [behind, String.toList_append]; rfl⟩
  | own | marshaler | allocator => exact .inl rfl
  | size | signature => exact .inr (by decide)

theorem behind_of_bare {form : Form} (bare : form.before = "") :
    form.behind ∈ ["", "__ffi_size", "__signature"] := by
  cases form with
  | marshaler direction | helper direction => cases direction <;> simp [before, Direction.start] at bare
  | allocator => simp [before] at bare
  | own | size | signature => decide

end Form

/-! ### Words that a module needs -/

/-- The words that mean something else in a module. -/
def needed : List String := keywords ++ reserved ++ ["CString"]

theorem toList_ident (name : String) :
    (ident name).toList = name.toList ∨
      isTaken name = true ∧ (ident name).toList = name.toList ++ ['_'] := by
  unfold ident
  split
  · next taken => exact .inr ⟨taken, String.toList_append ..⟩
  · exact .inl rfl

/-- Only a name of its own has an identifier without a low line at the end. -/
theorem ident_eq {name word : String} (same : ident name = word)
    (ends : word.toList.getLast? ≠ some '_') : name = word ∧ isTaken word = false := by
  unfold ident at same
  split at same
  · subst same
    exact absurd (by simp) ends
  · next free =>
    subst same
    exact ⟨rfl, Bool.eq_false_iff.mpr free⟩

theorem needed_open : ∀ word ∈ needed, word.toList.getLast? ≠ some '_' ∧
    ¬ ['_', '_'] <:+: word.toList := by
  decide +kernel

/-- A name of a module is a word that the module needs only by the two words that are kept. -/
theorem spell_needed {name : String} {form : Form} (taken : form.spell (ident name) ∈ needed) :
    form = .own ∧ name = "CString" ∨
      form = .allocator ∧ (name = "CString" ∨ name = "opaque_pointer") := by
  have spelled := form.toList_spell (ident name)
  generalize form.spell (ident name) = word at taken spelled
  obtain ⟨ends, single⟩ := needed_open word taken
  have long (dashes : ['_', '_'] <+: form.behind.toList) : False := by
    refine single (List.IsInfix.trans dashes.isInfix ?_)
    rw [spelled, ← List.append_assoc]
    exact (List.suffix_append _ _).isInfix
  -- The rest of a word behind a start.
  have rest (start : String) (before : form.before = start) (behind : form.behind = "")
      (own : String) (same : word = start ++ own) : ident name = own := by
    rw [same, before, behind, String.toList_append, List.append_cancel_left_eq] at spelled
    exact String.toList_inj.mp (by simpa using spelled.symm)
  cases form with
  | own =>
    have same := rest "" rfl rfl word (by simp)
    obtain ⟨rfl, free⟩ := ident_eq same ends
    have only : ∀ word ∈ needed, isTaken word = false → word = "CString" := by decide +kernel
    exact .inl ⟨rfl, only name taken free⟩
  | marshaler direction =>
    have start : direction.start.toList <+: word.toList := spelled ▸ List.prefix_append ..
    have only : ∀ word ∈ needed, direction.start.toList <+: word.toList →
        word = direction.start ++ "array" := by
      cases direction <;> decide +kernel
    have same := rest direction.start rfl rfl "array" (only word taken start)
    exact absurd (ident_eq same (by decide)).2 (by decide +kernel)
  | helper direction field => exact (long ⟨field.toList, by rw [Form.behind, String.toList_append]; rfl⟩).elim
  | allocator =>
    have start : "alloc_".toList <+: word.toList := spelled ▸ List.prefix_append ..
    have only : ∀ word ∈ needed, "alloc_".toList <+: word.toList →
        word = "alloc_" ++ "CString" ∨ word = "alloc_" ++ "opaque_pointer" := by decide +kernel
    refine .inr ⟨rfl, (only word taken start).imp (fun same => ?_) fun same => ?_⟩
    · exact (ident_eq (rest "alloc_" rfl rfl "CString" same) (by decide)).1
    · exact (ident_eq (rest "alloc_" rfl rfl "opaque_pointer" same) (by decide)).1
  | size | signature => exact (long (by decide)).elim

/-! ### Plain names -/

/-- A name without its first low lines. -/
def body (name : String) : List Char := name.toList.dropWhile (· == '_')

/-- A name with low lines only at its start and one by one inside, that does not begin as the name of a
function of a module does. -/
structure IsPlain (name : String) : Prop where
  filled : body name ≠ []
  single : ¬ ['_', '_'] <:+: body name
  closed : (body name).getLast? ≠ some '_'
  bare : ∀ start ∈ Form.starts, ¬ start.toList <+: name.toList
  apart : name ≠ "_ffi_size" ∧ name ≠ "_signature"

instance (name : String) : Decidable (IsPlain name) :=
  decidable_of_iff (body name ≠ [] ∧ ¬ ['_', '_'] <:+: body name ∧ (body name).getLast? ≠ some '_' ∧
    (∀ start ∈ Form.starts, ¬ start.toList <+: name.toList) ∧ name ≠ "_ffi_size" ∧ name ≠ "_signature")
    ⟨fun ⟨filled, single, closed, bare, apart⟩ => ⟨filled, single, closed, bare, apart⟩,
      fun plain => ⟨plain.filled, plain.single, plain.closed, plain.bare, plain.apart⟩⟩

/-- What may follow the body of a name: nothing, a low line, or two of them and more. -/
def IsTail (rest : List Char) : Prop := rest = [] ∨ rest = ['_'] ∨ ['_', '_'] <+: rest

section
variable {name other : String} {rest rest' : List Char}

/-- A body is cut off where a tail begins. -/
theorem body_unique {b b' : List Char} (single : ¬ ['_', '_'] <:+: b') (closed : b'.getLast? ≠ some '_')
    (tail : IsTail rest) (same : b ++ rest = b' ++ rest') (shorter : b.length ≤ b'.length) : b = b' := by
  obtain ⟨c, rfl⟩ : ∃ c, b' = b ++ c :=
    (List.prefix_of_prefix_length_le ⟨rest, same⟩ (List.prefix_append b' rest') shorter).imp
      fun _ => Eq.symm
  rw [List.append_assoc, List.append_cancel_left_eq] at same
  subst same
  match c with
  | [] => exact (List.append_nil b).symm
  | [d] =>
    have dash : d = '_' := by
      obtain tail | tail | ⟨more, tail⟩ := tail
      · exact absurd tail (List.cons_ne_nil _ _)
      · exact (List.cons.inj tail).1
      · exact (List.cons.inj tail).1.symm
    subst dash
    exact absurd (by simp) closed
  | d :: e :: more =>
    have dashes : d = '_' ∧ e = '_' := by
      obtain tail | tail | ⟨further, tail⟩ := tail
      · exact absurd tail (List.cons_ne_nil _ _)
      · exact absurd (List.cons.inj tail).2 (List.cons_ne_nil _ _)
      · obtain ⟨first, tail⟩ := List.cons.inj tail
        exact ⟨first.symm, (List.cons.inj tail).1.symm⟩
    obtain ⟨rfl, rfl⟩ := dashes
    exact absurd ⟨b, more, by simp⟩ single

theorem ident_tail (name : String) (form : Form) :
    ∃ tail, (ident name).toList ++ form.behind.toList = name.toList ++ tail ∧ IsTail tail := by
  obtain same | ⟨-, same⟩ := toList_ident name
  · exact ⟨form.behind.toList, by rw [same], form.behind_cases.imp id .inr⟩
  · refine ⟨'_' :: form.behind.toList, by simp [same], ?_⟩
    obtain nothing | ⟨more, dashes⟩ := form.behind_cases
    · exact .inr (.inl (by rw [nothing]))
    · exact .inr (.inr ⟨'_' :: more, by rw [← dashes]; rfl⟩)

theorem IsPlain.unique (plain : IsPlain name) (plain' : IsPlain other) (tail : IsTail rest)
    (tail' : IsTail rest') (same : name.toList ++ rest = other.toList ++ rest') : name = other := by
  have bodies : body name ++ rest = body other ++ rest' := by
    have cut := congrArg (List.dropWhile (· == '_')) same
    rwa [List.dropWhile_append, List.dropWhile_append, if_neg, if_neg] at cut
    · exact fun empty => plain'.filled (List.isEmpty_iff.mp empty)
    · exact fun empty => plain.filled (List.isEmpty_iff.mp empty)
  have one : body name = body other := by
    obtain shorter | longer := Nat.le_total (body name).length (body other).length
    · exact body_unique plain'.single plain'.closed tail bodies shorter
    · exact (body_unique plain.single plain.closed tail' bodies.symm longer).symm
  rw [one, List.append_cancel_left_eq] at bodies
  rw [bodies, List.append_cancel_right_eq] at same
  exact String.toList_inj.mp same

theorem IsPlain.bare_ident (plain : IsPlain name) {start : String} (among : start ∈ Form.starts) :
    ¬ start.toList <+: (ident name).toList := by
  intro begins
  obtain same | ⟨taken, same⟩ := toList_ident name
  · exact plain.bare start among (same ▸ begins)
  · rw [same] at begins
    obtain whole | begins := List.prefix_concat_iff.mp begins
    · have free : ∀ start ∈ Form.starts, isTaken (String.ofList start.toList.dropLast) = false := by
        decide +kernel
      have cut : name = String.ofList start.toList.dropLast := by
        rw [whole, List.dropLast_concat, String.ofList_toList]
      exact absurd taken (by rw [cut, free start among]; decide)
    · exact plain.bare start among begins

/-- The start of a function has its low line at the end. -/
theorem starts_dash : ∀ start ∈ Form.starts, ∀ c ∈ start.toList.tails, c.head? = some '_' → c = ['_'] := by
  decide +kernel

/-- A name without a start begins as no function does. -/
theorem IsPlain.not_started (plain : IsPlain name) (plain' : IsPlain other) {form form' : Form}
    (bare : form.before = "") (started : form'.before ∈ Form.starts) :
    form.spell (ident name) ≠ form'.spell (ident other) := by
  intro same
  have chars := congrArg String.toList same
  rw [Form.toList_spell, Form.toList_spell, bare, String.toList_empty, List.nil_append] at chars
  obtain ⟨c, cut⟩ : (ident name).toList <+: form'.before.toList := by
    refine (List.prefix_or_prefix_of_prefix ⟨_, rfl⟩ ⟨_, chars.symm⟩).resolve_right ?_
    exact plain.bare_ident started
  have filled : c ≠ [] := by
    rintro rfl
    rw [List.append_nil] at cut
    exact plain.bare_ident started (cut ▸ List.prefix_refl _)
  rw [← cut, List.append_assoc, List.append_cancel_left_eq] at chars
  have overlap : c.head? = form.behind.toList.head? := by
    rw [chars, List.head?_append_of_ne_nil _ filled]
  -- What is left is one of two words, and these are not plain.
  have left (word : String) (single : ¬ ['_', '_'] <:+: word.toList) (ends : word.toList.getLast? ≠ some '_')
      (distinct : other ≠ word) (whole : form.behind.toList = '_' :: word.toList) : False := by
    rw [whole, List.head?_cons] at overlap
    obtain rfl := starts_dash _ started c ((List.mem_tails _ _).mpr ⟨_, cut⟩) overlap
    rw [whole, List.singleton_append, List.cons.injEq] at chars
    obtain nothing | dashes := form'.behind_cases
    · rw [nothing, List.append_nil] at chars
      exact distinct (ident_eq (String.toList_inj.mp chars.2.symm) ends).1
    · exact single (chars.2 ▸ dashes.isInfix.trans (List.suffix_append _ _).isInfix)
  have behind := Form.behind_of_bare bare
  simp only [List.mem_cons, List.not_mem_nil, or_false] at behind
  obtain behind | behind | behind := behind
  · rw [behind] at overlap
    exact filled (List.head?_eq_none_iff.mp overlap)
  · exact left "_ffi_size" (by decide) (by decide) plain'.apart.1 (by rw [behind]; decide)
  · exact left "_signature" (by decide) (by decide) plain'.apart.2 (by rw [behind]; decide)

/-- Names made of different plain names are different. -/
theorem spell_ne (plain : IsPlain name) (plain' : IsPlain other) (distinct : name ≠ other)
    (form form' : Form) : form.spell (ident name) ≠ form'.spell (ident other) := by
  have together (before : form.before = form'.before) :
      form.spell (ident name) ≠ form'.spell (ident other) := by
    intro same
    have chars := congrArg String.toList same
    rw [Form.toList_spell, Form.toList_spell, before, List.append_cancel_left_eq] at chars
    obtain ⟨rest, split, tail⟩ := ident_tail name form
    obtain ⟨rest', split', tail'⟩ := ident_tail other form'
    rw [split, split'] at chars
    exact distinct (plain.unique plain' tail tail' chars)
  obtain bare | started := form.before_mem <;> obtain bare' | started' := form'.before_mem
  · exact together (bare.trans bare'.symm)
  · exact plain.not_started plain' bare started'
  · exact (plain'.not_started plain bare' started).symm
  · by_cases before : form.before = form'.before
    · exact together before
    · intro same
      have first : ∀ start ∈ Form.starts, ∀ start' ∈ Form.starts, start ≠ start' →
          start.toList.head? ≠ start'.toList.head? ∧ start.toList ≠ [] ∧ start'.toList ≠ [] := by decide
      obtain ⟨apart, filled, filled'⟩ := first _ started _ started' before
      have chars := congrArg (List.head? ∘ String.toList) same
      simp only [Function.comp_apply, Form.toList_spell] at chars
      rw [List.head?_append_of_ne_nil _ filled, List.head?_append_of_ne_nil _ filled'] at chars
      exact apart chars

end

end NativeBindings.Emit
