import NativeBindings.Proofs.SpelledTypes

/-!
What is read from a spelling is a part of it. The element of an array is left without one of its opening
brackets and the base of a pointer without one of its stars, so a spelling has no more layers than it has
brackets and stars.
-/
namespace NativeBindings.Spelling

open Text

/-- The stars and the opening brackets of a text. -/
def layers (s : List Char) : Nat := s.count '*' + s.count '['

section
variable {s before : List Char}

theorem layers_le {one two : List Char} (part : one.Sublist two) : layers one ≤ layers two :=
  Nat.add_le_add (part.count_le '*') (part.count_le '[')

theorem trimLeft_part (s : List Char) : (trimLeft s).Sublist s := (trimLeft_end s).sublist

theorem trimRight_part (s : List Char) : (trimRight s).Sublist s := (trimRight_start s).sublist

theorem trim_part (s : List Char) : (trim s).Sublist s := (trimRight_part _).trans (trimLeft_part s)

/-! ### Bases of pointers -/

theorem afterTag?_part {gap rest : List Char} (found : afterTag? s = some (gap, rest)) : rest.Sublist s := by
  unfold afterTag? at found
  cases tagged : tags.findSome? fun tag => afterStart? tag s with
  | none =>
    rw [tagged] at found
    cases found
  | some behind =>
    rw [tagged] at found
    obtain ⟨tag, -, after⟩ := List.exists_of_findSome?_eq_some tagged
    change (if (behind.takeWhile isBlank).isEmpty then none else
      some (behind.takeWhile isBlank, behind.dropWhile isBlank)) = _ at found
    split at found
    · cases found
    · obtain ⟨-, rfl⟩ := Prod.mk.inj (Option.some.inj found)
      rw [afterStart?_eq_some.mp after]
      exact (trimLeft_part behind).trans (List.sublist_append_right tag behind)

theorem lineBase?_part {body base : List Char} (found : lineBase? body = some base) : base.Sublist body := by
  unfold lineBase? at found
  dsimp only at found
  split at found
  · cases found
  · obtain rfl := Option.some.inj found
    exact trimRight_part body

theorem pointee?_part {body base : List Char} (found : pointee? body = some base) : base.Sublist body := by
  unfold pointee? at found
  split at found
  · split at found
    · obtain rfl := Option.some.inj found
      exact List.nil_sublist body
    · exact lineBase?_part found
  next tagged => exact (lineBase?_part found).trans (afterTag?_part tagged)
  · exact lineBase?_part found

theorem beforeStar?_part {body : List Char} (found : beforeStar? s = some body) :
    (body ++ ['*']).Sublist s := by
  unfold beforeStar? at found
  dsimp only at found
  split at found
  · split at found
    · cases found
    next c front passed =>
      obtain rfl := Option.some.inj found
      have star : c = '*' := by
        have stopped := List.head?_dropWhile_not (· != '*') s.reverse
        rw [passed] at stopped
        simpa using stopped
      have rest : (c :: front).Sublist s.reverse := passed ▸ (List.dropWhile_suffix _).sublist
      have turned := rest.reverse
      rwa [List.reverse_reverse, List.reverse_cons, star] at turned
  · cases found

theorem pointer?_part {shape : Shape} (found : pointer? s = some shape) :
    ∃ base isConst, shape = .pointer base isConst ∧ (base.toList ++ ['*']).Sublist s := by
  unfold pointer? at found
  obtain ⟨body, before, found⟩ := Option.bind_eq_some_iff.mp found
  obtain ⟨held, pointed, found⟩ := Option.bind_eq_some_iff.mp found
  have whole : (held ++ ['*']).Sublist s :=
    ((pointee?_part pointed).append (List.Sublist.refl _)).trans (beforeStar?_part before)
  have part (base : List Char) (part : base.Sublist (trim held)) :
      ((String.ofList base).toList ++ ['*']).Sublist s := by
    rw [String.toList_ofList]
    exact ((part.trans (trim_part held)).append (List.Sublist.refl _)).trans whole
  dsimp only at found
  split at found
  · exact ⟨_, _, (Option.some.inj found).symm, part _ (normalChars_part _)⟩
  · exact ⟨_, _, (Option.some.inj found).symm, part _ (List.Sublist.refl _)⟩

theorem constPointer?_part {word : List Char} (found : constPointer? s = some word) :
    (word ++ ['*']).Sublist s := by
  unfold constPointer? at found
  obtain ⟨tail, start, found⟩ := Option.bind_eq_some_iff.mp found
  obtain ⟨body, back, found⟩ := Option.bind_eq_some_iff.mp found
  have inside : word.Sublist body := by
    dsimp only at found
    split at found
    · obtain rfl := Option.some.inj found
      exact List.Sublist.refl _
    · obtain ⟨⟨gap, rest⟩, tagged, found⟩ := Option.bind_eq_some_iff.mp found
      dsimp only at found
      split at found
      · obtain rfl := Option.some.inj found
        exact afterTag?_part tagged
      · cases found
  rw [afterStart?_eq_some.mp start, beforeEnd?_eq_some.mp back]
  have star : ['*'].Sublist " *".toList := by decide
  exact (inside.append star).trans (List.sublist_append_right _ _)

/-- A spelling that is no array is the text type, a pointer or a name. -/
theorem parseSingle_part (s : List Char) :
    parseSingle s = .cstring ∨
      (∃ base isConst, parseSingle s = .pointer base isConst ∧ (base.toList ++ ['*']).Sublist s) ∨
      ∃ name, parseSingle s = .name name := by
  rw [parseSingle]
  split
  · exact .inl rfl
  split
  next word found =>
    refine .inr (.inl ⟨_, _, rfl, ?_⟩)
    rw [String.toList_ofList]
    exact constPointer?_part found
  · cases found : pointer? s with
    | none => exact .inr (.inr ⟨_, rfl⟩)
    | some shape => exact .inr (.inl (pointer?_part found))

theorem parse_shape {text : String} {shape : Shape} (parsed : parse text = .ok shape) :
    (∃ element digits length, array? [] (trim text.toList) = some (element, digits) ∧
      shape = .array (String.ofList element) length) ∨ shape = parseSingle (trim text.toList) := by
  rw [parse] at parsed
  split at parsed
  next element digits found =>
    left
    cases read : lengthOf digits with
    | error fault =>
      rw [read] at parsed
      cases parsed
    | ok length =>
      rw [read] at parsed
      exact ⟨element, digits, length, found, (Except.ok.inj parsed).symm⟩
  · exact .inr (Except.ok.inj parsed).symm

theorem parse_pointer_part {text base : String} {isConst : Bool}
    (parsed : parse text = .ok (.pointer base isConst)) : (base.toList ++ ['*']).Sublist text.toList := by
  refine List.Sublist.trans ?_ (trim_part text.toList)
  rcases parse_shape parsed with ⟨_, _, _, -, other⟩ | single
  · cases other
  rcases parseSingle_part (trim text.toList) with other | ⟨_, _, same, part⟩ | ⟨_, other⟩
  · cases single.trans other
  · obtain ⟨rfl, -⟩ := Shape.pointer.inj (single.trans same)
    exact part
  · cases single.trans other

/-- The base of a pointer has a layer less. -/
theorem layers_pointer {text base : String} {isConst : Bool}
    (parsed : parse text = .ok (.pointer base isConst)) :
    layers base.toList < layers text.toList ∧ ('[' ∈ base.toList → '[' ∈ text.toList) := by
  have part := parse_pointer_part parsed
  refine ⟨?_, fun bracket => part.subset (List.mem_append_left _ bracket)⟩
  have fewer := layers_le part
  rw [layers, List.count_append, List.count_append] at fewer
  have star : ['*'].count '*' = 1 := rfl
  rw [layers]
  omega

/-! ### Elements of arrays -/

theorem array?_part {element digits : List Char} (found : array? before s = some (element, digits)) :
    ∃ front after, element = front ++ after ∧ (front ++ '[' :: after).Sublist (before.reverse ++ s) := by
  induction s generalizing before with
  | nil => cases found
  | cons c rest ih =>
    have passed : (c :: before).reverse ++ rest = before.reverse ++ c :: rest := by simp
    rw [array?] at found
    split at found
    · cases found
    split at found
    next own after read =>
      split at found
      next row =>
        obtain ⟨rfl, rfl⟩ := Prod.mk.inj (Option.some.inj found)
        refine ⟨_, _, rfl, ?_⟩
        have behind : ('[' :: after).Sublist rest := by
          refine List.Sublist.trans ?_ (trimLeft_part rest)
          rw [(dimension?_eq read).1]
          refine List.Sublist.cons_cons _ ?_
          exact (List.sublist_cons_self _ _).trans (List.sublist_append_right _ _)
        rw [← passed]
        exact (trim_part _).append behind
      · rw [← passed]
        exact ih found
    · rw [← passed]
      exact ih found

/-- So does the element of an array. -/
theorem layers_array {text element : String} {length : Nat}
    (parsed : parse text = .ok (.array element length)) :
    layers element.toList < layers text.toList ∧ '[' ∈ text.toList := by
  rcases parse_shape parsed with ⟨_, digits, _, found, same⟩ | single
  · obtain ⟨rfl, -⟩ := Shape.array.inj same
    obtain ⟨front, after, rfl, part⟩ := array?_part found
    have whole := part.trans (trim_part text.toList)
    refine ⟨?_, whole.subset (by simp)⟩
    have fewer := layers_le whole
    rw [layers, List.count_append, List.count_append, List.count_cons_self,
      List.count_cons_of_ne (by decide)] at fewer
    rw [String.toList_ofList, layers, List.count_append, List.count_append]
    omega
  · rcases parseSingle_part (trim text.toList) with other | ⟨_, _, other, -⟩ | ⟨_, other⟩
    · cases single.trans other
    · cases single.trans other
    · cases single.trans other

/-- Only a length fails to be read. -/
theorem parse_fault {text : String} {fault : Fault} (failed : parse text = .error fault) :
    (∃ reason, fault = .value reason) ∧ '[' ∈ text.toList := by
  rw [parse] at failed
  split at failed
  next cut digits found =>
    obtain ⟨front, after, rfl, part⟩ := array?_part found
    have whole := part.trans (trim_part text.toList)
    refine ⟨?_, whole.subset (by simp)⟩
    rw [lengthOf, Numeral.read] at failed
    split at failed
    · cases failed
    · exact ⟨_, (Except.error.inj failed).symm⟩
  · cases failed

end

end NativeBindings.Spelling
