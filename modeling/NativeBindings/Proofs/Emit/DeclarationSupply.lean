import NativeBindings.Proofs.Emit.Supply
import NativeBindings.Proofs.Outcome

/-!
The lines of one declaration are supplied by the marshalers known before it, and they define the
marshalers that it makes known.
-/
namespace NativeBindings.Emit

open Outcome

/-- Whether a module has marshalers of a direction. -/
def Options.offers (options : Options) : Direction → Bool
  | .reading => options.readers
  | .writing => options.writers

theorem mem_marshalersOf {options : Options} {ident : String} {m : Marshaler} :
    m ∈ marshalersOf options ident ↔ options.offers m.direction = true ∧ m.ident = ident := by
  obtain ⟨direction, own⟩ := m
  cases direction <;> simp [marshalersOf, Options.offers]

/-- A marshaler that a declaration may use: the one for arrays of the fixed text, or a known one. -/
def Available (known : List Marshaler) (m : Marshaler) : Prop := m.ident = "array" ∨ m ∈ known

/-- The marshalers of the opaque pointer are known. -/
def Ready (options : Options) (known : List Marshaler) : Prop :=
  marshalersOf options "opaque_pointer" ⊆ known

theorem Ready.mem {options : Options} {known : List Marshaler} (ready : Ready options known)
    {direction : Direction} (offered : options.offers direction = true) :
    { direction, ident := "opaque_pointer" } ∈ known := ready (mem_marshalersOf.mpr ⟨offered, rfl⟩)

section
variable {known : List Marshaler} {direction : Direction}

theorem marshaler_available {name : Label} {pieces : List Piece}
    (found : marshaler known direction name = .ok pieces) :
    ∀ m ∈ Fragment.used pieces, Available known m := by
  obtain ⟨ident, -, found⟩ := bind_eq_ok.mp found
  dsimp only at found
  split at found
  next present =>
    obtain rfl := pure_eq_ok.mp found
    rintro m member
    obtain rfl : m = { direction, ident } := by
      simpa using member
    exact .inr (List.contains_iff_mem.mp present)
  next => cases found

theorem namedMarshaler_available {type : CType} {pieces : List Piece}
    (found : namedMarshaler known direction type = .ok pieces) :
    ∀ m ∈ Fragment.used pieces, Available known m := by
  unfold namedMarshaler at found
  split at found
  · cases found
  · exact marshaler_available found

theorem arrayFunction_available {inner pieces : List Piece} {stride : String} {length : Amount}
    (inside : ∀ m ∈ Fragment.used inner, Available known m)
    (made : direction.arrayFunction inner stride length = .ok pieces) :
    ∀ m ∈ Fragment.used pieces, Available known m := by
  cases direction with
  | reading =>
    obtain ⟨count, -, made⟩ := bind_eq_ok.mp made
    obtain rfl := pure_eq_ok.mp made
    simpa [Available] using inside
  | writing =>
    obtain rfl := pure_eq_ok.mp made
    simpa [Available] using inside

/-- The function for a type uses known marshalers, once those of the opaque pointer are known. -/
theorem access_available (handle : { direction, ident := "opaque_pointer" } ∈ known) {type : CType}
    {pieces : List Piece} (found : access known direction type = .ok pieces) :
    ∀ m ∈ Fragment.used pieces, Available known m := by
  fun_induction access known direction type generalizing pieces with
  | case1 header target ih => exact ih found
  | case2 => exact namedMarshaler_available found
  | case3 header item length ih =>
    obtain ⟨inner, computed, found⟩ := bind_eq_ok.mp found
    obtain ⟨stride, -, found⟩ := bind_eq_ok.mp found
    exact arrayFunction_available (ih computed) found
  | case4 header base isConst =>
    obtain rfl := Except.ok.inj found
    intro m member
    obtain rfl : m = { direction, ident := "opaque_pointer" } := by
      simpa using member
    exact .inr handle
  | case5 => exact namedMarshaler_available found
  | case6 => exact namedMarshaler_available found

end

/-- Whether a type is a union, which has no marshaler but helpers of the record around it. -/
def isUnion : CType → Bool
  | .union _ _ => true
  | _ => false

/-- The helper of a record for a member that is a union. -/
def helper (direction : Direction) (owner : String) (field : Field CType) : Marshaler :=
  { direction, ident := owner ++ "__" ++ field.name.plain }

/-- What a member of a record may use. -/
def MemberUse (known : List Marshaler) (direction : Direction) (owner : String)
    (field : Field CType) (m : Marshaler) : Prop :=
  Available known m ∨ isUnion (meaning field.type) = true ∧ m = helper direction owner field

section
variable {known : List Marshaler} {direction : Direction} {owner : String} {field : Field CType}
  {pieces : List Piece}

theorem memberUse_array {inner : List Piece} (inside : ∀ m ∈ Fragment.used inner, Available known m)
    {m : Marshaler} (member : m = { direction, ident := "array" } ∨ m ∈ Fragment.used inner) :
    MemberUse known direction owner field m := by
  rcases member with rfl | member
  · exact .inl (.inl rfl)
  · exact .inl (inside m member)

theorem fieldRead_uses (handle : { direction := .reading, ident := "opaque_pointer" } ∈ known)
    (found : fieldRead known owner field = .ok pieces) :
    ∀ m ∈ Fragment.used pieces, MemberUse known .reading owner field m := by
  obtain ⟨place, -, found⟩ := bind_eq_ok.mp found
  dsimp only at found
  intro m member
  split at found
  next header variants union =>
    obtain rfl := pure_eq_ok.mp found
    refine .inr ⟨by rw [union]; rfl, ?_⟩
    simpa [helper] using member
  next header item length array =>
    obtain ⟨inner, computed, found⟩ := bind_eq_ok.mp found
    obtain ⟨stride, -, found⟩ := bind_eq_ok.mp found
    obtain ⟨count, -, found⟩ := bind_eq_ok.mp found
    obtain rfl := pure_eq_ok.mp found
    exact memberUse_array (access_available handle computed) (by simpa using member)
  next type =>
    obtain ⟨function, computed, found⟩ := bind_eq_ok.mp found
    obtain rfl := pure_eq_ok.mp found
    refine .inl (access_available handle computed m ?_)
    simpa using member

theorem fieldWrite_uses (handle : { direction := .writing, ident := "opaque_pointer" } ∈ known)
    (found : fieldWrite known owner field = .ok pieces) :
    ∀ m ∈ Fragment.used pieces, MemberUse known .writing owner field m := by
  obtain ⟨place, -, found⟩ := bind_eq_ok.mp found
  dsimp only at found
  intro m member
  split at found
  next header variants union =>
    obtain rfl := pure_eq_ok.mp found
    refine .inr ⟨by rw [union]; rfl, ?_⟩
    simpa [helper] using member
  next header item length array =>
    obtain ⟨inner, computed, found⟩ := bind_eq_ok.mp found
    obtain ⟨stride, -, found⟩ := bind_eq_ok.mp found
    obtain rfl := pure_eq_ok.mp found
    exact memberUse_array (access_available handle computed) (by simpa using member)
  next type =>
    obtain ⟨function, computed, found⟩ := bind_eq_ok.mp found
    obtain rfl := pure_eq_ok.mp found
    refine .inl (access_available handle computed m ?_)
    simpa using member

end

section
variable {options : Options} {known : List Marshaler} {lines : List Fragment}

theorem direct_eq_ok {direction : Direction} {made : Except Fault (List Fragment)} :
    direct options direction made = .ok lines ↔
      options.offers direction = true ∧ made = .ok lines ∨
        options.offers direction = false ∧ lines = [] := by
  have empty : (Except.ok [] : Except Fault (List Fragment)) = .ok lines ↔ lines = [] := by
    rw [Except.ok.injEq]
    exact eq_comm
  cases direction with
  | reading => cases offered : options.readers <;> simp [direct, Options.offers, offered, empty]
  | writing => cases offered : options.writers <;> simp [direct, Options.offers, offered, empty]

theorem aliasMarshaler_supplied (ready : Ready options known) {direction : Direction}
    {ident : String} {target : CType}
    (made : aliasMarshaler options known direction ident target = .ok lines) :
    (∀ fragment ∈ lines, ∀ m ∈ fragment.used, Available known m) ∧
      (options.offers direction = true → { direction, ident } ∈ definedIn lines) := by
  rcases direct_eq_ok.mp made with ⟨offered, made⟩ | ⟨missing, rfl⟩
  · obtain ⟨function, found, made⟩ := bind_eq_ok.mp made
    obtain rfl := pure_eq_ok.mp made
    constructor
    · intro fragment member m used
      obtain rfl := List.mem_singleton.mp member
      refine access_available (ready.mem offered) found m ?_
      simpa [sameMarshaler] using used
    · intro _
      simp [definedIn, sameMarshaler]
  · simp [missing]

/-- The reader of a record uses what its members use, and is defined. -/
theorem fieldsReader_supplied {owner result : String} {fields : List (Field CType)}
    {given : Marshaler → Prop} (made : fieldsReader options known owner result fields = .ok lines)
    (ready : Ready options known)
    (wider : ∀ field ∈ fields, ∀ m, options.offers .reading = true →
      MemberUse known .reading owner field m → given m) :
    Supplied given lines ∧
      (options.offers .reading = true →
        { direction := .reading, ident := owner } ∈ definedIn lines) := by
  rcases direct_eq_ok.mp made with ⟨offered, made⟩ | ⟨missing, rfl⟩
  · obtain ⟨entries, walked, made⟩ := bind_eq_ok.mp made
    obtain rfl := pure_eq_ok.mp made
    constructor
    · apply supplied_of_used
      intro fragment member m used
      have related := mapM_eq_ok.mp walked
      simp only [List.cons_append, List.nil_append, List.mem_cons, List.mem_append,
        List.not_mem_nil, or_false] at member
      rcases member with rfl | rfl | inside | rfl
      · simp at used
      · simp at used
      · obtain ⟨field, present, entry⟩ := item_of_result related inside
        obtain ⟨value, read, entry⟩ := bind_eq_ok.mp entry
        obtain rfl := pure_eq_ok.mp entry
        refine wider field present m offered (fieldRead_uses (ready.mem offered) read m ?_)
        simpa using used
      · simp at used
    · intro _
      simp [definedIn]
  · simp [missing, Supplied]

/-- The writer of a record uses what its members use, and is defined. -/
theorem fieldsWriter_supplied {owner value : String} {fields : List (Field CType)}
    {given : Marshaler → Prop} (made : fieldsWriter options known owner value fields = .ok lines)
    (ready : Ready options known)
    (wider : ∀ field ∈ fields, ∀ m, options.offers .writing = true →
      MemberUse known .writing owner field m → given m) :
    Supplied given lines ∧
      (options.offers .writing = true →
        { direction := .writing, ident := owner } ∈ definedIn lines) := by
  rcases direct_eq_ok.mp made with ⟨offered, made⟩ | ⟨missing, rfl⟩
  · obtain ⟨entries, walked, made⟩ := bind_eq_ok.mp made
    obtain rfl := pure_eq_ok.mp made
    constructor
    · apply supplied_of_used
      intro fragment member m used
      have related := mapM_eq_ok.mp walked
      rcases List.mem_cons.mp member with rfl | body
      · simp at used
      split at body
      · obtain rfl := List.mem_singleton.mp body
        simp at used
      obtain ⟨group, among, inside⟩ := List.mem_flatten.mp body
      obtain ⟨field, present, entry⟩ := item_of_result related among
      obtain ⟨statement, written, entry⟩ := bind_eq_ok.mp entry
      obtain rfl := pure_eq_ok.mp entry
      simp only [List.mem_cons, List.not_mem_nil, or_false] at inside
      rcases inside with rfl | rfl
      · simp at used
      · refine wider field present m offered (fieldWrite_uses (ready.mem offered) written m ?_)
        simpa using used
    · intro _
      simp [definedIn]
  · simp [missing, Supplied]

end

/-- No variant of the union that a member may be is a union itself. -/
def isFlatMember (field : Field CType) : Bool :=
  match meaning field.type with
  | .union _ variants => variants.all fun variant => !isUnion (meaning variant.type)
  | _ => true

/-- No variant of a union in a record is a union itself. As for the marshalers, synonyms of the
language are what they stand for. -/
def isFlat : CType → Bool
  | .record _ fields => fields.all isFlatMember
  | _ => true

theorem isUnion_variant {field variant : Field CType} {header : Header}
    {variants : List (Field CType)} (flat : isFlatMember field = true)
    (union : meaning field.type = .union header variants) (member : variant ∈ variants) :
    isUnion (meaning variant.type) = false := by
  rw [isFlatMember, union] at flat
  simpa using List.all_eq_true.mp flat variant member

/-- The lines of a declaration are supplied by the known marshalers, and define what the declaration
makes known. -/
structure Rendered.Backed (options : Options) (known : List Marshaler) (rendered : Rendered) :
    Prop where
  supplied : Supplied (Available known) rendered.lines
  defines : ∀ ident, rendered.ident = some ident →
    marshalersOf options ident ⊆ definedIn rendered.lines

section
variable {options : Options} {known : List Marshaler} {name : Label} {rendered : Rendered}

theorem unionHelpers_supplied {owner : String} {field : Field CType} {lines : List Fragment}
    (made : unionHelpers options known owner field = .ok lines) (ready : Ready options known)
    (flat : isFlatMember field = true) :
    Supplied (Available known) lines ∧
      (isUnion (meaning field.type) = true →
        ∀ direction, options.offers direction = true →
          helper direction owner field ∈ definedIn lines) := by
  unfold unionHelpers at made
  split at made
  next header variants union =>
    obtain ⟨readers, read, made⟩ := bind_eq_ok.mp made
    obtain ⟨writers, written, made⟩ := bind_eq_ok.mp made
    obtain rfl := pure_eq_ok.mp made
    -- A variant is no union, so all that it uses is available.
    have plain (direction : Direction) : ∀ variant ∈ variants, ∀ m,
        options.offers direction = true →
          MemberUse known direction (owner ++ "__" ++ field.name.plain) variant m →
            Available known m := by
      intro variant member m _ use
      rcases use with available | ⟨nested, -⟩
      · exact available
      · simp [isUnion_variant flat union member] at nested
    have reads := fieldsReader_supplied read ready (plain .reading)
    have writes := fieldsWriter_supplied written ready (plain .writing)
    refine ⟨supplied_append.mpr ⟨reads.1, writes.1.mono fun m => .inl⟩, fun _ direction offered => ?_⟩
    rw [definedIn_append, List.mem_append]
    cases direction with
    | reading => exact .inl (reads.2 offered)
    | writing => exact .inr (writes.2 offered)
  next other =>
    obtain rfl := Except.ok.inj made
    refine ⟨trivial, fun union => ?_⟩
    cases same : meaning field.type with
    | union header variants => exact absurd same (other header variants)
    | _ => simp [same, isUnion] at union

theorem dictionary_unused {ident : String} {fields : List (Field CType)} {lines : List Fragment}
    (made : dictionary options name ident fields = .ok lines) :
    ∀ fragment ∈ lines, fragment.used = [] := by
  obtain ⟨entries, walked, made⟩ := bind_eq_ok.mp made
  obtain rfl := pure_eq_ok.mp made
  have related := mapM_eq_ok.mp walked
  intro fragment member
  simp only [List.mem_append, List.mem_cons, List.not_mem_nil, or_false] at member
  rcases member with ((rfl | rfl | rfl) | inside) | rfl | rfl | rfl
  case inl.inr =>
    obtain ⟨field, -, entry⟩ := item_of_result related inside
    obtain ⟨hint, -, entry⟩ := bind_eq_ok.mp entry
    obtain rfl := pure_eq_ok.mp entry
    simp
  all_goals simp

theorem allocator_used {ident size : String} {fragment : Fragment}
    (member : fragment ∈ allocator options ident size) {m : Marshaler} (used : m ∈ fragment.used) :
    m = { direction := .writing, ident } := by
  simp only [allocator, List.mem_cons, List.not_mem_nil, or_false] at member
  rcases member with rfl | rfl | rfl | rfl | rfl
  all_goals simp at used
  exact used

theorem record_backed {size : Amount} {fields : List (Field CType)}
    (made : record options known name size fields = .ok rendered) (ready : Ready options known)
    (flat : ∀ field ∈ fields, isFlatMember field = true) : rendered.Backed options known := by
  obtain ⟨ident, -, made⟩ := bind_eq_ok.mp made
  obtain ⟨naming, named, made⟩ := bind_eq_ok.mp made
  obtain ⟨helpers, helped, made⟩ := bind_eq_ok.mp made
  obtain ⟨readers, read, made⟩ := bind_eq_ok.mp made
  obtain ⟨writers, written, made⟩ := bind_eq_ok.mp made
  obtain ⟨shown, -, made⟩ := bind_eq_ok.mp made
  obtain rfl := pure_eq_ok.mp made
  have related := mapM_eq_ok.mp helped
  -- What a member uses is available, or it is the helper that stands before the reader and writer.
  have wider (direction : Direction) : ∀ field ∈ fields, ∀ m, options.offers direction = true →
      MemberUse known direction ident field m →
        Available known m ∨ m ∈ definedIn (naming ++ helpers.flatten) := by
    intro field member m offered use
    rcases use with available | ⟨union, rfl⟩
    · exact .inl available
    · obtain ⟨lines, among, made⟩ := result_of_item related member
      have defined := (unionHelpers_supplied made ready (flat field member)).2 union direction offered
      rw [definedIn_append, List.mem_append]
      obtain ⟨fragment, inside, defines⟩ := mem_definedIn.mp defined
      exact .inr (.inr (mem_definedIn.mpr
        ⟨fragment, List.mem_flatten.mpr ⟨lines, among, inside⟩, defines⟩))
  have reads := fieldsReader_supplied read ready (wider .reading)
  have writes := fieldsWriter_supplied written ready (wider .writing)
  have dictionary : Supplied (Available known) naming :=
    supplied_of_used fun fragment member m used => by
      simp [dictionary_unused named fragment member] at used
  have groups : Supplied (Available known) helpers.flatten := by
    refine supplied_flatten fun lines member => ?_
    obtain ⟨field, present, made⟩ := item_of_result related member
    exact (unionHelpers_supplied made ready (flat field present)).1
  have before : Supplied (Available known) (naming ++ helpers.flatten ++ readers ++ writers) := by
    rw [supplied_append, supplied_append, supplied_append]
    refine ⟨⟨⟨dictionary, groups.mono fun m => .inl⟩, reads.1⟩, writes.1.mono ?_⟩
    rintro m (available | defined)
    · exact .inl available
    · exact .inr (by rw [definedIn_append]; exact List.mem_append_left _ defined)
  have defines : ∀ own, some ident = some own → marshalersOf options own ⊆
      definedIn (naming ++ helpers.flatten ++ readers ++ writers) := by
    rintro _ ⟨⟩ ⟨direction, own⟩ member
    obtain ⟨offered, rfl⟩ := mem_marshalersOf.mp member
    rw [definedIn_append, definedIn_append]
    cases direction with
    | reading => exact List.mem_append_left _ (List.mem_append_right _ (reads.2 offered))
    | writing => exact List.mem_append_right _ (writes.2 offered)
  constructor
  · rw [supplied_append, supplied_append]
    refine ⟨⟨before, supplied_of_used fun fragment member m used => ?_⟩,
      supplied_of_used fun fragment member m used => ?_⟩
    · split at member
      · obtain rfl := List.mem_singleton.mp member
        simp at used
      · simp at member
    · split at member
      next allocates =>
        obtain rfl := allocator_used member used
        have offered : options.offers .writing = true := (Bool.and_eq_true _ _ ▸ allocates).2
        refine .inr ?_
        rw [definedIn_append]
        exact List.mem_append_left _ (defines ident rfl (mem_marshalersOf.mpr ⟨offered, rfl⟩))
      next => simp at member
  · intro own same m member
    rw [definedIn_append, definedIn_append, List.append_assoc]
    exact List.mem_append_left _ (defines own same member)

theorem reading_defines {ident result : String} {body : List Fragment}
    (offered : options.offers .reading = true) :
    { direction := .reading, ident } ∈
      definedIn (reading options (readerHead options ident result :: body)) := by
  have readers : options.readers = true := offered
  simp [reading, readers, definedIn]

theorem writing_defines {ident value : String} {body : List Fragment}
    (offered : options.offers .writing = true) :
    { direction := .writing, ident } ∈
      definedIn (writing options (writerHead options ident value :: body)) := by
  have writers : options.writers = true := offered
  simp [writing, writers, definedIn]

theorem mem_reading {lines : List Fragment} {fragment : Fragment} :
    fragment ∈ reading options lines ↔ options.offers .reading = true ∧ fragment ∈ lines := by
  unfold reading Options.offers
  split <;> simp_all

theorem mem_writing {lines : List Fragment} {fragment : Fragment} :
    fragment ∈ writing options lines ↔ options.offers .writing = true ∧ fragment ∈ lines := by
  unfold writing Options.offers
  split <;> simp_all

theorem reading_unused {lines : List Fragment} (unused : ∀ fragment ∈ lines, fragment.used = []) :
    ∀ fragment ∈ reading options lines, fragment.used = [] := by
  unfold reading
  split
  · exact unused
  · simp

theorem writing_unused {lines : List Fragment} (unused : ∀ fragment ∈ lines, fragment.used = []) :
    ∀ fragment ∈ writing options lines, fragment.used = [] := by
  unfold writing
  split
  · exact unused
  · simp

/-- What has a reader and a writer of its own, which use nothing. -/
theorem own_marshalers_backed {ident result value : String} {naming read written : List Fragment}
    (unused : ∀ fragment ∈ naming ++ read ++ written, fragment.used = []) :
    Rendered.Backed options known {
      lines := naming ++ reading options (readerHead options ident result :: read) ++
        writing options (writerHead options ident value :: written)
      ident := some ident } := by
  constructor
  · apply supplied_of_unused
    intro fragment member
    rcases List.mem_append.mp member with member | member
    · rcases List.mem_append.mp member with member | member
      · exact unused fragment (by simp [member])
      · refine reading_unused (fun other inside => ?_) fragment member
        rcases List.mem_cons.mp inside with rfl | inside
        · simp
        · exact unused other (by simp [inside])
    · refine writing_unused (fun other inside => ?_) fragment member
      rcases List.mem_cons.mp inside with rfl | inside
      · simp
      · exact unused other (by simp [inside])
  · rintro _ ⟨⟩ ⟨direction, own⟩ member
    obtain ⟨offered, rfl⟩ := mem_marshalersOf.mp member
    rw [definedIn_append, definedIn_append, List.mem_append, List.mem_append]
    cases direction with
    | reading => exact .inl (.inr (reading_defines offered))
    | writing => exact .inr (writing_defines offered)

theorem builtin_backed {carrier : Carrier} (made : builtin options name carrier = .ok rendered) :
    rendered.Backed options known := by
  obtain ⟨ident, -, made⟩ := bind_eq_ok.mp made
  dsimp only at made
  have naming : ∀ fragment ∈ (if name != .str carrier.host then
      [put options 0 [.text (ident ++ " = " ++ carrier.host)]] else []), fragment.used = [] := by
    split <;> simp
  split at made
  next =>
    obtain rfl := pure_eq_ok.mp made
    exact ⟨supplied_of_unused naming, by simp⟩
  next format =>
    obtain rfl := pure_eq_ok.mp made
    refine own_marshalers_backed fun fragment member => ?_
    simp only [List.mem_append, List.mem_cons, List.not_mem_nil, or_false] at member
    rcases member with (member | rfl) | rfl
    · exact naming fragment member
    · simp
    · simp

theorem constantLine_unused {constant : Label × Constant} {fragment : Fragment}
    (made : constantLine options name constant = .ok fragment) : fragment.used = [] := by
  obtain ⟨member, -, made⟩ := bind_eq_ok.mp made
  obtain ⟨value, -, made⟩ := bind_eq_ok.mp made
  obtain rfl := pure_eq_ok.mp made
  simp

theorem enumeration_backed {fields : List (Label × Constant)}
    (made : enumeration options name fields = .ok rendered) : rendered.Backed options known := by
  obtain ⟨ident, -, made⟩ := bind_eq_ok.mp made
  obtain ⟨values, walked, made⟩ := bind_eq_ok.mp made
  obtain rfl := pure_eq_ok.mp made
  have constants : ∀ fragment ∈ (if fields.isEmpty then [put options 1 ["pass"]] else values),
      fragment.used = [] := by
    split
    · simp
    · intro fragment member
      obtain ⟨constant, -, made⟩ := item_of_result (mapM_eq_ok.mp walked) member
      exact constantLine_unused made
  refine own_marshalers_backed fun fragment member => ?_
  simp only [List.mem_append, List.mem_cons, List.not_mem_nil, or_false] at member
  rcases member with (((rfl | member) | rfl) | rfl) | rfl
  · simp
  · exact constants fragment member
  all_goals simp

theorem synonym_backed {target : CType} (made : synonym options known name target = .ok rendered)
    (ready : Ready options known) : rendered.Backed options known := by
  obtain ⟨ident, -, made⟩ := bind_eq_ok.mp made
  obtain ⟨hinted, -, made⟩ := bind_eq_ok.mp made
  dsimp only at made
  split at made
  next =>
    obtain rfl := pure_eq_ok.mp made
    refine ⟨supplied_of_unused ?_, by simp⟩
    simp [aliasLine]
  next =>
    obtain ⟨readers, read, made⟩ := bind_eq_ok.mp made
    obtain ⟨writers, written, made⟩ := bind_eq_ok.mp made
    obtain rfl := pure_eq_ok.mp made
    have reads := aliasMarshaler_supplied ready read
    have writes := aliasMarshaler_supplied ready written
    constructor
    · apply supplied_of_used
      intro fragment member m used
      rcases List.mem_append.mp member with member | member
      · rcases List.mem_cons.mp member with rfl | member
        · simp [aliasLine] at used
        · exact reads.1 fragment member m used
      · exact writes.1 fragment member m used
    · rintro _ ⟨⟩ ⟨direction, own⟩ member
      obtain ⟨offered, rfl⟩ := mem_marshalersOf.mp member
      rw [definedIn_append, List.mem_append]
      cases direction with
      | reading => exact .inl (List.mem_append_right _ (reads.2 offered))
      | writing => exact .inr (writes.2 offered)

theorem pointer_backed {base : Option CType} {isConst : Bool}
    (made : pointer options name base isConst = .ok rendered) (ready : Ready options known) :
    rendered.Backed options known := by
  obtain ⟨ident, -, made⟩ := bind_eq_ok.mp made
  obtain ⟨hinted, -, made⟩ := bind_eq_ok.mp made
  obtain rfl := pure_eq_ok.mp made
  constructor
  · apply supplied_of_used
    intro fragment member m used
    rcases List.mem_append.mp member with member | member
    · rcases List.mem_cons.mp member with rfl | member
      · simp [aliasLine] at used
      · obtain ⟨offered, member⟩ := mem_reading.mp member
        obtain rfl := List.mem_singleton.mp member
        obtain rfl : m = { direction := .reading, ident := "opaque_pointer" } := by
          simpa [sameMarshaler] using used
        exact .inr (ready.mem offered)
    · obtain ⟨offered, member⟩ := mem_writing.mp member
      obtain rfl := List.mem_singleton.mp member
      obtain rfl : m = { direction := .writing, ident := "opaque_pointer" } := by
        simpa [sameMarshaler] using used
      exact .inr (ready.mem offered)
  · rintro _ ⟨⟩ ⟨direction, own⟩ member
    obtain ⟨offered, rfl⟩ := mem_marshalersOf.mp member
    rw [mem_definedIn]
    cases direction with
    | reading =>
      refine ⟨_, List.mem_append_left _ (List.mem_cons_of_mem _ (mem_reading.mpr
        ⟨offered, List.mem_singleton.mpr rfl⟩)), ?_⟩
      simp [sameMarshaler]
    | writing =>
      refine ⟨_, List.mem_append_right _ (mem_writing.mpr
        ⟨offered, List.mem_singleton.mpr rfl⟩), ?_⟩
      simp [sameMarshaler]

theorem function_backed {result : CType} {parameters : List (Parameter CType)}
    (made : function options name result parameters = .ok rendered) :
    rendered.Backed options known := by
  unfold function at made
  split at made
  · obtain ⟨ident, -, made⟩ := bind_eq_ok.mp made
    obtain ⟨hinted, -, made⟩ := bind_eq_ok.mp made
    obtain rfl := pure_eq_ok.mp made
    exact ⟨supplied_of_unused (by simp [aliasLine]), by simp⟩
  · obtain rfl := pure_eq_ok.mp made
    exact ⟨trivial, by simp⟩

/-- Every declaration that succeeds uses only what is known before it. -/
theorem declaration_backed {type : CType}
    (made : declaration options known name type = .ok rendered) (ready : Ready options known)
    (flat : isFlat type = true) : rendered.Backed options known := by
  cases type with
  | builtin header carrier => exact builtin_backed made
  | enum header fields => exact enumeration_backed made
  | synonym header target transparent => exact synonym_backed made ready
  | pointer header base isConst => exact pointer_backed made ready
  | signature header result parameters => exact function_backed made
  | record header fields => exact record_backed made ready (List.all_eq_true.mp flat)
  | array => cases made
  | union => cases made
  | callback => cases made
  | bare => cases made

theorem callbackHalf_supplied {direction : Direction} {result : CType}
    {parameters : List (Parameter CType)} {lines : List Fragment}
    (made : callbackHalf options direction name result parameters = .ok lines)
    (handle : { direction, ident := "opaque_pointer" } ∈ known) :
    ∃ ident, identText name = .ok ident ∧ Supplied (Available known) lines ∧
      { direction, ident } ∈ definedIn lines := by
  obtain ⟨ident, named, made⟩ := bind_eq_ok.mp made
  obtain ⟨type, -, made⟩ := bind_eq_ok.mp made
  refine ⟨ident, named, ?_⟩
  cases direction with
  | reading =>
    obtain rfl := pure_eq_ok.mp made
    exact ⟨by simpa [Supplied] using .inl (.inr handle), by simp [definedIn]⟩
  | writing =>
    obtain rfl := pure_eq_ok.mp made
    exact ⟨by simpa [Supplied] using .inl (.inr handle), by simp [definedIn]⟩

end

end NativeBindings.Emit
