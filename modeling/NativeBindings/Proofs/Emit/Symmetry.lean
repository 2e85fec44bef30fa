import NativeBindings.Proofs.Emit.FailFast
import NativeBindings.Proofs.Emit.Needs
import NativeBindings.Proofs.Emit.Support

/-!
Readers against writers. They need the same marshalers of the same types, so that one direction is
never known without the other, and the same declarations fail whichever of them a module has. Only two
numbers are shown in one direction alone: a reader shows the lengths of arrays, and the size of a record
goes into its allocator, which there is for a writer.
-/
namespace NativeBindings.Emit

open Act Outcome

/-- The same options with readers, with writers, with both or with none. -/
def Options.turned (options : Options) (readers writers : Bool) : Options :=
  { options with readers, writers }

/-- A part of the declarations that fails as one: a declaration, or the halves of a pointer to a
function. -/
inductive Part where
  | whole (name : Label)
  | halves (name : Label)
  deriving Repr

/-- The symbols under which the failure of a part is recorded. -/
def Part.symbols (options : Options) : Part → List Label
  | whole name => [name]
  | halves name =>
    (if options.readers then [halfSymbol .reading name] else []) ++
      (if options.writers then [halfSymbol .writing name] else [])

/-- Whether the lengths that a reader of a type shows have texts. -/
def isCounted : CType → Bool
  | .synonym _ target true => isCounted target
  | .array _ item length => isCounted item && isPrintable length
  | _ => true

/-- Whether the lengths that the readers of a member and of its variants show have texts. -/
def isCountedField (field : Field CType) : Bool :=
  isCounted field.type &&
    match meaning field.type with
    | .union _ variants => variants.all fun variant => isCounted variant.type
    | _ => true

/-- Whether what is shown of a declaration in one direction only has a text. -/
def isMeasured (options : Options) : CType → Bool
  | .synonym _ target _ => isCounted target
  | .record header fields =>
    fields.all isCountedField && (options.recordSizes || !options.allocators || isPrintable header.size)
  | _ => true

/-- The marshalers of these identifiers are known, and no others, in each direction that is offered. -/
def Balanced (options : Options) (idents : List String) (known : List Marshaler) : Prop :=
  ∀ direction, options.offers direction = true →
    ∀ ident, { direction, ident } ∈ known ↔ ident ∈ idents

/-- A type has marshalers where these identifiers have. -/
def Reached (idents : List String) (type : CType) : Prop :=
  Succeeds (access (idents.map fun ident => { direction := .reading, ident }) .reading type)

def FieldReached (idents : List String) (field : Field CType) : Prop :=
  isPrintable field.offset = true ∧ (isUnion (meaning field.type) = false → Reached idents field.type)

/-- The helpers of a member can be made. -/
def HelperReached (idents : List String) (field : Field CType) : Prop :=
  match meaning field.type with
  | .union _ variants => ∀ variant ∈ variants, FieldReached idents variant
  | _ => True

/-- A declaration can be emitted where these identifiers have marshalers. -/
def CanEmit (options : Options) (idents : List String) (name : Label) (ident : String) : CType → Prop
  | .synonym _ target _ => Succeeds (hint target) ∧ (isVoid target = false → Reached idents target)
  | .record header fields =>
    Succeeds (dictionary options name ident fields) ∧ (∀ field ∈ fields, HelperReached idents field) ∧
      (∀ field ∈ fields, FieldReached idents field) ∧
        (options.recordSizes = true → isPrintable header.size = true)
  | type => Succeeds (declaration options [] name type)

section
variable {known : List Marshaler} {idents : List String} {direction : Direction}

theorem succeeds_marshaler_iff {name : Label} :
    Succeeds (marshaler known direction name) ↔
      ∃ ident, identText name = .ok ident ∧ { direction, ident } ∈ known := by
  cases named : identText name with
  | error fault =>
    rw [marshaler, named]
    exact iff_of_false (not_succeeds_error fault) nofun
  | ok ident =>
    rw [marshaler, named]
    change Succeeds (if known.contains { direction, ident } then _ else _) ↔ _
    split
    next member =>
      exact iff_of_true ⟨_, rfl⟩ ⟨ident, rfl, List.contains_iff_mem.mp member⟩
    next absent =>
      refine iff_of_false (not_succeeds_error _) ?_
      rintro ⟨_, ⟨⟩, member⟩
      exact absent (List.contains_iff_mem.mpr member)

/-- Where the same identifiers are known, a type has a marshaler of one direction just if it has one of
the other. -/
theorem succeeds_access (same : ∀ ident, { direction, ident } ∈ known ↔ ident ∈ idents) {type : CType}
    (counted : isCounted type = true) : Succeeds (access known direction type) ↔ Reached idents type := by
  have named (type : CType) : Succeeds (namedMarshaler known direction type) ↔
      Succeeds (namedMarshaler (idents.map fun ident => { direction := .reading, ident }) .reading type) := by
    unfold namedMarshaler
    split
    · exact iff_of_false (not_succeeds_error _) (not_succeeds_error _)
    · rw [succeeds_marshaler_iff, succeeds_marshaler_iff]
      simp [same]
  unfold Reached
  fun_induction isCounted type with
  | case1 header target ih => exact ih counted
  | case2 header item length ih =>
    obtain ⟨inner, count⟩ := Bool.and_eq_true_iff.mp counted
    rw [succeeds_access_array, succeeds_access_array]
    simp only [ih inner, count, implies_true]
  | case3 type other array =>
    cases type with
    | synonym header target transparent =>
      cases transparent with
      | true => exact absurd rfl (other header target)
      | false => exact named _
    | array header item length => exact absurd rfl (array header item length)
    | pointer header base isConst =>
      rw [access, access]
      split
      · exact iff_of_true ⟨_, rfl⟩ ⟨_, rfl⟩
      · exact named _
    | _ => exact named _

/-- A member is emitted where its type has a marshaler, and that of a union just where its offset has a
text. -/
theorem succeeds_field_iff {made : Except Fault (List Piece)} {field : Field CType}
    (same : ∀ ident, { direction, ident } ∈ known ↔ ident ∈ idents) (counted : isCounted field.type = true)
    (single : isUnion (meaning field.type) = false →
      (Succeeds made ↔ isPrintable field.offset = true ∧ Succeeds (access known direction field.type)))
    (union : ∀ {header variants}, meaning field.type = .union header variants →
      (Succeeds made ↔ isPrintable field.offset = true)) :
    Succeeds made ↔ FieldReached idents field := by
  cases plain : isUnion (meaning field.type) with
  | false =>
    rw [single plain, succeeds_access same counted, FieldReached, plain]
    simp
  | true =>
    obtain ⟨header, variants, own⟩ : ∃ header variants, meaning field.type = .union header variants := by
      unfold isUnion at plain
      split at plain
      · exact ⟨_, _, ‹_›⟩
      · cases plain
    rw [union own, FieldReached, plain]
    simp

end

section
variable {options : Options} {known : List Marshaler} {idents : List String}

/-- What every direction that is offered has to do. -/
theorem offered_iff {readers writers : Bool} (some : (readers || writers) = true) {P : Prop} :
    (readers = true → P) ∧ (writers = true → P) ↔ P := by
  cases readers <;> cases writers <;> simp_all

theorem succeeds_fieldsReader_iff {owner result : String} {fields : List (Field CType)}
    (balanced : Balanced options idents known) (counted : ∀ field ∈ fields, isCounted field.type = true) :
    Succeeds (fieldsReader options known owner result fields) ↔
      (options.readers = true → ∀ field ∈ fields, FieldReached idents field) := by
  cases readers : options.readers with
  | false =>
    rw [fieldsReader, direct, readers]
    exact iff_of_true ⟨_, rfl⟩ fun offered => absurd offered Bool.false_ne_true
  | true =>
    rw [succeeds_fieldsReader readers]
    simp only [forall_const]
    exact forall₂_congr fun field member =>
      succeeds_field_iff (balanced .reading readers) (counted field member) succeeds_fieldRead
        succeeds_fieldRead_union

theorem succeeds_fieldsWriter_iff {owner value : String} {fields : List (Field CType)}
    (balanced : Balanced options idents known) (counted : ∀ field ∈ fields, isCounted field.type = true) :
    Succeeds (fieldsWriter options known owner value fields) ↔
      (options.writers = true → ∀ field ∈ fields, FieldReached idents field) := by
  cases writers : options.writers with
  | false =>
    rw [fieldsWriter, direct, writers]
    exact iff_of_true ⟨_, rfl⟩ fun offered => absurd offered Bool.false_ne_true
  | true =>
    rw [succeeds_fieldsWriter writers]
    simp only [forall_const]
    exact forall₂_congr fun field member =>
      succeeds_field_iff (balanced .writing writers) (counted field member) succeeds_fieldWrite
        succeeds_fieldWrite_union

/-- The reader and the writer of some members, as far as a module has them. -/
theorem succeeds_both {owner result value : String} {fields : List (Field CType)}
    (some : (options.readers || options.writers) = true) (balanced : Balanced options idents known)
    (counted : ∀ field ∈ fields, isCounted field.type = true) :
    Succeeds (fieldsReader options known owner result fields) ∧
      Succeeds (fieldsWriter options known owner value fields) ↔
        ∀ field ∈ fields, FieldReached idents field := by
  rw [succeeds_fieldsReader_iff balanced counted, succeeds_fieldsWriter_iff balanced counted, offered_iff some]

theorem succeeds_unionHelpers_iff {owner : String} {field : Field CType}
    (some : (options.readers || options.writers) = true) (balanced : Balanced options idents known)
    (counted : isCountedField field = true) :
    Succeeds (unionHelpers options known owner field) ↔ HelperReached idents field := by
  obtain ⟨-, counts⟩ := Bool.and_eq_true_iff.mp counted
  unfold unionHelpers HelperReached
  generalize meaning field.type = type at counts ⊢
  cases type with
  | union header variants =>
    have both := @succeeds_both _ known idents (owner ++ "__" ++ field.name.plain) "dict[str, Any]"
      "dict[str, Any]" variants some balanced (List.all_eq_true.mp counts)
    exact Iff.trans (succeeds_bind fun _ _ => succeeds_bind_pure) both
  | _ => exact iff_of_true ⟨_, rfl⟩ trivial

/-- Options under which a record's size is shown in no more runs than it has to be. -/
theorem succeeds_shownSize {size : Amount}
    (measured : (options.recordSizes || !options.allocators || isPrintable size) = true) :
    Succeeds (shownSize options size) ↔ (options.recordSizes = true → isPrintable size = true) := by
  unfold shownSize
  cases sizes : options.recordSizes with
  | true => simp [succeeds_written]
  | false =>
    rw [sizes, Bool.false_or, Bool.or_eq_true] at measured
    cases allocates : options.allocators with
    | false => exact iff_of_true ⟨_, rfl⟩ nofun
    | true =>
      have printable : isPrintable size = true := measured.resolve_left (by simp [allocates])
      refine iff_of_true ?_ nofun
      split
      · exact succeeds_written.mpr printable
      · exact ⟨_, rfl⟩

end

theorem ok_bind {α β : Type} (value : α) (next : α → Except Fault β) :
    (Except.ok value >>= next) = next value := rfl

section
variable {options : Options} {readers writers : Bool} {known : List Marshaler} {idents : List String}
  {name : Label} {ident : String} (some : (readers || writers) = true)
  (balanced : Balanced (options.turned readers writers) idents known)
include some balanced

theorem succeeds_aliasMarshalers {target : CType} (counted : isCounted target = true) :
    Succeeds (aliasMarshaler (options.turned readers writers) known .reading ident target) ∧
      Succeeds (aliasMarshaler (options.turned readers writers) known .writing ident target) ↔
        Reached idents target := by
  have each (direction : Direction) :
      Succeeds (aliasMarshaler (options.turned readers writers) known direction ident target) ↔
        ((options.turned readers writers).offers direction = true → Reached idents target) := by
    cases offered : (options.turned readers writers).offers direction with
    | false =>
      have nothing :
          aliasMarshaler (options.turned readers writers) known direction ident target = .ok [] := by
        cases direction <;> exact if_neg (by simpa [Options.offers] using offered)
      exact iff_of_true ⟨_, nothing⟩ fun offers => absurd offers Bool.false_ne_true
    | true =>
      have made : aliasMarshaler (options.turned readers writers) known direction ident target = (do
          let function ← access known direction target
          return [sameMarshaler (options.turned readers writers) direction ident function]) := by
        cases direction <;> exact if_pos offered
      rw [made, succeeds_bind_pure, succeeds_access (balanced direction offered) counted]
      simp
  rw [each, each]
  exact offered_iff some

variable (named : identText name = .ok ident)
include named

theorem synonym_turned {target : CType} (counted : isCounted target = true) :
    Succeeds (synonym (options.turned readers writers) known name target) ↔
      Succeeds (hint target) ∧ (isVoid target = false → Reached idents target) := by
  have both := @succeeds_aliasMarshalers _ _ _ _ _ ident some balanced _ counted
  rw [synonym, named, ok_bind, ← both]
  refine succeeds_bind fun hint _ => ?_
  dsimp only
  split
  next void => exact iff_of_true ⟨_, rfl⟩ fun sound => absurd (void.symm.trans sound) (by decide)
  next sound =>
    rw [succeeds_bind fun _ _ => succeeds_bind_pure]
    exact ⟨fun both _ => both, fun both => both (Bool.eq_false_iff.mpr sound)⟩

theorem record_turned {size : Amount} {fields : List (Field CType)}
    (counted : fields.all isCountedField = true)
    (measured : (options.recordSizes || !options.allocators || isPrintable size) = true) :
    Succeeds (record (options.turned readers writers) known name size fields) ↔
      Succeeds (dictionary options name ident fields) ∧ (∀ field ∈ fields, HelperReached idents field) ∧
        (∀ field ∈ fields, FieldReached idents field) ∧
          (options.recordSizes = true → isPrintable size = true) := by
  have each := List.all_eq_true.mp counted
  have helpers : Succeeds (fields.mapM (unionHelpers (options.turned readers writers) known ident)) ↔
      ∀ field ∈ fields, HelperReached idents field := by
    rw [succeeds_mapM]
    exact forall₂_congr fun field member => succeeds_unionHelpers_iff some balanced (each field member)
  have members := @succeeds_both _ known idents ident ident ident fields some balanced
    fun field member => (Bool.and_eq_true_iff.mp (each field member)).1
  have shown : Succeeds (shownSize (options.turned readers writers) size) ↔
      (options.recordSizes = true → isPrintable size = true) := succeeds_shownSize measured
  rw [record, named, ok_bind, ← helpers, ← members, ← shown, and_assoc]
  refine succeeds_bind fun _ _ => succeeds_bind fun _ _ => succeeds_bind fun _ _ => ?_
  exact succeeds_bind fun _ _ => succeeds_bind_pure

/-- Which declarations can be emitted does not depend on the directions that a module has. -/
theorem declaration_turned {type : CType} (measured : isMeasured options type = true) :
    Succeeds (declaration (options.turned readers writers) known name type) ↔
      CanEmit options idents name ident type := by
  cases type with
  | builtin header carrier =>
    have made (options : Options) : Succeeds (builtin options name carrier) := by
      rw [builtin, named, ok_bind]
      dsimp only
      split <;> exact ⟨_, rfl⟩
    exact iff_of_true (made _) (made options)
  | enum header fields =>
    have made (options : Options) : Succeeds (enumeration options name fields) ↔
        Succeeds (fields.mapM (constantLine options name)) := by
      rw [enumeration, named, ok_bind, succeeds_bind_pure]
    exact (made _).trans (made options).symm
  | synonym header target transparent => exact synonym_turned some balanced named measured
  | pointer header base isConst =>
    have made (options : Options) : Succeeds (pointer options name base isConst) ↔
        Succeeds (pointerHintTo base isConst) := by
      rw [pointer, named, ok_bind, succeeds_bind_pure]
    exact (made _).trans (made options).symm
  | record header fields =>
    obtain ⟨counted, measured⟩ := Bool.and_eq_true_iff.mp measured
    exact record_turned some balanced named counted measured
  | _ => exact Iff.rfl

end

/-- Whether a declaration makes marshalers known. -/
def isMarshaled : CType → Bool
  | .builtin _ carrier => carrier.format?.isSome
  | .synonym _ target _ => !isVoid target
  | .signature _ _ _ => false
  | _ => true

theorem ident_of_declaration {options : Options} {known : List Marshaler} {name : Label} {type : CType}
    {rendered : Rendered} {ident : String} (named : identText name = .ok ident)
    (made : declaration options known name type = .ok rendered) :
    rendered.ident = if isMarshaled type then some ident else none := by
  cases type with
  | builtin header carrier =>
    change builtin options name carrier = _ at made
    rw [builtin, named, ok_bind] at made
    dsimp only at made
    rw [isMarshaled]
    split at made
    next none => exact Except.ok.inj made ▸ by rw [none]; rfl
    next format found => exact Except.ok.inj made ▸ by rw [found]; rfl
  | enum header fields =>
    change enumeration options name fields = _ at made
    rw [enumeration, named, ok_bind] at made
    obtain ⟨values, -, made⟩ := bind_eq_ok.mp made
    exact Except.ok.inj made ▸ rfl
  | synonym header target transparent =>
    change synonym options known name target = _ at made
    rw [synonym, named, ok_bind] at made
    obtain ⟨hint, -, made⟩ := bind_eq_ok.mp made
    dsimp only at made
    rw [isMarshaled]
    split at made
    next void => exact Except.ok.inj made ▸ by rw [void]; rfl
    next sound =>
      obtain ⟨readers, -, made⟩ := bind_eq_ok.mp made
      obtain ⟨writers, -, made⟩ := bind_eq_ok.mp made
      exact Except.ok.inj made ▸ by rw [Bool.eq_false_iff.mpr sound]; rfl
  | pointer header base isConst =>
    change pointer options name base isConst = _ at made
    rw [pointer, named, ok_bind] at made
    obtain ⟨hint, -, made⟩ := bind_eq_ok.mp made
    exact Except.ok.inj made ▸ rfl
  | signature header result parameters =>
    change function options name result parameters = _ at made
    rw [function] at made
    split at made
    · obtain ⟨ident, -, made⟩ := bind_eq_ok.mp made
      obtain ⟨hint, -, made⟩ := bind_eq_ok.mp made
      exact Except.ok.inj made ▸ rfl
    · exact Except.ok.inj made ▸ rfl
  | record header fields =>
    change record options known name header.size fields = _ at made
    rw [record, named, ok_bind] at made
    obtain ⟨dictionary, -, made⟩ := bind_eq_ok.mp made
    obtain ⟨helpers, -, made⟩ := bind_eq_ok.mp made
    obtain ⟨readers, -, made⟩ := bind_eq_ok.mp made
    obtain ⟨writers, -, made⟩ := bind_eq_ok.mp made
    obtain ⟨size, -, made⟩ := bind_eq_ok.mp made
    exact Except.ok.inj made ▸ rfl
  | _ => cases made

/-- An account that tells of the same failures and of the same identifiers, whether it is of readers, of
writers or of both. -/
def Alike (options : Options) (idents more : List String) (parts : List Part)
    (account : Options → List Marshaler → Account) : Prop :=
  ∀ readers writers known, (readers || writers) = true →
    Balanced (options.turned readers writers) idents known →
      (account (options.turned readers writers) known).mishaps.map Mishap.symbol =
        parts.flatMap (Part.symbols (options.turned readers writers)) ∧
      Balanced (options.turned readers writers) more
        (known ++ (account (options.turned readers writers) known).known)

section
variable {options : Options} {idents : List String} {known : List Marshaler} {name : Label} {ident : String}

theorem Balanced.extend (balanced : Balanced options idents known) {more : List Marshaler}
    (own : ∀ direction, options.offers direction = true →
      ∀ other, { direction, ident := other } ∈ more ↔ other = ident) :
    Balanced options (idents ++ [ident]) (known ++ more) := by
  intro direction offered other
  rw [List.mem_append, List.mem_append, balanced direction offered, own direction offered, List.mem_singleton]

theorem declaration_alike (named : identText name = .ok ident) {type : CType}
    (measured : isMeasured options type = true) :
    ∃ more parts, Alike options idents more parts fun options known =>
      .tried name (declaration options known name type) (renderedAccount options) := by
  by_cases can : CanEmit options idents name ident type
  · refine ⟨idents ++ if isMarshaled type then [ident] else [], [],
      fun readers writers known some balanced => ?_⟩
    obtain ⟨rendered, made⟩ := (declaration_turned some balanced named measured).mpr can
    have given := ident_of_declaration named made
    dsimp only
    rw [made]
    refine ⟨rfl, ?_⟩
    change Balanced _ _
      (known ++ ((rendered.ident.map (marshalersOf (options.turned readers writers))).getD []))
    rw [given]
    split
    · refine balanced.extend fun direction offered other => ?_
      change _ ∈ marshalersOf _ ident ↔ _
      rw [mem_marshalersOf]
      simp [offered]
    · simpa using balanced
  · refine ⟨idents, [.whole name], fun readers writers known some balanced => ?_⟩
    dsimp only
    cases made : declaration (options.turned readers writers) known name type with
    | ok rendered => exact absurd ((declaration_turned some balanced named measured).mp ⟨rendered, made⟩) can
    | error fault => exact ⟨rfl, by simpa [Account.tried] using balanced⟩

theorem callback_alike (named : identText name = .ok ident) (result : CType)
    (parameters : List (Parameter CType)) :
    ∃ more parts, Alike options idents more parts fun options _ =>
      callbackAccount options name ident result parameters := by
  unfold callbackAccount
  cases hinted : signatureHint result parameters with
  | error fault =>
    exact ⟨idents, [.whole name], fun _ _ _ _ balanced => ⟨rfl, by simpa [Account.tried] using balanced⟩⟩
  | ok hint =>
    cases typed : prototype result parameters with
    | error fault =>
      have half (options : Options) (direction : Direction) :
          halfAccount options direction name ident result parameters =
            { mishaps := [{ symbol := halfSymbol direction name, fault }] } := by
        rw [halfAccount, callbackHalf, named, ok_bind, typed]
        rfl
      refine ⟨idents, [.halves name], fun readers writers known _ balanced => ?_⟩
      simp only [Account.tried, half]
      cases readers <;> cases writers <;>
        exact ⟨rfl, by simpa [Account.followedBy, Options.turned] using balanced⟩
    | ok type =>
      have half (options : Options) (direction : Direction) : ∃ lines,
          halfAccount options direction name ident result parameters =
            { lines, known := [{ direction, ident }] } := by
        rw [halfAccount, callbackHalf, named, ok_bind, typed, ok_bind]
        cases direction <;> exact ⟨_, rfl⟩
      refine ⟨idents ++ [ident], [], fun readers writers known _ balanced => ?_⟩
      obtain ⟨reading, first⟩ := half (options.turned readers writers) .reading
      obtain ⟨writing, second⟩ := half (options.turned readers writers) .writing
      simp only [Account.tried, first, second]
      refine ⟨by cases readers <;> cases writers <;> rfl, balanced.extend fun direction offered other => ?_⟩
      cases readers <;> cases writers <;> cases direction <;>
        simp_all [Account.followedBy, Options.turned, Options.offers]

theorem entry_alike (keyed : name.asKey = .ok name) {type : CType}
    (measured : isMeasured options type = true) :
    ∃ more parts, Alike options idents more parts fun options known =>
      entryAccount options known name type := by
  obtain ⟨ident, named⟩ := identText_of_key keyed
  have nothing : Alike options idents idents [] fun _ _ => {} :=
    fun _ _ _ _ balanced => ⟨rfl, by simpa using balanced⟩
  cases type with
  | synonym header target transparent =>
    cases transparent with
    | true => exact ⟨idents, [], nothing⟩
    | false => exact declaration_alike named measured
  | callback header own result parameters =>
    simp only [entryAccount, named]
    exact callback_alike named result parameters
  | _ => exact declaration_alike named measured

end

theorem entries_alike {options : Options} {idents : List String} {entries : Table Label CType}
    (keyed : ∀ entry ∈ entries, entry.1.asKey = .ok entry.1)
    (measured : ∀ entry ∈ entries, isMeasured options entry.2 = true) :
    ∃ more parts, Alike options idents more parts fun options known =>
      entriesAccount options known entries := by
  induction entries generalizing idents with
  | nil => exact ⟨idents, [], fun _ _ _ _ balanced => ⟨rfl, by simpa [entriesAccount] using balanced⟩⟩
  | cons entry rest ih =>
    obtain ⟨name, type⟩ := entry
    obtain ⟨middle, parts, first⟩ :=
      @entry_alike options idents name (keyed (name, type) List.mem_cons_self) type
        (measured _ List.mem_cons_self)
    obtain ⟨more, others, second⟩ := @ih middle
      (fun entry member => keyed entry (List.mem_cons_of_mem _ member))
      (fun entry member => measured entry (List.mem_cons_of_mem _ member))
    refine ⟨more, parts ++ others, fun readers writers known some balanced => ?_⟩
    obtain ⟨failed, grown⟩ := first readers writers known some balanced
    obtain ⟨failed', grown'⟩ := second readers writers _ some grown
    dsimp only at failed failed' grown' ⊢
    rw [entriesAccount, Account.followedBy, List.map_append, List.flatMap_append, failed, failed']
    exact ⟨rfl, by rwa [List.append_assoc] at grown'⟩

/-! ### Both directions -/

/-- Every identifier has both marshalers or none. -/
def Paired (known : List Marshaler) : Prop :=
  ∀ ident, { direction := .reading, ident } ∈ known ↔ { direction := .writing, ident } ∈ known

section
variable {options : Options} {known : List Marshaler}

theorem Paired.append {more : List Marshaler} (first : Paired known) (second : Paired more) :
    Paired (known ++ more) := by
  intro ident
  rw [List.mem_append, List.mem_append, first ident, second ident]

theorem paired_nil : Paired [] := fun _ => iff_of_false List.not_mem_nil List.not_mem_nil

variable (readers : options.readers = true) (writers : options.writers = true)
include readers writers

theorem paired_marshalersOf (ident : String) : Paired (marshalersOf options ident) := by
  intro other
  rw [mem_marshalersOf, mem_marshalersOf]
  simp [Options.offers, readers, writers]

theorem paired_tried (name : Label) (rendered : Except Fault Rendered) :
    Paired (Account.tried name rendered (renderedAccount options)).known := by
  cases rendered with
  | error fault => exact paired_nil
  | ok rendered =>
    change Paired ((rendered.ident.map (marshalersOf options)).getD [])
    cases rendered.ident with
    | none => exact paired_nil
    | some ident => exact paired_marshalersOf readers writers ident

theorem paired_callback (name : Label) (ident : String) (result : CType)
    (parameters : List (Parameter CType)) :
    Paired (callbackAccount options name ident result parameters).known := by
  unfold callbackAccount
  cases signatureHint result parameters with
  | error fault => exact paired_nil
  | ok hint =>
    simp only [Account.tried, readers, writers, if_true, Account.followedBy, List.nil_append]
    unfold halfAccount callbackHalf
    cases identText name with
    | error fault => exact paired_nil
    | ok own =>
      rw [ok_bind, ok_bind]
      cases prototype result parameters with
      | error fault => exact paired_nil
      | ok type =>
        intro other
        simp [Account.tried, pure, Except.pure, bind, Except.bind]

theorem paired_entry (name : Label) (type : CType) : Paired (entryAccount options known name type).known := by
  cases type with
  | synonym header target transparent =>
    cases transparent with
    | true => exact paired_nil
    | false => exact paired_tried readers writers name _
  | callback header own result parameters =>
    rw [entryAccount]
    split
    · exact paired_callback readers writers name _ result parameters
    · exact paired_nil
  | _ => exact paired_tried readers writers name _

theorem paired_entries (entries : Table Label CType) :
    Paired (entriesAccount options known entries).known := by
  induction entries generalizing known with
  | nil => exact paired_nil
  | cons entry rest ih => exact (paired_entry readers writers entry.1 entry.2).append ih

end

theorem known_module (options : Options) (graph : Graph) :
    (moduleAccount options graph).known = (entriesAccount options [] graph.declarations).known := by
  have rest (known : List Marshaler) (functions : List Function) :
      (restAccount options known functions).known = [] := by
    unfold restAccount
    dsimp only [Account.followedBy]
    split <;> split <;> simp [known_symbols, known_pass]
  simp [moduleAccount, Account.followedBy, rest]

/-- The pass over the declarations of a graph. -/
def emitDeclarations (options : Options) (graph : Graph) : Emitting Unit :=
  graph.declarations.forM fun entry => emitEntry options entry.1 entry.2

/-- After a generation with both directions, an identifier has a reader just if it has a writer. Where the
numbers that one direction alone shows have texts, the same parts of the declarations fail with readers
alone, with writers alone and with both. -/
theorem directions_alike (options : Options) (patient : options.failFast = false) (graph : Graph)
    (keyed : ∀ entry ∈ graph.declarations, entry.1.asKey = .ok entry.1) :
    (∀ start, ∃ made after, (generate (options.turned true true) graph).runOn start = (.ok made, after) ∧
      ∀ ident, { direction := .reading, ident } ∈ after.known ↔
        { direction := .writing, ident } ∈ after.known) ∧
    ((∀ entry ∈ graph.declarations, isMeasured options entry.2 = true) →
      ∃ parts : List Part, ∀ readers writers, (readers || writers) = true →
        ∀ start : Progress, start.known = [] → start.failed = [] → ∃ after,
          (emitDeclarations (options.turned readers writers) graph).runOn start = (.ok (), after) ∧
          after.failed = (parts.flatMap (Part.symbols (options.turned readers writers))).foldl
            (fun failed symbol => failed.insert symbol) []) := by
  refine ⟨fun start => ?_, fun measured => ?_⟩
  · obtain ⟨made, after, ran, -, -, known⟩ :=
      @generate_goes_on (options.turned true true) graph keyed patient start
    refine ⟨made, after, ran, ?_⟩
    rw [known, known_module]
    exact paired_entries rfl rfl graph.declarations
  · obtain ⟨more, parts, alike⟩ := @entries_alike options [] _ keyed measured
    refine ⟨parts, fun readers writers some start unknown unfailed => ?_⟩
    have pass := (@emitEntries_accounts (options.turned readers writers) [] _ keyed).goesOn patient
    obtain ⟨after, ran, added⟩ := pass start unknown
    have balanced : Balanced (options.turned readers writers) [] [] := fun _ _ _ => by simp
    refine ⟨after, ran, ?_⟩
    rw [added.failed, unfailed, Account.yield, (alike readers writers [] some balanced).1]

theorem directions_alike_step :
    ((∀ entry ∈ (graphOf 8 stepNodes).declarations, entry.1.asKey = .ok entry.1) ∧
      ∀ entry ∈ (graphOf 8 stepNodes).declarations, isMeasured {} entry.2 = true) ∧
    (∃ made after,
      (generate (Options.turned {} true true) (graphOf 8 stepNodes)).runOn {} = (.ok made, after) ∧
      ∀ ident, { direction := .reading, ident } ∈ after.known ↔
        { direction := .writing, ident } ∈ after.known) ∧
    ∃ parts : List Part, ∀ readers writers, (readers || writers) = true → ∃ after,
      (emitDeclarations (Options.turned {} readers writers) (graphOf 8 stepNodes)).runOn {} = (.ok (), after) ∧
      after.failed = (parts.flatMap (Part.symbols (Options.turned {} readers writers))).foldl
        (fun failed symbol => failed.insert symbol) [] := by
  have keyed : ∀ entry ∈ (graphOf 8 stepNodes).declarations, entry.1.asKey = .ok entry.1 := by
    decide +kernel
  have measured : ∀ entry ∈ (graphOf 8 stepNodes).declarations, isMeasured {} entry.2 = true := by
    decide +kernel
  have both := directions_alike {} rfl (graphOf 8 stepNodes) keyed
  obtain ⟨parts, alike⟩ := both.2 measured
  exact ⟨⟨keyed, measured⟩, both.1 {}, parts,
    fun readers writers some => alike readers writers some {} rfl rfl⟩

/-- A row of pointers whose length has no text. -/
def longRow : Graph :=
  { declarations := [(.str "row", .synonym { name := .str "row", size := .int 0 }
      (.array { name := .null, size := .int 0 } (.pointer { name := .null, size := .int 8 } none false)
        (.int (10 ^ 4300))) false)] }

/-- A record whose size has no text fails where there are writers, which come with allocators, and not
with readers alone. An array whose length has none fails the other way round. -/
theorem directions_apart_vast :
    let failedIn (graph : Graph) (readers writers : Bool) :=
      ((emitDeclarations (Options.turned {} readers writers) graph).runOn {}).2.failed
    let vast := graphOf (10 ^ 4300) [recordNode (.str "tile") []]
    (failedIn vast true false = [] ∧ failedIn vast false true = [.str "tile"] ∧
      failedIn vast true true = [.str "tile"]) ∧
    failedIn longRow true false = [.str "row"] ∧ failedIn longRow false true = [] ∧
      failedIn longRow true true = [.str "row"] := by
  decide +kernel

end NativeBindings.Emit
