import NativeBindings.Proofs.Emit.DeclarationSupply
import NativeBindings.Proofs.Emit.Marshalable

/-!
Where the marshalers of the entries so far are known just as far as their types are supported, the
types that are made of these entries can be read and written just as far as they are supported.
-/
namespace NativeBindings.Emit

open Outcome

/-- Every entry has a text for a name. -/
def Named (declared : Table Label CType) : Prop := ∀ entry ∈ declared, ∃ s, entry.1 = .str s

/-- The marshalers of entries are known just as far as their types are supported. -/
def Knows (options : Options) (declared : Table Label CType) (known : List Marshaler) : Prop :=
  ∀ s type, (.str s, type) ∈ declared → (∀ header target, type ≠ .synonym header target true) →
    ∀ direction, { direction, ident := ident s } ∈ known ↔ supported options type = true

/-- Entries in order, with texts for names. -/
structure Ground (declared : Table Label CType) : Prop where
  orderly : Orderly declared
  named : Named declared

section
variable {options : Options} {declared : Table Label CType} {known : List Marshaler} {type : CType}

theorem succeeds_written {amount : Amount} :
    Succeeds (Amount.written amount) ↔ isPrintable amount = true := by
  cases amount with
  | int n =>
    change Succeeds (Numeral.write n) ↔ Numeral.isWritable n = true
    unfold Numeral.write
    split
    next writable => exact ⟨fun _ => writable, fun _ => ⟨_, rfl⟩⟩
    next unwritable =>
      exact ⟨fun done => absurd done (not_succeeds_error _), fun writable => absurd writable unwritable⟩
  | _ => exact ⟨fun _ => rfl, fun _ => ⟨_, rfl⟩⟩

theorem succeeds_marshaler {direction : Direction} {s : String} :
    Succeeds (marshaler known direction (.str s)) ↔ { direction, ident := ident s } ∈ known := by
  change Succeeds (if known.contains { direction, ident := ident s } then _ else _) ↔ _
  split
  next member => exact ⟨fun _ => List.contains_iff_mem.mp member, fun _ => ⟨_, rfl⟩⟩
  next absent =>
    exact ⟨fun done => absurd done (not_succeeds_error _),
      fun member => absurd (List.contains_iff_mem.mpr member) absent⟩

theorem succeeds_namedMarshaler {direction : Direction} {s : String} (name : type.name = .str s) :
    Succeeds (namedMarshaler known direction type) ↔ { direction, ident := ident s } ∈ known := by
  rw [namedMarshaler, name]
  exact succeeds_marshaler

/-- A declared node goes by its name. -/
theorem access_declared {direction : Direction} {s : String} (name : type.name = .str s)
    (backed : Backed declared type) (own : ∀ header target, type ≠ .synonym header target true) :
    access known direction type = namedMarshaler known direction type := by
  cases type with
  | synonym header target transparent =>
    cases transparent with
    | true => exact absurd rfl (own header target)
    | false => rfl
  | pointer header base isConst =>
    have named : header.name.isNull = false := by
      rw [show header.name = .str s from name]
      rfl
    rw [access, named]
    rfl
  | array => exact absurd backed id
  | union => exact absurd backed id
  | bare => exact absurd backed id
  | _ => rfl

theorem succeeds_arrayFunction {direction : Direction} {inner : List Piece} {stride : String}
    {length : Amount} :
    Succeeds (direction.arrayFunction inner stride length) ↔
      (direction = .reading → isPrintable length = true) := by
  cases direction with
  | reading =>
    have count : Succeeds (Direction.reading.arrayFunction inner stride length) ↔
        Succeeds (Amount.written length) := succeeds_bind_pure
    rw [count, succeeds_written]
    exact ⟨fun printable _ => printable, fun printable => printable rfl⟩
  | writing => exact ⟨fun _ wrong => absurd wrong (by decide), fun _ => succeeds_pure _⟩

theorem succeeds_access_array {direction : Direction} {header : Header} {item : CType}
    {length : Amount} :
    Succeeds (access known direction (.array header item length)) ↔
      Succeeds (access known direction item) ∧ isPrintable item.size = true ∧
        (direction = .reading → isPrintable length = true) := by
  rw [access, succeeds_bind fun inner _ => succeeds_bind fun stride _ => succeeds_arrayFunction,
    succeeds_written]

/-- A supported type has a reader and a writer, and a type with a reader is supported. -/
structure Accessed (options : Options) (known : List Marshaler) (type : CType) : Prop where
  reaches : supported options type = true → ∀ direction, Succeeds (access known direction type)
  only : Succeeds (access known .reading type) → supported options type = true

theorem accessed_of_covers (ground : Ground declared) (knows : Knows options declared known)
    (covers : Covers declared type) : Accessed options known type := by
  refine ground.orderly.covers_induction (P := Accessed options known) ?node ?transparent ?pointer
    ?array covers
  case node =>
    intro name type member own
    obtain ⟨s, rfl⟩ := ground.named (name, type) member
    obtain ⟨same, -, backed⟩ := ground.orderly.entry member
    have exact_ (direction : Direction) :
        Succeeds (access known direction type) ↔ supported options type = true := by
      rw [access_declared same backed own, succeeds_namedMarshaler same, knows s type member own]
    have use (direction : Direction) : Succeeds (access known direction
        (.synonym { name := type.name, size := type.size } type false)) ↔
          supported options type = true := by
      rw [← knows s type member own direction]
      exact succeeds_namedMarshaler same
    refine ⟨⟨fun supports direction => (exact_ direction).mpr supports, (exact_ .reading).mp⟩, ?_⟩
    constructor
    · rw [supported_synonym]
      exact fun supports direction => (use direction).mpr supports
    · rw [supported_synonym]
      exact (use .reading).mp
  case transparent =>
    intro header target accessed
    have through (direction : Direction) :
        access known direction (.synonym header target true) = access known direction target := rfl
    constructor
    · rw [supported_synonym]
      intro supports direction
      rw [through]
      exact accessed.reaches supports direction
    · rw [supported_synonym, through]
      exact accessed.only
  case pointer => exact fun base isConst _ => ⟨fun _ direction => ⟨_, rfl⟩, fun _ => rfl⟩
  case array =>
    intro item name size length accessed
    constructor
    · rw [supported_array]
      rintro ⟨supports, stride, count⟩ direction
      rw [succeeds_access_array]
      exact ⟨accessed.reaches supports direction, stride, fun _ => count⟩
    · rw [supported_array, succeeds_access_array]
      rintro ⟨inner, stride, count⟩
      exact ⟨accessed.only inner, stride, count rfl⟩

/-- Unions are types of fields only. -/
theorem isUnion_of_covers (ground : Ground declared) (covers : Covers declared type) :
    isUnion (meaning type) = false := by
  refine ground.orderly.covers_induction (P := fun type => isUnion (meaning type) = false) ?node
    ?transparent ?pointer ?array covers
  case node =>
    intro name type member own
    obtain ⟨-, -, backed⟩ := ground.orderly.entry member
    refine ⟨?_, rfl⟩
    cases type with
    | synonym header target transparent =>
      cases transparent with
      | true => exact absurd rfl (own header target)
      | false => rfl
    | union => exact absurd backed id
    | _ => rfl
  case transparent => exact fun header target plain => plain
  case pointer => exact fun _ _ _ => rfl
  case array => exact fun _ _ _ _ _ => rfl

theorem access_meaning (direction : Direction) (type : CType) :
    access known direction type = access known direction (meaning type) := by
  fun_induction meaning type with
  | case1 header target ih => exact ih
  | case2 type other => rfl

variable {owner : String} {field : Field CType}

theorem succeeds_place : Succeeds (place field) ↔ isPrintable field.offset = true := by
  rw [place, succeeds_map, succeeds_written]

/-- A member that is no union is read just as its type is. -/
theorem succeeds_fieldRead (plain : isUnion (meaning field.type) = false) :
    Succeeds (fieldRead known owner field) ↔
      isPrintable field.offset = true ∧ Succeeds (access known .reading field.type) := by
  rw [← succeeds_place, access_meaning]
  refine succeeds_bind fun place _ => ?_
  dsimp only
  split
  next union => simp [union, isUnion] at plain
  next header item length array =>
    rw [array, succeeds_access_array]
    refine succeeds_bind fun inner _ => ?_
    rw [← succeeds_written]
    refine succeeds_bind fun stride _ => ?_
    rw [succeeds_bind_pure, succeeds_written]
    exact ⟨fun count _ => count, fun count => count rfl⟩
  next type _ _ => exact succeeds_bind_pure

theorem succeeds_fieldWrite (plain : isUnion (meaning field.type) = false) :
    Succeeds (fieldWrite known owner field) ↔
      isPrintable field.offset = true ∧ Succeeds (access known .writing field.type) := by
  rw [← succeeds_place, access_meaning]
  refine succeeds_bind fun place _ => ?_
  dsimp only
  split
  next union => simp [union, isUnion] at plain
  next header item length array =>
    rw [array, succeeds_access_array]
    refine succeeds_bind fun inner _ => ?_
    rw [succeeds_bind_pure, succeeds_written]
    exact ⟨fun stride => ⟨stride, fun wrong => absurd wrong (by decide)⟩, fun both => both.1⟩
  next type _ _ => exact succeeds_bind_pure

section
variable {header : Header} {variants : List (Field CType)}

theorem succeeds_fieldRead_union (union : meaning field.type = .union header variants) :
    Succeeds (fieldRead known owner field) ↔ isPrintable field.offset = true := by
  rw [← succeeds_place, ← and_true (Succeeds (place field))]
  refine succeeds_bind fun place _ => iff_true_intro ?_
  rw [union]
  exact succeeds_pure _

theorem succeeds_fieldWrite_union (union : meaning field.type = .union header variants) :
    Succeeds (fieldWrite known owner field) ↔ isPrintable field.offset = true := by
  rw [← succeeds_place, ← and_true (Succeeds (place field))]
  refine succeeds_bind fun place _ => iff_true_intro ?_
  rw [union]
  exact succeeds_pure _

end

/-- A member of a supported type can be read and written, and one that can be read is of a supported
type. -/
structure FieldAccessed (options : Options) (known : List Marshaler) (owner : String)
    (field : Field CType) : Prop where
  reads : supportedField options field = true → Succeeds (fieldRead known owner field)
  writes : supportedField options field = true → Succeeds (fieldWrite known owner field)
  only : Succeeds (fieldRead known owner field) → supportedField options field = true

theorem fieldAccessed_of_covers (ground : Ground declared) (knows : Knows options declared known)
    (covers : Covers declared field.type) : FieldAccessed options known owner field := by
  have plain := isUnion_of_covers ground covers
  have accessed := accessed_of_covers ground knows covers
  constructor
  · rw [succeeds_fieldRead plain, supportedField, Bool.and_eq_true]
    exact fun supports => ⟨supports.2, accessed.reaches supports.1 .reading⟩
  · rw [succeeds_fieldWrite plain, supportedField, Bool.and_eq_true]
    exact fun supports => ⟨supports.2, accessed.reaches supports.1 .writing⟩
  · rw [succeeds_fieldRead plain, supportedField, Bool.and_eq_true]
    exact fun read => ⟨accessed.only read.2, read.1⟩

/-- The helpers of a member, its reading and its writing succeed together just if its type is
supported. -/
structure MemberAccessed (options : Options) (known : List Marshaler) (owner : String)
    (field : Field CType) : Prop where
  helps : supportedField options field = true → Succeeds (unionHelpers options known owner field)
  reads : supportedField options field = true → Succeeds (fieldRead known owner field)
  writes : supportedField options field = true → Succeeds (fieldWrite known owner field)
  only : Succeeds (unionHelpers options known owner field) →
    Succeeds (fieldRead known owner field) → supportedField options field = true

section
variable (readers : options.readers = true) (writers : options.writers = true)

include readers in
theorem succeeds_fieldsReader {result : String} {fields : List (Field CType)} :
    Succeeds (fieldsReader options known owner result fields) ↔
      ∀ field ∈ fields, Succeeds (fieldRead known owner field) := by
  rw [fieldsReader, direct, if_pos readers, succeeds_bind_pure, succeeds_mapM]
  exact forall₂_congr fun field _ => succeeds_bind_pure

include writers in
theorem succeeds_fieldsWriter {value : String} {fields : List (Field CType)} :
    Succeeds (fieldsWriter options known owner value fields) ↔
      ∀ field ∈ fields, Succeeds (fieldWrite known owner field) := by
  rw [fieldsWriter, direct, if_pos writers]
  have walk : Succeeds (fields.mapM (writeEntry options known owner)) ↔
      ∀ field ∈ fields, Succeeds (fieldWrite known owner field) := by
    rw [succeeds_mapM]
    exact forall₂_congr fun field _ => succeeds_bind_pure
  rw [← walk]
  exact succeeds_bind_pure

include readers writers

theorem memberAccessed_of_covers (ground : Ground declared) (knows : Knows options declared known)
    (covers : CoversField declared field.type) : MemberAccessed options known owner field := by
  rcases covers with covers | ⟨size, variants, same, covers⟩
  · have accessed : FieldAccessed options known owner field :=
      fieldAccessed_of_covers ground knows covers
    have none : unionHelpers options known owner field = .ok [] := by
      have plain := isUnion_of_covers ground covers
      unfold unionHelpers
      split
      next union => simp [union, isUnion] at plain
      next => rfl
    exact ⟨fun _ => ⟨[], none⟩, accessed.reads, accessed.writes, fun _ => accessed.only⟩
  · have union : meaning field.type = .union { name := .null, size } variants := by
      rw [same]
      rfl
    have helpers : Succeeds (unionHelpers options known owner field) ↔
        ∀ variant ∈ variants, supportedField options variant = true := by
      have each (variant : Field CType) (member : variant ∈ variants) :
          FieldAccessed options known (owner ++ "__" ++ field.name.plain) variant :=
        fieldAccessed_of_covers ground knows (covers variant member)
      unfold unionHelpers
      rw [union]
      dsimp only
      rw [succeeds_bind fun _ _ => succeeds_bind_pure, succeeds_fieldsReader readers,
        succeeds_fieldsWriter writers]
      constructor
      · exact fun both variant member => (each variant member).only (both.1 variant member)
      · intro supports
        exact ⟨fun variant member => (each variant member).reads (supports variant member),
          fun variant member => (each variant member).writes (supports variant member)⟩
    have supports : supportedField options field = true ↔
        (∀ variant ∈ variants, supportedField options variant = true) ∧
          isPrintable field.offset = true := by
      rw [supportedField, Bool.and_eq_true, same, supported_union]
    constructor
    · exact fun held => helpers.mpr (supports.mp held).1
    · exact fun held => (succeeds_fieldRead_union union).mpr (supports.mp held).2
    · exact fun held => (succeeds_fieldWrite_union union).mpr (supports.mp held).2
    · exact fun helped read =>
        supports.mpr ⟨helpers.mp helped, (succeeds_fieldRead_union union).mp read⟩

end

/-- Hints of types that are made of named nodes are texts. -/
theorem hint_of_covers (ground : Ground declared) (covers : Covers declared type) :
    ∃ s, hint type = .ok (.str s) := by
  refine ground.orderly.covers_induction (P := fun type => ∃ s, hint type = .ok (.str s)) ?node
    ?transparent ?pointer ?array covers
  case node =>
    intro name type member own
    obtain ⟨s, rfl⟩ := ground.named (name, type) member
    obtain ⟨same, -, backed⟩ := ground.orderly.entry member
    have named {other : Except Fault Label} : identOr type.header other = .ok (.str (ident s)) := by
      rw [identOr, show type.header.name = .str s from same]
      rfl
    constructor
    · cases type with
      | synonym header target transparent =>
        cases transparent with
        | true => exact absurd rfl (own header target)
        | false => exact ⟨_, named⟩
      | pointer header base isConst =>
        cases base with
        | none => exact ⟨_, named⟩
        | some target => exact ⟨_, named⟩
      | array => exact absurd backed id
      | union => exact absurd backed id
      | bare => exact absurd backed id
      | _ => exact ⟨_, named⟩
    · have wrapped : identOr { name := type.name, size := type.size } (.ok (.str "Any")) =
          .ok (.str (ident s)) := by
        rw [identOr, same]
        rfl
      exact ⟨_, wrapped⟩
  case transparent => exact fun header target hinted => hinted
  case pointer =>
    intro base isConst inside
    cases base with
    | none => exact ⟨_, rfl⟩
    | some target =>
      obtain ⟨s, hinted⟩ := inside target rfl
      have mapped : hint (.pointer { name := .null, size := CType.pointerSize } (some target) isConst) =
          (hint target).map (pointerHint isConst) := rfl
      rw [mapped, hinted]
      exact ⟨_, rfl⟩
  case array =>
    intro item name size length hinted
    obtain ⟨s, hinted⟩ := hinted
    rw [hint, hinted]
    exact ⟨_, rfl⟩

theorem hint_of_coversField (ground : Ground declared) (covers : CoversField declared type) :
    Succeeds (hint type) := by
  rcases covers with covers | ⟨size, variants, rfl, -⟩
  · obtain ⟨s, hinted⟩ := hint_of_covers ground covers
    exact ⟨_, hinted⟩
  · exact ⟨_, rfl⟩

theorem hints_of_covers (ground : Ground declared) {parameters : List (Parameter CType)}
    (covers : ∀ parameter ∈ parameters, Covers declared parameter.type) :
    ∃ texts : List String, hints parameters = .ok (texts.map .str) := by
  induction parameters with
  | nil => exact ⟨[], rfl⟩
  | cons parameter rest ih =>
    obtain ⟨s, hinted⟩ := hint_of_covers ground (covers parameter (by simp))
    obtain ⟨texts, others⟩ := ih fun other member => covers other (by simp [member])
    refine ⟨s :: texts, ?_⟩
    rw [hints, hinted, others]
    rfl

theorem textsFrom_strings (position : Nat) (texts : List String) :
    Json.textsFrom position (texts.map .str) = .ok texts := by
  induction texts generalizing position with
  | nil => rfl
  | cons s rest ih =>
    rw [List.map_cons, Json.textsFrom, ih]
    rfl

theorem signatureHint_of_covers (ground : Ground declared) {result : CType}
    {parameters : List (Parameter CType)} (returns : Covers declared result)
    (takes : ∀ parameter ∈ parameters, Covers declared parameter.type) :
    Succeeds (signatureHint result parameters) := by
  obtain ⟨texts, hinted⟩ := hints_of_covers ground takes
  obtain ⟨s, returned⟩ := hint_of_covers ground returns
  rw [signatureHint, hinted, returned]
  have callable : Succeeds (callableHint (texts.map .str) (.ok (.str s))) := by
    rw [callableHint, Json.texts, textsFrom_strings]
    exact ⟨_, rfl⟩
  exact callable

end

end NativeBindings.Emit
