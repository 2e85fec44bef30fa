import NativeBindings.Proofs.Emit.Support

/-!
What becomes of one declaration: it is reported as failed, or its marshalers are known just as far as
its type is supported.
-/
namespace NativeBindings.Emit

open Outcome

section
variable {options : Options} {declared : Table Label CType} {known : List Marshaler} {s : String}

theorem succeeds_haveKeys {constant : Constant} :
    Succeeds constant.haveKeys ↔ hasKeys constant = true := by
  have key (label : Label) : Succeeds label.asKey ↔ label.asKey.isOk = true := by
    cases label.asKey with
    | ok value => exact ⟨fun _ => rfl, fun _ => ⟨value, rfl⟩⟩
    | error fault => exact ⟨fun done => absurd done (not_succeeds_error fault), fun wrong => nomatch wrong⟩
  induction constant with
  | literal => exact ⟨fun _ => rfl, fun _ => ⟨(), rfl⟩⟩
  | reference => exact ⟨fun _ => rfl, fun _ => ⟨(), rfl⟩⟩
  | paren inner ih => exact ih
  | unary operator operand ih =>
    rw [Constant.haveKeys, hasKeys, succeeds_bind fun _ _ => ih, key, Bool.and_eq_true]
  | binary operator left right lefts rights =>
    have operands : Succeeds (left.haveKeys >>= fun _ => right.haveKeys) ↔
        hasKeys left = true ∧ hasKeys right = true := by
      exact (succeeds_bind fun _ _ => rights).trans (and_congr_left' lefts)
    rw [Constant.haveKeys, hasKeys, succeeds_bind fun _ _ => operands, key, Bool.and_eq_true,
      Bool.and_eq_true, and_assoc]

theorem succeeds_constantLine {enum : Label} {constant : Label × Constant}
    (keyed : constant.1.asKey = .ok constant.1) :
    Succeeds (constantLine options enum constant) ↔ hasKeys constant.2 = true := by
  have named : Succeeds (memberOf constant.1) := by
    rw [memberOf, keyed]
    cases constant.1 <;> exact ⟨_, rfl⟩
  have rendered : Succeeds (constant.2.render Constant.moduleOperators enum) ↔
      hasKeys constant.2 = true := by
    rw [← succeeds_haveKeys, ← and_true (Succeeds constant.2.haveKeys)]
    refine succeeds_bind fun _ _ => iff_true_intro ?_
    cases constant.2 <;> exact ⟨_, rfl⟩
  rw [← rendered, constantLine, succeeds_bind fun _ _ => succeeds_bind_pure]
  exact ⟨fun both => both.2, fun done => ⟨named, done⟩⟩

theorem succeeds_enumeration {header : Header} {constants : List (Label × Constant)}
    (keyed : ∀ constant ∈ constants, constant.1.asKey = .ok constant.1) :
    Succeeds (enumeration options (.str s) constants) ↔
      supported options (.enum header constants) = true := by
  have lines : Succeeds (constants.mapM (constantLine options (.str s))) ↔
      supported options (.enum header constants) = true := by
    rw [succeeds_mapM, supported, marshalable, printable, Bool.true_and, List.all_eq_true]
    exact forall₂_congr fun constant member => succeeds_constantLine (keyed constant member)
  rw [← lines]
  exact succeeds_bind_pure

section
variable (readers : options.readers = true) (writers : options.writers = true)
include readers writers

theorem succeeds_synonym (ground : Ground declared) (knows : Knows options declared known)
    {target : CType} (covers : Covers declared target) :
    Succeeds (synonym options known (.str s) target) ↔
      isVoid target = true ∨ supported options target = true := by
  obtain ⟨text, hinted⟩ := hint_of_covers ground covers
  have accessed := accessed_of_covers ground knows covers
  have reader : Succeeds (aliasMarshaler options known .reading (ident s) target) ↔
      Succeeds (access known .reading target) := by
    rw [aliasMarshaler, direct, if_pos readers]
    exact succeeds_bind_pure
  have writer : Succeeds (aliasMarshaler options known .writing (ident s) target) ↔
      Succeeds (access known .writing target) := by
    rw [aliasMarshaler, direct, if_pos writers]
    exact succeeds_bind_pure
  rw [synonym, succeeds_bind (P := isVoid target = true ∨ supported options target = true)]
  · exact ⟨fun both => both.2, fun holds => ⟨⟨_, rfl⟩, holds⟩⟩
  intro name named
  obtain rfl := (Except.ok.inj named : ident s = name)
  rw [succeeds_bind (P := isVoid target = true ∨ supported options target = true)]
  · exact ⟨fun both => both.2, fun holds => ⟨⟨_, hinted⟩, holds⟩⟩
  intro hint _
  dsimp only
  split
  next void => exact ⟨fun _ => .inl void, fun _ => ⟨_, rfl⟩⟩
  next sound =>
    rw [succeeds_bind fun _ _ => succeeds_bind_pure, reader, writer]
    constructor
    · exact fun both => .inr (accessed.only both.1)
    · rintro (void | supports)
      · exact absurd void sound
      · exact ⟨accessed.reaches supports .reading, accessed.reaches supports .writing⟩

theorem succeeds_record (ground : Ground declared) (knows : Knows options declared known)
    {header : Header} {fields : List (Field CType)}
    (covers : ∀ field ∈ fields, CoversField declared field.type) :
    Succeeds (record options known (.str s) header.size fields) ↔
      supported options (.record header fields) = true := by
  have each (field : Field CType) (member : field ∈ fields) :
      MemberAccessed options known (ident s) field :=
    memberAccessed_of_covers readers writers ground knows (covers field member)
  have hinted : Succeeds (dictionary options (.str s) (ident s) fields) := by
    rw [dictionary, succeeds_bind_pure, succeeds_mapM]
    intro field member
    rw [hintEntry, succeeds_bind_pure]
    exact hint_of_coversField ground (covers field member)
  have size : Succeeds (shownSize options header.size) ↔ showsSize options header.size = true := by
    rw [shownSize, showsSize]
    split
    next shown => simp [shown, succeeds_written]
    next hidden => simp [hidden, succeeds_pure]
  have whole : Succeeds (record options known (.str s) header.size fields) ↔
      Succeeds (dictionary options (.str s) (ident s) fields) ∧
        Succeeds (fields.mapM (unionHelpers options known (ident s))) ∧
          (∀ field ∈ fields, Succeeds (fieldRead known (ident s) field)) ∧
            (∀ field ∈ fields, Succeeds (fieldWrite known (ident s) field)) ∧
              showsSize options header.size = true := by
    rw [← size, ← succeeds_fieldsWriter writers, ← succeeds_fieldsReader readers]
    refine succeeds_bind fun _ _ => succeeds_bind fun _ _ => succeeds_bind fun _ _ => ?_
    exact succeeds_bind fun _ _ => succeeds_bind_pure
  rw [whole, supported_record, succeeds_mapM]
  constructor
  · rintro ⟨-, helped, reads, -, shown⟩
    exact ⟨fun field member => (each field member).only (helped field member) (reads field member), shown⟩
  · rintro ⟨supports, shown⟩
    refine ⟨hinted, fun field member => ?_, fun field member => ?_, fun field member => ?_, shown⟩
    · exact (each field member).helps (supports field member)
    · exact (each field member).reads (supports field member)
    · exact (each field member).writes (supports field member)

end

theorem succeeds_descriptorOf {type : CType} : Succeeds (descriptorOf type) ↔ crosses type = true := by
  rw [descriptorOf, succeeds_map, carrierOf, crosses]
  cases type.unaliased with
  | builtin | enum | pointer | callback => exact ⟨fun _ => rfl, fun _ => ⟨_, rfl⟩⟩
  | _ => exact ⟨fun done => absurd done (not_succeeds_error _), by rintro ⟨⟩⟩

theorem succeeds_descriptorsOf {parameters : List (Parameter CType)} :
    Succeeds (descriptorsOf parameters) ↔
      (parameters.all fun parameter => crosses parameter.type) = true := by
  rw [descriptorsOf, succeeds_mapM, List.all_eq_true]
  exact forall₂_congr fun parameter _ => succeeds_descriptorOf

theorem succeeds_prototype {result : CType} {parameters : List (Parameter CType)} {header own : Header} :
    Succeeds (prototype result parameters) ↔
      supported options (.callback header own result parameters) = true := by
  rw [prototype, succeeds_bind fun _ _ => succeeds_bind_pure, succeeds_descriptorOf,
    succeeds_descriptorsOf, supported_callback, Bool.and_eq_true]

theorem identText_str (s : String) : identText (.str s) = .ok (ident s) := rfl

/-- What becomes of a declaration of a type: it fails and is reported, or it makes its marshalers
known just if the type is supported. -/
def Reports (options : Options) (s : String) (type : CType) : Except Fault Rendered → Prop
  | .ok rendered => failuresOf (supported options) (.str s) type = [] ∧
    rendered.ident = if supported options type then some (ident s) else none
  | .error _ => failuresOf (supported options) (.str s) type = [.str s] ∧
    supported options type = false

theorem builtin_reports (header : Header) (carrier : Carrier) :
    Reports options s (.builtin header carrier) (builtin options (.str s) carrier) := by
  rw [builtin, identText_str]
  cases carrier <;> exact ⟨rfl, rfl⟩

/-- A declaration that succeeds just if its type is supported. -/
theorem reports_of_succeeds {type : CType} {made : Except Fault Rendered}
    (succeeds : Succeeds made ↔ supported options type = true)
    (failures : failuresOf (supported options) (.str s) type =
      if supported options type then [] else [.str s])
    (named : ∀ rendered, made = .ok rendered → rendered.ident = some (ident s)) :
    Reports options s type made := by
  cases made with
  | ok rendered =>
    have supports := succeeds.mp ⟨rendered, rfl⟩
    rw [Reports, failures, supports]
    exact ⟨rfl, named rendered rfl⟩
  | error fault =>
    have fails : supported options type = false := by
      rw [← Bool.not_eq_true, ← succeeds]
      exact not_succeeds_error fault
    rw [Reports, failures, fails]
    exact ⟨rfl, rfl⟩

theorem enumeration_reports {header : Header} {constants : List (Label × Constant)}
    (keyed : ∀ constant ∈ constants, constant.1.asKey = .ok constant.1) :
    Reports options s (.enum header constants) (enumeration options (.str s) constants) := by
  refine reports_of_succeeds (succeeds_enumeration keyed) rfl fun rendered made => ?_
  obtain ⟨name, named, made⟩ := bind_eq_ok.mp made
  obtain ⟨values, -, made⟩ := bind_eq_ok.mp made
  obtain rfl := pure_eq_ok.mp made
  obtain rfl := Except.ok.inj named
  rfl

theorem pointer_reports (ground : Ground declared) {header : Header} {base : Option CType}
    {isConst : Bool} (covers : ∀ target, base = some target → Covers declared target) :
    Reports options s (.pointer header base isConst) (pointer options (.str s) base isConst) := by
  have hinted : Succeeds (pointerHintTo base isConst) := by
    cases base with
    | none => exact ⟨_, rfl⟩
    | some target =>
      obtain ⟨text, hinted⟩ := hint_of_covers ground (covers target rfl)
      rw [pointerHintTo, hinted]
      exact ⟨_, rfl⟩
  obtain ⟨hint, hinted⟩ := hinted
  rw [pointer, identText_str, hinted]
  exact ⟨rfl, rfl⟩

theorem function_reports (ground : Ground declared) {header : Header} {result : CType}
    {parameters : List (Parameter CType)} (returns : Covers declared result)
    (takes : ∀ parameter ∈ parameters, Covers declared parameter.type) :
    Reports options s (.signature header result parameters)
      (function options (.str s) result parameters) := by
  obtain ⟨hint, hinted⟩ := signatureHint_of_covers ground returns takes
  rw [function, identText_str, hinted]
  split
  · exact ⟨rfl, rfl⟩
  · exact ⟨rfl, rfl⟩

section
variable (readers : options.readers = true) (writers : options.writers = true)
include readers writers

theorem record_reports (ground : Ground declared) (knows : Knows options declared known)
    {header : Header} {fields : List (Field CType)}
    (covers : ∀ field ∈ fields, CoversField declared field.type) :
    Reports options s (.record header fields)
      (record options known (.str s) header.size fields) := by
  refine reports_of_succeeds (succeeds_record readers writers ground knows covers) rfl
    fun rendered made => ?_
  obtain ⟨name, named, made⟩ := bind_eq_ok.mp made
  obtain ⟨dictionary, -, made⟩ := bind_eq_ok.mp made
  obtain ⟨helpers, -, made⟩ := bind_eq_ok.mp made
  obtain ⟨reads, -, made⟩ := bind_eq_ok.mp made
  obtain ⟨writes, -, made⟩ := bind_eq_ok.mp made
  obtain ⟨size, -, made⟩ := bind_eq_ok.mp made
  obtain rfl := pure_eq_ok.mp made
  obtain rfl := Except.ok.inj named
  rfl

theorem synonym_reports (ground : Ground declared) (knows : Knows options declared known)
    {header : Header} {target : CType} (covers : Covers declared target) :
    Reports options s (.synonym header target false) (synonym options known (.str s) target) := by
  have succeeds : Succeeds (synonym options known (.str s) target) ↔
      isVoid target = true ∨ supported options target = true :=
    succeeds_synonym readers writers ground knows covers
  have failures : failuresOf (supported options) (.str s) (.synonym header target false) =
      if isVoid target || supported options target then [] else [.str s] := rfl
  cases made : synonym options known (.str s) target with
  | ok rendered =>
    rw [Reports, failures, supported_synonym]
    obtain ⟨name, named, done⟩ := bind_eq_ok.mp made
    obtain rfl := Except.ok.inj named
    obtain ⟨hint, -, done⟩ := bind_eq_ok.mp done
    dsimp only at done
    split at done
    next void =>
      obtain rfl := pure_eq_ok.mp done
      rw [void, not_supported_of_isVoid void]
      exact ⟨rfl, rfl⟩
    next sound =>
      obtain ⟨reads, -, done⟩ := bind_eq_ok.mp done
      obtain ⟨writes, -, done⟩ := bind_eq_ok.mp done
      obtain rfl := pure_eq_ok.mp done
      have supports := (succeeds.mp ⟨_, made⟩).resolve_left sound
      rw [supports, Bool.or_true]
      exact ⟨rfl, rfl⟩
  | error fault =>
    have fails : ¬ (isVoid target = true ∨ supported options target = true) := by
      rw [← succeeds, made]
      exact not_succeeds_error fault
    rw [not_or, Bool.not_eq_true, Bool.not_eq_true] at fails
    rw [Reports, failures, supported_synonym, fails.1, fails.2]
    exact ⟨rfl, rfl⟩

/-- What an entry of a graph becomes, pointers to functions and synonyms of the language apart. -/
theorem declaration_reports (ground : Ground declared) (knows : Knows options declared known)
    {type : CType} (backed : Backed declared type)
    (own : ∀ header target, type ≠ .synonym header target true)
    (plain : ∀ header own result parameters, type ≠ .callback header own result parameters) :
    Reports options s type (declaration options known (.str s) type) := by
  cases type with
  | builtin header carrier => exact builtin_reports header carrier
  | enum header constants => exact enumeration_reports backed
  | synonym header target transparent =>
    cases transparent with
    | true => exact absurd rfl (own header target)
    | false => exact synonym_reports readers writers ground knows backed
  | pointer header base isConst => exact pointer_reports ground backed
  | signature header result parameters => exact function_reports ground backed.1 backed.2
  | record header fields => exact record_reports readers writers ground knows backed
  | callback header inner result parameters => exact absurd rfl (plain header inner result parameters)
  | array => exact absurd backed id
  | union => exact absurd backed id
  | bare => exact absurd backed id

end

end

end NativeBindings.Emit
