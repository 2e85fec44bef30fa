import NativeBindings.Emit.Module
import NativeBindings.Proofs.Views

/-!
Texts that are made of a type are made of what a view shows of it, where an alias reads the same as
the view sees its target.
-/
namespace NativeBindings.Emit

open CType

/-- A view in which an alias reads as its target does. -/
structure Legible (view : View) : Prop where
  hint : ∀ own target, hint (view.aim own target) = hint target
  access : ∀ known direction own target,
    access known direction (view.aim own target) = access known direction target
  unaliased : ∀ own target, (view.aim own target).unaliased = target.unaliased
  pointee : ∀ own target, (view.aim own target).pointee = target.pointee

section
variable (view : View)

theorem identOr_mark (header : Header) (other : Except Fault Label) :
    identOr (view.mark header) other = identOr header other := by
  rw [identOr, identOr, view.name]

mutual

theorem hint_look : (type : CType) → hint (view.look type) = hint type
  | .synonym header target true => by
    rw [view.given, hint, hint, if_pos rfl, if_pos rfl, hint_look target]
  | .synonym header target false => by
    rw [view.named, hint, hint, if_neg (by simp), if_neg (by simp), identOr_mark]
  | .array _ item _ => by rw [view.array, hint, hint, hint_look item]
  | .pointer header none _ => by rw [view.handle, hint, hint, identOr_mark]
  | .pointer header (some base) _ => by rw [view.pointer, hint, hint, identOr_mark, hint_look base]
  | .callback header _ result parameters => by
    rw [view.look_callback, hint, hint, identOr_mark, hint_look result, hints_look parameters]
  | .signature header result parameters => by
    rw [view.look_signature, hint, hint, identOr_mark, hint_look result, hints_look parameters]
  | .union header _ => by rw [view.union, hint, hint, identOr_mark]
  | .builtin header _ => by rw [view.builtin, hint, hint, identOr_mark]
  | .enum header _ => by rw [view.enum, hint, hint, identOr_mark]
  | .record header _ => by rw [view.record, hint, hint, identOr_mark]
  | .bare header => by rw [view.bare, hint, hint, identOr_mark]

theorem hints_look : (parameters : List (Parameter CType)) →
    hints (parameters.map view.parameter) = hints parameters
  | [] => rfl
  | parameter :: rest => by
    rw [List.map_cons, hints, hints, View.parameter, hint_look parameter.type, hints_look rest]

end

theorem meaning_look (type : CType) : meaning (view.look type) = view.look (meaning type) := by
  have last {type : CType} (plain : ∀ header target, type = .synonym header target true → False) :
      meaning type = type := by
    unfold meaning
    split
    next header target => exact (plain header target rfl).elim
    next => rfl
  induction type using meaning.induct with
  | case1 header target ih =>
    rw [view.given]
    exact ih
  | case2 type plain =>
    rw [last plain, last]
    intro header target seen
    obtain ⟨header', target', given, -⟩ := View.given_of_look seen
    exact plain header' target' given

end

theorem unaliased_eq {type : CType} (last : type.kind ≠ "alias") : type.unaliased = type := by
  cases type with
  | synonym => exact absurd rfl last
  | _ => rfl

theorem pointee_eq {type : CType} (last : type.kind ≠ "alias") (other : type.kind ≠ "pointer") :
    type.pointee = type := by
  cases type with
  | synonym => exact absurd rfl last
  | pointer => exact absurd rfl other
  | _ => rfl

section
variable {view : View} (legible : Legible view)
include legible

theorem unaliased_look (type : CType) : (view.look type).unaliased = view.look type.unaliased := by
  induction type using unaliased.induct with
  | case1 header target transparent ih =>
    cases transparent with
    | true =>
      rw [view.given]
      exact ih
    | false =>
      rw [view.named]
      exact (legible.unaliased header.name _).trans ih
  | case2 type plain =>
    have last : type.kind ≠ "alias" := by
      cases type with
      | synonym header target transparent => exact (plain header target transparent rfl).elim
      | _ => simp [kind]
    rw [unaliased_eq last, unaliased_eq (by rwa [view.kind_look])]

theorem pointee_look (type : CType) : (view.look type).pointee = view.look type.pointee := by
  induction type using pointee.induct with
  | case1 header target transparent ih =>
    cases transparent with
    | true =>
      rw [view.given]
      exact ih
    | false =>
      rw [view.named]
      exact (legible.pointee header.name _).trans ih
  | case2 header base isConst ih =>
    rw [view.pointer]
    exact ih
  | case3 type plain bare =>
    have last : type.kind ≠ "alias" := by
      cases type with
      | synonym header target transparent => exact (plain header target transparent rfl).elim
      | _ => simp [kind]
    by_cases other : type.kind = "pointer"
    · obtain ⟨header, isConst, rfl⟩ : ∃ header isConst, type = .pointer header none isConst := by
        cases type with
        | pointer header base isConst =>
          cases base with
          | none => exact ⟨header, isConst, rfl⟩
          | some base => exact (bare header base isConst rfl).elim
        | _ => simp [kind] at other
      rw [view.handle]
      exact (view.handle header isConst).symm
    · rw [pointee_eq last other, pointee_eq (by rwa [view.kind_look]) (by rwa [view.kind_look])]

theorem carrierOf_look (type : CType) : carrierOf (view.look type) = carrierOf type := by
  have named (target : CType) : nameOrAnonymous (view.look target) = nameOrAnonymous target := by
    rw [nameOrAnonymous, nameOrAnonymous, view.name_look]
  have failed {type target : CType} (ends : type.unaliased = target)
      (other : target.kind ∉ ["builtin", "enum", "pointer", "func_pointer"]) :
      carrierOf type = .error (.unmappable
        ("no marshal type for " ++ target.kind ++ " " ++ nameOrAnonymous target)) := by
    unfold carrierOf
    rw [ends]
    cases target with
    | builtin | enum | pointer | callback => simp [kind] at other
    | _ => rfl
  have ends := unaliased_look legible type
  by_cases other : type.unaliased.kind ∉ ["builtin", "enum", "pointer", "func_pointer"]
  · rw [failed rfl other, failed ends (by rwa [view.kind_look]), view.kind_look, named]
  · unfold carrierOf
    rw [ends]
    cases shape : type.unaliased with
    | builtin => rw [view.builtin]
    | enum => rw [view.enum]
    | pointer => rw [view.look_pointer]
    | callback => rw [view.callback]
    | _ =>
      rw [shape] at other
      simp [kind] at other

theorem descriptorsOf_look (parameters : List (Parameter CType)) :
    descriptorsOf (parameters.map view.parameter) = descriptorsOf parameters := by
  have each (parameter : Parameter CType) :
      descriptorOf (view.look parameter.type) = descriptorOf parameter.type := by
    rw [descriptorOf, descriptorOf, carrierOf_look legible]
  rw [descriptorsOf, descriptorsOf, List.mapM_map]
  simp only [Function.comp_def, View.parameter, each]

theorem prototype_look (result : CType) (parameters : List (Parameter CType)) :
    prototype (view.look result) (parameters.map view.parameter) = prototype result parameters := by
  rw [prototype, prototype, descriptorOf, descriptorOf, carrierOf_look legible, descriptorsOf_look legible]

theorem isVoid_look (type : CType) : isVoid (view.look type) = isVoid type := by
  unfold isVoid
  rw [unaliased_look legible]
  cases type.unaliased with
  | synonym _ _ transparent => cases transparent <;> simp
  | _ => simp

end

section
variable (view : View) (known : List Marshaler) (direction : Direction)

theorem access_other {type : CType} (other : type.kind ∉ ["alias", "static_array", "pointer"]) :
    access known direction type = namedMarshaler known direction type := by
  cases type with
  | synonym | array | pointer => simp [kind] at other
  | _ => rfl

theorem namedMarshaler_look (type : CType) :
    namedMarshaler known direction (view.look type) = namedMarshaler known direction type := by
  rw [namedMarshaler, namedMarshaler, view.name_look, view.kind_look]

theorem access_look (type : CType) :
    access known direction (view.look type) = access known direction type := by
  have named := namedMarshaler_look view known direction
  induction type using access.induct with
  | case1 header target ih => rw [view.given, access, access, if_pos rfl, if_pos rfl, ih]
  | case2 header target transparent plain =>
    obtain rfl : transparent = false := by simpa using plain
    have same := named (.synonym header target false)
    rw [view.named] at same ⊢
    rw [access, access, if_neg plain, if_neg plain, same]
  | case3 header item length ih => rw [view.array, access, access, ih, view.size_look]
  | case4 header base isConst nameless =>
    rw [view.look_pointer, access, access, view.name, if_pos nameless, if_pos nameless]
  | case5 header base isConst given =>
    have same := named (.pointer header base isConst)
    rw [view.look_pointer] at same ⊢
    rw [access, access, view.name, if_neg given, if_neg given, same]
  | case6 type noAlias noArray noPointer =>
    have other : type.kind ∉ ["alias", "static_array", "pointer"] := by
      cases type with
      | synonym header target transparent => exact (noAlias header target transparent rfl).elim
      | array header item length => exact (noArray header item length rfl).elim
      | pointer header base isConst => exact (noPointer header base isConst rfl).elim
      | _ => simp [kind]
    rw [access_other known direction other, access_other known direction (by rwa [view.kind_look]), named]

end

section
variable (view : View) (options : Options) (known : List Marshaler)

theorem fieldRead_other {owner : String} {field : Field CType}
    (other : (meaning field.type).kind ∉ ["union", "static_array"]) :
    fieldRead known owner field = do
      let place ← place field
      let function ← access known .reading (meaning field.type)
      return function ++ [.text ("(source, " ++ place ++ ")")] := by
  unfold fieldRead
  cases shape : meaning field.type with
  | union | array => simp [shape, kind] at other
  | _ => rfl

theorem fieldRead_look (owner : String) (field : Field CType) :
    fieldRead known owner (view.field field) = fieldRead known owner field := by
  have means : meaning (view.field field).type = view.look (meaning field.type) :=
    meaning_look view field.type
  by_cases other : (meaning field.type).kind ∉ ["union", "static_array"]
  · rw [fieldRead_other known other, fieldRead_other known (by rwa [means, view.kind_look]), means,
      access_look]
    rfl
  · unfold fieldRead
    rw [means]
    cases shape : meaning field.type with
    | union => rw [view.union]; rfl
    | array => rw [view.array]; simp only [access_look, view.size_look]; rfl
    | _ => simp [shape, kind] at other

theorem fieldWrite_other {owner : String} {field : Field CType}
    (other : (meaning field.type).kind ∉ ["union", "static_array"]) :
    fieldWrite known owner field = do
      let place ← place field
      let function ← access known .writing (meaning field.type)
      return function ++ [.text ("(" ++ "x[\"" ++ field.name.plain ++ "\"]" ++ ", buffer, " ++ place ++ ")")] := by
  unfold fieldWrite
  cases shape : meaning field.type with
  | union | array => simp [shape, kind] at other
  | _ => rfl

theorem fieldWrite_look (owner : String) (field : Field CType) :
    fieldWrite known owner (view.field field) = fieldWrite known owner field := by
  have means : meaning (view.field field).type = view.look (meaning field.type) :=
    meaning_look view field.type
  by_cases other : (meaning field.type).kind ∉ ["union", "static_array"]
  · rw [fieldWrite_other known other, fieldWrite_other known (by rwa [means, view.kind_look]), means,
      access_look]
    rfl
  · unfold fieldWrite
    rw [means]
    cases shape : meaning field.type with
    | union => rw [view.union]; rfl
    | array => rw [view.array]; simp only [access_look, view.size_look]; rfl
    | _ => simp [shape, kind] at other

theorem mapM_look {α : Type} {f : Field CType → Except Fault α}
    (same : ∀ field, f (view.field field) = f field) (fields : List (Field CType)) :
    (fields.map view.field).mapM f = fields.mapM f := by
  rw [List.mapM_map]
  exact congrArg (fields.mapM ·) (funext same)

theorem fieldsReader_look (owner result : String) (fields : List (Field CType)) :
    fieldsReader options known owner result (fields.map view.field) =
      fieldsReader options known owner result fields := by
  have entries := mapM_look view (f := readEntry options known owner) (fun field => by
    rw [readEntry, readEntry, fieldRead_look]
    rfl) fields
  rw [fieldsReader, fieldsReader, entries]

theorem fieldsWriter_look (owner value : String) (fields : List (Field CType)) :
    fieldsWriter options known owner value (fields.map view.field) =
      fieldsWriter options known owner value fields := by
  have entries := mapM_look view (f := writeEntry options known owner) (fun field => by
    rw [writeEntry, writeEntry, fieldWrite_look]
    rfl) fields
  rw [fieldsWriter, fieldsWriter, entries, List.isEmpty_map]

theorem unionHelpers_other {owner : String} {field : Field CType}
    (other : (meaning field.type).kind ≠ "union") : unionHelpers options known owner field = .ok [] := by
  unfold unionHelpers
  cases shape : meaning field.type with
  | union => simp [shape, kind] at other
  | _ => rfl

theorem unionHelpers_look (owner : String) (field : Field CType) :
    unionHelpers options known owner (view.field field) = unionHelpers options known owner field := by
  have means : meaning (view.field field).type = view.look (meaning field.type) :=
    meaning_look view field.type
  by_cases other : (meaning field.type).kind = "union"
  · unfold unionHelpers
    rw [means]
    cases shape : meaning field.type with
    | union header variants =>
      rw [view.look_union]
      simp only [fieldsReader_look, fieldsWriter_look]
      rfl
    | _ => simp [shape, kind] at other
  · rw [unionHelpers_other options known other,
      unionHelpers_other options known (by rwa [means, view.kind_look])]

theorem record_look (name : Label) (size : Amount) (fields : List (Field CType)) :
    record options known name size (fields.map view.field) = record options known name size fields := by
  have entries (ident : String) : dictionary options name ident (fields.map view.field) =
      dictionary options name ident fields := by
    have each := mapM_look view (f := hintEntry options) (fun field => by
      rw [hintEntry, hintEntry, View.field, hint_look]) fields
    rw [dictionary, dictionary, each]
  have helpers (ident : String) : (fields.map view.field).mapM (unionHelpers options known ident) =
      fields.mapM (unionHelpers options known ident) :=
    mapM_look view (unionHelpers_look view options known ident) fields
  unfold record
  simp only [entries, helpers, fieldsReader_look, fieldsWriter_look]

theorem signatureHint_look (result : CType) (parameters : List (Parameter CType)) :
    signatureHint (view.look result) (parameters.map view.parameter) =
      signatureHint result parameters := by
  rw [signatureHint, signatureHint, hint_look, hints_look]

/-- What a pointer to a record needs is read off the header of the record alone. -/
theorem behind_look {α : Type} (type : CType) (given : Header → α) (other : α)
    (same : ∀ header, given (view.mark header) = given header) :
    (match view.look type with
      | .record header _ => given header
      | _ => other) =
    match type with
      | .record header _ => given header
      | _ => other := by
  cases type with
  | record header fields => simpa using same header
  | synonym _ _ transparent => cases transparent <;> simp
  | _ => simp

theorem forM_look (graph : Graph) {step : Label × CType → Emitting Unit}
    (same : ∀ name type, step (name, view.look type) = step (name, type)) :
    (graph.seen view).declarations.forM step = graph.declarations.forM step := by
  have walk (entries : Table Label CType) :
      (entries.map fun entry => (entry.1, view.look entry.2)).forM step = entries.forM step := by
    induction entries with
    | nil => rfl
    | cons entry rest ih =>
      rw [List.map_cons, List.forM, List.forM, same, ih]
  exact walk graph.declarations

end

section
variable {view : View} (options : Options) (known : List Marshaler) (legible : Legible view)
include legible

theorem synonym_look (name : Label) (target : CType) :
    synonym options known name (view.look target) = synonym options known name target := by
  have marshaler (direction : Direction) (ident : String) :
      aliasMarshaler options known direction ident (view.look target) =
        aliasMarshaler options known direction ident target := by
    rw [aliasMarshaler, aliasMarshaler, access_look]
  unfold synonym
  rw [hint_look, isVoid_look legible]
  simp only [marshaler]

theorem synonym_aim (name own : Label) (target : CType) :
    synonym options known name (view.aim own target) = synonym options known name target := by
  have marshaler (direction : Direction) (ident : String) :
      aliasMarshaler options known direction ident (view.aim own target) =
        aliasMarshaler options known direction ident target := by
    rw [aliasMarshaler, aliasMarshaler, legible.access]
  unfold synonym
  rw [legible.hint, isVoid, legible.unaliased, ← isVoid]
  simp only [marshaler]

theorem declaration_look (name : Label) (type : CType) :
    declaration options known name (view.look type) = declaration options known name type := by
  cases type with
  | builtin => rw [view.builtin]; rfl
  | synonym header target transparent =>
    cases transparent with
    | true =>
      rw [view.given]
      exact synonym_look options known legible name target
    | false =>
      rw [view.named]
      exact (synonym_aim options known legible name header.name _).trans
        (synonym_look options known legible name target)
  | pointer header base isConst =>
    cases base with
    | none => rw [view.handle]; rfl
    | some base =>
      rw [view.pointer]
      simp only [declaration, pointer, pointerHintTo, hint_look]
  | array => rw [view.array]; rfl
  | enum => rw [view.enum]; rfl
  | record header fields =>
    rw [view.look_record, declaration, declaration, view.size, record_look]
  | union => rw [view.union]; rfl
  | signature header result parameters =>
    rw [view.look_signature]
    simp only [declaration, function, signatureHint_look]
  | callback => rw [view.callback]; rfl
  | bare => rw [view.bare]; rfl

theorem callbackHalf_look (direction : Direction) (name : Label) (result : CType)
    (parameters : List (Parameter CType)) :
    callbackHalf options direction name (view.look result) (parameters.map view.parameter) =
      callbackHalf options direction name result parameters := by
  unfold callbackHalf
  rw [prototype_look legible]

theorem symbolEntry_look (name : Label) (result : CType) (parameters : List (Parameter CType)) :
    symbolEntry options name (view.look result) (parameters.map view.parameter) =
      symbolEntry options name result parameters := by
  rw [symbolEntry, symbolEntry, resultDescriptorOf, resultDescriptorOf, carrierOf_look legible,
    descriptorsOf_look legible]

theorem argument_look (index : Nat) (parameter : Parameter CType) :
    argument options known index (view.parameter parameter) =
      argument options known index parameter := by
  unfold argument View.parameter
  simp only [hint_look, carrierOf_look legible, unaliased_look legible, pointee_look legible]
  refine bind_congr fun passed => bind_congr fun hinted => bind_congr fun carrier => ?_
  split
  · rfl
  cases parameter.type.unaliased with
  | callback => simp only [View.look_callback, prototype_look legible]
  | synonym _ _ transparent =>
    cases transparent <;> simp only [View.given, View.named] <;> apply behind_look <;> simp
  | _ =>
    simp only [View.builtin, View.look_pointer, View.array, View.enum, View.look_record, View.look_union,
      View.look_signature, View.bare]
    apply behind_look
    simp

theorem arguments_look (index : Nat) (parameters : List (Parameter CType)) :
    arguments options known index (parameters.map view.parameter) =
      arguments options known index parameters := by
  induction parameters generalizing index with
  | nil => rfl
  | cons parameter rest ih =>
    rw [List.map_cons, arguments, arguments, argument_look options known legible, ih]

theorem callable_look (name : Label) (result : CType) (parameters : List (Parameter CType)) :
    callable options known name (view.look result) (parameters.map view.parameter) =
      callable options known name result parameters := by
  unfold callable
  rw [carrierOf_look legible, arguments_look options known legible, hint_look]

end

section
variable {view : View} (options : Options) (legible : Legible view)
include legible

omit legible in
theorem emitEntry_other {name : Label} {type : CType} (other : type.kind ∉ ["alias", "func_pointer"]) :
    emitEntry options name type = emitDeclaration options name type := by
  cases type with
  | synonym | callback => simp [kind] at other
  | _ => rfl

theorem emitEntry_look (name : Label) (type : CType) :
    emitEntry options name (view.look type) = emitEntry options name type := by
  have declared (type : CType) :
      emitDeclaration options name (view.look type) = emitDeclaration options name type := by
    unfold emitDeclaration
    simp only [declaration_look options _ legible]
  have half (direction : Direction) (result : CType) (parameters : List (Parameter CType)) :
      emitHalf options direction name (view.look result) (parameters.map view.parameter) =
        emitHalf options direction name result parameters := by
    unfold emitHalf
    simp only [callbackHalf_look options legible]
  by_cases other : type.kind ∉ ["alias", "func_pointer"]
  · rw [emitEntry_other options other, emitEntry_other options (by rwa [view.kind_look]), declared]
  cases type with
  | synonym header target transparent =>
    cases transparent with
    | true => rw [view.given]; rfl
    | false => simpa [emitEntry] using declared (.synonym header target false)
  | callback header own result parameters =>
    simp only [View.look_callback, emitEntry, emitCallback, signatureHint_look, half]
  | _ => simp [kind] at other

variable (graph : Graph)

theorem emitSymbols_look : emitSymbols options (graph.seen view) = emitSymbols options graph := by
  unfold emitSymbols
  refine bind_congr fun _ => bind_congr fun _ => congrArg (· >>= _) ?_
  refine forM_look view graph fun name type => ?_
  cases type with
  | signature header result parameters => simp only [View.look_signature, symbolEntry_look options legible]
  | synonym _ _ transparent => cases transparent <;> simp
  | _ => simp

theorem emitCallables_look : emitCallables options (graph.seen view) = emitCallables options graph := by
  refine forM_look view graph fun name type => ?_
  cases type with
  | signature header result parameters => simp only [View.look_signature, callable_look options _ legible]
  | synonym _ _ transparent => cases transparent <;> simp
  | _ => simp

/-- A module is the same through a legible view. -/
theorem generate_look : generate options (graph.seen view) = generate options graph := by
  have entries : ((graph.seen view).declarations.forM fun entry => emitEntry options entry.1 entry.2) =
      graph.declarations.forM fun entry => emitEntry options entry.1 entry.2 :=
    forM_look view graph (emitEntry_look options legible)
  unfold generate emitModule
  simp only [entries, emitSymbols_look options legible, emitCallables_look options legible]

end

end NativeBindings.Emit
