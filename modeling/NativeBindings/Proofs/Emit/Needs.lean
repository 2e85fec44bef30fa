import NativeBindings.Proofs.Emit.Callables
import NativeBindings.Proofs.Emit.StraightModule
import NativeBindings.Proofs.Refinement

/-!
The marshalers that a declaration needs. Where it can be made, it can be made as well with other
marshalers, as long as these have all that it needs; so what is known beyond that, and in which order,
does not count.
-/
namespace NativeBindings.Emit

open Outcome

/-- The names whose marshalers make up the access to a type. -/
def accessed : CType → List Label
  | .synonym header target transparent => if transparent then accessed target else [header.name]
  | .array _ item _ => accessed item
  | .pointer header _ _ => if header.name.isNull then [] else [header.name]
  | type => [type.name]

/-- The names whose marshalers a member needs. Within a union, another union has helpers of its own. -/
def memberNeeds (field : Field CType) : List Label :=
  match meaning field.type with
  | .union _ _ => []
  | type => accessed type

def fieldNeeds (field : Field CType) : List Label :=
  match meaning field.type with
  | .union _ variants => variants.flatMap memberNeeds
  | type => accessed type

/-- The names whose marshalers a declaration needs: those of what it holds by value. -/
def needs : CType → List Label
  | .synonym _ target false => accessed target
  | .record _ fields => fields.flatMap fieldNeeds
  | _ => []

/-! ### Views of what is needed -/

section
variable {view : CType.View} (accesses : ∀ own target, accessed (view.aim own target) = accessed target)

theorem accessed_look (type : CType) : accessed (view.look type) = accessed type := by
  fun_induction accessed type with
  | case1 header target ih => rw [view.given, accessed, if_pos rfl, ih]
  | case2 header target transparent named =>
    obtain rfl : transparent = false := Bool.eq_false_iff.mpr named
    rw [view.named, accessed, if_neg named, view.name]
  | case3 header item length ih => rw [view.array, accessed, ih]
  | case4 header base isConst unnamed => rw [view.look_pointer, accessed, view.name, if_pos unnamed]
  | case5 header base isConst named => rw [view.look_pointer, accessed, view.name, if_neg named]
  | case6 type notSynonym notArray notPointer =>
    cases type with
    | synonym => exact absurd rfl (notSynonym _ _ _)
    | array => exact absurd rfl (notArray _ _ _)
    | pointer => exact absurd rfl (notPointer _ _ _)
    | _ => simp [accessed, CType.name, CType.header]

theorem memberNeeds_look (field : Field CType) : memberNeeds (view.field field) = memberNeeds field := by
  have inner : meaning (view.field field).type = view.look (meaning field.type) :=
    meaning_look view field.type
  unfold memberNeeds
  rw [inner]
  have plain := @accessed_look view (meaning field.type)
  cases shape : meaning field.type with
  | union header variants => rw [view.look_union]
  | synonym header target transparent =>
    rw [shape] at plain
    cases transparent <;> simpa using plain
  | _ =>
    rw [shape] at plain
    simpa using plain

theorem fieldNeeds_look (field : Field CType) : fieldNeeds (view.field field) = fieldNeeds field := by
  have inner : meaning (view.field field).type = view.look (meaning field.type) :=
    meaning_look view field.type
  unfold fieldNeeds
  rw [inner]
  have plain := @accessed_look view (meaning field.type)
  cases shape : meaning field.type with
  | union header variants =>
    rw [view.look_union]
    dsimp only
    rw [List.flatMap_map]
    exact List.flatMap_congr fun variant _ => memberNeeds_look variant
  | synonym header target transparent =>
    rw [shape] at plain
    cases transparent <;> simpa using plain
  | _ =>
    rw [shape] at plain
    simpa using plain

include accesses in
/-- A view in which aliases access the same shows the same needs. -/
theorem needs_look (type : CType) : needs (view.look type) = needs type := by
  cases type with
  | synonym header target transparent =>
    cases transparent with
    | true => rw [view.given]; rfl
    | false =>
      rw [view.named]
      exact (accesses _ _).trans (accessed_look target)
  | record header fields =>
    rw [view.look_record, needs, needs, List.flatMap_map]
    exact List.flatMap_congr fun field _ => fieldNeeds_look field
  | _ => simp [needs]

end

theorem accessed_aliasTarget (own : Label) (target : CType) :
    accessed (CType.aliasTarget own target) = accessed target := by
  rcases aliasTarget_cases own target with same | ⟨inner, header, fields, rfl, held, named, -⟩
  · rw [same]
  · rw [held, accessed, if_neg (by simp), named]
    simp [accessed, CType.name, CType.header]

/-! ### Marshalers -/

/-- Marshalers that serve wherever others do, for some names. -/
def Serves (names : List Label) (known known' : List Marshaler) : Prop :=
  ∀ name ∈ names, ∀ ident, identText name = .ok ident →
    ∀ direction, { direction, ident } ∈ known → { direction, ident } ∈ known'

section
variable {options : Options} {known known' : List Marshaler} {names others : List Label}

theorem serves_of_subset (subset : known ⊆ known') (names : List Label) : Serves names known known' :=
  fun _ _ _ _ _ member => subset member

theorem Serves.mono (serves : Serves names known known') (within : others ⊆ names) :
    Serves others known known' := fun name member => serves name (within member)

theorem Serves.flatMap {α : Type} {items : List α} {f : α → List Label} {item : α}
    (serves : Serves (items.flatMap f) known known') (member : item ∈ items) :
    Serves (f item) known known' :=
  serves.mono fun _ inside => List.mem_flatMap.mpr ⟨item, member, inside⟩

/-! ### Accesses -/

theorem marshaler_served {direction : Direction} {name : Label} (serves : Serves [name] known known') :
    Matches Eq (marshaler known direction name) (marshaler known' direction name) := by
  refine matches_bind fun ident named => ?_
  dsimp only
  split
  next here =>
    have there := serves name List.mem_cons_self ident named direction (List.contains_iff_mem.mp here)
    rw [if_pos (List.contains_iff_mem.mpr there)]
    exact matches_pure rfl
  next => exact matches_error

theorem namedMarshaler_served {direction : Direction} {type : CType}
    (serves : Serves [type.name] known known') :
    Matches Eq (namedMarshaler known direction type) (namedMarshaler known' direction type) := by
  unfold namedMarshaler
  split
  · exact matches_error
  · exact marshaler_served serves

theorem access_served {direction : Direction} {type : CType} (serves : Serves (accessed type) known known') :
    Matches Eq (access known direction type) (access known' direction type) := by
  fun_induction accessed type with
  | case1 header target ih =>
    unfold access
    exact ih serves
  | case2 header target transparent named =>
    unfold access
    rw [if_neg named, if_neg named]
    exact @namedMarshaler_served _ _ _ (.synonym header target transparent) serves
  | case3 header item length ih =>
    unfold access
    refine (ih serves).bind fun inner _ same => ?_
    subst same
    exact matches_refl _
  | case4 header base isConst unnamed =>
    unfold access
    rw [if_pos unnamed, if_pos unnamed]
    exact matches_refl _
  | case5 header base isConst named =>
    unfold access
    rw [if_neg named, if_neg named]
    exact @namedMarshaler_served _ _ _ (.pointer header base isConst) serves
  | case6 type notSynonym notArray notPointer =>
    have plain (known : List Marshaler) :
        access known direction type = namedMarshaler known direction type := by
      unfold access
      split
      · exact absurd rfl (notSynonym _ _ _)
      · exact absurd rfl (notArray _ _ _)
      · exact absurd rfl (notPointer _ _ _)
      · rfl
    rw [plain, plain]
    exact namedMarshaler_served serves

/-! ### Members -/

variable {owner : String} {field : Field CType}

theorem memberNeeds_plain (plain : ∀ header variants, meaning field.type ≠ .union header variants) :
    memberNeeds field = accessed (meaning field.type) := by
  unfold memberNeeds
  split
  next header variants union => exact absurd union (plain header variants)
  next => rfl

theorem memberNeeds_array {header : Header} {item : CType} {length : Amount}
    (array : meaning field.type = .array header item length) : memberNeeds field = accessed item := by
  rw [memberNeeds, array]
  rfl

theorem fieldRead_served (serves : Serves (memberNeeds field) known known') :
    Matches Eq (fieldRead known owner field) (fieldRead known' owner field) := by
  refine matches_bind fun place _ => ?_
  dsimp only
  split
  next => exact matches_refl _
  next header item length array =>
    rw [memberNeeds_array array] at serves
    refine (access_served serves).bind fun inner _ same => ?_
    subst same
    exact matches_refl _
  next type notUnion _ =>
    rw [memberNeeds_plain notUnion] at serves
    refine (access_served serves).bind fun function _ same => ?_
    subst same
    exact matches_refl _

theorem fieldWrite_served (serves : Serves (memberNeeds field) known known') :
    Matches Eq (fieldWrite known owner field) (fieldWrite known' owner field) := by
  refine matches_bind fun place _ => ?_
  dsimp only
  split
  next => exact matches_refl _
  next header item length array =>
    rw [memberNeeds_array array] at serves
    refine (access_served serves).bind fun inner _ same => ?_
    subst same
    exact matches_refl _
  next type notUnion _ =>
    rw [memberNeeds_plain notUnion] at serves
    refine (access_served serves).bind fun function _ same => ?_
    subst same
    exact matches_refl _

/-- Computations that do as well on every item of a list. -/
theorem matches_mapM {ε α β : Type} {f g : α → Except ε β} {items : List α}
    (each : ∀ item ∈ items, Matches Eq (f item) (g item)) : Matches Eq (items.mapM f) (items.mapM g) := by
  induction items with
  | nil => exact matches_refl _
  | cons item rest ih =>
    rw [List.forall_mem_cons] at each
    rw [List.mapM_cons, List.mapM_cons]
    refine each.1.bind fun value _ same => (ih each.2).bind fun values _ same' => ?_
    subst same same'
    exact matches_refl _

theorem direct_served {direction : Direction} {lines lines' : Except Fault (List Fragment)}
    (served : Matches Eq lines lines') :
    Matches Eq (direct options direction lines) (direct options direction lines') := by
  cases direction with
  | reading =>
    unfold direct
    dsimp only
    split
    · exact served
    · exact matches_refl _
  | writing =>
    unfold direct
    dsimp only
    split
    · exact served
    · exact matches_refl _

section
variable {result : String} {fields : List (Field CType)}
  (serves : ∀ field ∈ fields, Serves (memberNeeds field) known known')
include serves

theorem fieldsReader_served : Matches Eq (fieldsReader options known owner result fields)
    (fieldsReader options known' owner result fields) := by
  refine direct_served ((matches_mapM fun field member => ?_).bind fun entries _ same => ?_)
  · refine (fieldRead_served (serves field member)).bind fun value _ same => ?_
    subst same
    exact matches_refl _
  · subst same
    exact matches_refl _

theorem fieldsWriter_served : Matches Eq (fieldsWriter options known owner result fields)
    (fieldsWriter options known' owner result fields) := by
  refine direct_served ((matches_mapM fun field member => ?_).bind fun entries _ same => ?_)
  · refine (fieldWrite_served (serves field member)).bind fun value _ same => ?_
    subst same
    exact matches_refl _
  · subst same
    exact matches_refl _

end

/-! ### Declarations -/

theorem memberNeeds_subset (field : Field CType) : memberNeeds field ⊆ fieldNeeds field := by
  unfold memberNeeds fieldNeeds
  split
  · exact List.nil_subset _
  · exact List.Subset.refl _

theorem unionHelpers_served (serves : Serves (fieldNeeds field) known known') :
    Matches Eq (unionHelpers options known owner field) (unionHelpers options known' owner field) := by
  unfold unionHelpers
  unfold fieldNeeds at serves
  split
  next header variants union =>
    rw [union] at serves
    have each : ∀ variant ∈ variants, Serves (memberNeeds variant) known known' :=
      fun variant member => serves.flatMap member
    refine (fieldsReader_served each).bind fun readers _ same => ?_
    subst same
    refine (fieldsWriter_served each).bind fun writers _ same => ?_
    subst same
    exact matches_refl _
  next => exact matches_refl _

theorem record_served {name : Label} {size : Amount} {fields : List (Field CType)}
    (serves : Serves (fields.flatMap fieldNeeds) known known') :
    Matches Eq (record options known name size fields) (record options known' name size fields) := by
  have each : ∀ field ∈ fields, Serves (memberNeeds field) known known' :=
    fun field member => (serves.flatMap member).mono (memberNeeds_subset field)
  refine matches_bind fun ident _ => matches_bind fun dictionary _ => ?_
  refine (matches_mapM fun field member => unionHelpers_served (serves.flatMap member)).bind
    fun helpers _ same => ?_
  subst same
  refine (fieldsReader_served each).bind fun readers _ same => ?_
  subst same
  refine (fieldsWriter_served each).bind fun writers _ same => ?_
  subst same
  exact matches_refl _

theorem synonym_served {name : Label} {target : CType} (serves : Serves (accessed target) known known') :
    Matches Eq (synonym options known name target) (synonym options known' name target) := by
  have marshaler (direction : Direction) (ident : String) :
      Matches Eq (aliasMarshaler options known direction ident target)
        (aliasMarshaler options known' direction ident target) := by
    refine direct_served ((access_served serves).bind fun function _ same => ?_)
    subst same
    exact matches_refl _
  refine matches_bind fun ident _ => matches_bind fun hint _ => ?_
  dsimp only
  split
  · exact matches_refl _
  · refine (marshaler .reading ident).bind fun readers _ same => ?_
    subst same
    refine (marshaler .writing ident).bind fun writers _ same => ?_
    subst same
    exact matches_refl _

theorem declaration_served {name : Label} {type : CType} (serves : Serves (needs type) known known')
    (declared : ∀ header target, type ≠ .synonym header target true) :
    Matches Eq (declaration options known name type) (declaration options known' name type) := by
  cases type with
  | synonym header target transparent =>
    cases transparent with
    | true => exact absurd rfl (declared header target)
    | false => exact synonym_served serves
  | record header fields => exact record_served serves
  | _ => exact matches_refl _

/-- The marshalers of a declaration have the identifier of its name. -/
theorem declaration_ident {name : Label} {type : CType} {rendered : Rendered}
    (made : declaration options known name type = .ok rendered) {own : String}
    (found : rendered.ident = some own) : identText name = .ok own := by
  cases type with
  | builtin header carrier =>
    obtain ⟨ident, named, made⟩ := bind_eq_ok.mp made
    dsimp only at made
    split at made
    · obtain rfl := Except.ok.inj made
      cases found
    · obtain rfl := Except.ok.inj made
      exact Option.some.inj found ▸ named
  | enum header fields =>
    obtain ⟨ident, named, made⟩ := bind_eq_ok.mp made
    obtain ⟨values, -, made⟩ := bind_eq_ok.mp made
    obtain rfl := Except.ok.inj made
    exact Option.some.inj found ▸ named
  | synonym header target transparent =>
    obtain ⟨ident, named, made⟩ := bind_eq_ok.mp made
    obtain ⟨hint, -, made⟩ := bind_eq_ok.mp made
    dsimp only at made
    split at made
    · obtain rfl := Except.ok.inj made
      cases found
    · obtain ⟨readers, -, made⟩ := bind_eq_ok.mp made
      obtain ⟨writers, -, made⟩ := bind_eq_ok.mp made
      obtain rfl := Except.ok.inj made
      exact Option.some.inj found ▸ named
  | pointer header base isConst =>
    obtain ⟨ident, named, made⟩ := bind_eq_ok.mp made
    obtain ⟨hint, -, made⟩ := bind_eq_ok.mp made
    obtain rfl := Except.ok.inj made
    exact Option.some.inj found ▸ named
  | signature header result parameters =>
    have made : function options name result parameters = .ok rendered := made
    unfold function at made
    split at made
    · obtain ⟨ident, named, made⟩ := bind_eq_ok.mp made
      obtain ⟨hint, -, made⟩ := bind_eq_ok.mp made
      obtain rfl := Except.ok.inj made
      cases found
    · obtain rfl := Except.ok.inj made
      cases found
  | record header fields =>
    obtain ⟨ident, named, made⟩ := bind_eq_ok.mp made
    obtain ⟨dictionary, -, made⟩ := bind_eq_ok.mp made
    obtain ⟨helpers, -, made⟩ := bind_eq_ok.mp made
    obtain ⟨readers, -, made⟩ := bind_eq_ok.mp made
    obtain ⟨writers, -, made⟩ := bind_eq_ok.mp made
    obtain ⟨size, -, made⟩ := bind_eq_ok.mp made
    obtain rfl := Except.ok.inj made
    exact Option.some.inj found ▸ named
  | _ => cases made

/-! ### Callables -/

section
variable (subset : known ⊆ known')
include subset

theorem argument_served (index : Nat) (parameter : Parameter CType) :
    Matches Eq (argument options known index parameter) (argument options known' index parameter) := by
  unfold argument
  refine matches_bind fun passed _ => matches_bind fun hint _ => matches_bind fun carrier _ => ?_
  dsimp only
  split
  · exact matches_refl _
  split
  · exact matches_refl _
  split
  · split
    · exact matches_refl _
    · refine (marshaler_served (serves_of_subset subset _)).bind fun function _ same => ?_
      subst same
      exact matches_refl _
  · exact matches_refl _

theorem arguments_served (index : Nat) (parameters : List (Parameter CType)) :
    Matches Eq (arguments options known index parameters) (arguments options known' index parameters) := by
  induction parameters generalizing index with
  | nil => exact matches_refl _
  | cons parameter rest ih =>
    refine (argument_served subset index parameter).bind fun first _ same => ?_
    refine (ih (index + 1)).bind fun others _ same' => ?_
    subst same same'
    exact matches_refl _

theorem callableOf_served (function : Function) :
    Matches Eq (callableOf options known function) (callableOf options known' function) := by
  refine matches_bind fun ident _ => matches_bind fun carrier _ => ?_
  refine (arguments_served subset 0 _).bind fun made _ same => ?_
  subst same
  exact matches_refl _

end

end

end NativeBindings.Emit
