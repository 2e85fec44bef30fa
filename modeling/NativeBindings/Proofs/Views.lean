import NativeBindings.Graph

/-!
Views of types. A view leaves out a part of a type, such as its serial numbers, and goes through the
type by its constructors; names and sizes stay in sight.
-/
namespace NativeBindings

namespace CType

/-- A way to look at types. `mark` tells how a header looks, `aim` how an alias of a name sees its
target. -/
structure View where
  look : CType → CType
  mark : Header → Header
  aim : Label → CType → CType
  name : ∀ header, (mark header).name = header.name
  size : ∀ header, (mark header).size = header.size
  builtin : ∀ header carrier, look (builtin header carrier) = builtin (mark header) carrier
  given : ∀ header target, look (synonym header target true) = synonym (mark header) (look target) true
  named : ∀ header target,
    look (synonym header target false) = synonym (mark header) (aim header.name (look target)) false
  handle : ∀ header isConst, look (pointer header none isConst) = pointer (mark header) none isConst
  pointer : ∀ header base isConst,
    look (pointer header (some base) isConst) = pointer (mark header) (some (look base)) isConst
  array : ∀ header item length, look (array header item length) = array (mark header) (look item) length
  enum : ∀ header fields, look (enum header fields) = enum (mark header) fields
  record : ∀ header fields, look (record header fields) =
    record (mark header) (fields.map fun field => { field with type := look field.type })
  union : ∀ header variants, look (union header variants) =
    union (mark header) (variants.map fun field => { field with type := look field.type })
  signature : ∀ header result parameters, look (signature header result parameters) =
    signature (mark header) (look result)
      (parameters.map fun parameter => { parameter with type := look parameter.type })
  callback : ∀ header own result parameters, look (callback header own result parameters) =
    callback (mark header) own (look result)
      (parameters.map fun parameter => { parameter with type := look parameter.type })
  bare : ∀ header, look (bare header) = bare (mark header)

namespace View

variable (view : View)

def field (field : Field CType) : Field CType := { field with type := view.look field.type }

def parameter (parameter : Parameter CType) : Parameter CType :=
  { parameter with type := view.look parameter.type }

attribute [simp] name size builtin given named array enum bare

@[simp] theorem look_pointer (header : Header) (base : Option CType) (isConst : Bool) :
    view.look (.pointer header base isConst) =
      .pointer (view.mark header) (base.map view.look) isConst := by
  cases base with
  | none => exact view.handle header isConst
  | some base => exact view.pointer header base isConst

@[simp] theorem look_record (header : Header) (fields : List (Field CType)) :
    view.look (.record header fields) = .record (view.mark header) (fields.map view.field) :=
  view.record header fields

@[simp] theorem look_union (header : Header) (variants : List (Field CType)) :
    view.look (.union header variants) = .union (view.mark header) (variants.map view.field) :=
  view.union header variants

@[simp] theorem look_signature (header : Header) (result : CType) (parameters : List (Parameter CType)) :
    view.look (.signature header result parameters) =
      .signature (view.mark header) (view.look result) (parameters.map view.parameter) :=
  view.signature header result parameters

@[simp] theorem look_callback (header own : Header) (result : CType) (parameters : List (Parameter CType)) :
    view.look (.callback header own result parameters) =
      .callback (view.mark header) own (view.look result) (parameters.map view.parameter) :=
  view.callback header own result parameters

@[simp] theorem header_look (type : CType) : (view.look type).header = view.mark type.header := by
  cases type with
  | synonym _ _ transparent => cases transparent <;> simp [header]
  | _ => simp [header]

@[simp] theorem name_look (type : CType) : (view.look type).name = type.name := by
  simp [CType.name]

@[simp] theorem size_look (type : CType) : (view.look type).size = type.size := by
  simp [CType.size]

@[simp] theorem kind_look (type : CType) : (view.look type).kind = type.kind := by
  cases type with
  | synonym _ _ transparent => cases transparent <;> simp [kind]
  | _ => simp [kind]

theorem same_pointer {base base' : Option CType} (same : base.map view.look = base'.map view.look)
    (header : Header) (isConst : Bool) :
    view.look (.pointer header base isConst) = view.look (.pointer header base' isConst) := by
  rw [look_pointer, look_pointer, same]

theorem same_record {fields fields' : List (Field CType)}
    (same : fields.map view.field = fields'.map view.field) (header : Header) :
    view.look (.record header fields) = view.look (.record header fields') := by
  rw [look_record, look_record, same]

theorem same_union {variants variants' : List (Field CType)}
    (same : variants.map view.field = variants'.map view.field) (header : Header) :
    view.look (.union header variants) = view.look (.union header variants') := by
  rw [look_union, look_union, same]

theorem same_signature {result result' : CType} {parameters parameters' : List (Parameter CType)}
    (same : view.look result = view.look result')
    (alike : parameters.map view.parameter = parameters'.map view.parameter) (header : Header) :
    view.look (.signature header result parameters) =
      view.look (.signature header result' parameters') := by
  rw [look_signature, look_signature, same, alike]

theorem same_callback {result result' : CType} {parameters parameters' : List (Parameter CType)}
    (same : view.look result = view.look result')
    (alike : parameters.map view.parameter = parameters'.map view.parameter) (header own : Header) :
    view.look (.callback header own result parameters) =
      view.look (.callback header own result' parameters') := by
  rw [look_callback, look_callback, same, alike]

section
variable {view} {type type' : CType} (same : view.look type = view.look type')
include same

theorem same_name : type.name = type'.name := by
  rw [← view.name_look type, same, view.name_look]

theorem same_size : type.size = type'.size := by
  rw [← view.size_look type, same, view.size_look]

theorem same_alias (header : Header) :
    view.look (.synonym header type false) = view.look (.synonym header type' false) := by
  rw [view.named, view.named, same]

end

/-- A synonym of the language is seen as one. -/
theorem given_of_look {view : View} {header : Header} {target other : CType}
    (same : view.look other = .synonym header target true) :
    ∃ header' target', other = .synonym header' target' true ∧ view.look target' = target := by
  cases other with
  | synonym header' target' transparent =>
    cases transparent with
    | true =>
      rw [view.given] at same
      exact ⟨header', target', rfl, (synonym.inj same).2.1⟩
    | false =>
      rw [view.named] at same
      exact absurd (synonym.inj same).2.2 (by simp)
  | _ => simp at same

section
variable {view} {type type' : CType} (same : view.look type = view.look type')
include same

/-- Of two types that look the same both are synonyms of the language, or neither is. -/
theorem same_given :
    (∃ header target header' target', type = .synonym header target true ∧
      type' = .synonym header' target' true ∧ view.look target = view.look target') ∨
    (∀ header target, type ≠ .synonym header target true) ∧
      ∀ header target, type' ≠ .synonym header target true := by
  by_cases left : ∃ header target, type = .synonym header target true
  · obtain ⟨header, target, rfl⟩ := left
    obtain ⟨header', target', rfl, targets⟩ := given_of_look (same.symm.trans (view.given header target))
    exact .inl ⟨header, target, header', target', rfl, rfl, targets.symm⟩
  · refine .inr ⟨fun header target given => left ⟨header, target, given⟩, ?_⟩
    rintro header target rfl
    obtain ⟨header', target', rfl, -⟩ := given_of_look (same.trans (view.given header target))
    exact left ⟨header', target', rfl⟩

theorem same_use : view.look type.use = view.look type'.use := by
  have wrapped {type : CType} (plain : ∀ header target, type ≠ .synonym header target true) :
      type.use = .synonym { name := type.name, size := type.size } type false := by
    unfold use
    split
    next header target => exact absurd rfl (plain header target)
    next => rfl
  obtain ⟨header, target, header', target', rfl, rfl, targets⟩ | ⟨plain, plain'⟩ := same_given same
  · exact targets
  · rw [wrapped plain, wrapped plain', same_name same, same_size same]
    exact same_alias same _

end

end View

end CType

namespace Graph

variable (view : CType.View) (graph : Graph)

/-- A graph as a view shows it. -/
def seen : Graph :=
  { graph with declarations := graph.declarations.map fun entry => (entry.1, view.look entry.2) }

theorem find?_seen (name : Label) : (graph.seen view).find? name = (graph.find? name).map view.look := by
  unfold find? seen
  induction graph.declarations with
  | nil => rfl
  | cons entry rest ih =>
    rw [List.map_cons, Table.find?, Table.find?, ih]
    split
    · rfl
    · rfl

theorem has_seen (name : Label) : (graph.seen view).has name = graph.has name := by
  have same := congrArg Option.isSome (graph.find?_seen view name)
  rw [Option.isSome_map] at same
  exact same

theorem names_seen : (graph.seen view).names = graph.names := by
  rw [names, names, Table.keys, Table.keys, seen, List.map_map]
  rfl

theorem isPointerTo_look (base : Label) (isConst : Bool) (type : CType) :
    isPointerTo base isConst (view.look type) = isPointerTo base isConst type := by
  cases type with
  | pointer header target const => cases target <;> simp [isPointerTo]
  | synonym _ _ transparent => cases transparent <;> simp [isPointerTo]
  | _ => simp [isPointerTo]

theorem findPointer_seen (base : Label) (isConst : Bool) :
    (graph.seen view).findPointer base isConst = (graph.findPointer base isConst).map view.look := by
  have values : Table.values (graph.seen view).declarations =
      (Table.values graph.declarations).map view.look := by
    simp [Table.values, seen]
  rw [findPointer, findPointer, values, List.find?_map]
  congr 2
  funext type
  exact isPointerTo_look view base isConst type

end Graph

end NativeBindings
