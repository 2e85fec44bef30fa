import NativeBindings.Proofs.Views
import NativeBindings.Resolve.Typedef

/-!
Graphs that look the same through a view. What a resolution looks up in such graphs looks the same
again.
-/
namespace NativeBindings

namespace Resolve

open Json

section
variable {ε α β γ δ : Type} {g : γ → δ}

/-- Two computations that go on alike from values that look the same. -/
theorem map_bind_alike {first first' : Except ε α} {look : α → β} {next next' : α → Except ε γ}
    (starts : first.map look = first'.map look)
    (rest : ∀ value value', look value = look value' → (next value).map g = (next' value').map g) :
    (first >>= next).map g = (first' >>= next').map g := by
  cases first with
  | error fault =>
    cases first' with
    | error fault' => exact congrArg Except.error (Except.error.inj starts)
    | ok value' => cases starts
  | ok value =>
    cases first' with
    | error fault' => cases starts
    | ok value' => exact rest value value' (Except.ok.inj starts)

/-- Two computations with a common start. -/
theorem map_bind_congr {first : Except ε α} {next next' : α → Except ε γ}
    (rest : ∀ value, (next value).map g = (next' value).map g) :
    (first >>= next).map g = (first >>= next').map g := by
  have starts : first.map id = first.map id := rfl
  refine map_bind_alike starts fun value value' same => ?_
  obtain rfl : value = value' := same
  exact rest value

end

/-- Two graphs in which the same names are found, with types that look the same. -/
structure Sees (view : CType.View) (graph graph' : Graph) : Prop where
  find? : ∀ name, (graph.find? name).map view.look = (graph'.find? name).map view.look
  findPointer : ∀ base isConst,
    (graph.findPointer base isConst).map view.look = (graph'.findPointer base isConst).map view.look

theorem sees_of_seen {view : CType.View} {graph graph' : Graph} (same : graph.seen view = graph'.seen view) :
    Sees view graph graph' where
  find? name := (graph.find?_seen view name).symm.trans
    ((congrArg (·.find? name) same).trans (graph'.find?_seen view name))
  findPointer base isConst := (graph.findPointer_seen view base isConst).symm.trans
    ((congrArg (·.findPointer base isConst) same).trans (graph'.findPointer_seen view base isConst))

section
variable {view : CType.View} {graph graph' : Graph} (sees : Sees view graph graph')
include sees

theorem Sees.has : graph.has = graph'.has := by
  funext name
  have same := congrArg Option.isSome (sees.find? name)
  rw [Option.isSome_map, Option.isSome_map] at same
  exact same

theorem Sees.find (name : Label) : (graph.find name).map view.look = (graph'.find name).map view.look := by
  refine map_bind_congr fun key => ?_
  have same := sees.find? key
  cases found : graph.find? key with
  | some type =>
    rw [found] at same
    cases found' : graph'.find? key with
    | some type' =>
      rw [found'] at same
      exact congrArg Except.ok (Option.some.inj same)
    | none =>
      rw [found'] at same
      cases same
  | none =>
    rw [found] at same
    cases found' : graph'.find? key with
    | some type' =>
      rw [found'] at same
      cases same
    | none => rfl

theorem Sees.use (name : Label) : (graph.use name).map view.look = (graph'.use name).map view.look := by
  have same := sees.find name
  unfold Graph.use
  generalize graph.find name = found at same
  generalize graph'.find name = found' at same
  cases found with
  | error fault =>
    cases found' with
    | error fault' => exact same
    | ok type' => cases same
  | ok type =>
    cases found' with
    | error fault' => cases same
    | ok type' => exact congrArg Except.ok (CType.View.same_use (Except.ok.inj same))

theorem pointeeBy_alike {inner inner' : String → Except Fault CType} (base : String)
    (same : (inner base).map view.look = (inner' base).map view.look) :
    (pointeeBy inner graph base).map (Option.map view.look) =
      (pointeeBy inner' graph' base).map (Option.map view.look) := by
  have wrap {found found' : Except Fault CType} (same : found.map view.look = found'.map view.look) :
      (found.map some).map (Option.map view.look) = (found'.map some).map (Option.map view.look) := by
    cases found with
    | error fault =>
      cases found' with
      | error fault' => exact congrArg Except.error (Except.error.inj same)
      | ok type' => cases same
    | ok type =>
      cases found' with
      | error fault' => cases same
      | ok type' => exact congrArg (Except.ok ∘ some) (Except.ok.inj same)
  unfold pointeeBy
  split
  · exact wrap same
  · dsimp only
    rw [sees.has]
    split
    · exact wrap (sees.use _)
    · rfl

theorem typeOfWith_alike (fuel depth : Nat) (spelling : String) :
    (typeOfWith graph fuel depth spelling).map view.look =
      (typeOfWith graph' fuel depth spelling).map view.look := by
  induction fuel generalizing depth spelling with
  | zero => rfl
  | succ fuel ih =>
    unfold typeOfWith
    split
    · rfl
    cases Spelling.parse spelling with
    | error fault => rfl
    | ok shape =>
      cases shape with
      | array element length =>
        refine map_bind_alike (ih _ element) fun item item' same => ?_
        rw [CType.View.same_size same]
        exact map_bind_congr fun size => congrArg Except.ok (by rw [view.array, view.array, same])
      | cstring => exact sees.find _
      | pointer base isConst =>
        have same := sees.findPointer (.str base) isConst
        dsimp only
        cases found : graph.findPointer (.str base) isConst with
        | some declared =>
          rw [found] at same
          cases found' : graph'.findPointer (.str base) isConst with
          | some declared' =>
            rw [found'] at same
            exact congrArg Except.ok (CType.View.same_use (Option.some.inj same))
          | none =>
            rw [found'] at same
            cases same
        | none =>
          rw [found] at same
          cases found' : graph'.findPointer (.str base) isConst with
          | some declared' =>
            rw [found'] at same
            cases same
          | none =>
            refine map_bind_alike (pointeeBy_alike sees base (ih (depth + 3) base)) fun target target' same => ?_
            exact congrArg Except.ok (view.same_pointer same _ _)
      | name name => exact sees.use _

theorem typeOf_alike (spelling : String) :
    (typeOf graph spelling).map view.look = (typeOf graph' spelling).map view.look :=
  typeOfWith_alike sees _ 0 spelling

theorem pointeeOf_alike (base : String) :
    (pointeeOf graph base).map (Option.map view.look) = (pointeeOf graph' base).map (Option.map view.look) :=
  pointeeBy_alike sees base (typeOf_alike sees base)

theorem spelledTypeAt_alike (depth : Nat) (node : Json) :
    (spelledTypeAt graph depth node).map view.look = (spelledTypeAt graph' depth node).map view.look :=
  map_bind_congr fun _ => map_bind_congr fun text => typeOfWith_alike sees _ depth text

theorem spelledType_alike (node : Json) :
    (spelledType graph node).map view.look = (spelledType graph' node).map view.look :=
  spelledTypeAt_alike sees 0 node

theorem nodeTypeWith_alike (fuel depth : Nat) (node : Json) :
    (nodeTypeWith graph fuel depth node).map view.look =
      (nodeTypeWith graph' fuel depth node).map view.look := by
  induction fuel generalizing depth node with
  | zero => rfl
  | succ fuel ih =>
    unfold nodeTypeWith
    split
    · rfl
    refine map_bind_congr fun kind => ?_
    split
    · refine map_bind_congr fun spelling => map_bind_alike (sees.find spelling) fun type type' same => ?_
      obtain ⟨header, target, header', target', rfl, rfl, targets⟩ | ⟨plain, plain'⟩ := CType.View.same_given same
      · exact congrArg Except.ok targets
      · split
        · exact absurd rfl (plain _ _)
        · exact congrArg Except.ok same
    split
    · exact map_bind_congr fun _ => map_bind_congr fun name => sees.use name
    split
    · exact spelledTypeAt_alike sees (depth + 1) node
    split
    · exact map_bind_congr fun _ => map_bind_congr fun name => sees.use name
    refine map_bind_congr fun wraps => ?_
    split
    · exact map_bind_congr fun _ => map_bind_congr fun inner => ih (depth + 1) inner
    · rfl

theorem nodeType_alike (node : Json) :
    (nodeType graph node).map view.look = (nodeType graph' node).map view.look :=
  nodeTypeWith_alike sees _ 0 node

theorem variants_alike (nodes : List Json) :
    (variants graph nodes).map (List.map view.field) = (variants graph' nodes).map (List.map view.field) := by
  induction nodes with
  | nil => rfl
  | cons node rest ih =>
    refine map_bind_congr fun skips => ?_
    split
    · exact ih
    refine map_bind_congr fun name => map_bind_congr fun kind => ?_
    split
    · rfl
    refine map_bind_alike (spelledType_alike sees node) fun type type' same => ?_
    refine map_bind_alike ih fun others others' alike => congrArg Except.ok ?_
    rw [List.map_cons, List.map_cons, alike, CType.View.field, CType.View.field, same,
      CType.View.same_size same]

theorem prototypeParameters_alike (nodes : List Json) :
    (prototypeParameters graph nodes).map (List.map view.parameter) =
      (prototypeParameters graph' nodes).map (List.map view.parameter) := by
  induction nodes with
  | nil => rfl
  | cons node rest ih =>
    refine map_bind_congr fun name => map_bind_alike (nodeType_alike sees node) fun type type' same => ?_
    refine map_bind_alike ih fun others others' alike => congrArg Except.ok ?_
    rw [List.map_cons, List.map_cons, alike, CType.View.parameter, CType.View.parameter, same]

theorem functionParameters_alike (nodes : List Json) :
    (functionParameters graph nodes).map (List.map view.parameter) =
      (functionParameters graph' nodes).map (List.map view.parameter) := by
  induction nodes with
  | nil => rfl
  | cons node rest ih =>
    refine map_bind_congr fun kind => ?_
    split
    · exact ih
    refine map_bind_congr fun name => map_bind_alike (spelledType_alike sees node) fun type type' same => ?_
    refine map_bind_alike ih fun others others' alike => congrArg Except.ok ?_
    rw [List.map_cons, List.map_cons, alike, CType.View.parameter, CType.View.parameter, same]

theorem callback_alike (name : Label) (prototype : Json) :
    (callback graph name prototype).map view.look = (callback graph' name prototype).map view.look := by
  refine map_bind_congr fun inner => ?_
  split
  · exact Eq.trans (b := .error _) rfl rfl
  refine map_bind_congr fun returned => ?_
  refine map_bind_alike (nodeType_alike sees returned) fun result result' same => map_bind_congr fun items => ?_
  refine map_bind_alike (prototypeParameters_alike sees _) fun parameters parameters' alike => ?_
  exact congrArg Except.ok (view.same_callback same alike _ _)

theorem signature_alike (name : Label) (node : Json) :
    (signature graph name node).map view.look = (signature graph' name node).map view.look := by
  refine map_bind_congr fun spelling => map_bind_congr fun text => ?_
  refine map_bind_alike (typeOf_alike sees _) fun result result' same => ?_
  refine map_bind_congr fun inner => map_bind_congr fun items => ?_
  refine map_bind_alike (functionParameters_alike sees _) fun parameters parameters' alike => ?_
  exact congrArg Except.ok (view.same_signature same alike _)

end

end Resolve

end NativeBindings
