import NativeBindings.Proofs.Resolve.History

/-!
The sizes of the nodes in a graph. They are copied from node to node, and agree in every graph on the way
of a resolution: an alias has the size of its target, an array that of its items times its length, a field
that of its type, and every record has a size that the oracle gave for it.
-/
namespace NativeBindings

open Resolve

namespace CType

/-- What a node refers to. -/
def children : CType → List CType
  | synonym _ target _ => [target]
  | pointer _ base _ => base.toList
  | array _ item _ => [item]
  | record _ fields | union _ fields => fields.map Field.type
  | signature _ result parameters | callback _ _ result parameters =>
    result :: parameters.map Parameter.type
  | builtin _ _ | enum _ _ | bare _ => []

/-- Whether a node is a type or a part of it, at any depth. -/
inductive Within (node : CType) : CType → Prop
  | here : Within node node
  | inside {child type : CType} (member : child ∈ type.children) (within : Within node child) :
    Within node type

/-- Whether a node has the size of its kind, where some sizes were given for the layout names of
records. -/
def Sized (given : Label → Amount → Prop) : CType → Prop
  | synonym header target _ => header.size = target.size
  | pointer header _ _ | signature header _ _ => header.size = pointerSize
  | callback header own _ _ => header.size = pointerSize ∧ own.size = pointerSize
  | array header item length => Amount.times item.size length = .ok header.size
  | enum header _ => header.size = enumSize
  | record header fields => (∃ layout, Lays layout header.name ∧ given layout header.size) ∧
    ∀ field ∈ fields, field.size = field.type.size
  | union _ variants => ∀ variant ∈ variants, variant.size = variant.type.size
  | builtin _ _ => True
  | bare _ => False

/-- Whether all nodes of a type have the sizes of their kinds. -/
def Coherent (given : Label → Amount → Prop) (type : CType) : Prop :=
  ∀ node : CType, node.Within type → node.Sized given

section
variable {given more : Label → Amount → Prop} {type : CType}

theorem coherent_of (sized : type.Sized given) (inside : ∀ child ∈ type.children, child.Coherent given) :
    type.Coherent given := by
  intro node within
  cases within with
  | here => exact sized
  | inside member within => exact inside _ member node within

theorem Coherent.sized (coherent : type.Coherent given) : type.Sized given := coherent type .here

theorem Coherent.child (coherent : type.Coherent given) {child : CType} (member : child ∈ type.children) :
    child.Coherent given := fun node within => coherent node (.inside member within)

theorem Sized.mono (sized : type.Sized given) (wider : ∀ layout size, given layout size → more layout size) :
    type.Sized more := by
  cases type with
  | record header fields =>
    obtain ⟨⟨layout, lays, answered⟩, fields⟩ := sized
    exact ⟨⟨layout, lays, wider _ _ answered⟩, fields⟩
  | _ => exact sized

theorem Coherent.mono (coherent : type.Coherent given)
    (wider : ∀ layout size, given layout size → more layout size) : type.Coherent more :=
  fun node within => (coherent node within).mono wider

/-- A node with a number has the same size and parts. -/
theorem Coherent.numbered (coherent : type.Coherent given) (number : Nat) :
    (type.numbered number).Coherent given := by
  unfold CType.numbered
  split
  · exact coherent
  · refine coherent_of ?_ fun child member => coherent.child ?_
    · have sized := coherent.sized
      cases type <;> exact sized
    · cases type <;> exact member

theorem Coherent.use (coherent : type.Coherent given) : type.use.Coherent given := by
  have wrapped : (CType.synonym { name := type.name, size := type.size } type false).Coherent given := by
    refine coherent_of rfl fun child member => ?_
    obtain rfl := List.mem_singleton.mp member
    exact coherent
  cases type with
  | synonym header target transparent =>
    cases transparent with
    | true => exact coherent.child (List.mem_singleton.mpr rfl)
    | false => exact wrapped
  | _ => exact wrapped

/-- An alias has the size of what it ends in. -/
theorem Coherent.size_unaliased (coherent : type.Coherent given) : type.unaliased.size = type.size := by
  induction type using CType.unaliased.induct with
  | case1 header target transparent ih =>
    exact (ih (coherent.child (List.mem_singleton.mpr rfl))).trans coherent.sized.symm
  | case2 type other => rw [CType.unaliased.eq_2 type other]

theorem Coherent.unaliased (coherent : type.Coherent given) : type.unaliased.Coherent given := by
  induction type using CType.unaliased.induct with
  | case1 header target transparent ih => exact ih (coherent.child (List.mem_singleton.mpr rfl))
  | case2 type other =>
    rw [CType.unaliased.eq_2 type other]
    exact coherent

theorem Coherent.pointee (coherent : type.Coherent given) : type.pointee.Coherent given := by
  induction type using CType.pointee.induct with
  | case1 header target transparent ih => exact ih (coherent.child (List.mem_singleton.mpr rfl))
  | case2 header base isConst ih => exact ih (coherent.child (List.mem_singleton.mpr rfl))
  | case3 type other pointer =>
    rw [CType.pointee.eq_3 type other pointer]
    exact coherent

end

end CType

/-- Whether all nodes that a graph reaches have the sizes of their kinds. -/
def Graph.Coherent (given : Label → Amount → Prop) (graph : Graph) : Prop :=
  ∀ entry ∈ graph.declarations, entry.2.Coherent given

namespace Resolve

/-- A size that the oracle gave for a layout name in some turns. -/
def Gave (turns : List Turn) (layout : Label) (size : Amount) : Prop :=
  .asked (.sizeOf layout) (.ok size) ∈ turns

section
variable {given : Label → Amount → Prop} {graph : Graph} {type : CType}

theorem Found.coherent (found : Found graph type) (coherent : graph.Coherent given) :
    type.Coherent given := by
  induction found with
  | node member => exact coherent _ member
  | use member => exact (coherent _ member).use
  | @pointer base inside isConst ih =>
    refine CType.coherent_of rfl fun child member => ?_
    obtain rfl := Option.mem_toList.mp member
    exact ih child rfl
  | array inside name sized ih =>
    refine CType.coherent_of sized fun child member => ?_
    obtain rfl := List.mem_singleton.mp member
    exact ih

theorem assign_coherent (coherent : graph.Coherent given) (name : Label) (new : type.Coherent given) :
    (graph.assign name type).Coherent given := by
  intro entry member
  obtain before | ⟨same, -⟩ := Table.mem_insert_value member
  · exact coherent entry before
  · rw [same]
    exact new.numbered _

theorem enter_coherent (coherent : graph.Coherent given) (name : Label) (new : type.Coherent given) :
    (graph.enter (name, type)).Coherent given :=
  assign_coherent (fun entry member => coherent entry (List.mem_of_mem_filter member)) name new

end

section
variable {base : Graph} {done : List Turn} {name : Label} {type : CType} {field : Field CType}

/-- In all graphs on the way the sizes agree, by what the oracle gave until then. -/
def Measured (base : Graph) (done : List Turn) : Prop :=
  ∀ early, early <+: done → (replay base early).Coherent (Gave early)

theorem Seen.coherent (seen : Seen base done type) (measured : Measured base done) :
    type.Coherent (Gave done) := by
  obtain ⟨early, before, found⟩ := seen
  exact (found.coherent (measured early before)).mono fun _ _ gave => before.subset gave

theorem Formed.coherent (formed : Formed base done field) (measured : Measured base done) :
    field.type.Coherent (Gave done) := by
  obtain seen | ⟨size, variants, same, inside⟩ := formed.type
  · exact seen.coherent measured
  · rw [same]
    refine CType.coherent_of (fun variant member => (inside variant member).1) fun child member => ?_
    obtain ⟨variant, among, rfl⟩ := List.mem_map.mp member
    exact (inside variant among).2.coherent measured

theorem Justified.coherent (justified : Justified base done name type) (measured : Measured base done) :
    type.Coherent (Gave done) := by
  have parts {result : CType} {parameters : List (Parameter CType)} (returns : Seen base done result)
      (takes : ∀ parameter ∈ parameters, Seen base done parameter.type) :
      ∀ child ∈ result :: parameters.map Parameter.type, child.Coherent (Gave done) := by
    refine List.forall_mem_cons.mpr ⟨returns.coherent measured, fun child member => ?_⟩
    obtain ⟨parameter, among, rfl⟩ := List.mem_map.mp member
    exact (takes parameter among).coherent measured
  cases justified with
  | builtin => exact CType.coherent_of trivial fun _ member => absurd member List.not_mem_nil
  | enum keyed => exact CType.coherent_of rfl fun _ member => absurd member List.not_mem_nil
  | record lays answered formed =>
    refine CType.coherent_of ⟨⟨_, lays, answered⟩, fun field member => (formed field member).size⟩ ?_
    intro child member
    obtain ⟨field, among, rfl⟩ := List.mem_map.mp member
    exact (formed field among).coherent measured
  | synonym seen =>
    refine CType.coherent_of rfl fun child member => ?_
    obtain rfl := List.mem_singleton.mp member
    exact seen.coherent measured
  | pointer seen =>
    refine CType.coherent_of rfl fun child member => ?_
    exact (seen child (Option.mem_toList.mp member)).coherent measured
  | signature returns takes => exact CType.coherent_of rfl (parts returns takes)
  | callback returns takes => exact CType.coherent_of ⟨rfl, rfl⟩ (parts returns takes)

theorem Measured.concat (measured : Measured base done) {turn : Turn}
    (coherent : (turn.apply (replay base done)).Coherent (Gave done)) : Measured base (done ++ [turn]) := by
  intro early before
  obtain rfl | before := List.prefix_concat_iff.mp before
  · rw [replay_concat]
    exact fun entry member => (coherent entry member).mono fun _ _ => List.mem_append_left _
  · exact measured early before

theorem History.measured {σ : Type} {outset : Outset σ} {now : σ} (history : History outset done now)
    (empty : outset.graph.declarations = []) : Measured outset.graph done := by
  induction history with
  | nil =>
    intro early before entry member
    obtain rfl := List.prefix_nil.mp before
    rw [replay, List.foldl_nil, empty] at member
    cases member
  | @asked done now past query ih => exact ih.concat (ih done (List.prefix_refl _))
  | @sown done now name type past keyed justified ih =>
    exact ih.concat (assign_coherent (ih done (List.prefix_refl _)) name (justified.coherent ih))
  | @declared done now name type past keyed justified ih =>
    exact ih.concat (enter_coherent (ih done (List.prefix_refl _)) name (justified.coherent ih))
  | @marked done now past pointers callbacks ih => exact ih.concat (ih done (List.prefix_refl _))

end

end Resolve

end NativeBindings
