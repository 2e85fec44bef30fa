import NativeBindings.Proofs.Emit.Views
import NativeBindings.Proofs.Straight

/-!
A module is the same whether an alias holds its record or one use of it.
-/
namespace NativeBindings.Emit

open CType

/-- The target of a straight alias is the target itself, or the record that the target is a use of. -/
theorem aliasTarget_cases (own : Label) (target : CType) :
    aliasTarget own target = target ∨ ∃ inner header fields,
      target = .synonym inner (.record header fields) false ∧
        aliasTarget own target = .record header fields ∧ inner.name = header.name ∧
        header.name.isNull = false := by
  unfold aliasTarget
  split
  next inner header fields =>
    split
    next use => exact .inr ⟨inner, header, fields, rfl, rfl, use.2.1, use.2.2.1⟩
    next => exact .inl rfl
  next => exact .inl rfl

theorem hint_aliasTarget (own : Label) (target : CType) :
    hint (aliasTarget own target) = hint target := by
  rcases aliasTarget_cases own target with same | ⟨inner, header, fields, rfl, held, named, given⟩
  · rw [same]
  · rw [held, hint, hint, identOr, identOr, named, given]
    rfl

theorem unaliased_aliasTarget (own : Label) (target : CType) :
    (aliasTarget own target).unaliased = target.unaliased := by
  rcases aliasTarget_cases own target with same | ⟨inner, header, fields, rfl, held, -⟩
  · rw [same]
  · rw [held]
    rfl

theorem pointee_aliasTarget (own : Label) (target : CType) :
    (aliasTarget own target).pointee = target.pointee := by
  rcases aliasTarget_cases own target with same | ⟨inner, header, fields, rfl, held, -⟩
  · rw [same]
  · rw [held]
    rfl

theorem access_aliasTarget (known : List Marshaler) (direction : Direction) (own : Label)
    (target : CType) : access known direction (aliasTarget own target) = access known direction target := by
  rcases aliasTarget_cases own target with same | ⟨inner, header, fields, rfl, held, named, given⟩
  · rw [same]
  · have record : access known direction (.record header fields) = marshaler known direction header.name := by
      rw [access, namedMarshaler]
      · exact if_neg (by simp [CType.name, CType.header, given])
      all_goals simp
    have use : access known direction (.synonym inner (.record header fields) false) =
        marshaler known direction header.name := by
      rw [access, if_neg (by simp), namedMarshaler, ← named]
      exact if_neg (by simp [CType.name, CType.header, named, given])
    rw [held, record, use]

/-- An alias of a record reads the same as one of a use of the record. -/
theorem legible_straight : Legible View.straight where
  hint := hint_aliasTarget
  access := access_aliasTarget
  unaliased := unaliased_aliasTarget
  pointee := pointee_aliasTarget

theorem generate_straight (options : Options) (graph : Graph) :
    generate options graph.straight = generate options graph :=
  generate_look options legible_straight graph

end NativeBindings.Emit
