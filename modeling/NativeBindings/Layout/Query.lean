import NativeBindings.Amount
import NativeBindings.Journal

/-!
Questions about the layout of types, and who answers them. An oracle keeps a state of its own and
may fail at any question.
-/
namespace NativeBindings.Layout

inductive Query where
  | sizeOf (type : Label)
  | offsetOf (type field : Label)
  | fieldSizeOf (type field : Label)
  deriving DecidableEq, Repr

/-- An answer, what was told on the way, and the state after it. -/
abbrev Oracle (σ : Type) := Query → σ → Except Fault Amount × Journal × σ

end NativeBindings.Layout
