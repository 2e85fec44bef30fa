import NativeBindings.Fault

/-!
Acts: steps that change a state and may fail. What a failed act changed before stays changed.
-/
namespace NativeBindings

abbrev Act (σ : Type) := ExceptT Fault (StateM σ)

namespace Act

/-- The outcome of an act, and the state after it. -/
def runOn {σ α : Type} (act : Act σ α) (state : σ) : Except Fault α × σ := (ExceptT.run act) state

/-- An act given by what it does to a state. -/
def ofRun {σ α : Type} (run : σ → Except Fault α × σ) : Act σ α := ExceptT.mk run

/-- An act on a part of a state. -/
def zoom {σ τ α : Type} (part : σ → τ) (put : σ → τ → σ) (act : Act τ α) : Act σ α :=
  ofRun fun state =>
    let (outcome, changed) := act.runOn (part state)
    (outcome, put state changed)

/-- The outcome of an act, faults included. -/
def outcome {σ α : Type} (act : Act σ α) : Act σ (Except Fault α) :=
  ofRun fun state =>
    let (result, changed) := act.runOn state
    (.ok result, changed)

theorem runOn_ofRun {σ α : Type} (run : σ → Except Fault α × σ) (state : σ) :
    (ofRun run).runOn state = run state := rfl

theorem runOn_pure {σ α : Type} (value : α) (state : σ) :
    (pure value : Act σ α).runOn state = (.ok value, state) := rfl

theorem runOn_throw {σ α : Type} (fault : Fault) (state : σ) :
    (throw fault : Act σ α).runOn state = (.error fault, state) := rfl

theorem runOn_bind {σ α β : Type} (act : Act σ α) (next : α → Act σ β) (state : σ) :
    (act >>= next).runOn state =
      match act.runOn state with
      | (.ok value, changed) => (next value).runOn changed
      | (.error fault, changed) => (.error fault, changed) := by
  simp only [runOn, ExceptT.run, bind, ExceptT.bind, ExceptT.mk, StateT.bind]
  cases act state with
  | mk result changed => cases result <;> rfl

end Act

end NativeBindings
