import NativeBindings.Proofs.Act
import NativeBindings.Proofs.Outcome

/-!
One computation that does at least what another one does: where the first succeeds, so does the second,
with a related result and, for acts, in the same state.
-/
namespace NativeBindings

namespace Outcome

variable {ε α β γ δ : Type} {R : α → β → Prop} {S : γ → δ → Prop}

/-- Whenever the first computation succeeds, so does the second, with a related result. -/
def Matches (R : α → β → Prop) (first : Except ε α) (second : Except ε β) : Prop :=
  ∀ value, first = .ok value → ∃ result, second = .ok result ∧ R value result

theorem matches_refl (outcome : Except ε α) : Matches Eq outcome outcome :=
  fun value done => ⟨value, done, rfl⟩

theorem matches_pure {value : α} {result : β} (related : R value result) :
    Matches (ε := ε) R (pure value) (pure result) := by
  rintro _ ⟨⟩
  exact ⟨result, rfl, related⟩

theorem matches_error {fault : ε} {second : Except ε β} : Matches R (.error fault) second := nofun

theorem Matches.bind {first : Except ε α} {second : Except ε β} {next : α → Except ε γ}
    {other : β → Except ε δ} (starts : Matches R first second)
    (rest : ∀ value result, R value result → Matches S (next value) (other result)) :
    Matches S (first >>= next) (second >>= other) := by
  intro value done
  obtain ⟨middle, started, done⟩ := bind_eq_ok.mp done
  obtain ⟨result, begun, related⟩ := starts middle started
  obtain ⟨last, ended, same⟩ := rest middle result related value done
  exact ⟨last, bind_eq_ok.mpr ⟨result, begun, ended⟩, same⟩

/-- Two computations with a common start. -/
theorem matches_bind {first : Except ε α} {next : α → Except ε γ} {other : α → Except ε δ}
    (rest : ∀ value, first = .ok value → Matches S (next value) (other value)) :
    Matches S (first >>= next) (first >>= other) := by
  intro value done
  obtain ⟨middle, started, done⟩ := bind_eq_ok.mp done
  obtain ⟨last, ended, same⟩ := rest middle started value done
  exact ⟨last, bind_eq_ok.mpr ⟨middle, started, ended⟩, same⟩

end Outcome

namespace Act

open Outcome

variable {σ α β γ δ : Type} {R : α → β → Prop} {S : γ → δ → Prop}

/-- Whenever the first act succeeds, the second one goes the same way, with a related result. -/
def Refines (R : α → β → Prop) (first : Act σ α) (second : Act σ β) : Prop :=
  ∀ state value after, first.runOn state = (.ok value, after) →
    ∃ result, second.runOn state = (.ok result, after) ∧ R value result

theorem refines_refl (act : Act σ α) : Refines Eq act act :=
  fun _ value _ run => ⟨value, run, rfl⟩

theorem refines_pure {value : α} {result : β} (related : R value result) :
    Refines (σ := σ) R (pure value) (pure result) := by
  rintro state _ after ⟨⟩
  exact ⟨result, rfl, related⟩

theorem refines_throw {fault : Fault} {second : Act σ β} : Refines R (throw fault) second := nofun

theorem Refines.then {first : Act σ α} {second : Act σ β} {next : α → Act σ γ} {other : β → Act σ δ}
    (starts : Refines R first second)
    (rest : ∀ value result, R value result → Refines S (next value) (other result)) :
    Refines S (first >>= next) (second >>= other) := by
  intro state value after run
  rw [runOn_bind] at run
  cases begun : first.runOn state with
  | mk outcome middle =>
    rw [begun] at run
    cases outcome with
    | error fault => cases (Prod.mk.inj run).1
    | ok started =>
      obtain ⟨result, same, related⟩ := starts state started middle begun
      obtain ⟨last, ended, more⟩ := rest started result related middle value after run
      refine ⟨last, ?_, more⟩
      rw [runOn_bind, same]
      exact ended

/-- Two acts with a common start. -/
theorem refines_then (act : Act σ α) {next : α → Act σ γ} {other : α → Act σ δ}
    (rest : ∀ value, Refines S (next value) (other value)) :
    Refines S (act >>= next) (act >>= other) :=
  (refines_refl act).then fun value _ same => same ▸ rest value

theorem Refines.lift {first : Except Fault α} {second : Except Fault β} {next : α → Act σ γ}
    {other : β → Act σ δ} (starts : Matches R first second)
    (rest : ∀ value result, R value result → Refines S (next value) (other result)) :
    Refines S (liftM first >>= next) (liftM second >>= other) := by
  intro state value after run
  cases begun : first with
  | error fault =>
    rw [begun] at run
    cases (Prod.mk.inj run).1
  | ok started =>
    obtain ⟨result, same, related⟩ := starts started begun
    rw [begun] at run
    rw [same]
    exact rest started result related state value after run

theorem refines_lift {first : Except Fault α} {next : α → Act σ γ} {other : α → Act σ δ}
    (rest : ∀ value, first = .ok value → Refines S (next value) (other value)) :
    Refines S (liftM first >>= next) (liftM first >>= other) := by
  intro state value after run
  cases begun : first with
  | error fault =>
    rw [begun] at run
    cases (Prod.mk.inj run).1
  | ok started =>
    rw [begun] at run
    exact rest started begun state value after run

theorem Refines.zoom {τ : Type} {part : σ → τ} {put : σ → τ → σ} {first : Act τ α} {second : Act τ β}
    (refines : Refines R first second) : Refines R (zoom part put first) (zoom part put second) := by
  intro state value after run
  rw [Act.zoom, runOn_ofRun] at run
  cases begun : first.runOn (part state) with
  | mk outcome changed =>
    rw [begun] at run
    obtain ⟨rfl, rfl⟩ := Prod.mk.inj run
    obtain ⟨result, same, related⟩ := refines (part state) value changed begun
    refine ⟨result, ?_, related⟩
    rw [Act.zoom, runOn_ofRun, same]

end Act

end NativeBindings
