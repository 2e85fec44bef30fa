import NativeBindings.Noted

/-!
How acts end. A property of the end of a composed act is one of its first part, with the rest of
the act inside.
-/
namespace NativeBindings.Act

variable {σ τ α β : Type} {good : α → σ → Prop} {bad : Fault → σ → Prop} {state : σ}

/-- From a state, an act ends in `good` with a value or in `bad` with a fault. -/
def Ends (good : α → σ → Prop) (bad : Fault → σ → Prop) (act : Act σ α) (state : σ) : Prop :=
  match act.runOn state with
  | (.ok value, after) => good value after
  | (.error fault, after) => bad fault after

theorem ends_iff {act : Act σ α} :
    Ends good bad act state ↔
      (∀ value, (act.runOn state).1 = .ok value → good value (act.runOn state).2) ∧
        ∀ fault, (act.runOn state).1 = .error fault → bad fault (act.runOn state).2 := by
  unfold Ends
  obtain ⟨outcome, after⟩ := act.runOn state
  cases outcome <;> simp

theorem Ends.mono {act : Act σ α} {better : α → σ → Prop} {worse : Fault → σ → Prop}
    (ends : Ends good bad act state) (value : ∀ v after, good v after → better v after)
    (fault : ∀ f after, bad f after → worse f after) : Ends better worse act state := by
  rw [ends_iff] at ends ⊢
  exact ⟨fun v run => value _ _ (ends.1 v run), fun f run => fault _ _ (ends.2 f run)⟩

theorem Ends.and {act : Act σ α} {good' : α → σ → Prop} {bad' : Fault → σ → Prop}
    (first : Ends good bad act state) (second : Ends good' bad' act state) :
    Ends (fun value after => good value after ∧ good' value after)
      (fun fault after => bad fault after ∧ bad' fault after) act state := by
  rw [ends_iff] at first second ⊢
  exact ⟨fun v run => ⟨first.1 v run, second.1 v run⟩, fun f run => ⟨first.2 f run, second.2 f run⟩⟩

/-- A property of the state alone, whatever the outcome. -/
theorem Ends.after {act : Act σ α} {P : σ → Prop}
    (ends : Ends (fun _ => P) (fun _ => P) act state) : P (act.runOn state).2 := by
  unfold Ends at ends
  revert ends
  obtain ⟨outcome, after⟩ := act.runOn state
  cases outcome <;> exact id

theorem Ends.of_run {act : Act σ α} {value : α} {after : σ} (ends : Ends good bad act state)
    (run : act.runOn state = (.ok value, after)) : good value after := by
  unfold Ends at ends
  rw [run] at ends
  exact ends

/-- An act that cannot fail gives a value. -/
theorem Ends.run {act : Act σ α} (ends : Ends good (fun _ _ => False) act state) :
    ∃ value after, act.runOn state = (.ok value, after) ∧ good value after := by
  unfold Ends at ends
  split at ends
  next value after ran => exact ⟨value, after, ran, ends⟩
  next => exact ends.elim

theorem ends_bind {act : Act σ β} {next : β → Act σ α} :
    Ends good bad (act >>= next) state ↔
      Ends (fun value after => Ends good bad (next value) after) bad act state := by
  unfold Ends
  rw [runOn_bind]
  obtain ⟨outcome, after⟩ := act.runOn state
  cases outcome <;> rfl

theorem ends_bind_any {act : Act σ β} {next : β → Act σ α}
    (rest : ∀ value after, Ends good bad (next value) after) (fault : ∀ f after, bad f after) :
    Ends good bad (act >>= next) state :=
  ends_bind.mpr (ends_iff.mpr ⟨fun _ _ => rest _ _, fun _ _ => fault _ _⟩)

theorem ends_lift (outcome : Except Fault α) :
    Ends good bad (liftM outcome : Act σ α) state ↔
      (∀ value, outcome = .ok value → good value state) ∧
        ∀ fault, outcome = .error fault → bad fault state := by
  cases outcome with
  | ok value => exact ⟨fun ends => ⟨by rintro _ ⟨⟩; exact ends, by simp⟩, fun ends => ends.1 _ rfl⟩
  | error fault => exact ⟨fun ends => ⟨by simp, by rintro _ ⟨⟩; exact ends⟩, fun ends => ends.2 _ rfl⟩

theorem ends_lift_then {outcome : Except Fault β} {next : β → Act σ α} (fault : ∀ f, bad f state)
    (rest : ∀ value, outcome = .ok value → Ends good bad (next value) state) :
    Ends good bad (liftM outcome >>= next) state :=
  ends_bind.mpr ((ends_lift outcome).mpr ⟨rest, fun f _ => fault f⟩)

theorem lift_ok_bind (value : β) (next : β → Act σ α) :
    (liftM (Except.ok value : Except Fault β) >>= next : Act σ α) = next value := rfl

theorem ends_pure (value : α) : Ends good bad (pure value) state ↔ good value state := Iff.rfl

theorem ends_get {good : σ → σ → Prop} :
    Ends good bad (get : Act σ σ) state ↔ good state state := Iff.rfl

theorem ends_modify {good : Unit → σ → Prop} (f : σ → σ) :
    Ends good bad (modify f : Act σ Unit) state ↔ good () (f state) := Iff.rfl

theorem ends_set {good : PUnit → σ → Prop} (next : σ) :
    Ends good bad (set next : Act σ PUnit) state ↔ good ⟨⟩ next := Iff.rfl

theorem ends_ofRun (run : σ → Except Fault α × σ) :
    Ends good bad (ofRun run) state ↔
      match run state with
      | (.ok value, after) => good value after
      | (.error fault, after) => bad fault after := Iff.rfl

/-- An act on a part of a state. -/
theorem ends_zoom {part : σ → τ} {put : σ → τ → σ} {act : Act τ α} :
    Ends good bad (zoom part put act) state ↔
      Ends (fun value after => good value (put state after))
        (fun fault after => bad fault (put state after)) act (part state) := by
  unfold Ends zoom
  rw [runOn_ofRun]
  obtain ⟨outcome, after⟩ := act.runOn (part state)
  cases outcome <;> rfl

theorem ends_outcome {act : Act σ α} {good : Except Fault α → σ → Prop} :
    Ends good bad (outcome act) state ↔
      Ends (fun value => good (.ok value)) (fun fault => good (.error fault)) act state := by
  unfold Ends outcome
  rw [runOn_ofRun]
  obtain ⟨outcome, after⟩ := act.runOn state
  cases outcome <;> rfl

/-- What every step of a walk over a list keeps, the whole walk keeps. -/
theorem ends_forM {P : σ → Prop} {items : List β} {step : β → Act σ Unit} (start : P state)
    (keeps : ∀ item ∈ items, ∀ before, P before → Ends (fun _ => P) bad (step item) before) :
    Ends (fun _ => P) bad (items.forM step) state := by
  induction items generalizing state with
  | nil => exact start
  | cons item rest ih =>
    change Ends _ _ (step item >>= fun _ => rest.forM step) state
    rw [ends_bind]
    refine (keeps item (by simp) state start).mono (fun _ after kept => ?_) (fun _ _ wrong => wrong)
    exact ih kept fun other member => keeps other (by simp [member])

/-- Two walks over a list agree if their steps do, in the states that the walk comes through. -/
theorem runOn_forM_congr {P : σ → Prop} {items : List β} {step step' : β → Act σ Unit}
    (same : ∀ item ∈ items, ∀ before, P before →
      (step item).runOn before = (step' item).runOn before)
    (keeps : ∀ item ∈ items, ∀ before, P before → P ((step item).runOn before).2) (start : P state) :
    (items.forM step).runOn state = (items.forM step').runOn state := by
  induction items generalizing state with
  | nil => rfl
  | cons item rest ih =>
    have first := same item (by simp) state start
    have kept := keeps item (by simp) state start
    change (step item >>= fun _ => rest.forM step).runOn state =
      (step' item >>= fun _ => rest.forM step').runOn state
    rw [runOn_bind, runOn_bind, ← first]
    generalize (step item).runOn state = ended at kept ⊢
    obtain ⟨outcome, after⟩ := ended
    cases outcome with
    | error fault => rfl
    | ok value =>
      exact ih (fun other member => same other (by simp [member]))
        (fun other member => keeps other (by simp [member])) kept

/-- A stage that is timed does what it does untimed, between two notes. -/
theorem runOn_timed [Noting σ] (stage : String) (act : Act σ α) (start : σ) :
    ∃ ended, (timed stage act).runOn start =
      ((act.runOn (Noting.tell (Journal.debug (stage ++ ": started")) start)).1,
        Noting.tell ended (act.runOn (Noting.tell (Journal.debug (stage ++ ": started")) start)).2) := by
  unfold timed
  rw [runOn_ofRun]
  dsimp only
  obtain ⟨outcome, after⟩ := act.runOn (Noting.tell (Journal.debug (stage ++ ": started")) start)
  cases outcome with
  | ok value => exact ⟨_, rfl⟩
  | error fault => exact ⟨_, rfl⟩

theorem ends_timed_from [Noting σ] {stage : String} {act : Act σ α}
    (ends : Ends (fun value after => ∀ ended, good value (Noting.tell ended after))
      (fun fault after => ∀ ended, bad fault (Noting.tell ended after)) act
      (Noting.tell (Journal.debug (stage ++ ": started")) state)) : Ends good bad (timed stage act) state := by
  obtain ⟨ended, run⟩ := runOn_timed stage act state
  rw [ends_iff, run]
  exact ⟨fun value done => (ends_iff.mp ends).1 value done ended,
    fun fault done => (ends_iff.mp ends).2 fault done ended⟩

theorem ends_timed [Noting σ] {stage : String} {act : Act σ α}
    (ends : ∀ begun, Ends (fun value after => ∀ ended, good value (Noting.tell ended after))
      (fun fault after => ∀ ended, bad fault (Noting.tell ended after)) act
      (Noting.tell begun state)) : Ends good bad (timed stage act) state :=
  ends_timed_from (ends _)

end NativeBindings.Act
