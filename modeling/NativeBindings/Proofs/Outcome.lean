import Mathlib.Data.List.Forall2

/-!
What a success of a composed computation says about its parts.
-/
namespace NativeBindings.Outcome

variable {ε α β : Type}

theorem bind_eq_ok {first : Except ε α} {next : α → Except ε β} {result : β} :
    (first >>= next) = .ok result ↔ ∃ value, first = .ok value ∧ next value = .ok result := by
  cases first with
  | error fault => simp [bind, Except.bind]
  | ok value => simp [bind, Except.bind]

theorem pure_eq_ok {value result : α} : (pure value : Except ε α) = .ok result ↔ value = result := by
  simp [pure, Except.pure]

theorem map_eq_ok {first : Except ε α} {f : α → β} {result : β} :
    first.map f = .ok result ↔ ∃ value, first = .ok value ∧ f value = result := by
  cases first <;> simp [Except.map]

theorem toOption_eq_some {first : Except ε α} {result : α} :
    first.toOption = some result ↔ first = .ok result := by
  cases first <;> simp [Except.toOption]

/-- A walk over a list succeeds if every step does, and collects their results in order. -/
theorem mapM_eq_ok {f : α → Except ε β} {items : List α} {results : List β} :
    items.mapM f = .ok results ↔
      List.Forall₂ (fun item result => f item = .ok result) items results := by
  induction items generalizing results with
  | nil =>
    rw [List.mapM_nil, pure_eq_ok, List.forall₂_nil_left_iff]
    exact eq_comm
  | cons item rest ih =>
    simp only [List.mapM_cons, bind_eq_ok, pure_eq_ok, List.forall₂_cons_left_iff, ih]
    constructor
    · rintro ⟨first, computed, others, walked, rfl⟩
      exact ⟨first, others, computed, walked, rfl⟩
    · rintro ⟨first, others, computed, walked, rfl⟩
      exact ⟨first, computed, others, walked, rfl⟩

theorem item_of_result {R : α → β → Prop} {items : List α} {results : List β}
    (related : List.Forall₂ R items results) {result : β} (member : result ∈ results) :
    ∃ item ∈ items, R item result := by
  induction related with
  | nil => simp at member
  | @cons first second items results head tail ih =>
    rcases List.mem_cons.mp member with rfl | inside
    · exact ⟨first, by simp, head⟩
    · obtain ⟨item, present, relation⟩ := ih inside
      exact ⟨item, by simp [present], relation⟩

theorem result_of_item {R : α → β → Prop} {items : List α} {results : List β}
    (related : List.Forall₂ R items results) {item : α} (member : item ∈ items) :
    ∃ result ∈ results, R item result :=
  item_of_result (R := fun result item => R item result) related.flip member

/-- A computation that ends without a fault. -/
def Succeeds (outcome : Except ε α) : Prop := ∃ value, outcome = .ok value

theorem succeeds_pure (value : α) : Succeeds (pure value : Except ε α) := ⟨value, rfl⟩

theorem not_succeeds_error (fault : ε) : ¬ Succeeds (.error fault : Except ε α) := by
  rintro ⟨value, same⟩
  cases same

theorem succeeds_map {first : Except ε α} {f : α → β} : Succeeds (first.map f) ↔ Succeeds first := by
  cases first with
  | ok value => exact ⟨fun _ => ⟨value, rfl⟩, fun _ => ⟨f value, rfl⟩⟩
  | error fault => exact ⟨fun wrong => absurd wrong (not_succeeds_error fault),
      fun wrong => absurd wrong (not_succeeds_error fault)⟩

/-- A computation in two parts, where the success of the second does not depend on what the first
one gives. -/
theorem succeeds_bind {first : Except ε α} {next : α → Except ε β} {P : Prop}
    (second : ∀ value, first = .ok value → (Succeeds (next value) ↔ P)) :
    Succeeds (first >>= next) ↔ Succeeds first ∧ P := by
  constructor
  · rintro ⟨result, done⟩
    obtain ⟨value, computed, done⟩ := bind_eq_ok.mp done
    exact ⟨⟨value, computed⟩, (second value computed).mp ⟨result, done⟩⟩
  · rintro ⟨⟨value, computed⟩, holds⟩
    obtain ⟨result, done⟩ := (second value computed).mpr holds
    exact ⟨result, bind_eq_ok.mpr ⟨value, computed, done⟩⟩

/-- A computation whose end is sure to succeed. -/
theorem succeeds_bind_pure {first : Except ε α} {f : α → β} :
    Succeeds (first >>= fun value => pure (f value)) ↔ Succeeds first := by
  rw [succeeds_bind fun value _ => iff_true_intro (succeeds_pure (f value)), and_true]

theorem succeeds_mapM {f : α → Except ε β} {items : List α} :
    Succeeds (items.mapM f) ↔ ∀ item ∈ items, Succeeds (f item) := by
  induction items with
  | nil => exact ⟨fun _ _ member => absurd member List.not_mem_nil, fun _ => ⟨[], rfl⟩⟩
  | cons item rest ih =>
    rw [List.mapM_cons, succeeds_bind fun _ _ => succeeds_bind_pure, ih, List.forall_mem_cons]

end NativeBindings.Outcome
