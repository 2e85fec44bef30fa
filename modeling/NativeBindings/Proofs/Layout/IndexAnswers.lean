import Mathlib.Data.List.SplitBy
import NativeBindings.Proofs.Layout.Warmth

/-!
Questions about one type of an index of debug information. Whether the index was read already, and
whether an answer comes from it or from the cache, the answers are those of the layout of the type.
-/
namespace NativeBindings.Layout

open Act Debug

/-- Whether the layouts of a bench are an index, which it has read or will read at the next question. -/
def GoesBy (header : String) (index : Index) (bench : Bench) : Prop :=
  ((DebugInfo.layouts (Path.ofText header)).runOn (withJournal bench [])).1 = .ok index

/-- What the layout of a type tells of the type. -/
inductive Tells (name : String) (layout : TypeLayout) : Query → Amount → Prop
  | size : Tells name layout (.sizeOf (.str name)) layout.size
  | offset {field : String} {offset : Int} {size : Amount}
      (found : Table.find? field layout.members = some (offset, size)) :
      Tells name layout (.offsetOf (.str name) (.str field)) (.int offset)

/-- A bench that goes by an index and keeps no answers about a type but those of its layout. -/
structure Consults (header name : String) (index : Index) (layout : TypeLayout) (bench : Bench) :
    Prop where
  goes : GoesBy header index bench
  found : Table.find? name index = some layout
  kept : ∀ query n, Tells name layout query n →
    stored header bench query = .null ∨ stored header bench query = n

section
variable {header name : String} {index : Index} {layout : TypeLayout} {bench : Bench}

theorem consults_unused (goes : GoesBy header index bench)
    (found : Table.find? name index = some layout) (sizes : bench.cache.sizes = [])
    (offsets : bench.cache.offsets = []) : Consults header name index layout bench :=
  ⟨goes, found, fun _ _ _ => .inl (stored_unused sizes offsets)⟩

theorem Tells.slot {query : Query} {n : Amount} (tells : Tells name layout query n)
    (header : String) : ∃ place, Layout.slot header query = .ok place := by
  cases tells with
  | size => exact ⟨_, slot_sizeOf name⟩
  | offset => exact ⟨_, slot_offsetOf name _⟩

/-- What is told of one slot is the same. -/
theorem Tells.unique {query other : Query} {n m : Amount} (tells : Tells name layout query n)
    (tells' : Tells name layout other m) (same : Layout.slot header query = Layout.slot header other) :
    n = m := by
  cases tells with
  | size =>
    cases tells' with
    | size => rfl
    | offset =>
      rw [slot_sizeOf, slot_offsetOf] at same
      cases same
  | offset found =>
    cases tells' with
    | size =>
      rw [slot_sizeOf, slot_offsetOf] at same
      cases same
    | offset found' =>
      rw [slot_offsetOf, slot_offsetOf] at same
      have fields := offset_inj same
      rw [String.append_right_inj] at fields
      subst fields
      obtain ⟨rfl, -⟩ := Prod.mk.inj (Option.some.inj (found.symm.trans found'))
      rfl

namespace DebugInfo

theorem layouts_read {path : Path} (there : bench.layouts = some index) :
    (layouts path).runOn bench = (.ok index, bench) := by
  obtain ⟨shop, cache, asked, read⟩ := bench
  obtain rfl : read = some index := there
  rfl

theorem layouts_unread {path : Path} (there : bench.layouts = none) :
    (layouts path).runOn bench = (do
      let index ← load path
      modify fun bench : Bench => { bench with layouts := some index }
      return index).runOn bench := by
  obtain ⟨shop, cache, asked, read⟩ := bench
  obtain rfl : read = none := there
  rfl

/-- Once the layouts were asked for they are there. -/
theorem layouts_ends {path : Path} (goes : ((layouts path).runOn bench).1 = .ok index) :
    Ends (fun found after => found = index ∧ after.layouts = some index) (fun _ _ => False)
      (layouts path) bench := by
  unfold Ends
  cases there : bench.layouts with
  | some found =>
    rw [layouts_read there] at goes ⊢
    obtain rfl := Except.ok.inj goes
    exact ⟨rfl, there⟩
  | none =>
    rw [layouts_unread there, runOn_bind] at goes ⊢
    revert goes
    obtain ⟨outcome, after⟩ := (load path).runOn bench
    cases outcome with
    | error fault =>
      intro goes
      cases goes
    | ok found =>
      intro goes
      obtain rfl := Except.ok.inj goes
      exact ⟨rfl, rfl⟩

/-- A name that is not blank is looked for first. -/
theorem candidates_eq {name : String} (word : ∃ c ∈ name.toList, Text.isBlank c = false) :
    ∃ others, candidates name = .ok (name :: others) := by
  obtain ⟨c, member, solid⟩ := word
  have some : (Text.words name.toList).getLast? ≠ none := by
    rw [Ne, List.getLast?_eq_none_iff]
    intro none
    rw [← List.flatten_splitBy (fun a b => Text.isBlank a == Text.isBlank b) name.toList,
      List.mem_flatten] at member
    obtain ⟨run, listed, inside⟩ := member
    have kept : run ∈ Text.words name.toList :=
      List.mem_filter.mpr ⟨listed, List.any_eq_true.mpr ⟨c, inside, by simp [solid]⟩⟩
    rw [none] at kept
    cases kept
  rw [candidates]
  split
  next none => exact absurd none some
  next => exact ⟨_, rfl⟩

section
variable {path : Path} (goes : ((layouts path).runOn bench).1 = .ok index)
  (word : ∃ c ∈ name.toList, Text.isBlank c = false) (found : Table.find? name index = some layout)
include goes word found

theorem layoutOf_ends :
    Ends (fun own after => own = layout ∧ after.layouts = some index) (fun _ _ => False)
      (layoutOf path name) bench := by
  refine ends_bind.mpr ((layouts_ends goes).mono (fun own after read => ?_) fun _ _ wrong => wrong)
  obtain ⟨rfl, there⟩ := read
  obtain ⟨others, listed⟩ := candidates_eq word
  refine ends_bind.mpr ((ends_modify _).mpr ?_)
  rw [listed, lift_ok_bind, List.findSome?_cons, found]
  exact ⟨rfl, there⟩

theorem fresh_ends {query : Query} {n : Amount} (tells : Tells name layout query n) :
    Ends (fun m after => m = n ∧ after.layouts = some index) (fun _ _ => False) (fresh path query)
      bench := by
  have asked := layoutOf_ends goes word found
  cases tells with
  | size =>
    refine ends_bind.mpr (asked.mono (fun own after read => ?_) fun _ _ wrong => wrong)
    obtain ⟨rfl, there⟩ := read
    exact ⟨rfl, there⟩
  | offset member =>
    refine ends_bind.mpr (ends_bind.mpr (asked.mono (fun own after read => ?_) fun _ _ wrong => wrong))
    obtain ⟨rfl, there⟩ := read
    dsimp only
    rw [member]
    exact ⟨rfl, there⟩

end

end DebugInfo

theorem goesBy_of_layouts (there : bench.layouts = some index) : GoesBy header index bench := by
  have same : (withJournal bench []).layouts = some index := there
  rw [GoesBy, DebugInfo.layouts_read same]

/-- Every question about the type is answered by its layout, and so are those after it. -/
theorem Consults.asked (consults : Consults header name index layout bench)
    (word : ∃ c ∈ name.toList, Text.isBlank c = false) {query : Query} {n : Amount}
    (tells : Tells name layout query n) :
    ∃ after, (answerBy .debug header query).runOn (withJournal bench []) = (.ok n, after) ∧
      ∀ journal, Consults header name index layout (withJournal after journal) := by
  obtain ⟨place, slotted⟩ := tells.slot header
  have kept := consults.kept query n tells
  rw [stored_of_slot slotted] at kept
  by_cases missing : bench.cache.find place = .null
  · -- The layout answers, and its answer is put where nothing else is told.
    obtain ⟨m, after, ran, rfl, there⟩ :=
      (DebugInfo.fresh_ends consults.goes word consults.found tells).run
    have asked := @answerBy_asked .debug header (fun _ => .ok m) (withJournal bench []) query place
      slotted missing (congrArg Prod.fst ran)
    have run := @answerBy_missing .debug header (withJournal bench []) query place slotted missing
    rw [freshBy, ran] at run
    rw [run] at asked
    refine ⟨_, run, fun journal => ⟨goesBy_of_layouts there, consults.found, fun other k told => ?_⟩⟩
    obtain ⟨place', slotted'⟩ := told.slot header
    rw [stored_of_slot slotted']
    have answers := asked.2 place'
    by_cases same : place = place'
    · rw [if_pos same] at answers
      exact .inr (answers.trans (tells.unique told (by rw [slotted, slotted', same])))
    · rw [if_neg same] at answers
      have before := consults.kept other k told
      rw [stored_of_slot slotted'] at before
      exact before.imp answers.trans answers.trans
  · have known := @answerBy_known .debug header (withJournal bench []) query place slotted missing
    have same : (withJournal bench []).cache.find place = n := kept.resolve_left missing
    rw [same] at known
    exact ⟨_, known, fun journal => ⟨consults.goes, consults.found, consults.kept⟩⟩

end

end NativeBindings.Layout
