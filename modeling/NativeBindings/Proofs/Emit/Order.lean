import NativeBindings.Proofs.Emit.Needs
import NativeBindings.Proofs.Emit.FailFast

/-!
Declarations in another order. What makes more known fails no more; so a declaration may come later than
others, as long as these do not need its marshalers.
-/
namespace NativeBindings.Emit

open Act Outcome

namespace Account

def symbols (account : Account) : List Label := account.mishaps.map Mishap.symbol

/-- An account with no other failed symbols, and all the marshalers. -/
structure Betters (first second : Account) : Prop where
  symbols : second.symbols ⊆ first.symbols
  known : first.known ⊆ second.known

section
variable {first second third first' second' : Account}

theorem Betters.refl (account : Account) : account.Betters account :=
  ⟨List.Subset.refl _, List.Subset.refl _⟩

theorem Betters.trans (one : first.Betters second) (two : second.Betters third) : first.Betters third :=
  ⟨List.Subset.trans two.symbols one.symbols, List.Subset.trans one.known two.known⟩

theorem symbols_followedBy : (first.followedBy second).symbols = first.symbols ++ second.symbols :=
  List.map_append

theorem Betters.followedBy (one : first.Betters first') (two : second.Betters second') :
    (first.followedBy second).Betters (first'.followedBy second') := by
  constructor
  · rw [symbols_followedBy, symbols_followedBy]
    exact List.append_subset.mpr ⟨List.subset_append_of_subset_left _ one.symbols,
      List.subset_append_of_subset_right _ two.symbols⟩
  · exact List.append_subset.mpr ⟨List.subset_append_of_subset_left _ one.known,
      List.subset_append_of_subset_right _ two.known⟩

theorem betters_swap : (first.followedBy second).Betters (second.followedBy first) := by
  constructor
  · rw [symbols_followedBy, symbols_followedBy]
    exact List.append_subset.mpr ⟨List.subset_append_right _ _, List.subset_append_left _ _⟩
  · exact List.append_subset.mpr ⟨List.subset_append_right _ _, List.subset_append_left _ _⟩

theorem followedBy_assoc :
    (first.followedBy second).followedBy third = first.followedBy (second.followedBy third) := by
  simp only [Account.followedBy, List.append_assoc]

theorem known_of_tried {α : Type} {symbol : Label} {outcome : Except Fault α} {rest : α → Account}
    {wanted : Marshaler} (member : wanted ∈ (tried symbol outcome rest).known) :
    ∃ value, outcome = .ok value ∧ wanted ∈ (rest value).known := by
  cases outcome with
  | ok value => exact ⟨value, rfl, member⟩
  | error fault => cases member

/-- A unit of work that does as well, with the same account of its result. -/
theorem betters_tried {α : Type} {outcome outcome' : Except Fault α} (symbol : Label)
    (rest : α → Account) (served : Matches Eq outcome outcome')
    (nothing : ∀ fault, outcome = .error fault → ∀ value, outcome' = .ok value →
      (rest value).symbols = []) :
    (tried symbol outcome rest).Betters (tried symbol outcome' rest) := by
  cases outcome with
  | ok value =>
    obtain ⟨_, made, rfl⟩ := served value rfl
    rw [made]
    exact .refl _
  | error fault =>
    cases outcome' with
    | error fault' => exact ⟨List.Subset.refl _, List.Subset.refl _⟩
    | ok value =>
      refine ⟨?_, List.nil_subset _⟩
      change (rest value).symbols ⊆ _
      rw [nothing fault rfl value rfl]
      exact List.nil_subset _

end

end Account

open Account

section
variable {options : Options} {known known' : List Marshaler} {name : Label} {type : CType}
  {entries passed late : Table Label CType}

theorem entryAccount_declared (declared : ∀ header target, type ≠ .synonym header target true)
    (plain : ∀ header own result parameters, type ≠ .callback header own result parameters) :
    entryAccount options known name type =
      .tried name (declaration options known name type) (renderedAccount options) := by
  unfold entryAccount
  split
  · exact absurd rfl (declared _ _)
  · exact absurd rfl (plain _ _ _ _)
  · rfl

theorem entry_betters (serves : Serves (needs type) known known') :
    (entryAccount options known name type).Betters (entryAccount options known' name type) := by
  by_cases callback : ∃ header own result parameters, type = .callback header own result parameters
  · obtain ⟨header, own, result, parameters, rfl⟩ := callback
    exact .refl _
  by_cases given : ∃ header target, type = .synonym header target true
  · obtain ⟨header, target, rfl⟩ := given
    exact .refl _
  have declared : ∀ header target, type ≠ .synonym header target true :=
    fun header target same => given ⟨header, target, same⟩
  have plain : ∀ header own result parameters, type ≠ .callback header own result parameters :=
    fun header own result parameters same => callback ⟨header, own, result, parameters, same⟩
  rw [entryAccount_declared declared plain, entryAccount_declared declared plain]
  exact betters_tried name _ (declaration_served serves declared) fun _ _ _ _ => rfl

theorem entriesAccount_append (known : List Marshaler) (first second : Table Label CType) :
    entriesAccount options known (first ++ second) =
      (entriesAccount options known first).followedBy
        (entriesAccount options (known ++ (entriesAccount options known first).known) second) := by
  induction first generalizing known with
  | nil => simp [entriesAccount, Account.followedBy]
  | cons entry rest ih =>
    rw [List.cons_append, entriesAccount, entriesAccount, ih, followedBy_assoc]
    simp only [Account.followedBy, List.append_assoc]

/-- Entries fail no more where all the marshalers that they need are known as well. -/
theorem entries_betters {counts : String → Prop}
    (within : ∀ entry ∈ entries, ∀ name ∈ needs entry.2, ∀ ident, identText name = .ok ident → counts ident)
    (covers : ∀ wanted ∈ known, counts wanted.ident → wanted ∈ known') :
    (entriesAccount options known entries).Betters (entriesAccount options known' entries) := by
  induction entries generalizing known known' with
  | nil => exact .refl _
  | cons entry rest ih =>
    obtain ⟨name, type⟩ := entry
    rw [List.forall_mem_cons] at within
    have first : (entryAccount options known name type).Betters (entryAccount options known' name type) :=
      entry_betters fun needed member ident named direction inside =>
        covers _ inside (within.1 needed member ident named)
    refine first.followedBy (ih within.2 fun wanted member counted => ?_)
    rcases List.mem_append.mp member with before | here
    · exact List.mem_append_left _ (covers wanted before counted)
    · exact List.mem_append_right _ (first.known here)

theorem entries_betters_of_subset (subset : known ⊆ known') :
    (entriesAccount options known entries).Betters (entriesAccount options known' entries) :=
  @entries_betters _ _ _ _ (fun _ => True) (fun _ _ _ _ _ _ => trivial) fun _ member _ => subset member

theorem half_known {direction : Direction} {ident : String} {result : CType}
    {parameters : List (Parameter CType)} {wanted : Marshaler}
    (member : wanted ∈ (halfAccount options direction name ident result parameters).known) :
    wanted.ident = ident := by
  obtain ⟨lines, -, member⟩ := known_of_tried member
  rw [List.mem_singleton.mp member]

theorem callback_known {ident : String} {result : CType} {parameters : List (Parameter CType)}
    {wanted : Marshaler}
    (member : wanted ∈ (callbackAccount options name ident result parameters).known) :
    wanted.ident = ident := by
  obtain ⟨hint, -, member⟩ := known_of_tried member
  rcases List.mem_append.mp member with nothing | member
  · cases nothing
  rcases List.mem_append.mp member with read | written
  · split at read
    · exact half_known read
    · cases read
  · split at written
    · exact half_known written
    · cases written

/-- What a declaration makes known has the identifier of its name. -/
theorem entry_known {wanted : Marshaler} (member : wanted ∈ (entryAccount options known name type).known) :
    identText name = .ok wanted.ident := by
  by_cases callback : ∃ header own result parameters, type = .callback header own result parameters
  · obtain ⟨header, own, result, parameters, rfl⟩ := callback
    cases named : identText name with
    | ok ident =>
      have same : entryAccount options known name (.callback header own result parameters) =
          callbackAccount options name ident result parameters := by simp only [entryAccount, named]
      rw [same] at member
      rw [callback_known member]
    | error fault =>
      have nothing : entryAccount options known name (.callback header own result parameters) = {} := by
        simp only [entryAccount, named]
      rw [nothing] at member
      cases member
  by_cases given : ∃ header target, type = .synonym header target true
  · obtain ⟨header, target, rfl⟩ := given
    cases member
  rw [entryAccount_declared (fun header target same => given ⟨header, target, same⟩)
    fun header own result parameters same => callback ⟨header, own, result, parameters, same⟩] at member
  obtain ⟨rendered, made, member⟩ := known_of_tried member
  change wanted ∈ (rendered.ident.map (marshalersOf options)).getD [] at member
  cases found : rendered.ident with
  | none =>
    rw [found] at member
    cases member
  | some ident =>
    rw [found] at member
    rw [declaration_ident made found, (mem_marshalersOf.mp member).2]

theorem entries_known {wanted : Marshaler} (member : wanted ∈ (entriesAccount options known entries).known) :
    ∃ entry ∈ entries, identText entry.1 = .ok wanted.ident := by
  induction entries generalizing known with
  | nil => cases member
  | cons entry rest ih =>
    obtain ⟨name, type⟩ := entry
    rcases List.mem_append.mp member with here | later
    · exact ⟨_, List.mem_cons_self, entry_known here⟩
    · obtain ⟨entry, among, named⟩ := ih later
      exact ⟨entry, List.mem_cons_of_mem _ among, named⟩

/-- Entries of one identifier may come after others that do not need its marshalers. -/
theorem entries_later {own : String} (named : ∀ entry ∈ late, identText entry.1 = .ok own)
    (free : ∀ entry ∈ passed, ∀ name ∈ needs entry.2, identText name ≠ .ok own) :
    (entriesAccount options known (late ++ passed)).Betters
      (entriesAccount options known (passed ++ late)) := by
  rw [entriesAccount_append, entriesAccount_append]
  refine Betters.trans ?_ betters_swap
  refine Betters.followedBy ?_ ?_
  · exact entries_betters_of_subset (List.subset_append_left _ _)
  · refine @entries_betters _ _ _ _ (fun ident => ident ≠ own) (fun entry member name needed ident same => ?_)
      fun wanted member counted => ?_
    · rintro rfl
      exact free entry member name needed same
    · refine (List.mem_append.mp member).resolve_right fun inside => ?_
      obtain ⟨entry, among, same⟩ := entries_known inside
      exact counted (Except.ok.inj (same.symm.trans (named entry among)))

theorem entries_moved {own : String} (front back : Table Label CType)
    (named : ∀ entry ∈ late, identText entry.1 = .ok own)
    (free : ∀ entry ∈ passed, ∀ name ∈ needs entry.2, identText name ≠ .ok own) :
    (entriesAccount options known (front ++ (late ++ passed) ++ back)).Betters
      (entriesAccount options known (front ++ (passed ++ late) ++ back)) := by
  have middle : (entriesAccount options known (front ++ (late ++ passed))).Betters
      (entriesAccount options known (front ++ (passed ++ late))) := by
    rw [entriesAccount_append known front, entriesAccount_append known front]
    exact (Betters.refl _).followedBy (entries_later named free)
  rw [entriesAccount_append known (front ++ (late ++ passed)),
    entriesAccount_append known (front ++ (passed ++ late))]
  exact middle.followedBy (entries_betters_of_subset
    (List.append_subset.mpr ⟨List.subset_append_left _ _,
      List.subset_append_of_subset_right _ middle.known⟩))

/-! ### Passes over functions -/

variable {α : Type} {work work' : Function → Except Fault α} {functions functions' : List Function}

theorem mem_symbols_pass {lines : α → List Fragment} {symbol : Label} :
    symbol ∈ (passAccount work lines functions).symbols ↔
      ∃ function ∈ functions, function.name = symbol ∧ ¬ Succeeds (work function) := by
  induction functions with
  | nil => simp [passAccount, Account.symbols]
  | cons function rest ih =>
    rw [passAccount, symbols_followedBy, List.mem_append, ih]
    constructor
    · rintro (here | ⟨other, member, found⟩)
      · cases made : work function with
        | ok value =>
          rw [made] at here
          cases here
        | error fault =>
          rw [made] at here
          refine ⟨function, List.mem_cons_self, (List.mem_singleton.mp here).symm, ?_⟩
          rw [made]
          exact not_succeeds_error fault
      · exact ⟨other, List.mem_cons_of_mem _ member, found⟩
    · rintro ⟨other, member, rfl, fails⟩
      rcases List.mem_cons.mp member with rfl | member
      · left
        cases made : work other with
        | ok value => exact absurd ⟨value, made⟩ fails
        | error fault => exact List.mem_cons_self
      · exact .inr ⟨other, member, rfl, fails⟩

theorem pass_betters (lines : α → List Fragment) (subset : functions' ⊆ functions)
    (served : ∀ function, Matches Eq (work function) (work' function)) :
    (passAccount work lines functions).Betters (passAccount work' lines functions') := by
  constructor
  · intro symbol member
    obtain ⟨function, among, named, fails⟩ := mem_symbols_pass.mp member
    refine mem_symbols_pass.mpr ⟨function, subset among, named, fun done => fails ?_⟩
    obtain ⟨value, made⟩ := done
    obtain ⟨_, made', rfl⟩ := served function value made
    exact ⟨value, made'⟩
  · rw [known_pass]
    exact List.nil_subset _

theorem rest_betters (subset : known ⊆ known') (among : functions' ⊆ functions) :
    (restAccount options known functions).Betters (restAccount options known' functions') := by
  refine Betters.followedBy ?_ ?_
  · split
    · refine Betters.followedBy (.refl _) (Betters.followedBy ?_ (.refl _))
      exact pass_betters _ among fun _ => matches_refl _
    · exact .refl _
  · split
    · exact pass_betters _ among fun function => callableOf_served subset function
    · exact .refl _

/-- A module with the same entries, some of which come later. -/
theorem module_betters {graph graph' : Graph}
    (entries : (entriesAccount options [] graph.declarations).Betters
      (entriesAccount options [] graph'.declarations))
    (among : graph'.declarations ⊆ graph.declarations) :
    (moduleAccount options graph).Betters (moduleAccount options graph') := by
  refine Betters.followedBy (.refl _) (entries.followedBy (rest_betters entries.known ?_))
  intro function member
  obtain ⟨header, inside⟩ := mem_functionsOf.mp member
  exact mem_functionsOf.mpr ⟨header, among inside⟩

end

/-- A generation that goes on after failures reports no more of them, where the account of the module is
no worse. -/
theorem generate_betters {options : Options} (patient : options.failFast = false) {graph graph' : Graph}
    (keyed : ∀ entry ∈ graph.declarations, entry.1.asKey = .ok entry.1)
    (keyed' : ∀ entry ∈ graph'.declarations, entry.1.asKey = .ok entry.1)
    (betters : (moduleAccount options graph).Betters (moduleAccount options graph'))
    (start start' : Progress) :
    ∃ made made', ((generate options graph).runOn start).1 = .ok made ∧
      ((generate options graph').runOn start').1 = .ok made' ∧
      ∀ symbol, made'.failed.contains symbol = true → made.failed.contains symbol = true := by
  obtain ⟨made, after, run, -, failed, -⟩ := generate_goes_on keyed patient start
  obtain ⟨made', after', run', -, failed', -⟩ := generate_goes_on keyed' patient start'
  refine ⟨made, made', congrArg Prod.fst run, congrArg Prod.fst run', fun symbol reported => ?_⟩
  rw [failed', contains_foldl_insert] at reported
  rw [failed, contains_foldl_insert]
  simp only [List.contains_nil, Bool.or_false] at reported ⊢
  obtain ⟨other, member, same⟩ := List.contains_iff_exists_mem_beq.mp reported
  exact List.contains_iff_exists_mem_beq.mpr ⟨other, betters.symbols member, same⟩

end NativeBindings.Emit
