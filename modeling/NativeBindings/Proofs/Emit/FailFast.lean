import NativeBindings.Proofs.Emit.Account

/-!
A generation that ends with the first failure against one that goes on after failures. Both follow the
account of the module, which does not depend on which of the two is asked for.
-/
namespace NativeBindings.Emit

open Act Outcome

section
variable (options : Options) (failFast : Bool) (known : List Marshaler)

theorem declaration_failFast (name : Label) (type : CType) :
    declaration { options with failFast } known name type = declaration options known name type := by
  cases type <;> rfl

theorem entryAccount_failFast (name : Label) (type : CType) :
    entryAccount { options with failFast } known name type = entryAccount options known name type := by
  have renders : renderedAccount { options with failFast } = renderedAccount options := rfl
  cases type with
  | synonym header target transparent =>
    cases transparent with
    | true => rfl
    | false => simp only [entryAccount, declaration_failFast, renders]
  | callback header own result parameters => rfl
  | _ => simp only [entryAccount, declaration_failFast, renders]

theorem entriesAccount_failFast (entries : Table Label CType) :
    entriesAccount { options with failFast } known entries = entriesAccount options known entries := by
  induction entries generalizing known with
  | nil => rfl
  | cons entry rest ih => rw [entriesAccount, entriesAccount, entryAccount_failFast, ih]

theorem arguments_failFast (index : Nat) (parameters : List (Parameter CType)) :
    arguments { options with failFast } known index parameters =
      arguments options known index parameters := by
  induction parameters generalizing index with
  | nil => rfl
  | cons parameter rest ih =>
    rw [arguments, arguments, ih]
    rfl

theorem callableOf_failFast : callableOf { options with failFast } known = callableOf options known := by
  funext function
  unfold callableOf callable
  rw [arguments_failFast]
  rfl

/-- What a module consists of does not depend on whether the first failure ends the work. -/
theorem moduleAccount_failFast (graph : Graph) :
    moduleAccount { options with failFast } graph = moduleAccount options graph := by
  simp only [moduleAccount, restAccount, entriesAccount_failFast, callableOf_failFast]
  rfl

end

section
variable {options : Options} {known : List Marshaler} {name : Label}

theorem emitHalf_accounts {ident : String} (named : identText name = .ok ident) (direction : Direction)
    (result : CType) (parameters : List (Parameter CType)) :
    Accounts options (emitHalf options direction name result parameters) known ()
      (halfAccount options direction name ident result parameters) := by
  refine accounts_tried rfl "" _ (fun lines made => ?_) rfl
  dsimp only
  rw [named]
  exact accounts_append_know lines [{ direction, ident }]

theorem emitCallback_accounts (keyed : name.asKey = .ok name) {ident : String}
    (named : identText name = .ok ident) (result : CType) (parameters : List (Parameter CType)) :
    Accounts options (emitCallback options name result parameters) known ()
      (callbackAccount options name ident result parameters) := by
  have half (direction : Direction) (known : List Marshaler) :=
    @emitHalf_accounts options known name ident named direction result parameters
  unfold emitCallback
  rw [named]
  refine accounts_tried keyed "" (fun _ => signatureHint result parameters) (fun hint made => ?_) rfl
  refine (accounts_append _).then ?_
  exact (half .reading _).optional fun known => (half .writing known).last

theorem emitDeclaration_accounts (keyed : name.asKey = .ok name) (type : CType) :
    Accounts options (emitDeclaration options name type) known ()
      (.tried name (declaration options known name type) (renderedAccount options)) := by
  refine accounts_tried keyed "" (fun known => declaration options known name type)
    (fun rendered made => ?_) rfl
  unfold renderedAccount
  dsimp only
  cases rendered.lines.isEmpty with
  | true => exact accounts_know _
  | false => exact accounts_know_append _ _

theorem emitEntry_accounts (keyed : name.asKey = .ok name) (type : CType) :
    Accounts options (emitEntry options name type) known () (entryAccount options known name type) := by
  obtain ⟨ident, named⟩ := identText_of_key keyed
  cases type with
  | synonym header target transparent =>
    cases transparent with
    | true => exact accounts_pure ()
    | false => exact emitDeclaration_accounts keyed _
  | callback header own result parameters =>
    rw [entryAccount, named]
    exact emitCallback_accounts keyed named result parameters
  | _ => exact emitDeclaration_accounts keyed _

theorem emitEntries_accounts {entries : Table Label CType}
    (keyed : ∀ entry ∈ entries, entry.1.asKey = .ok entry.1) :
    Accounts options (entries.forM fun entry => emitEntry options entry.1 entry.2) known ()
      (entriesAccount options known entries) := by
  induction entries generalizing known with
  | nil => exact accounts_pure ()
  | cons entry rest ih =>
    have walk := @ih (known ++ (entryAccount options known entry.1 entry.2).known)
      fun other member => keyed other (by simp [member])
    exact (emitEntry_accounts (keyed entry (by simp)) entry.2).then walk

/-- A walk over the declarations that does a unit of work for each function. -/
theorem pass_accounts {α : Type} {step : Label × CType → Emitting Unit}
    {work : Function → Except Fault α} {lines : α → List Fragment} {entries : Table Label CType}
    (idle : ∀ name type, (∀ header result parameters, type ≠ .signature header result parameters) →
      step (name, type) = pure ())
    (each : ∀ name header result parameters, (name, .signature header result parameters) ∈ entries →
      Accounts options (step (name, .signature header result parameters)) known ()
        (.tried name (work { name, result, parameters }) fun made => { lines := lines made })) :
    Accounts options (entries.forM step) known () (passAccount work lines (functionsOf entries)) := by
  induction entries with
  | nil => exact accounts_pure ()
  | cons entry rest ih =>
    have walk := ih fun name header result parameters member =>
      each name header result parameters (List.mem_cons_of_mem _ member)
    obtain ⟨name, type⟩ := entry
    have others (plain : ∀ header result parameters, type ≠ .signature header result parameters)
        (same : functionsOf ((name, type) :: rest) = functionsOf rest) :
        Accounts options (((name, type) :: rest).forM step) known ()
          (passAccount work lines (functionsOf ((name, type) :: rest))) := by
      rw [same, List.forM, idle name type plain]
      exact walk
    cases type with
    | signature header result parameters =>
      refine (each name header result parameters List.mem_cons_self).then ?_
      rw [Account.known_tried, List.append_nil]
      exact walk
    | _ => exact others nofun rfl

theorem known_pass {α : Type} (work : Function → Except Fault α) (lines : α → List Fragment)
    (functions : List Function) : (passAccount work lines functions).known = [] := by
  induction functions with
  | nil => rfl
  | cons function rest ih => rw [passAccount, Account.followedBy, Account.known_tried, ih, List.append_nil]

theorem known_symbols (functions : List Function) : (symbolsAccount options functions).known = [] := by
  simp only [symbolsAccount, Account.followedBy, known_pass, List.append_nil]

section
variable {graph : Graph} (keyed : ∀ entry ∈ graph.declarations, entry.1.asKey = .ok entry.1)
include keyed

theorem emitSymbols_accounts :
    Accounts options (emitSymbols options graph) known ()
      (symbolsAccount options (functionsOf graph.declarations)) := by
  unfold emitSymbols symbolsAccount tableStart
  dsimp only
  refine Account.followedBy_lines .. ▸ (accounts_append _).then
    ((accounts_append _).then (.then (pass_accounts ?_ ?_) (accounts_append _)))
  · intro name type plain
    cases type with
    | signature header result parameters => exact absurd rfl (plain _ _ _)
    | _ => rfl
  · intro name header result parameters member
    exact accounts_tried (keyed _ member) _ _ (fun entry made => accounts_append [entry]) rfl

theorem emitCallables_accounts :
    Accounts options (emitCallables options graph) known ()
      (passAccount (callableOf options known) id (functionsOf graph.declarations)) := by
  refine pass_accounts ?_ ?_
  · intro name type plain
    cases type with
    | signature header result parameters => exact absurd rfl (plain _ _ _)
    | _ => rfl
  · intro name header result parameters member
    exact accounts_tried (keyed _ member) _ (fun known => callable options known name result parameters)
      (fun lines made => accounts_append lines) rfl

theorem emitRest_accounts :
    Accounts options (emitRest options graph) known ()
      (restAccount options known (functionsOf graph.declarations)) := by
  have told := @accounts_tell options known fun progress =>
    let fragments := progress.out.length
    let failures := progress.failed.length
    Journal.info s!"Generated {fragments} fragments, {failures} failed symbols"
  unfold emitRest restAccount
  cases symbols : options.symbols with
  | false =>
    cases options.wrappers with
    | false => exact told
    | true =>
      refine (accounts_note _).then ?_
      dsimp only
      rw [List.append_nil]
      exact told
  | true =>
    refine (emitSymbols_accounts keyed).then ?_
    rw [known_symbols, List.append_nil]
    cases options.wrappers with
    | false => exact told
    | true =>
      rw [← Account.followedBy_nothing (passAccount ..)]
      refine (emitCallables_accounts keyed).then ?_
      rw [known_pass, List.append_nil]
      exact told

/-- A whole module after its fixed first text. -/
theorem emitModule_accounts :
    Accounts options (append (if options.helpers then [[.text helpers]] else []) >>= fun _ =>
      (graph.declarations.forM fun entry => emitEntry options entry.1 entry.2) >>= fun _ =>
      emitRest options graph) [] () (moduleAccount options graph) :=
  (accounts_append _).then ((emitEntries_accounts keyed).then (emitRest_accounts keyed))

/-- A generation that goes on after failures adds what the account of the module says. -/
theorem generate_goes_on (patient : options.failFast = false) (start : Progress) :
    ∃ made after, (generate options graph).runOn start = (.ok made, after) ∧
      made.fragments = [.text prelude] :: (moduleAccount options graph).lines ∧
      made.failed = ((moduleAccount options graph).mishaps.map Mishap.symbol).foldl
        (fun failed symbol => failed.insert symbol) [] ∧
      after.known = (moduleAccount options graph).known :=
  generate_adds ((emitModule_accounts keyed).goesOn patient) start

/-- One that ends with the first failure does the same if there is none, and else ends so. -/
theorem generate_stops (hasty : options.failFast = true) (start : Progress) :
    Ends (fun made after => (moduleAccount options graph).mishaps = [] ∧
        made.fragments = [.text prelude] :: (moduleAccount options graph).lines ∧ made.failed = [] ∧
        after.failed = [])
      (fun fault after => ∃ symbol others,
        (moduleAccount options graph).mishaps = { symbol, fault } :: others ∧ after.failed = [symbol])
      (generate options graph) start := by
  refine ends_timed fun begun => ends_bind.mpr ?_
  rw [emitModule_eq]
  refine ends_bind.mpr ((ends_modify _).mpr ?_)
  refine ((emitModule_accounts keyed).stops hasty _ rfl rfl).mono (fun _ after done => ?_)
    fun fault after ended => ?_
  · obtain ⟨clean, -, added⟩ := done
    have failed := added.failed
    rw [Account.yield, clean] at failed
    exact fun _ => ⟨clean, added.out, failed, failed⟩
  · exact fun _ => ended

end

end

theorem insert_ne_nil (failed : List Label) (symbol : Label) : failed.insert symbol ≠ [] := by
  cases failed with
  | nil => exact List.cons_ne_nil _ _
  | cons first rest =>
    unfold List.insert
    split <;> exact List.cons_ne_nil _ _

theorem foldl_insert_ne_nil (symbols : List Label) {failed : List Label} (some : failed ≠ []) :
    symbols.foldl (fun failed symbol => failed.insert symbol) failed ≠ [] := by
  induction symbols generalizing failed with
  | nil => exact some
  | cons symbol rest ih => exact ih (insert_ne_nil failed symbol)

/-- Whether or not the first failure ends the work, the units of work and their results are the same.
Where none fails, so are the modules. Else the run that ends with the first failure has the fault of
the first unit that fails in the other one, and records its symbol alone. -/
theorem generate_failFast (options : Options) (graph : Graph)
    (keyed : ∀ entry ∈ graph.declarations, entry.1.asKey = .ok entry.1) (start start' : Progress) :
    let mishaps := (moduleAccount options graph).mishaps
    ∃ made, ((generate { options with failFast := false } graph).runOn start).1 = .ok made ∧
      made.failed = (mishaps.map Mishap.symbol).foldl (fun failed symbol => failed.insert symbol) [] ∧
      (made.failed = [] → ∃ after,
        (generate { options with failFast := true } graph).runOn start' = (.ok made, after) ∧
          after.failed = []) ∧
      (made.failed ≠ [] → ∃ first others after, mishaps = first :: others ∧
        (generate { options with failFast := true } graph).runOn start' = (.error first.fault, after) ∧
          after.failed = [first.symbol]) := by
  intro mishaps
  obtain ⟨made, last, run, fragments, failed, -⟩ :=
    @generate_goes_on { options with failFast := false } graph keyed rfl start
  have stops := @generate_stops { options with failFast := true } graph keyed rfl start'
  rw [moduleAccount_failFast] at fragments failed
  simp only [moduleAccount_failFast] at stops
  refine ⟨made, congrArg Prod.fst run, failed, ?_⟩
  unfold Ends at stops
  split at stops
  next made' after ran =>
    obtain ⟨none, fragments', failed', kept⟩ := stops
    have clean : made.failed = [] := by
      rw [failed, none]
      rfl
    have same : made' = made := by
      obtain ⟨lines, symbols⟩ := made
      obtain ⟨lines', symbols'⟩ := made'
      obtain rfl : symbols' = [] := failed'
      obtain rfl : symbols = [] := clean
      exact congrArg (Module.mk · []) (fragments'.trans fragments.symm)
    exact ⟨fun _ => ⟨after, same ▸ ran, kept⟩, fun unclean => absurd clean unclean⟩
  next fault after ran =>
    obtain ⟨symbol, others, some, recorded⟩ := stops
    have unclean : made.failed ≠ [] := by
      rw [failed, some]
      exact foldl_insert_ne_nil (others.map Mishap.symbol) (insert_ne_nil [] symbol)
    exact ⟨fun clean => absurd clean unclean,
      fun _ => ⟨{ symbol, fault }, others, after, some, ran, recorded⟩⟩

theorem generate_failFast_step :
    (∀ entry ∈ (graphOf 8 stepNodes).declarations, entry.1.asKey = .ok entry.1) ∧
    let mishaps := (moduleAccount {} (graphOf 8 stepNodes)).mishaps
    ∃ made, ((generate { failFast := false } (graphOf 8 stepNodes)).runOn {}).1 = .ok made ∧
      made.failed = (mishaps.map Mishap.symbol).foldl (fun failed symbol => failed.insert symbol) [] ∧
      (made.failed = [] → ∃ after,
        (generate { failFast := true } (graphOf 8 stepNodes)).runOn {} = (.ok made, after) ∧
          after.failed = []) ∧
      (made.failed ≠ [] → ∃ first others after, mishaps = first :: others ∧
        (generate { failFast := true } (graphOf 8 stepNodes)).runOn {} = (.error first.fault, after) ∧
          after.failed = [first.symbol]) := by
  have keyed : ∀ entry ∈ (graphOf 8 stepNodes).declarations, entry.1.asKey = .ok entry.1 := by
    decide +kernel
  exact ⟨keyed, generate_failFast {} _ keyed {} {}⟩

end NativeBindings.Emit
