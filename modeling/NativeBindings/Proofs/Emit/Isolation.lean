import NativeBindings.Emit.Module
import NativeBindings.Proofs.Act
import NativeBindings.Proofs.Emit.Completeness

/-!
A declaration that fails leaves nothing behind: the rest of the module is as if it had not been there.
What an act adds to a module depends only on the marshalers known before it, so the two runs are
compared by what their acts add.
-/
namespace NativeBindings

/-- A graph without the entries of some names. What refers to them stays as it is. -/
def Graph.without (graph : Graph) (names : List Label) : Graph :=
  { graph with declarations := graph.declarations.filter fun entry => !names.contains entry.1 }

end NativeBindings

namespace NativeBindings.Emit

open Act Outcome

section
variable (options : Options)

/-- Whether a declaration fails where these marshalers are known. The halves of a pointer to a
function fail apart from it. -/
def rejects (known : List Marshaler) (name : Label) : CType → Bool
  | .synonym _ _ true => false
  | .callback _ _ result parameters => !(signatureHint result parameters).isOk
  | type => !(declaration options known name type).isOk

/-- The names of the declarations that fail, each at the point that the run has reached by then. -/
def rejected (progress : Progress) : Table Label CType → List Label
  | [] => []
  | (name, type) :: rest =>
    let others := rejected ((emitEntry options name type).runOn progress).2 rest
    if rejects options progress.known name type then name :: others else others

end

/-- Whether a name is a text or missing, as the names in C are. -/
def isWord : Label → Bool
  | .str _ | .null => true
  | _ => false

mutual

/-- Whether the names that a hint for a type is made of are words. -/
def isWorded : CType → Bool
  | .synonym header target _ => isWord header.name && isWorded target
  | .array _ item _ => isWorded item
  | .pointer header none _ => isWord header.name
  | .pointer header (some base) _ => isWord header.name && isWorded base
  | .callback header _ result parameters | .signature header result parameters =>
    isWord header.name && isWorded result && areWorded parameters
  | .builtin header _ | .enum header _ | .record header _ | .union header _ | .bare header =>
    isWord header.name

def areWorded : List (Parameter CType) → Bool
  | [] => true
  | parameter :: rest => isWorded parameter.type && areWorded rest

end

theorem identOr_of_isWord {header : Header} (named : isWord header.name = true)
    {other : Except Fault Label} (unnamed : ∃ s, other = .ok (.str s)) :
    ∃ s, identOr header other = .ok (.str s) := by
  unfold identOr
  cases same : header.name with
  | null => exact unnamed
  | str s => exact ⟨ident s, rfl⟩
  | _ =>
    rw [same] at named
    cases named

theorem callableHint_texts (texts : List String) (result : String) :
    ∃ s, callableHint (texts.map .str) (.ok (.str result)) = .ok (.str s) := by
  rw [callableHint, Json.texts, textsFrom_strings]
  exact ⟨_, rfl⟩

mutual

theorem hint_of_isWorded : (type : CType) → isWorded type = true → ∃ s, hint type = .ok (.str s)
  | .synonym header target transparent, worded => by
    rw [isWorded, Bool.and_eq_true] at worded
    cases transparent with
    | true => exact hint_of_isWorded target worded.2
    | false => exact identOr_of_isWord worded.1 ⟨_, rfl⟩
  | .array _ item _, worded => by
    obtain ⟨s, hinted⟩ := hint_of_isWorded item (by simpa [isWorded] using worded)
    rw [hint, hinted]
    exact ⟨_, rfl⟩
  | .pointer header none _, worded => identOr_of_isWord worded ⟨_, rfl⟩
  | .pointer header (some base) isConst, worded => by
    rw [isWorded, Bool.and_eq_true] at worded
    obtain ⟨s, hinted⟩ := hint_of_isWorded base worded.2
    refine identOr_of_isWord worded.1 ?_
    rw [hinted]
    exact ⟨_, rfl⟩
  | .callback header _ result parameters, worded | .signature header result parameters, worded => by
    rw [isWorded, Bool.and_eq_true, Bool.and_eq_true] at worded
    obtain ⟨⟨named, returns⟩, takes⟩ := worded
    obtain ⟨s, returned⟩ := hint_of_isWorded result returns
    obtain ⟨texts, taken⟩ := hints_of_areWorded parameters takes
    refine identOr_of_isWord named ?_
    rw [returned, taken]
    exact callableHint_texts texts s
  | .builtin header _, worded | .enum header _, worded | .record header _, worded
  | .union header _, worded | .bare header, worded => identOr_of_isWord worded ⟨_, rfl⟩

theorem hints_of_areWorded : (parameters : List (Parameter CType)) → areWorded parameters = true →
    ∃ texts : List String, hints parameters = .ok (texts.map .str)
  | [], _ => ⟨[], rfl⟩
  | parameter :: rest, worded => by
    rw [areWorded, Bool.and_eq_true] at worded
    obtain ⟨s, hinted⟩ := hint_of_isWorded parameter.type worded.1
    obtain ⟨texts, others⟩ := hints_of_areWorded rest worded.2
    refine ⟨s :: texts, ?_⟩
    rw [hints, hinted, others]
    rfl

end

/-- What an act adds to a module. -/
structure Yield where
  lines : List Fragment := []
  known : List Marshaler := []
  failed : List Label := []

def Yield.followedBy (first second : Yield) : Yield :=
  { lines := first.lines ++ second.lines
    known := first.known ++ second.known
    failed := first.failed ++ second.failed }

/-- A module after a yield was added to it. Its journal may say anything. -/
structure Added (yield : Yield) (before after : Progress) : Prop where
  out : after.out = before.out ++ yield.lines
  known : after.known = before.known ++ yield.known
  failed : after.failed = yield.failed.foldl (fun failed symbol => failed.insert symbol) before.failed

theorem Added.trans {first second : Yield} {before middle after : Progress}
    (left : Added first before middle) (right : Added second middle after) :
    Added (first.followedBy second) before after := by
  constructor
  · rw [right.out, left.out, List.append_assoc, Yield.followedBy]
  · rw [right.known, left.known, List.append_assoc, Yield.followedBy]
  · rw [right.failed, left.failed, Yield.followedBy, List.foldl_append]

/-- An act that succeeds with the same value and adds the same wherever these marshalers are known. -/
def Yields {α : Type} (act : Emitting α) (known : List Marshaler) (value : α) (yield : Yield) : Prop :=
  ∀ before : Progress, before.known = known →
    ∃ after, act.runOn before = (.ok value, after) ∧ Added yield before after

section
variable {known : List Marshaler}

theorem Yields.then {α β : Type} {act : Emitting α} {next : α → Emitting β} {value : α} {result : β}
    {first second : Yield} (one : Yields act known value first)
    (two : Yields (next value) (known ++ first.known) result second) :
    Yields (act >>= next) known result (first.followedBy second) := by
  intro before same
  obtain ⟨middle, begun, left⟩ := one before same
  obtain ⟨after, ended, right⟩ := two middle (by rw [left.known, same])
  refine ⟨after, ?_, left.trans right⟩
  rw [runOn_bind, begun]
  exact ended

theorem yields_pure {α : Type} (value : α) : Yields (pure value) known value {} := by
  intro before _
  exact ⟨before, rfl, by simp, by simp, rfl⟩

theorem yields_append (lines : List Fragment) : Yields (append lines) known () { lines } := by
  intro before _
  exact ⟨_, rfl, rfl, by simp, rfl⟩

theorem yields_know (more : List Marshaler) : Yields (know more) known () { known := more } := by
  intro before _
  exact ⟨_, rfl, by simp, rfl, rfl⟩

theorem yields_note (journal : Journal) : Yields (note journal) known () {} := by
  intro before _
  exact ⟨_, rfl, (List.append_nil _).symm, (List.append_nil _).symm, rfl⟩

/-- Some yield, where it does not matter which. -/
def Steady (act : Emitting Unit) : Prop := ∀ known, ∃ yield, Yields act known () yield

theorem Steady.then {act : Emitting Unit} {next : Unit → Emitting Unit} (one : Steady act)
    (two : Steady (next ())) : Steady (act >>= next) := by
  intro known
  obtain ⟨first, begun⟩ := one known
  obtain ⟨second, ended⟩ := two (known ++ first.known)
  exact ⟨_, begun.then ended⟩

theorem steady_pure : Steady (pure ()) := fun _ => ⟨_, yields_pure ()⟩

theorem steady_append (lines : List Fragment) : Steady (append lines) :=
  fun _ => ⟨_, yields_append lines⟩

theorem steady_note (journal : Journal) : Steady (note journal) := fun _ => ⟨_, yields_note journal⟩

/-- A note of how far the module has come. -/
theorem steady_tell (told : Progress → Journal) : Steady (get >>= fun progress => note (told progress)) :=
  fun _ => ⟨_, fun before same => yields_note (told before) before same⟩

/-- A part that an option may leave out, before the rest. -/
theorem Steady.optional {chosen : Bool} {act : Emitting Unit} {rest : Unit → Emitting Unit}
    (one : Steady act) (two : Steady (rest ())) :
    Steady (if chosen = true then act >>= rest else rest ()) := by
  split
  · exact one.then two
  · exact two

theorem steady_forM {α : Type} {items : List α} {step : α → Emitting Unit}
    (each : ∀ item ∈ items, Steady (step item)) : Steady (items.forM step) := by
  induction items with
  | nil => exact steady_pure
  | cons item rest ih =>
    have walked : Steady (rest.forM step) := ih fun other member => each other (by simp [member])
    exact (each item (by simp)).then walked

/-- Items whose steps do nothing may be left out of a walk. -/
theorem forM_filter {σ α : Type} {items : List α} {step : α → Act σ Unit} {keep : α → Bool}
    (idle : ∀ item ∈ items, keep item = false → step item = pure ()) :
    (items.filter keep).forM step = items.forM step := by
  induction items with
  | nil => rfl
  | cons item rest ih =>
    have others := ih fun other member => idle other (by simp [member])
    cases kept : keep item with
    | true =>
      rw [List.filter_cons_of_pos kept]
      exact congrArg (fun walk => step item >>= fun _ => walk) others
    | false =>
      have nothing : step item = pure () := idle item (by simp) kept
      rw [List.filter_cons_of_neg (by simp [kept]), others]
      change _ = step item >>= fun _ => rest.forM step
      rw [nothing, pure_bind]

end

theorem identText_of_key {name : Label} (keyed : name.asKey = .ok name) :
    ∃ ident, identText name = .ok ident := by
  unfold identText identOf
  rw [keyed]
  cases name <;> exact ⟨_, rfl⟩

theorem rejects_plain {options : Options} {known : List Marshaler} {name : Label} {type : CType}
    (notSynonym : ∀ header target, type ≠ .synonym header target true)
    (notCallback : ∀ header own result parameters, type ≠ .callback header own result parameters) :
    rejects options known name type = !(declaration options known name type).isOk := by
  unfold rejects
  split
  next => exact absurd rfl (notSynonym _ _)
  next => exact absurd rfl (notCallback _ _ _ _)
  next => rfl

section
variable {options : Options} (patient : options.failFast = false)
include patient

/-- Where failures do not end the work, a unit that fails adds its symbol and nothing else. -/
theorem yields_unit {α : Type} (known : List Marshaler) {symbol : Label}
    (keyed : symbol.asKey = .ok symbol) (context : String)
    (work : List Marshaler → Except Fault α) :
    Yields (unit options symbol context work) known (work known).toOption
      { failed := if (work known).isOk then [] else [symbol] } := by
  intro before same
  unfold unit
  rw [runOn_ofRun, same]
  cases work known with
  | ok value => exact ⟨_, rfl, (List.append_nil _).symm, by simp [same], rfl⟩
  | error fault =>
    dsimp only [tryUnit]
    rw [keyed, patient]
    exact ⟨_, rfl, (List.append_nil _).symm, by simp [same], rfl⟩

theorem steady_unit {α : Type} {symbol : Label} (keyed : symbol.asKey = .ok symbol) (context : String)
    (work : List Marshaler → Except Fault α) {next : Option α → Emitting Unit}
    (rest : ∀ result, Steady (next result)) :
    Steady (unit options symbol context work >>= next) := by
  intro known
  have done := yields_unit patient known keyed context work
  obtain ⟨second, ended⟩ := rest (work known).toOption (known ++ [])
  exact ⟨_, done.then ended⟩

theorem steady_symbols (graph : Graph)
    (keyed : ∀ entry ∈ graph.declarations, entry.1.asKey = .ok entry.1) :
    Steady (emitSymbols options graph) := by
  refine (steady_append _).then ((steady_append _).then (Steady.then ?_ (steady_append _)))
  apply steady_forM
  intro entry member
  dsimp only
  split
  · apply steady_unit patient (keyed entry member)
    intro result
    cases result with
    | none => exact steady_pure
    | some line => exact steady_append _
  · exact steady_pure

theorem steady_callables (graph : Graph)
    (keyed : ∀ entry ∈ graph.declarations, entry.1.asKey = .ok entry.1) :
    Steady (emitCallables options graph) := by
  apply steady_forM
  intro entry member
  dsimp only
  split
  · apply steady_unit patient (keyed entry member)
    intro result
    cases result with
    | none => exact steady_pure
    | some lines => exact steady_append lines
  · exact steady_pure

theorem steady_half {name : Label} (keyed : name.asKey = .ok name) (direction : Direction)
    (result : CType) (parameters : List (Parameter CType)) :
    Steady (emitHalf options direction name result parameters) := by
  apply steady_unit patient rfl
  intro lines
  cases lines with
  | none => exact steady_pure
  | some lines =>
    obtain ⟨ident, named⟩ := identText_of_key keyed
    dsimp only
    rw [named]
    exact (steady_append lines).then fun known => ⟨_, yields_know _⟩

theorem declaration_yields {name : Label} (keyed : name.asKey = .ok name) (type : CType)
    (known : List Marshaler) :
    ∃ yield, Yields (emitDeclaration options name type) known () yield ∧
      ((declaration options known name type).isOk = false → yield = { failed := [name] }) := by
  have done := yields_unit patient known keyed "" fun known =>
    declaration options known name type
  cases made : declaration options known name type with
  | error fault =>
    rw [made] at done
    exact ⟨_, done.then (yields_pure ()), fun _ => rfl⟩
  | ok rendered =>
    rw [made] at done
    have emits : Steady (do
        know ((rendered.ident.map (marshalersOf options)).getD [])
        if !rendered.lines.isEmpty then append (rendered.lines ++ [blankLine])) := by
      refine Steady.then (fun known => ⟨_, yields_know _⟩) ?_
      split
      · exact steady_append _
      · exact steady_pure
    obtain ⟨yield, emitted⟩ := emits (known ++ [])
    exact ⟨_, done.then emitted, nofun⟩

theorem callback_yields {name : Label} (keyed : name.asKey = .ok name) (result : CType)
    (parameters : List (Parameter CType)) (known : List Marshaler) :
    ∃ yield, Yields (emitCallback options name result parameters) known () yield ∧
      ((signatureHint result parameters).isOk = false → yield = { failed := [name] }) := by
  obtain ⟨ident, named⟩ := identText_of_key keyed
  have done := yields_unit patient known keyed "" fun _ => signatureHint result parameters
  have lifted : (liftM (identText name) : Emitting String) = pure ident := by
    rw [named]
    rfl
  unfold emitCallback
  rw [lifted, pure_bind]
  cases made : signatureHint result parameters with
  | error fault =>
    rw [made] at done
    exact ⟨_, done.then (yields_pure ()), fun _ => rfl⟩
  | ok hint =>
    rw [made] at done
    have halves : Steady (do
        append [aliasLine options ident hint]
        if options.readers then emitHalf options .reading name result parameters
        if options.writers then emitHalf options .writing name result parameters) := by
      have half (direction : Direction) := steady_half patient keyed direction result parameters
      have writes : Steady (if options.writers then emitHalf options .writing name result parameters
          else pure ()) := by
        split
        · exact half .writing
        · exact steady_pure
      apply (steady_append _).then
      dsimp only
      split
      · exact (half .reading).then writes
      · exact writes
    obtain ⟨yield, emitted⟩ := halves (known ++ [])
    exact ⟨_, done.then emitted, nofun⟩

/-- An entry adds something that depends on the known marshalers only, and nothing but its failure if
it is rejected. -/
theorem entry_yields {name : Label} (keyed : name.asKey = .ok name) (type : CType)
    (known : List Marshaler) :
    ∃ yield, Yields (emitEntry options name type) known () yield ∧
      (rejects options known name type = true → yield = { failed := [name] }) := by
  unfold emitEntry
  split
  next => exact ⟨_, yields_pure (), nofun⟩
  next =>
    obtain ⟨yield, emitted, failed⟩ := callback_yields patient keyed _ _ known
    exact ⟨yield, emitted, fun rejected => failed (by simpa [rejects] using rejected)⟩
  next notSynonym notCallback =>
    obtain ⟨yield, emitted, failed⟩ := declaration_yields patient keyed type known
    refine ⟨yield, emitted, fun rejected => failed ?_⟩
    rw [rejects_plain notSynonym notCallback] at rejected
    simpa using rejected

end

/-- Which declarations fail depends on the marshalers known at the start only. -/
theorem rejected_congr {options : Options} (patient : options.failFast = false)
    {entries : Table Label CType} (keyed : ∀ entry ∈ entries, entry.1.asKey = .ok entry.1)
    {one two : Progress} (same : one.known = two.known) :
    rejected options one entries = rejected options two entries := by
  induction entries generalizing one two with
  | nil => rfl
  | cons entry rest ih =>
    obtain ⟨name, type⟩ := entry
    obtain ⟨yield, emits, -⟩ := entry_yields patient (keyed (name, type) (by simp)) type two.known
    obtain ⟨left, first, grown⟩ := emits one same
    obtain ⟨right, second, grown'⟩ := emits two rfl
    have met : left.known = right.known := by rw [grown.known, grown'.known, same]
    have others := ih (fun other member => keyed other (by simp [member])) met
    rw [rejected, rejected, first, second, same, others]

theorem rejects_signature {options : Options} {known : List Marshaler} {name : Label}
    (keyed : name.asKey = .ok name) {header : Header} {result : CType}
    {parameters : List (Parameter CType)}
    (worded : isWorded (.signature header result parameters) = true) :
    rejects options known name (.signature header result parameters) = false := by
  rw [isWorded, Bool.and_eq_true, Bool.and_eq_true] at worded
  obtain ⟨⟨-, returns⟩, takes⟩ := worded
  obtain ⟨s, returned⟩ := hint_of_isWorded result returns
  obtain ⟨texts, taken⟩ := hints_of_areWorded parameters takes
  obtain ⟨t, hinted⟩ := callableHint_texts texts s
  have signed : signatureHint result parameters = .ok (.str t) := by
    rw [signatureHint, returned, taken]
    exact hinted
  obtain ⟨ident, named⟩ := identText_of_key keyed
  rw [rejects, declaration, function, named, signed]
  · cases options.signatureTypes <;> rfl
  · rintro _ _ ⟨⟩
  · rintro _ _ _ _ ⟨⟩

/-- A name that fails is that of an entry which is rejected. -/
theorem rejects_of_mem_rejected {options : Options} {progress : Progress}
    {entries : Table Label CType} {name : Label} (fails : name ∈ rejected options progress entries) :
    ∃ type known, (name, type) ∈ entries ∧ rejects options known name type = true := by
  induction entries generalizing progress with
  | nil => cases fails
  | cons entry rest ih =>
    obtain ⟨first, type⟩ := entry
    rw [rejected] at fails
    split at fails
    next here =>
      rcases List.mem_cons.mp fails with rfl | later
      · exact ⟨type, _, List.mem_cons_self, here⟩
      · obtain ⟨type, known, member, fails⟩ := ih later
        exact ⟨type, known, List.mem_cons_of_mem _ member, fails⟩
    next =>
      obtain ⟨type, known, member, fails⟩ := ih fails
      exact ⟨type, known, List.mem_cons_of_mem _ member, fails⟩

theorem eq_of_distinct {entries : Table Label CType}
    (distinct : (Table.keys entries).Pairwise fun one two => (one == two) = false)
    {one two : Label × CType} (first : one ∈ entries) (second : two ∈ entries)
    (same : (one.1 == two.1) = true) : one = two := by
  have symmetric : Std.Symm fun one two : Label × CType => (one.1 == two.1) = false :=
    ⟨fun _ _ apart => BEq.comm.trans apart⟩
  by_contra different
  have apart := (List.pairwise_map.mp distinct).forall first second different
  rw [apart] at same
  cases same

/-- Two yields that are the same but for symbols that failed in the first one alone. -/
structure Spoiled (symbols : List Label) (all some : Yield) : Prop where
  lines : all.lines = some.lines
  known : all.known = some.known
  failed : ∀ symbol,
    all.failed.contains symbol = (symbols.contains symbol || some.failed.contains symbol)

section
variable {symbols : List Label} {all some : Yield}

theorem Spoiled.after (spoiled : Spoiled symbols all some) (first : Yield) :
    Spoiled symbols (first.followedBy all) (first.followedBy some) := by
  constructor
  · exact congrArg (first.lines ++ ·) spoiled.lines
  · exact congrArg (first.known ++ ·) spoiled.known
  · intro symbol
    simp only [Yield.followedBy, List.contains_append, spoiled.failed]
    exact Bool.or_left_comm ..

theorem Spoiled.before (spoiled : Spoiled symbols all some) (last : Yield) :
    Spoiled symbols (all.followedBy last) (some.followedBy last) := by
  constructor
  · exact congrArg (· ++ last.lines) spoiled.lines
  · exact congrArg (· ++ last.known) spoiled.known
  · intro symbol
    simp only [Yield.followedBy, List.contains_append, spoiled.failed, Bool.or_assoc]

theorem Spoiled.cons (spoiled : Spoiled symbols all some) (name : Label) :
    Spoiled (name :: symbols) (Yield.followedBy { failed := [name] } all) some := by
  constructor
  · exact spoiled.lines
  · exact spoiled.known
  · intro symbol
    simp only [Yield.followedBy, List.contains_append, List.contains_cons, spoiled.failed,
      List.contains_nil, Bool.or_false, Bool.or_assoc]

end

/-- What follows the declarations in a module. -/
def emitRest (options : Options) (graph : Graph) : Emitting Unit := do
  if options.symbols then emitSymbols options graph
  if options.wrappers then
    if options.symbols then emitCallables options graph
    else note (Journal.warning
      "Function wrappers need the symbol import table, skipping wrappers")
  let progress ← get
  let fragments := progress.out.length
  let failures := progress.failed.length
  note (Journal.info s!"Generated {fragments} fragments, {failures} failed symbols")

theorem emitModule_eq (options : Options) (graph : Graph) :
    emitModule options graph =
      (modify fun progress =>
        { progress with out := [[.text prelude]], known := [], failed := [] }) >>= fun _ =>
      append (if options.helpers then [[.text helpers]] else []) >>= fun _ =>
      (graph.declarations.forM fun entry => emitEntry options entry.1 entry.2) >>= fun _ =>
      emitRest options graph := by
  unfold emitModule
  cases options.helpers <;> rfl

/-- The symbols and the callables of a graph are those of its functions alone. -/
theorem emitRest_without {options : Options} {graph : Graph} {names : List Label}
    (others : ∀ entry ∈ graph.declarations, names.contains entry.1 = true →
      ∀ header result parameters, entry.2 ≠ .signature header result parameters) :
    emitRest options (graph.without names) = emitRest options graph := by
  have plain (entry : Label × CType) (member : entry ∈ graph.declarations)
      (dropped : (!names.contains entry.1) = false) :
      ∀ header result parameters, entry.2 ≠ .signature header result parameters :=
    others entry member (by simpa using dropped)
  have symbols : emitSymbols options (graph.without names) = emitSymbols options graph := by
    unfold emitSymbols Graph.without
    dsimp only
    rw [forM_filter]
    intro entry member dropped
    split
    next signature => exact absurd signature (plain entry member dropped _ _ _)
    next => rfl
  have callables : emitCallables options (graph.without names) = emitCallables options graph := by
    apply forM_filter
    intro entry member dropped
    dsimp only
    split
    next signature => exact absurd signature (plain entry member dropped _ _ _)
    next => rfl
  rw [emitRest, emitRest, symbols, callables]

theorem contains_insert (failed : List Label) (first symbol : Label) :
    (failed.insert first).contains symbol = (symbol == first || failed.contains symbol) := by
  unfold List.insert
  split
  next known =>
    cases same : symbol == first with
    | false => rfl
    | true =>
      rw [Bool.true_or, ← known]
      exact List.contains_congr same
  next => rw [List.contains_cons]

theorem contains_foldl_insert (symbols failed : List Label) (symbol : Label) :
    (symbols.foldl (fun failed symbol => failed.insert symbol) failed).contains symbol =
      (symbols.contains symbol || failed.contains symbol) := by
  induction symbols generalizing failed with
  | nil => simp
  | cons first rest ih =>
    rw [List.foldl_cons, ih, contains_insert]
    simp only [List.contains_cons, Bool.or_assoc, Bool.or_left_comm]

/-- What a module has after acts that add a yield, and the marshalers that are known by then. -/
theorem generate_adds {options : Options} {graph : Graph} {yield : Yield}
    (emits : Yields (append (if options.helpers then [[.text helpers]] else []) >>= fun _ =>
      (graph.declarations.forM fun entry => emitEntry options entry.1 entry.2) >>= fun _ =>
      emitRest options graph) [] () yield) (start : Progress) :
    ∃ made after, (generate options graph).runOn start = (.ok made, after) ∧
      made.fragments = [.text prelude] :: yield.lines ∧
      made.failed = yield.failed.foldl (fun failed symbol => failed.insert symbol) [] ∧
      after.known = yield.known := by
  let module : Emitting Module := do
    emitModule options graph
    let progress ← get
    return { fragments := progress.out, failed := progress.failed }
  let begun := Journal.debug ("LayoutCodeGen.generate_all" ++ ": started")
  obtain ⟨ended, run⟩ := runOn_timed "LayoutCodeGen.generate_all" module start
  let blank : Progress :=
    { Noting.tell begun start with out := [[.text prelude]], known := [], failed := [] }
  obtain ⟨after, done, added⟩ := emits blank rfl
  have whole : (emitModule options graph).runOn (Noting.tell begun start) = (.ok (), after) := by
    rw [emitModule_eq]
    exact done
  have ends : module.runOn (Noting.tell begun start) =
      (.ok { fragments := after.out, failed := after.failed }, after) := by
    rw [runOn_bind, whole]
    rfl
  rw [ends] at run
  exact ⟨_, _, run, added.out, added.failed, added.known⟩

/-- The symbols that are reported as failed, without their order. -/
theorem generate_of_yields {options : Options} {graph : Graph} {yield : Yield}
    (emits : Yields (append (if options.helpers then [[.text helpers]] else []) >>= fun _ =>
      (graph.declarations.forM fun entry => emitEntry options entry.1 entry.2) >>= fun _ =>
      emitRest options graph) [] () yield) (start : Progress) :
    ∃ made, ((generate options graph).runOn start).1 = .ok made ∧
      made.fragments = [.text prelude] :: yield.lines ∧
      ∀ symbol, made.failed.contains symbol = yield.failed.contains symbol := by
  obtain ⟨made, after, run, lines, failed, -⟩ := generate_adds emits start
  refine ⟨made, congrArg Prod.fst run, lines, fun symbol => ?_⟩
  rw [failed]
  simpa using contains_foldl_insert yield.failed [] symbol

section
variable {options : Options} (patient : options.failFast = false)
include patient

/-- The declarations without those that fail add the same, fail nowhere, and the names of those that
fail are what the run over all of them reports on top. -/
theorem declarations_spoiled {entries : Table Label CType}
    (keyed : ∀ entry ∈ entries, entry.1.asKey = .ok entry.1)
    (distinct : (Table.keys entries).Pairwise fun one two => (one == two) = false)
    (progress : Progress) :
    let failing := rejected options progress entries
    let kept := entries.filter fun entry => !failing.contains entry.1
    ∃ all some,
      Yields (entries.forM fun entry => emitEntry options entry.1 entry.2) progress.known () all ∧
        Yields (kept.forM fun entry => emitEntry options entry.1 entry.2) progress.known () some ∧
        Spoiled failing all some ∧ rejected options progress kept = [] := by
  induction entries generalizing progress with
  | nil => exact ⟨{}, {}, yields_pure (), yields_pure (), ⟨rfl, rfl, fun _ => rfl⟩, rfl⟩
  | cons entry rest ih =>
    obtain ⟨name, type⟩ := entry
    obtain ⟨apart, distinct⟩ := List.pairwise_cons.mp distinct
    have keyedRest : ∀ entry ∈ rest, entry.1.asKey = .ok entry.1 :=
      fun entry member => keyed entry (by simp [member])
    obtain ⟨yield, emits, failed⟩ :=
      entry_yields patient (keyed (name, type) (by simp)) type progress.known
    obtain ⟨after, run, grown⟩ := emits progress rfl
    obtain ⟨all, some, walked, walked', spoiled, clean⟩ := ih keyedRest distinct after
    have next : rejected options progress ((name, type) :: rest) =
        if rejects options progress.known name type then name :: rejected options after rest
        else rejected options after rest := by
      rw [rejected, run]
    rw [grown.known] at walked walked'
    dsimp only
    rw [next]
    cases fails : rejects options progress.known name type with
    | true =>
      obtain rfl := failed fails
      have kept : ((name, type) :: rest).filter (fun entry =>
          !(name :: rejected options after rest).contains entry.1) =
            rest.filter fun entry => !(rejected options after rest).contains entry.1 := by
        rw [List.filter_cons_of_neg (by simp)]
        apply List.filter_congr
        intro entry member
        have other : (entry.1 == name) = false := by
          rw [BEq.comm]
          exact apart entry.1 (List.mem_map_of_mem member)
        rw [List.contains_cons, other, Bool.false_or]
      rw [if_pos rfl, kept]
      refine ⟨_, some, emits.then walked, ?_, spoiled.cons name, ?_⟩
      · simpa using walked'
      · rw [rejected_congr patient (fun entry member => keyedRest entry (List.mem_of_mem_filter member))
          (show progress.known = after.known by simp [grown.known])]
        exact clean
    | false =>
      have kept : ((name, type) :: rest).filter (fun entry =>
          !(rejected options after rest).contains entry.1) =
            (name, type) :: rest.filter fun entry =>
              !(rejected options after rest).contains entry.1 := by
        apply List.filter_cons_of_pos
        rw [Bool.not_eq_true', ← Bool.not_eq_true, List.contains_iff_exists_mem_beq]
        rintro ⟨other, fails, same⟩
        obtain ⟨type, known, member, -⟩ := rejects_of_mem_rejected fails
        rw [apart other (List.mem_map_of_mem member)] at same
        cases same
      rw [if_neg (by simp), kept]
      refine ⟨_, _, emits.then walked, emits.then walked', spoiled.after yield, ?_⟩
      rw [rejected, run, fails]
      exact clean

theorem steady_rest (graph : Graph)
    (keyed : ∀ entry ∈ graph.declarations, entry.1.asKey = .ok entry.1) :
    Steady (emitRest options graph) := by
  unfold emitRest
  refine (steady_symbols patient graph keyed).optional ?_
  dsimp only
  split
  · split
    · exact (steady_callables patient graph keyed).then (steady_tell _)
    · exact (steady_note _).then (steady_tell _)
  · exact steady_tell _

end

/-- A declaration that fails is as good as absent: without those that fail a module has the same
fragments, none of its declarations fails, and the failed symbols are the others. -/
theorem generate_without_rejected {options : Options} (patient : options.failFast = false)
    (graph : Graph) (keyed : ∀ entry ∈ graph.declarations, entry.1.asKey = .ok entry.1)
    (distinct : (Table.keys graph.declarations).Pairwise fun one two => (one == two) = false)
    (worded : ∀ entry ∈ graph.declarations, isWorded entry.2 = true) (start start' : Progress) :
    let failing := rejected options {} graph.declarations
    ∃ made made', ((generate options graph).runOn start).1 = .ok made ∧
      ((generate options (graph.without failing)).runOn start').1 = .ok made' ∧
      made.fragments = made'.fragments ∧
      rejected options {} (graph.without failing).declarations = [] ∧
      ∀ symbol, made.failed.contains symbol =
        (failing.contains symbol || made'.failed.contains symbol) := by
  intro failing
  have signatures : ∀ entry ∈ graph.declarations, failing.contains entry.1 = true →
      ∀ header result parameters, entry.2 ≠ .signature header result parameters := by
    intro entry member fails header result parameters signature
    obtain ⟨name, listed, same⟩ := List.contains_iff_exists_mem_beq.mp fails
    obtain ⟨type, known, declared, rejects⟩ := rejects_of_mem_rejected listed
    obtain rfl : entry = (name, type) := eq_of_distinct distinct member declared same
    obtain rfl : type = .signature header result parameters := signature
    rw [rejects_signature (keyed _ member) (worded _ member)] at rejects
    cases rejects
  obtain ⟨all, some, walked, walked', spoiled, clean⟩ :=
    declarations_spoiled patient keyed distinct {}
  have opens := @yields_append [] (if options.helpers then [[.text helpers]] else [])
  obtain ⟨last, ended⟩ := steady_rest patient graph keyed all.known
  have ended' : Yields (emitRest options (graph.without failing)) some.known () last := by
    rw [emitRest_without signatures, ← spoiled.known]
    exact ended
  obtain ⟨made, run, lines, symbols⟩ :=
    @generate_of_yields options graph _ (opens.then (walked.then ended)) start
  obtain ⟨made', run', lines', symbols'⟩ :=
    @generate_of_yields options (graph.without failing) _ (opens.then (walked'.then ended')) start'
  have whole := (spoiled.before last).after
    { lines := if options.helpers then [[.text helpers]] else [] }
  refine ⟨made, made', run, run', ?_, clean, fun symbol => ?_⟩
  · rw [lines, lines', whole.lines]
  · rw [symbols, symbols', whole.failed]

/-- A record with a callback that cannot be marshaled, and a function that takes it by its address. -/
def stepNodes : List Json :=
  let parameter : Json := .obj [("kind", .str "ParmVarDecl"), ("name", .str "from"),
    ("type", .obj [("qualType", .str "struct walk *")])]
  visitNodes ++ [.obj [("kind", .str "FunctionDecl"), ("name", .str "step"),
    ("type", .obj [("qualType", .str "int (struct walk *)")]), ("inner", .arr [parameter])]]

theorem generate_without_rejected_step :
    let graph := graphOf 8 stepNodes
    let failing := rejected {} {} graph.declarations
    failing = [.str "walk"] ∧
      ∃ made made', ((generate {} graph).runOn {}).1 = .ok made ∧
        ((generate {} (graph.without failing)).runOn {}).1 = .ok made' ∧
        made.fragments = made'.fragments ∧
        rejected {} {} (graph.without failing).declarations = [] ∧
        ∀ symbol, made.failed.contains symbol =
          (failing.contains symbol || made'.failed.contains symbol) := by
  have keyed : ∀ entry ∈ (graphOf 8 stepNodes).declarations, entry.1.asKey = .ok entry.1 := by
    decide +kernel
  have distinct : (Table.keys (graphOf 8 stepNodes).declarations).Pairwise
      fun one two => (one == two) = false := by
    decide +kernel
  have worded : ∀ entry ∈ (graphOf 8 stepNodes).declarations, isWorded entry.2 = true := by
    decide +kernel
  exact ⟨by decide +kernel, generate_without_rejected rfl _ keyed distinct worded {} {}⟩

end NativeBindings.Emit
