import NativeBindings.Proofs.Act
import NativeBindings.Proofs.Emit.DeclarationSupply
import NativeBindings.Seed

/-!
A generated module never uses a marshaler that it has not defined yet, whichever declarations fail.
The fragments of a run are supplied throughout, and all that is known is defined.
-/
namespace NativeBindings.Emit

open Act Outcome

section
variable {options : Options} {known : List Marshaler}

theorem argument_used {index : Nat} {parameter : Parameter CType} {given : Argument}
    (made : argument options known index parameter = .ok given) :
    ∀ step ∈ given.steps, ∀ m ∈ Fragment.used step, m ∈ known := by
  obtain ⟨passed, -, made⟩ := bind_eq_ok.mp made
  obtain ⟨hinted, -, made⟩ := bind_eq_ok.mp made
  obtain ⟨carrier, -, made⟩ := bind_eq_ok.mp made
  dsimp only at made
  split at made
  · obtain rfl := pure_eq_ok.mp made
    simp
  split at made
  · obtain ⟨type, -, made⟩ := bind_eq_ok.mp made
    obtain rfl := pure_eq_ok.mp made
    simp
  split at made
  next header fields record =>
    split at made
    · obtain rfl := pure_eq_ok.mp made
      simp
    · obtain ⟨pieces, found, made⟩ := bind_eq_ok.mp made
      obtain ⟨target, named, made⟩ := bind_eq_ok.mp made
      obtain ⟨size, -, made⟩ := bind_eq_ok.mp made
      obtain rfl := pure_eq_ok.mp made
      have writer : { direction := .writing, ident := target } ∈ known := by
        obtain ⟨ident, same, found⟩ := bind_eq_ok.mp found
        obtain rfl : target = ident := by simpa [named] using same
        dsimp only at found
        split at found
        · exact List.contains_iff_mem.mp ‹_›
        · cases found
      simpa [recordSteps] using writer
  next =>
    obtain rfl := pure_eq_ok.mp made
    simp

theorem arguments_used {index : Nat} {parameters : List (Parameter CType)} {given : List Argument}
    (made : arguments options known index parameters = .ok given) :
    ∀ one ∈ given, ∀ step ∈ one.steps, ∀ m ∈ Fragment.used step, m ∈ known := by
  induction parameters generalizing index given with
  | nil =>
    obtain rfl := pure_eq_ok.mp made
    simp
  | cons parameter rest ih =>
    obtain ⟨first, one, made⟩ := bind_eq_ok.mp made
    obtain ⟨others, walked, made⟩ := bind_eq_ok.mp made
    obtain rfl := pure_eq_ok.mp made
    intro other member
    rcases List.mem_cons.mp member with rfl | member
    · exact argument_used one
    · exact ih walked other member

theorem callable_supplied {name : Label} {result : CType} {parameters : List (Parameter CType)}
    {lines : List Fragment} (made : callable options known name result parameters = .ok lines) :
    Supplied (Available known) lines := by
  obtain ⟨ident, -, made⟩ := bind_eq_ok.mp made
  obtain ⟨carrier, -, made⟩ := bind_eq_ok.mp made
  obtain ⟨given, walked, made⟩ := bind_eq_ok.mp made
  dsimp only at made
  split at made
  · obtain rfl := pure_eq_ok.mp made
    exact supplied_of_unused (by simp)
  · obtain ⟨returned, -, made⟩ := bind_eq_ok.mp made
    obtain ⟨passed, -, made⟩ := bind_eq_ok.mp made
    obtain rfl := pure_eq_ok.mp made
    apply supplied_of_used
    intro fragment member m used
    simp only [List.cons_append, List.mem_cons, List.mem_append, List.mem_flatMap, List.mem_map,
      List.not_mem_nil, or_false] at member
    rcases member with rfl | ⟨one, present, step, inside, rfl⟩ | rfl
    · simp at used
    · exact .inr (arguments_used walked one present step inside m (by simpa using used))
    · simp at used

end

/-- What a stretch of a run adds: fragments that are supplied by what was known before it, and
known marshalers that these fragments define. -/
def Grown (before after : Progress) : Prop :=
  ∃ lines more, after.out = before.out ++ lines ∧ after.known = before.known ++ more ∧
    Supplied (Available before.known) lines ∧ more ⊆ definedIn lines

theorem Grown.of_same {before after : Progress} (out : after.out = before.out)
    (known : after.known = before.known) : Grown before after :=
  ⟨[], [], by simp [out], by simp [known], trivial, by simp⟩

theorem Grown.refl (progress : Progress) : Grown progress progress := .of_same rfl rfl

theorem Grown.trans {first second third : Progress} (left : Grown first second)
    (right : Grown second third) : Grown first third := by
  obtain ⟨lines, more, out, known, supplied, defines⟩ := left
  obtain ⟨lines', more', out', known', supplied', defines'⟩ := right
  refine ⟨lines ++ lines', more ++ more', by simp [out', out], by simp [known', known], ?_, ?_⟩
  · refine supplied_append.mpr ⟨supplied, supplied'.mono ?_⟩
    rintro m (array | member)
    · exact .inl (.inl array)
    · rw [known] at member
      rcases List.mem_append.mp member with old | new
      · exact .inl (.inr old)
      · exact .inr (defines new)
  · rw [definedIn_append]
    exact List.append_subset.mpr ⟨fun m member => List.mem_append_left _ (defines member),
      fun m member => List.mem_append_right _ (defines' member)⟩

theorem Grown.ready {options : Options} {before after : Progress} (grown : Grown before after)
    (ready : Ready options before.known) : Ready options after.known := by
  obtain ⟨lines, more, -, known, -⟩ := grown
  rw [known]
  exact fun m member => List.mem_append_left _ (ready member)

/-- An act that only grows a module, whether it fails or not. -/
abbrev Grows {α : Type} (act : Emitting α) (state : Progress) : Prop :=
  Ends (fun _ => Grown state) (fun _ => Grown state) act state

theorem Grows.then {α β : Type} {act : Emitting α} {next : α → Emitting β} {state : Progress}
    (first : Grows act state) (rest : ∀ value after, Grown state after → Grows (next value) after) :
    Grows (act >>= next) state := by
  rw [Grows, ends_bind]
  refine first.mono (fun value after grown => ?_) fun _ _ grown => grown
  exact (rest value after grown).mono (fun _ _ => grown.trans) fun _ _ => grown.trans

/-- A part that an option may leave out, before the rest. -/
theorem optional_grows {α : Type} {chosen : Bool} {act : Emitting Unit} {rest : Unit → Emitting α}
    {state : Progress} (grows : Grows act state) (others : ∀ after, Grows (rest ()) after) :
    Grows (if chosen = true then act >>= rest else rest ()) state := by
  split
  · exact grows.then fun _ after _ => others after
  · exact others state

theorem append_grows {lines : List Fragment} {state : Progress}
    (supplied : Supplied (Available state.known) lines) : Grows (append lines) state :=
  ⟨lines, [], rfl, by simp, supplied, by simp⟩

theorem note_grows (journal : Journal) (state : Progress) : Grows (note journal) state :=
  Grown.of_same rfl rfl

section
variable {options : Options}

/-- A unit of work leaves the module as it is, and gives a result if the work succeeds. -/
theorem unit_ends {α : Type} {symbol : Label} {context : String}
    {work : List Marshaler → Except Fault α} {state : Progress} :
    Ends (fun result after => after.out = state.out ∧ after.known = state.known ∧
        ((∃ value, work state.known = .ok value ∧ result = some value) ∨
          (∃ fault, work state.known = .error fault) ∧ result = none))
      (fun _ after => after.out = state.out ∧ after.known = state.known ∧
        ∃ fault, work state.known = .error fault)
      (unit options symbol context work) state := by
  rw [unit, ends_ofRun]
  cases done : work state.known with
  | ok value => exact ⟨rfl, rfl, .inl ⟨value, rfl, rfl⟩⟩
  | error fault =>
    dsimp only [tryUnit]
    cases symbol.asKey with
    | error other => exact ⟨rfl, rfl, fault, rfl⟩
    | ok key =>
      cases options.failFast with
      | true => exact ⟨rfl, rfl, fault, rfl⟩
      | false => exact ⟨rfl, rfl, .inr ⟨⟨fault, rfl⟩, rfl⟩⟩

/-- What is emitted of a unit of work matters only if the work succeeds. -/
theorem grows_of_unit {α β : Type} {symbol : Label} {context : String}
    {work : List Marshaler → Except Fault α} {next : Option α → Emitting β} {state : Progress}
    (emits : ∀ value after, work state.known = .ok value → after.known = state.known →
      Grows (next (some value)) after)
    (skips : ∀ after, Grows (next none) after) :
    Grows (unit options symbol context work >>= next) state := by
  rw [Grows, ends_bind]
  refine unit_ends.mono (fun result after ends => ?_) fun _ after ends => .of_same ends.1 ends.2.1
  obtain ⟨out, known, ⟨value, done, rfl⟩ | ⟨-, rfl⟩⟩ := ends
  · exact (emits value after done known).mono (fun _ _ => (Grown.of_same out known).trans)
      fun _ _ => (Grown.of_same out known).trans
  · exact (skips after).mono (fun _ _ => (Grown.of_same out known).trans)
      fun _ _ => (Grown.of_same out known).trans

theorem pure_grows {α : Type} (value : α) (state : Progress) :
    Grows (pure value : Emitting α) state := Grown.refl state

theorem lift_grows {α : Type} (outcome : Except Fault α) (state : Progress) :
    Grows (liftM outcome : Emitting α) state :=
  (ends_lift outcome).mpr ⟨fun _ _ => Grown.refl state, fun _ _ => Grown.refl state⟩

/-- Making marshalers known and appending the lines that define them is one step. -/
theorem know_append_grows {lines : List Fragment} {more : List Marshaler} {state : Progress}
    (supplied : Supplied (Available state.known) lines) (defines : more ⊆ definedIn lines) :
    Grows (know more >>= fun _ => append lines) state :=
  ⟨lines, more, rfl, rfl, supplied, defines⟩

theorem append_know_grows {lines : List Fragment} {more : List Marshaler} {state : Progress}
    (supplied : Supplied (Available state.known) lines) (defines : more ⊆ definedIn lines) :
    Grows (append lines >>= fun _ => know more) state :=
  ⟨lines, more, rfl, rfl, supplied, defines⟩

theorem emitRendered_grows {rendered : Rendered} {state : Progress}
    (backed : rendered.Backed options state.known) :
    Grows (do
      know ((rendered.ident.map (marshalersOf options)).getD [])
      if !rendered.lines.isEmpty then append (rendered.lines ++ [blankLine])) state := by
  have defines : (rendered.ident.map (marshalersOf options)).getD [] ⊆ definedIn rendered.lines := by
    cases same : rendered.ident with
    | none => simp
    | some ident => exact backed.defines ident same
  cases empty : rendered.lines with
  | nil =>
    rw [empty] at defines
    exact ⟨[], _, by simp, rfl, trivial, defines⟩
  | cons first rest =>
    refine know_append_grows ?_ fun m member => ?_
    · rw [← empty, supplied_append]
      exact ⟨backed.supplied, supplied_of_unused (by simp)⟩
    · rw [← empty, definedIn_append]
      exact List.mem_append_left _ (defines member)

theorem emitDeclaration_grows {name : Label} {type : CType} {state : Progress}
    (backed : ∀ rendered, declaration options state.known name type = .ok rendered →
      rendered.Backed options state.known) : Grows (emitDeclaration options name type) state := by
  refine grows_of_unit (fun rendered after made known => ?_) fun after => pure_grows () after
  exact emitRendered_grows (known ▸ backed rendered made)

theorem emitHalf_grows {direction : Direction} {name : Label} {result : CType}
    {parameters : List (Parameter CType)} {state : Progress} (ready : Ready options state.known)
    (offered : options.offers direction = true) :
    Grows (emitHalf options direction name result parameters) state := by
  refine grows_of_unit (fun lines after made known => ?_) fun after => pure_grows () after
  obtain ⟨ident, named, supplied, defines⟩ := callbackHalf_supplied made (ready.mem offered)
  rw [named]
  exact append_know_grows (known ▸ supplied) (by simpa using defines)

theorem emitCallback_grows {name : Label} {result : CType} {parameters : List (Parameter CType)}
    {state : Progress} (ready : Ready options state.known) :
    Grows (emitCallback options name result parameters) state := by
  refine (lift_grows _ state).then fun ident before grown => ?_
  refine grows_of_unit (fun hint after _ known => ?_) fun after => pure_grows () after
  have ready : Ready options after.known := known ▸ grown.ready ready
  refine (append_grows (supplied_of_unused (by simp [aliasLine]))).then fun _ before grown => ?_
  have ready := grown.ready ready
  have writes {state : Progress} (ready : Ready options state.known) :
      Grows (if options.writers = true then emitHalf options .writing name result parameters
        else pure ()) state := by
    split
    · exact emitHalf_grows ready ‹_›
    · exact pure_grows () state
  dsimp only
  split
  · exact (emitHalf_grows ready ‹_›).then fun _ after grown => writes (grown.ready ready)
  · exact writes ready

theorem emitEntry_grows {name : Label} {type : CType} {state : Progress}
    (ready : Ready options state.known) (flat : isFlat type = true) :
    Grows (emitEntry options name type) state := by
  unfold emitEntry
  split
  · exact pure_grows () state
  · exact emitCallback_grows ready
  · exact emitDeclaration_grows fun rendered made => declaration_backed made ready flat

theorem walk_grows {α : Type} {items : List α} {step : α → Emitting Unit} {state : Progress}
    (keeps : ∀ item ∈ items, ∀ before, Grown state before → Grows (step item) before) :
    Grows (items.forM step) state :=
  ends_forM (Grown.refl state) fun item member before grown =>
    (keeps item member before grown).mono (fun _ _ => grown.trans) fun _ _ => grown.trans

theorem emitSymbols_grows (graph : Graph) (state : Progress) :
    Grows (emitSymbols options graph) state := by
  unfold emitSymbols
  dsimp only
  refine (append_grows (supplied_of_unused ?_)).then fun _ after _ => ?_
  · intro fragment member
    obtain ⟨text, -, rfl⟩ := List.mem_map.mp member
    simp
  refine (append_grows (supplied_of_unused (by simp))).then fun _ after _ => ?_
  refine (walk_grows fun entry _ before _ => ?_).then fun _ after _ =>
    append_grows (supplied_of_unused (by simp))
  split
  · refine grows_of_unit (fun fragment after made _ => append_grows (supplied_of_unused ?_))
      fun after => pure_grows () after
    obtain ⟨first, -, made⟩ := bind_eq_ok.mp made
    obtain ⟨others, -, made⟩ := bind_eq_ok.mp made
    obtain rfl := pure_eq_ok.mp made
    simp [line]
  · exact pure_grows () before

theorem emitCallables_grows (graph : Graph) (state : Progress) :
    Grows (emitCallables options graph) state := by
  refine walk_grows fun entry _ before _ => ?_
  dsimp only
  split
  · refine grows_of_unit (fun lines after made known => ?_) fun after => pure_grows () after
    exact append_grows (known ▸ callable_supplied made)
  · exact pure_grows () before

end

/-- A graph that starts with primitive types, the opaque pointer among them. -/
def StartsPrimitive (graph : Graph) : Prop :=
  ∃ front header rest,
    graph.declarations = front ++ (.str Seed.opaquePointer, .builtin header .pointer) :: rest ∧
      ∀ entry ∈ front, ∃ header carrier, entry.2 = .builtin header carrier

theorem StartsPrimitive.longer {graph later : Graph} {more : Table Label CType}
    (starts : StartsPrimitive graph) (longer : later.declarations = graph.declarations ++ more) :
    StartsPrimitive later := by
  obtain ⟨front, header, rest, same, primitive⟩ := starts
  exact ⟨front, header, rest ++ more, by simp [longer, same], primitive⟩

theorem startsPrimitive_sow : StartsPrimitive (Seed.sow {}) := by
  refine ⟨(Seed.sow {}).declarations.take 14, _, (Seed.sow {}).declarations.drop 15, rfl, ?_⟩
  intro entry member
  have front : ∀ entry ∈ (Seed.sow {}).declarations.take 14, entry.2.kind = "builtin" := by decide
  have kind := front entry member
  cases same : entry.2 with
  | builtin header carrier => exact ⟨header, carrier, rfl⟩
  | _ => simp [same, CType.kind] at kind

/-- Every fragment uses only marshalers for arrays, which the fixed text has, and marshalers that
some fragment before it defines. -/
def DefinedBeforeUse (out : List Fragment) : Prop :=
  ∀ before fragment after, out = before ++ fragment :: after → ∀ m ∈ fragment.used,
    m.ident = "array" ∨ ∃ earlier ∈ before, m ∈ earlier.defined

theorem definedBeforeUse_of_grown {start finish : Progress} (grown : Grown start finish)
    (unused : ∀ fragment ∈ start.out, fragment.used = []) (unknown : start.known = []) :
    DefinedBeforeUse finish.out := by
  obtain ⟨lines, more, out, -, supplied, -⟩ := grown
  rintro before fragment after same m used
  have whole : Supplied (Available []) finish.out := by
    rw [out, supplied_append]
    refine ⟨supplied_of_unused unused, ?_⟩
    rw [unknown] at supplied
    exact supplied.mono fun m => .inl
  rw [same] at whole
  rcases whole.before used with (array | known) | defined
  · exact .inl array
  · simp at known
  · exact .inr defined

section
variable {options : Options} {graph : Graph}

theorem declaration_pointer {known : List Marshaler} {header : Header} :
    ∃ rendered, declaration options known (.str Seed.opaquePointer) (.builtin header .pointer) =
      .ok rendered ∧ rendered.ident = some "opaque_pointer" := by
  have named : identText (.str Seed.opaquePointer) = .ok "opaque_pointer" := by decide
  exact ⟨_, by rw [declaration, builtin, named]; rfl, rfl⟩

/-- Once the opaque pointer is declared, its marshalers are known. -/
theorem emitOpaque_ends {header : Header} {state : Progress} :
    Ends (fun _ after => Grown state after ∧ Ready options after.known) (fun _ => Grown state)
      (emitDeclaration options (.str Seed.opaquePointer) (.builtin header .pointer)) state := by
  obtain ⟨rendered, made, ident⟩ := @declaration_pointer options state.known header
  have backed : rendered.Backed options state.known :=
    builtin_backed (show builtin options (.str Seed.opaquePointer) .pointer = .ok rendered from made)
  rw [emitDeclaration, ends_bind]
  refine unit_ends.mono (fun result after ends => ?_) fun _ after ends => .of_same ends.1 ends.2.1
  obtain ⟨out, known, ⟨_, done, rfl⟩ | ⟨⟨fault, failed⟩, rfl⟩⟩ := ends
  · obtain rfl := Except.ok.inj (made.symm.trans done)
    have grows : Grows _ after := emitRendered_grows (known ▸ backed)
    have knows : Ends (fun _ final => Ready options final.known) (fun _ _ => True) (do
        know ((rendered.ident.map (marshalersOf options)).getD [])
        if !rendered.lines.isEmpty then append (rendered.lines ++ [blankLine])) after := by
      have ready : Ready options (after.known ++ marshalersOf options "opaque_pointer") :=
        List.subset_append_right _ _
      rw [ident]
      dsimp only [Option.map_some, Option.getD_some]
      split
      · exact ready
      · exact ready
    exact (grows.and knows).mono
      (fun _ _ ends => ⟨(Grown.of_same out known).trans ends.1, ends.2⟩)
      fun _ _ ends => (Grown.of_same out known).trans ends.1
  · rw [made] at failed
    cases failed

theorem emitDeclarations_grows (starts : StartsPrimitive graph)
    (flat : ∀ entry ∈ graph.declarations, isFlat entry.2 = true) (state : Progress) :
    Grows (graph.declarations.forM fun entry => emitEntry options entry.1 entry.2) state := by
  obtain ⟨front, header, rest, same, primitive⟩ := starts
  have split : graph.declarations.forM (fun entry => emitEntry options entry.1 entry.2) =
      (front.forM fun entry => emitEntry options entry.1 entry.2) >>= fun _ =>
        emitDeclaration options (.str Seed.opaquePointer) (.builtin header .pointer) >>= fun _ =>
          rest.forM fun entry => emitEntry options entry.1 entry.2 := by
    rw [same]
    exact List.forM_append
  rw [split]
  refine Grows.then (walk_grows fun entry member before _ => ?_) fun _ before _ => ?_
  · obtain ⟨header, carrier, primitive⟩ := primitive entry member
    rw [primitive]
    refine emitDeclaration_grows fun rendered made => ?_
    exact builtin_backed (show builtin options entry.1 carrier = .ok rendered from made)
  · rw [Grows, ends_bind]
    refine emitOpaque_ends.mono (fun _ after ends => ?_) fun _ _ grown => grown
    refine Ends.mono (walk_grows fun entry member before grown => ?_)
      (fun _ _ => ends.1.trans) fun _ _ => ends.1.trans
    refine emitEntry_grows (grown.ready ends.2) (flat entry ?_)
    rw [same]
    exact List.mem_append_right _ (List.mem_cons_of_mem _ member)

theorem emitModule_ends (starts : StartsPrimitive graph)
    (flat : ∀ entry ∈ graph.declarations, isFlat entry.2 = true) (state : Progress) :
    Ends (fun _ after => DefinedBeforeUse after.out) (fun _ after => DefinedBeforeUse after.out)
      (emitModule options graph) state := by
  rw [emitModule, ends_bind, ends_modify]
  have grows : Grows (do
      if options.helpers then append [[.text helpers]]
      graph.declarations.forM fun entry => emitEntry options entry.1 entry.2
      if options.symbols then emitSymbols options graph
      if options.wrappers then
        if options.symbols then emitCallables options graph
        else note (Journal.warning
          "Function wrappers need the symbol import table, skipping wrappers")
      let progress ← get
      let fragments := progress.out.length
      let failures := progress.failed.length
      note (Journal.info s!"Generated {fragments} fragments, {failures} failed symbols"))
      { state with out := [[.text prelude]], known := [], failed := [] } := by
    have counts (start : Progress) : Grows (do
        let progress ← get
        let fragments := progress.out.length
        let failures := progress.failed.length
        note (Journal.info s!"Generated {fragments} fragments, {failures} failed symbols")) start :=
      Grows.then (Grown.refl start) fun progress after _ => note_grows _ after
    refine optional_grows (append_grows (supplied_of_unused (by simp))) fun after => ?_
    refine (emitDeclarations_grows starts flat after).then fun _ after _ => ?_
    refine optional_grows (emitSymbols_grows graph after) fun after => ?_
    dsimp only
    split
    · split
      · exact (emitCallables_grows graph after).then fun _ after _ => counts after
      · exact (note_grows _ after).then fun _ after _ => counts after
    · exact counts after
  exact grows.mono (fun _ after grown => definedBeforeUse_of_grown grown (by simp) rfl)
    fun _ after grown => definedBeforeUse_of_grown grown (by simp) rfl

/-- Whatever fails, a module uses no marshaler before its definition. -/
theorem generate_defines_before_use (starts : StartsPrimitive graph)
    (flat : ∀ entry ∈ graph.declarations, isFlat entry.2 = true) (start : Progress) :
    DefinedBeforeUse ((generate options graph).runOn start).2.out ∧
      ∀ result, ((generate options graph).runOn start).1 = .ok result →
        result.fragments = ((generate options graph).runOn start).2.out := by
  have ends : Ends (fun result after => DefinedBeforeUse after.out ∧
      result.fragments = after.out) (fun _ after => DefinedBeforeUse after.out)
      (generate options graph) start := by
    refine ends_timed fun begun => ends_bind.mpr ?_
    exact (emitModule_ends starts flat _).mono (fun _ _ sound _ => ⟨sound, rfl⟩)
      fun _ _ sound _ => sound
  have sound := ends.mono (fun _ _ sound => sound.1) fun _ _ sound => sound
  exact ⟨sound.after, fun result done => ((ends_iff.mp ends).1 result done).2⟩

end

/-- A graph in which the fields of a record are a union, a handle and an array, and a function takes
the record by its address. -/
def unionGraph : Graph :=
  let int32 : CType := .builtin { name := .str "int32_t", size := .int 4 } .int32
  let value : CType := .union { name := .null, size := .int 4 }
    [{ name := .str "word", offset := .int 0, size := .int 4, type := int32 }]
  let handle : CType := .pointer { name := .null, size := CType.pointerSize } none false
  let row : CType := .array { name := .str "int[2]", size := .int 8 } int32 (.int 2)
  let box : CType := .record { name := .str "box", size := .int 24 }
    [{ name := .str "value", offset := .int 0, size := .int 4, type := value },
      { name := .str "next", offset := .int 8, size := .int 8, type := handle },
      { name := .str "row", offset := .int 16, size := .int 8, type := row }]
  let address : CType := .pointer { name := .null, size := CType.pointerSize } (some box) false
  let sown := (Seed.sow {}).assign (.str "box") box
  sown.assign (.str "keep") (.signature { name := .str "keep", size := CType.pointerSize } int32
    [{ name := .str "kept", type := address }])

theorem generate_defines_before_use_unionGraph :
    DefinedBeforeUse ((generate {} unionGraph).runOn {}).2.out ∧
      ∀ result, ((generate {} unionGraph).runOn {}).1 = .ok result →
        result.fragments = ((generate {} unionGraph).runOn {}).2.out := by
  have more : unionGraph.declarations = (Seed.sow {}).declarations ++
      unionGraph.declarations.drop (Seed.sow {}).declarations.length := rfl
  exact generate_defines_before_use (startsPrimitive_sow.longer more) (by decide) {}

end NativeBindings.Emit
