import Mathlib.Algebra.Group.Int.Defs
import Mathlib.Data.List.Nodup
import NativeBindings.Proofs.Act
import NativeBindings.Proofs.Emit.Reports
import NativeBindings.Proofs.Resolve.Closure

/-!
What a generation reports as failed, told from the graph alone: the declarations whose types are not
supported, and nothing else.
-/
namespace NativeBindings.Emit

open Act Outcome

theorem mem_insert_str {symbols : Failures} {s : String} {symbol : Label} :
    symbol ∈ symbols.insert (.str s) ↔ symbol = .str s ∨ symbol ∈ symbols := by
  unfold List.insert
  split
  next present =>
    obtain ⟨other, member, same⟩ := List.contains_iff_exists_mem_beq.mp present
    obtain rfl := (Json.beq_str_iff other s).mp (BEq.symm same)
    refine ⟨.inr, ?_⟩
    rintro (rfl | inside)
    · exact member
    · exact inside
  next => exact List.mem_cons

section
variable {options : Options} {state : Progress} {α β : Type} {good : β → Progress → Prop}
  {bad : Fault → Progress → Prop} {context : String} {work : List Marshaler → Except Fault α}
  {next : Option α → Emitting β}

theorem ends_unit_ok {symbol : Label} {value : α} (done : work state.known = .ok value)
    (rest : Ends good bad (next (some value)) state) :
    Ends good bad (unit options symbol context work >>= next) state := by
  rw [ends_bind, unit, ends_ofRun, done]
  simpa [tryUnit] using rest

theorem ends_unit_error {s : String} {fault : Fault} (failed : work state.known = .error fault)
    (goesOn : options.failFast = false)
    (rest : ∀ journal, Ends good bad (next none)
      { state with failed := state.failed.insert (.str s), journal }) :
    Ends good bad (unit options (.str s) context work >>= next) state := by
  rw [ends_bind, unit, ends_ofRun, failed]
  dsimp only [tryUnit, Json.asKey]
  rw [goesOn]
  exact rest _

end

/-- The module so far reports the failures of the entries so far and has the marshalers of those that
are supported. -/
structure Emitted (options : Options) (declared : Table Label CType) (progress : Progress) : Prop where
  knows : Knows options declared progress.known
  idents : ∀ m ∈ progress.known, ∃ s type, (.str s, type) ∈ declared ∧ m.ident = ident s
  failed : ∀ symbol, symbol ∈ progress.failed ↔
    ∃ name type, (name, type) ∈ declared ∧ symbol ∈ failuresOf (supported options) name type

/-- Entries in order, all of them with texts for names that have different identifiers. -/
structure Distinct (declared : Table Label CType) : Prop extends Ground declared where
  injective : ∀ first ∈ Table.keys declared, ∀ second ∈ Table.keys declared,
    identText first = identText second → first = second

section
variable {options : Options} {declared : Table Label CType} {state after : Progress} {s : String}
  {type : CType}

theorem Emitted.extend {more : List Marshaler} (emitted : Emitted options declared state)
    (fresh : ∀ t other, (.str t, other) ∈ declared → ident t ≠ ident s)
    (known : after.known = state.known ++ more) (own : ∀ m ∈ more, m.ident = ident s)
    (knows : (∀ header target, type ≠ .synonym header target true) → ∀ direction,
      { direction, ident := ident s } ∈ more ↔ supported options type = true)
    (failed : ∀ symbol, symbol ∈ after.failed ↔
      symbol ∈ state.failed ∨ symbol ∈ failuresOf (supported options) (.str s) type) :
    Emitted options (declared ++ [(.str s, type)]) after where
  knows := by
    intro t other member plain direction
    rw [known, List.mem_append]
    rcases List.mem_append.mp member with old | new
    · rw [← emitted.knows t other old plain direction]
      refine ⟨fun either => either.resolve_right fun wrong => ?_, .inl⟩
      exact fresh t other old (own _ wrong)
    · obtain ⟨same, rfl⟩ := Prod.mk.inj (List.mem_singleton.mp new)
      obtain rfl := Json.str.inj same
      rw [← knows plain direction]
      refine ⟨fun either => either.resolve_left fun wrong => ?_, .inr⟩
      obtain ⟨u, third, before, same⟩ := emitted.idents _ wrong
      exact fresh u third before same.symm
  idents := by
    rw [known]
    intro m member
    rcases List.mem_append.mp member with old | new
    · obtain ⟨t, other, before, same⟩ := emitted.idents m old
      exact ⟨t, other, List.mem_append_left _ before, same⟩
    · exact ⟨s, type, List.mem_append_right _ (List.mem_singleton.mpr rfl), own m new⟩
  failed := by
    intro symbol
    rw [failed, emitted.failed]
    constructor
    · rintro (⟨name, other, member, fails⟩ | fails)
      · exact ⟨name, other, List.mem_append_left _ member, fails⟩
      · exact ⟨.str s, type, List.mem_append_right _ (List.mem_singleton.mpr rfl), fails⟩
    · rintro ⟨name, other, member, fails⟩
      rcases List.mem_append.mp member with old | new
      · exact .inl ⟨name, other, old, fails⟩
      · obtain ⟨rfl, rfl⟩ := Prod.mk.inj (List.mem_singleton.mp new)
        exact .inr fails

theorem emitted_nil (unknown : state.known = []) (unfailed : state.failed = []) :
    Emitted options [] state where
  knows := fun _ _ member => absurd member List.not_mem_nil
  idents := by simp [unknown]
  failed := by simp [unfailed]

theorem Emitted.of_same (emitted : Emitted options declared state) (known : after.known = state.known)
    (failed : after.failed = state.failed) : Emitted options declared after where
  knows := by
    rw [known]
    exact emitted.knows
  idents := by
    rw [known]
    exact emitted.idents
  failed := by
    rw [failed]
    exact emitted.failed

section
variable (goesOn : options.failFast = false)
include goesOn

/-- A half of a pointer to a function is known or reported. -/
theorem emitHalf_emits (direction : Direction)
    (header own : Header) (result : CType) (parameters : List (Parameter CType)) :
    Ends (fun _ after =>
        after.known = state.known ++
          (if supported options (.callback header own result parameters) then
            [{ direction, ident := ident s }] else []) ∧
        ∀ symbol, symbol ∈ after.failed ↔ symbol ∈ state.failed ∨
          supported options (.callback header own result parameters) = false ∧
            symbol = halfSymbol direction (.str s))
      (fun _ _ => False) (emitHalf options direction (.str s) result parameters) state := by
  have succeeds : Succeeds (callbackHalf options direction (.str s) result parameters) ↔
      supported options (.callback header own result parameters) = true := by
    rw [← succeeds_prototype, callbackHalf, identText_str]
    cases direction with
    | reading => exact succeeds_bind_pure
    | writing => exact succeeds_bind_pure
  rw [emitHalf]
  cases made : callbackHalf options direction (.str s) result parameters with
  | ok lines =>
    have supports := succeeds.mp ⟨lines, made⟩
    refine ends_unit_ok rfl ?_
    rw [supports]
    refine ⟨rfl, fun symbol => ?_⟩
    exact ⟨.inl, fun either => either.resolve_right fun wrong => absurd wrong.1 (by decide)⟩
  | error fault =>
    have fails : supported options (.callback header own result parameters) = false := by
      rw [← Bool.not_eq_true, ← succeeds, made]
      exact not_succeeds_error fault
    refine ends_unit_error rfl goesOn fun journal => ?_
    rw [fails]
    refine ⟨(List.append_nil _).symm, fun symbol => ?_⟩
    rw [halfSymbol, mem_insert_str, or_comm]
    exact or_congr_right ⟨fun same => ⟨rfl, same⟩, fun both => both.2⟩

variable (readers : options.readers = true) (writers : options.writers = true)
include readers writers

theorem emitDeclaration_emits (emitted : Emitted options declared state)
    (fresh : ∀ t other, (.str t, other) ∈ declared → ident t ≠ ident s)
    (reports : Reports options s type (declaration options state.known (.str s) type)) :
    Ends (fun _ after => Emitted options (declared ++ [(.str s, type)]) after) (fun _ _ => False)
      (emitDeclaration options (.str s) type) state := by
  cases made : declaration options state.known (.str s) type with
  | ok rendered =>
    rw [made] at reports
    obtain ⟨failures, named⟩ := reports
    refine ends_unit_ok made ?_
    have both : Ends (fun _ after => after.known =
          state.known ++ (rendered.ident.map (marshalersOf options)).getD [] ∧
        after.failed = state.failed) (fun _ _ => False) (do
          know ((rendered.ident.map (marshalersOf options)).getD [])
          if !rendered.lines.isEmpty then append (rendered.lines ++ [blankLine])) state := by
      rw [know, ends_bind, ends_modify]
      split
      · exact ⟨rfl, rfl⟩
      · exact ⟨rfl, rfl⟩
    have marshalers (m : Marshaler) : m ∈ (rendered.ident.map (marshalersOf options)).getD [] ↔
        supported options type = true ∧ m.ident = ident s := by
      have offered : options.offers m.direction = true := by
        cases m.direction with
        | reading => exact readers
        | writing => exact writers
      rw [named]
      cases supported options type with
      | true => simp [mem_marshalersOf, offered]
      | false => simp
    refine both.mono (fun _ after ends => ?_) fun _ _ wrong => wrong
    refine emitted.extend fresh ends.1 (fun m member => ((marshalers m).mp member).2)
      (fun _ direction => ?_) fun symbol => ?_
    · rw [marshalers]
      exact and_iff_left rfl
    · rw [ends.2, failures]
      simp
  | error fault =>
    rw [made] at reports
    obtain ⟨failures, fails⟩ := reports
    refine ends_unit_error made goesOn fun journal => ?_
    refine emitted.extend fresh (List.append_nil _).symm (by simp) (fun _ direction => ?_) fun symbol => ?_
    · simp [fails]
    · rw [failures, mem_insert_str, List.mem_singleton, or_comm]

theorem emitCallback_emits (emitted : Emitted options declared state)
    (ground : Ground declared)
    (fresh : ∀ t other, (.str t, other) ∈ declared → ident t ≠ ident s) {header own : Header}
    {result : CType} {parameters : List (Parameter CType)} (returns : Covers declared result)
    (takes : ∀ parameter ∈ parameters, Covers declared parameter.type) :
    Ends (fun _ after =>
        Emitted options (declared ++ [(.str s, .callback header own result parameters)]) after)
      (fun _ _ => False) (emitCallback options (.str s) result parameters) state := by
  obtain ⟨hint, hinted⟩ := signatureHint_of_covers ground returns takes
  rw [emitCallback, identText_str, ends_bind, ends_lift]
  refine ⟨fun name named => ?_, fun _ wrong => nomatch wrong⟩
  refine ends_unit_ok hinted ?_
  dsimp only
  rw [if_pos readers, if_pos writers, append, ends_bind, ends_modify, ends_bind]
  refine (emitHalf_emits goesOn .reading header own result parameters).mono
    (fun _ middle first => ?_) fun _ _ wrong => wrong
  refine (emitHalf_emits goesOn .writing header own result parameters).mono
    (fun _ after second => ?_) fun _ _ wrong => wrong
  obtain ⟨readable, read⟩ := first
  obtain ⟨writable, wrote⟩ := second
  refine emitted.extend fresh (writable.trans (by rw [readable, List.append_assoc])) ?_ ?_ ?_
  · intro m member
    rcases List.mem_append.mp member with member | member
    · split at member
      · rw [List.mem_singleton.mp member]
      · cases member
    · split at member
      · rw [List.mem_singleton.mp member]
      · cases member
  · intro _ direction
    cases supported options (.callback header own result parameters) with
    | true => cases direction <;> simp
    | false => simp
  · intro symbol
    rw [wrote, read, failuresOf]
    cases supported options (.callback header own result parameters) with
    | true => simp
    | false => simp [or_assoc]

/-- One more entry is emitted. -/
theorem emitEntry_emits (emitted : Emitted options declared state)
    (ground : Ground declared) (backed : Backed declared type)
    (fresh : ∀ t other, (.str t, other) ∈ declared → ident t ≠ ident s) :
    Ends (fun _ after => Emitted options (declared ++ [(.str s, type)]) after) (fun _ _ => False)
      (emitEntry options (.str s) type) state := by
  unfold emitEntry
  split
  next header target =>
    refine emitted.extend fresh (List.append_nil _).symm (by simp) (fun own => ?_) fun symbol => ?_
    · exact absurd rfl (own header target)
    · simp [failuresOf]
  next header own result parameters =>
    exact emitCallback_emits goesOn readers writers emitted ground fresh backed.1 backed.2
  next type own plain =>
    refine emitDeclaration_emits goesOn readers writers emitted fresh ?_
    exact declaration_reports readers writers ground emitted.knows backed own plain

theorem emitEntries_emit {rest : Table Label CType}
    (distinct : Distinct (declared ++ rest)) (emitted : Emitted options declared state) :
    Ends (fun _ after => Emitted options (declared ++ rest) after) (fun _ _ => False)
      (rest.forM fun entry => emitEntry options entry.1 entry.2) state := by
  induction rest generalizing declared state with
  | nil =>
    rw [List.append_nil]
    exact emitted
  | cons entry rest ih =>
    obtain ⟨name, type⟩ := entry
    obtain ⟨s, rfl⟩ := distinct.named (name, type) (by simp)
    have here : (declared ++ (.str s, type) :: rest)[declared.length]? = some (.str s, type) := by
      simp
    have ordered := distinct.orderly declared.length _ _ here
    have before : (declared ++ (.str s, type) :: rest).take declared.length = declared := List.take_left
    have ground : Ground declared := by
      have orderly := distinct.orderly.take declared.length
      rw [before] at orderly
      exact ⟨orderly, fun entry member => distinct.named entry (List.mem_append_left _ member)⟩
    have fresh : ∀ t other, (.str t, other) ∈ declared → ident t ≠ ident s := by
      intro t other member same
      have one : Json.str t ∈ Table.keys (declared ++ (.str s, type) :: rest) :=
        List.mem_map.mpr ⟨_, List.mem_append_left _ member, rfl⟩
      have two : Json.str s ∈ Table.keys (declared ++ (.str s, type) :: rest) :=
        List.mem_map.mpr ⟨(.str s, type), by simp, rfl⟩
      obtain rfl := Json.str.inj (distinct.injective _ one _ two (congrArg Except.ok same))
      have absent := ordered.first
      rw [before, Table.has_of_mem member] at absent
      cases absent
    have backed : Backed declared type := by
      have backed := ordered.backed
      rw [before] at backed
      exact backed
    change Ends _ _ (emitEntry options (.str s) type >>= fun _ =>
      rest.forM fun entry => emitEntry options entry.1 entry.2) state
    rw [ends_bind]
    refine (emitEntry_emits goesOn readers writers emitted ground backed fresh).mono
      (fun _ after emitted => ?_) fun _ _ wrong => wrong
    have regroup : declared ++ (.str s, type) :: rest = (declared ++ [(.str s, type)]) ++ rest := by simp
    rw [regroup] at distinct ⊢
    exact ih distinct emitted

theorem emitModule_emits {graph : Graph} (unimported : options.symbols = false)
    (distinct : Distinct graph.declarations) :
    Ends (fun _ after => Emitted options graph.declarations after) (fun _ _ => False)
      (emitModule options graph) state := by
  have walk (before : Progress) (known : before.known = []) (failed : before.failed = []) :
      Ends (fun _ after => Emitted options graph.declarations after) (fun _ _ => False)
        (graph.declarations.forM fun entry => emitEntry options entry.1 entry.2) before := by
    have whole : Distinct ([] ++ graph.declarations) := distinct
    exact emitEntries_emit goesOn readers writers whole (emitted_nil known failed)
  rw [emitModule, ends_bind, ends_modify, unimported]
  dsimp only
  split
  · rw [append, ends_bind, ends_modify, ends_bind]
    refine (walk _ rfl rfl).mono (fun _ after emitted => ?_) fun _ _ wrong => wrong
    rw [if_neg Bool.false_ne_true]
    split
    · exact emitted.of_same rfl rfl
    · exact emitted.of_same rfl rfl
  · rw [ends_bind]
    refine (walk _ rfl rfl).mono (fun _ after emitted => ?_) fun _ _ wrong => wrong
    rw [if_neg Bool.false_ne_true]
    split
    · exact emitted.of_same rfl rfl
    · exact emitted.of_same rfl rfl

theorem generate_emits {graph : Graph} (unimported : options.symbols = false)
    (distinct : Distinct graph.declarations) :
    ∃ result, ((generate options graph).runOn state).1 = .ok result ∧
      ∀ symbol, symbol ∈ result.failed ↔ ∃ name type, (name, type) ∈ graph.declarations ∧
        symbol ∈ failuresOf (supported options) name type := by
  have ends : Ends (fun (result : Module) _ => ∀ symbol, symbol ∈ result.failed ↔
      ∃ name type, (name, type) ∈ graph.declarations ∧
        symbol ∈ failuresOf (supported options) name type) (fun _ _ => False)
      (generate options graph) state := by
    refine ends_timed fun begun => ends_bind.mpr ?_
    exact (emitModule_emits goesOn readers writers unimported distinct).mono
      (fun _ _ emitted _ => emitted.failed) fun _ _ wrong _ => wrong
  obtain ⟨reports, fails⟩ := ends_iff.mp ends
  cases done : ((generate options graph).runOn state).1 with
  | ok result => exact ⟨result, rfl, reports result done⟩
  | error fault => exact absurd (fails fault done) id

end

end

/-- What a header resolves to without giving up a declaration, with texts for names that have
different identifiers, is emitted, and the symbols that fail are those of unsupported types. -/
theorem generate_reports_unsupported {σ : Type} {options : Options} {header : Path}
    {oracle : Layout.Oracle σ} {nodes : List Json} {state : σ} {start : Progress} {graph : Graph}
    (resolved : ((Resolve.resolve header oracle nodes).runOn { oracle := state }).1 = .ok graph)
    (unbroken : graph.Unbroken) (named : ∀ name ∈ graph.names, ∃ s, name = .str s)
    (injective : ∀ first ∈ graph.names, ∀ second ∈ graph.names,
      identText first = identText second → first = second)
    (readers : options.readers = true) (writers : options.writers = true)
    (unimported : options.symbols = false) (goesOn : options.failFast = false) :
    ∃ result, ((generate options graph).runOn start).1 = .ok result ∧
      ∀ symbol, symbol ∈ result.failed ↔ ∃ name type, (name, type) ∈ graph.declarations ∧
        symbol ∈ failuresOf (supported options) name type := by
  have orderly : Orderly graph.declarations :=
    Resolve.resolve_orderly oracle Graph.sound_empty resolved unbroken
  have texts : Named graph.declarations :=
    fun entry member => named entry.1 (List.mem_map_of_mem member)
  exact generate_emits goesOn readers writers unimported ⟨⟨orderly, texts⟩, injective⟩

/-- A pointer to a function that takes a record. -/
def callbackNode (name : String) (taken : Label) : Json :=
  let returned : Json := .obj [("kind", .str "BuiltinType"), ("type", .obj [("qualType", .str "int")])]
  let parameter : Json := .obj [("kind", .str "RecordType"), ("decl", .obj [("name", taken)])]
  let prototype : Json := .obj [("kind", .str "FunctionProtoType"), ("inner", .arr [returned, parameter])]
  let callee : Json := .obj [("kind", .str "ParenType"), ("inner", .arr [prototype])]
  .obj [("kind", .str "TypedefDecl"), ("name", .str name),
    ("type", .obj [("qualType", .str "int (*)(struct *)")]),
    ("inner", .arr [.obj [("kind", .str "PointerType"), ("inner", .arr [callee])]])]

def fieldNode (name spelling : String) : Json :=
  .obj [("kind", .str "FieldDecl"), ("name", .str name), ("type", .obj [("qualType", .str spelling)])]

def recordNode (name : Label) (inner : List Json) : Json :=
  .obj [("kind", .str "RecordDecl"), ("name", name), ("inner", .arr inner)]

/-- A compiler that gives all records one size. -/
def sameSizes (size : Int) : Layout.Oracle Unit := fun query state =>
  match query with
  | .sizeOf _ => (.ok (.int size), [], state)
  | _ => (.ok (.int 0), [], state)

/-- What nodes resolve to where all records have one size. -/
def graphOf (size : Int) (nodes : List Json) : Graph :=
  ((Resolve.resolve { parts := ["a.h"] } (sameSizes size) nodes).runOn { oracle := () }).2.graph

theorem resolve_eq_graphOf {size : Int} {nodes : List Json}
    (fine : ((Resolve.resolve { parts := ["a.h"] } (sameSizes size) nodes).runOn
      { oracle := () }).1.isOk = true) :
    ((Resolve.resolve { parts := ["a.h"] } (sameSizes size) nodes).runOn { oracle := () }).1 =
      .ok (graphOf size nodes) := by
  cases done : ((Resolve.resolve { parts := ["a.h"] } (sameSizes size) nodes).runOn
      { oracle := () }).1 with
  | ok graph => rw [Resolve.resolve_gives _ _ _ _ graph done, graphOf]
  | error fault =>
    rw [done] at fine
    cases fine

theorem injective_of_nodup {names : List Label}
    (different : (names.map fun name => (identText name).toOption).Nodup) :
    ∀ first ∈ names, ∀ second ∈ names, identText first = identText second → first = second :=
  fun _ one _ two same => List.inj_on_of_nodup_map different one two (congrArg Except.toOption same)

/-- A record by value as a parameter of a callback, and the callback in a record. -/
def visitNodes : List Json :=
  [recordNode (.str "point") [fieldNode "x" "int", fieldNode "y" "int"],
    callbackNode "visit" (.str "point"), recordNode (.str "walk") [fieldNode "next" "visit"]]

-- All is asked of the graph at once, so that its nodes are resolved once.
theorem checked_visit :
    ((Resolve.resolve { parts := ["a.h"] } (sameSizes 8) visitNodes).runOn { oracle := () }).1.isOk =
        true ∧
      (graphOf 8 visitNodes).Unbroken ∧
      ((graphOf 8 visitNodes).names.all fun name => name matches .str _) = true ∧
      ((graphOf 8 visitNodes).names.map fun name => (identText name).toOption).Nodup := by
  unfold Graph.Unbroken
  decide +kernel

theorem generate_reports_unsupported_visit :
    ∃ result, ((generate { symbols := false } (graphOf 8 visitNodes)).runOn {}).1 = .ok result ∧
      ∀ symbol, symbol ∈ result.failed ↔
        ∃ name type, (name, type) ∈ (graphOf 8 visitNodes).declarations ∧
          symbol ∈ failuresOf (supported { symbols := false }) name type := by
  obtain ⟨fine, unbroken, texts, different⟩ := checked_visit
  have named : ∀ name ∈ (graphOf 8 visitNodes).names, ∃ s, name = .str s := by
    intro name member
    have text := List.all_eq_true.mp texts name member
    cases name with
    | str s => exact ⟨s, rfl⟩
    | _ => cases text
  exact generate_reports_unsupported (resolve_eq_graphOf fine) unbroken named
    (injective_of_nodup different) rfl rfl rfl rfl

/-- An enum whose operator is no key, a record with a number for a name in a callback, and an array of
arrays of records of as many bytes as a text can say. -/
def awkwardNodes : List Json :=
  let minus : Json := .obj [("kind", .str "UnaryOperator"), ("opcode", .arr [.str "-"]),
    ("inner", .arr [.obj [("kind", .str "IntegerLiteral"), ("value", .str "1")]])]
  let constant : Json := .obj [("kind", .str "EnumConstantDecl"), ("name", .str "low"),
    ("inner", .arr [minus])]
  [.obj [("kind", .str "EnumDecl"), ("name", .str "level"), ("inner", .arr [constant])],
    recordNode (.str "cell") [recordNode (.int 5) []], callbackNode "visit" (.int 5),
    recordNode (.str "grid") [fieldNode "cells" "cell[2][100]"]]

/-- Other symbols fail than those of types that cannot be marshaled by their shape. -/
theorem generate_reports_marshalable :
    let graph := graphOf (10 ^ 4299) awkwardNodes
    let options : Options := { symbols := false, wrappers := false, allocators := false }
    ((Resolve.resolve { parts := ["a.h"] } (sameSizes (10 ^ 4299)) awkwardNodes).runOn
        { oracle := () }).1 = .ok graph ∧
      graph.Unbroken ∧
      (∀ first ∈ graph.names, ∀ second ∈ graph.names,
        identText first = identText second → first = second) ∧
      ((generate options graph).runOn {}).1.toOption.map Module.failed =
        some [.str "grid", .str "visit", .str "level"] ∧
      graph.declarations.flatMap (fun entry => failuresOf marshalable entry.1 entry.2) =
        [.str "read_visit", .str "write_visit"] := by
  intro graph options
  have checked :
      ((Resolve.resolve { parts := ["a.h"] } (sameSizes (10 ^ 4299)) awkwardNodes).runOn
          { oracle := () }).1.isOk = true ∧
        graph.Unbroken ∧
        (graph.names.map fun name => (identText name).toOption).Nodup ∧
        ((generate options graph).runOn {}).1.toOption.map Module.failed =
          some [.str "grid", .str "visit", .str "level"] ∧
        graph.declarations.flatMap (fun entry => failuresOf marshalable entry.1 entry.2) =
          [.str "read_visit", .str "write_visit"] := by
    unfold Graph.Unbroken
    decide +kernel
  obtain ⟨fine, unbroken, different, failed, expected⟩ := checked
  exact ⟨resolve_eq_graphOf fine, unbroken, injective_of_nodup different, failed, expected⟩

end NativeBindings.Emit
