import NativeBindings.Proofs.Emit.FailFast
import NativeBindings.Proofs.Emit.Reports

/-!
The table of the symbols and the callables of a module, told from its functions. A callable needs all
that an entry of the table needs, so what has no entry has no callable either. What a callable needs on
top of it is told from the types of the parameters and the writers that are known.
-/
namespace NativeBindings

/-- A graph as its type has it: its names are the keys of a table, those that hints and parameters are
made of are words. -/
structure Graph.Worded (graph : Graph) : Prop where
  keyed : ∀ entry ∈ graph.declarations, entry.1.asKey = .ok entry.1
  distinct : (Table.keys graph.declarations).Pairwise fun one two => (one == two) = false
  types : ∀ entry ∈ graph.declarations, Emit.isWorded entry.2 = true
  parameters : ∀ function ∈ Emit.functionsOf graph.declarations,
    ∀ parameter ∈ function.parameters, Emit.isWord parameter.name = true

theorem CType.pointee_unaliased (type : CType) : type.unaliased.pointee = type.pointee := by
  induction type using CType.unaliased.induct with
  | case1 header target transparent ih => exact ih
  | case2 type other => rw [CType.unaliased.eq_2 type other]

namespace Emit

open Act Outcome

/-- Whether there is all that it takes to put a record that is given as a dictionary into memory: its
writer, and a text for its size. -/
def canStore (known : List Marshaler) (header : Header) : Bool :=
  match header.name with
  | .str s => known.contains { direction := .writing, ident := ident s } && isPrintable header.size
  | _ => false

/-- Whether a parameter of this type keeps a function from having a callable: a pointer to a function
that does not cross, or any other pointer that ends in a named record which cannot be stored. -/
def blocks (options : Options) (known : List Marshaler) (type : CType) : Bool :=
  match type.unaliased with
  | .callback _ _ result parameters =>
    !(crosses result && parameters.all fun parameter => crosses parameter.type)
  | .pointer _ _ _ =>
    match type.pointee with
    | .record header _ => options.writers && !header.name.isNull && !canStore known header
    | _ => false
  | _ => false

theorem isWorded_pointee (type : CType) (worded : isWorded type = true) :
    isWorded type.pointee = true := by
  induction type using CType.pointee.induct with
  | case1 header target transparent ih =>
    rw [isWorded, Bool.and_eq_true] at worded
    exact ih worded.2
  | case2 header base isConst ih =>
    rw [isWorded, Bool.and_eq_true] at worded
    exact ih worded.2
  | case3 type other pointer => rwa [CType.pointee.eq_3 type other pointer]

section
variable {options : Options} {known : List Marshaler}

theorem succeeds_entryOf {function : Function} :
    Succeeds (entryOf options function) ↔ crosses function.result = true ∧
      ∀ parameter ∈ function.parameters, crosses parameter.type = true := by
  have first : Succeeds (resultDescriptorOf function.result) ↔ Succeeds (descriptorOf function.result) :=
    succeeds_map.trans succeeds_map.symm
  rw [entryOf, symbolEntry, succeeds_bind fun _ _ => succeeds_bind_pure, first, succeeds_descriptorOf,
    succeeds_descriptorsOf, List.all_eq_true]

theorem argumentName_of_isWord {name : Label} (word : isWord name = true) (index : Nat) :
    ∃ s, argumentName index name = .ok (.str s) := by
  cases name with
  | null => exact ⟨_, rfl⟩
  | str s =>
    unfold argumentName Json.orElse
    split <;> exact ⟨_, rfl⟩
  | _ => cases word

/-- An argument for a pointer that ends in a named record. -/
theorem succeeds_argument_record {index : Nat} {parameter : Parameter CType} {header own : Header}
    {base : Option CType} {isConst : Bool} {fields : List (Field CType)}
    (word : isWord parameter.name = true) (worded : isWorded parameter.type = true)
    (unaliased : parameter.type.unaliased = .pointer own base isConst)
    (behind : parameter.type.pointee = .record header fields) :
    Succeeds (argument options known index parameter) ↔
      (options.writers && !header.name.isNull && !canStore known header) = false := by
  obtain ⟨t, passed⟩ := argumentName_of_isWord word index
  obtain ⟨s, hinted⟩ := hint_of_isWorded parameter.type worded
  have named := isWorded_pointee parameter.type worded
  rw [behind, isWorded] at named
  cases same : header.name with
  | null =>
    simp only [argument, carrierOf, passed, hinted, unaliased, behind, same, Json.isNull, Bool.true_or,
      Bool.not_true, Bool.and_false, Bool.false_and]
    exact ⟨fun _ => trivial, fun _ => ⟨_, rfl⟩⟩
  | str w =>
    simp only [argument, carrierOf, passed, hinted, unaliased, behind, same]
    cases options.writers with
    | false => exact ⟨fun _ => rfl, fun _ => ⟨_, rfl⟩⟩
    | true =>
      refine (succeeds_bind fun _ _ => succeeds_bind_pure).trans ?_
      rw [succeeds_marshaler, succeeds_written, canStore, same]
      simp [Json.isNull]
  | _ =>
    rw [same] at named
    cases named

/-- What an argument needs: that it crosses and is not blocked. -/
theorem succeeds_argument {index : Nat} {parameter : Parameter CType}
    (word : isWord parameter.name = true) (worded : isWorded parameter.type = true) :
    Succeeds (argument options known index parameter) ↔
      crosses parameter.type = true ∧ blocks options known parameter.type = false := by
  obtain ⟨t, passed⟩ := argumentName_of_isWord word index
  obtain ⟨s, hinted⟩ := hint_of_isWorded parameter.type worded
  have behind := parameter.type.pointee_unaliased
  cases same : parameter.type.unaliased with
  | callback header own result parameters =>
    have prepared : Succeeds (argument options known index parameter) ↔
        Succeeds (prototype result parameters) := by
      simp only [argument, carrierOf, passed, hinted, same]
      exact succeeds_bind_pure
    rw [prepared, @succeeds_prototype options result parameters header own, supported_callback]
    simp [crosses, blocks, same]
  | pointer header base isConst =>
    simp only [crosses, blocks, same, true_and]
    cases target : parameter.type.pointee with
    | record named fields => exact succeeds_argument_record word worded same target
    | _ =>
      simp only [argument, carrierOf, passed, hinted, same, target]
      exact ⟨fun _ => trivial, fun _ => ⟨_, rfl⟩⟩
  | builtin header carrier =>
    rw [same] at behind
    simp only [argument, carrierOf, passed, hinted, same, ← behind, CType.pointee, blocks, crosses]
    by_cases pointer : carrier ≠ .pointer
    · exact ⟨fun _ => ⟨trivial, trivial⟩, fun _ => ⟨_, if_pos pointer⟩⟩
    · exact ⟨fun _ => ⟨trivial, trivial⟩, fun _ => ⟨_, if_neg pointer⟩⟩
  | enum header constants =>
    simp only [argument, carrierOf, passed, hinted, same, blocks, crosses]
    exact ⟨fun _ => ⟨trivial, trivial⟩, fun _ => ⟨_, rfl⟩⟩
  | _ =>
    simp only [argument, carrierOf, passed, hinted, same, blocks, crosses]
    exact ⟨fun done => absurd done (not_succeeds_error _), fun wrong => absurd wrong.1 (by decide)⟩

theorem passed_of_argument {index : Nat} {parameter : Parameter CType} {made : Argument}
    (word : isWord parameter.name = true) (done : argument options known index parameter = .ok made) :
    ∃ s, made.passed = .str s := by
  obtain ⟨t, named⟩ := argumentName_of_isWord word index
  unfold argument at done
  rw [named] at done
  obtain ⟨passed, same, done⟩ := bind_eq_ok.mp done
  obtain rfl := Except.ok.inj same
  obtain ⟨hinted, -, done⟩ := bind_eq_ok.mp done
  obtain ⟨carrier, -, done⟩ := bind_eq_ok.mp done
  split at done
  · exact Except.ok.inj done ▸ ⟨t, rfl⟩
  split at done
  · obtain ⟨type, -, done⟩ := bind_eq_ok.mp done
    exact Except.ok.inj done ▸ ⟨_, rfl⟩
  split at done
  · split at done
    · exact Except.ok.inj done ▸ ⟨t, rfl⟩
    · obtain ⟨writer, -, done⟩ := bind_eq_ok.mp done
      obtain ⟨target, -, done⟩ := bind_eq_ok.mp done
      obtain ⟨size, -, done⟩ := bind_eq_ok.mp done
      exact Except.ok.inj done ▸ ⟨_, rfl⟩
  · exact Except.ok.inj done ▸ ⟨t, rfl⟩

theorem succeeds_arguments {index : Nat} {parameters : List (Parameter CType)}
    (words : ∀ parameter ∈ parameters, isWord parameter.name = true)
    (worded : areWorded parameters = true) :
    Succeeds (arguments options known index parameters) ↔
      ∀ parameter ∈ parameters,
        crosses parameter.type = true ∧ blocks options known parameter.type = false := by
  induction parameters generalizing index with
  | nil => exact ⟨fun _ _ member => absurd member List.not_mem_nil, fun _ => ⟨[], rfl⟩⟩
  | cons parameter rest ih =>
    rw [areWorded, Bool.and_eq_true] at worded
    rw [List.forall_mem_cons] at words ⊢
    rw [arguments, succeeds_bind fun _ _ => succeeds_bind_pure, succeeds_argument words.1 worded.1,
      ih words.2 worded.2]

theorem texts_of_arguments {index : Nat} {parameters : List (Parameter CType)} {made : List Argument}
    (words : ∀ parameter ∈ parameters, isWord parameter.name = true)
    (done : arguments options known index parameters = .ok made) :
    ∃ texts : List String, made.map Argument.passed = texts.map .str := by
  induction parameters generalizing index made with
  | nil => exact Except.ok.inj done ▸ ⟨[], rfl⟩
  | cons parameter rest ih =>
    rw [List.forall_mem_cons] at words
    obtain ⟨first, one, done⟩ := bind_eq_ok.mp done
    obtain ⟨others, more, done⟩ := bind_eq_ok.mp done
    obtain ⟨s, passed⟩ := passed_of_argument words.1 one
    obtain ⟨texts, same⟩ := ih words.2 more
    refine Except.ok.inj done ▸ ⟨s :: texts, ?_⟩
    rw [List.map_cons, List.map_cons, passed, same]

/-- What a callable needs: that all crosses and no parameter is blocked. -/
theorem succeeds_callableOf {function : Function} (keyed : function.name.asKey = .ok function.name)
    (returns : isWorded function.result = true) (takes : areWorded function.parameters = true)
    (words : ∀ parameter ∈ function.parameters, isWord parameter.name = true) :
    Succeeds (callableOf options known function) ↔ crosses function.result = true ∧
      ∀ parameter ∈ function.parameters,
        crosses parameter.type = true ∧ blocks options known parameter.type = false := by
  obtain ⟨ident, named⟩ := identText_of_key keyed
  obtain ⟨s, hinted⟩ := hint_of_isWorded function.result returns
  have carried : Succeeds (carrierOf function.result) ↔ crosses function.result = true :=
    succeeds_map.symm.trans succeeds_descriptorOf
  unfold callableOf callable
  rw [named]
  refine (succeeds_bind fun _ _ => succeeds_bind fun carrier _ =>
    succeeds_bind (P := True) fun made done => ?_).trans ?_
  · refine iff_true_intro ?_
    obtain ⟨texts, same⟩ := texts_of_arguments words done
    dsimp only
    rw [same, hinted, Json.texts, textsFrom_strings]
    split <;> exact succeeds_pure _
  · rw [carried, and_true, succeeds_arguments words takes]
    exact and_iff_right (succeeds_pure ident)

end

/-- What a pass makes of the functions that do not fail in it, by their names. -/
def madeBy {α : Type} (work : Function → Except Fault α) (functions : List Function) :
    List (Label × α) :=
  functions.filterMap fun function => (work function).toOption.map (Prod.mk function.name)

section
variable {α β : Type} {work : Function → Except Fault α} {other : Function → Except Fault β}
  {functions : List Function}

theorem madeBy_cons (function : Function) (rest : List Function) :
    madeBy work (function :: rest) =
      ((work function).toOption.map (Prod.mk function.name)).toList ++ madeBy work rest := by
  rw [madeBy, List.filterMap_cons]
  cases work function <;> rfl

theorem lines_pass (lines : α → List Fragment) :
    (passAccount work lines functions).lines =
      (madeBy work functions).flatMap fun made => lines made.2 := by
  induction functions with
  | nil => rfl
  | cons function rest ih =>
    rw [passAccount, Account.followedBy, ih, madeBy_cons, List.flatMap_append]
    cases work function <;> simp [Account.tried, Except.toOption]

theorem mem_mishaps_pass (lines : α → List Fragment) {function : Function} (member : function ∈ functions)
    (fails : ¬ Succeeds (work function)) :
    function.name ∈ (passAccount work lines functions).mishaps.map Mishap.symbol := by
  induction functions with
  | nil => cases member
  | cons first rest ih =>
    rw [passAccount, Account.followedBy, List.map_append, List.mem_append]
    rcases List.mem_cons.mp member with rfl | later
    · left
      cases same : work function with
      | ok value => exact absurd ⟨value, same⟩ fails
      | error fault => exact List.mem_cons_self
    · exact .inr (ih later)

theorem names_sublist : ((madeBy work functions).map Prod.fst).Sublist (functions.map Function.name) := by
  induction functions with
  | nil => exact .slnil
  | cons function rest ih =>
    rw [madeBy_cons, List.map_append, List.map_cons]
    cases work function with
    | ok value => exact ih.cons_cons _
    | error fault => exact ih.cons _

/-- What fails in one pass and what fails in another one. -/
theorem names_sublist_of_imp
    (needs : ∀ function ∈ functions, Succeeds (work function) → Succeeds (other function)) :
    ((madeBy work functions).map Prod.fst).Sublist ((madeBy other functions).map Prod.fst) := by
  induction functions with
  | nil => exact .slnil
  | cons function rest ih =>
    rw [List.forall_mem_cons] at needs
    have rest := ih needs.2
    rw [madeBy_cons, madeBy_cons, List.map_append, List.map_append]
    cases made : work function with
    | error fault =>
      exact rest.trans (List.sublist_append_right _ _)
    | ok value =>
      obtain ⟨value', made'⟩ := needs.1 ⟨value, made⟩
      rw [made']
      exact rest.cons_cons _

theorem mem_functionsOf {entries : Table Label CType} {function : Function} :
    function ∈ functionsOf entries ↔ ∃ header,
      (function.name, .signature header function.result function.parameters) ∈ entries := by
  rw [functionsOf, List.mem_filterMap]
  constructor
  · rintro ⟨⟨name, type⟩, member, same⟩
    cases type with
    | signature header result parameters => exact ⟨header, Option.some.inj same ▸ member⟩
    | _ => cases same
  · rintro ⟨header, member⟩
    exact ⟨_, member, rfl⟩

/-- A function has what a pass makes of it just if it does not fail there. -/
theorem mem_names_madeBy {entries : Table Label CType}
    (distinct : (Table.keys entries).Pairwise fun one two => (one == two) = false) {function : Function}
    (member : function ∈ functionsOf entries) :
    function.name ∈ (madeBy work (functionsOf entries)).map Prod.fst ↔ Succeeds (work function) := by
  constructor
  · intro listed
    obtain ⟨made, inside, same⟩ := List.mem_map.mp listed
    obtain ⟨twin, present, result⟩ := List.mem_filterMap.mp inside
    obtain ⟨value, done, rfl⟩ := Option.map_eq_some_iff.mp result
    obtain ⟨header, declared⟩ := mem_functionsOf.mp member
    obtain ⟨header', declared'⟩ := mem_functionsOf.mp present
    have twins := eq_of_distinct distinct declared' declared (beq_of_eq same)
    obtain ⟨name, type, parameters⟩ := twin
    obtain ⟨rfl, type⟩ := Prod.mk.inj twins
    obtain ⟨rfl, rfl, rfl⟩ := CType.signature.inj type
    cases made : work function with
    | ok value => exact succeeds_pure value
    | error fault =>
      rw [made] at done
      cases done
  · rintro ⟨value, done⟩
    refine List.mem_map.mpr ⟨(function.name, value), List.mem_filterMap.mpr ⟨function, member, ?_⟩, rfl⟩
    rw [done]
    rfl

end

/-- The names of functions are names of the graph, in its order. -/
theorem names_functionsOf (entries : Table Label CType) :
    ((functionsOf entries).map Function.name).Sublist (Table.keys entries) := by
  induction entries with
  | nil => exact .slnil
  | cons entry rest ih =>
    obtain ⟨name, type⟩ := entry
    cases type with
    | signature header result parameters => exact ih.cons_cons name
    | _ => exact ih.cons name

/-- A module with the two passes in it: their lines stand at its end, and what fails in one of them is
reported. -/
theorem generate_passes {options : Options} (patient : options.failFast = false)
    (symbols : options.symbols = true) (wrappers : options.wrappers = true) {graph : Graph}
    (keyed : ∀ entry ∈ graph.declarations, entry.1.asKey = .ok entry.1) (start : Progress) :
    ∃ made after opening, (generate options graph).runOn start = (.ok made, after) ∧
      let functions := functionsOf graph.declarations
      made.fragments = opening ++ tableStart options ++
          (madeBy (entryOf options) functions).map Prod.snd ++ tableEnd options ++
          (madeBy (callableOf options after.known) functions).flatMap Prod.snd ∧
        (∀ function ∈ functions, ¬ Succeeds (entryOf options function) →
          made.failed.contains function.name = true) ∧
        ∀ function ∈ functions, ¬ Succeeds (callableOf options after.known function) →
          made.failed.contains function.name = true := by
  obtain ⟨made, after, run, fragments, failed, known⟩ := generate_goes_on keyed patient start
  let declared := entriesAccount options [] graph.declarations
  let functions := functionsOf graph.declarations
  have same : after.known = declared.known := by
    rw [known]
    simp [moduleAccount, restAccount, symbols, wrappers, Account.followedBy, known_symbols, known_pass,
      declared]
  let entries := passAccount (entryOf options) (fun entry => [entry]) functions
  let callables := passAccount (callableOf options after.known) id functions
  have account : moduleAccount options graph =
      .followedBy { lines := if options.helpers then [[.text helpers]] else [] }
        (declared.followedBy ((Account.followedBy { lines := tableStart options }
          (entries.followedBy { lines := tableEnd options })).followedBy callables)) := by
    simp [moduleAccount, restAccount, symbolsAccount, symbols, wrappers, same, declared, entries, callables,
      functions]
  have reported {symbol : Label} (mishap : symbol ∈ entries.mishaps.map Mishap.symbol ∨
      symbol ∈ callables.mishaps.map Mishap.symbol) : made.failed.contains symbol = true := by
    rw [failed, contains_foldl_insert, Bool.or_eq_true]
    refine .inl (List.contains_iff_exists_mem_beq.mpr ⟨symbol, ?_, BEq.rfl⟩)
    rw [account]
    simp only [Account.followedBy, List.map_append, List.mem_append]
    tauto
  refine ⟨made, after, [.text prelude] :: (if options.helpers then [[.text helpers]] else []) ++
    declared.lines, run, ?_, fun function member fails => ?_, fun function member fails => ?_⟩
  · rw [fragments, account]
    simp only [Account.followedBy, entries, callables, lines_pass, functions, id, List.map_eq_flatMap,
      List.append_assoc, List.cons_append]
  · exact reported (.inl (mem_mishaps_pass _ member fails))
  · exact reported (.inr (mem_mishaps_pass _ member fails))

/-- Where the table of the symbols and the callables are emitted and failures do not end the work, the
table has its functions in the order of the graph, and callables are for functions with an entry only.
A function with an entry lacks its callable just if one of its parameters is blocked, and whatever
lacks its entry or its callable is reported. -/
theorem generate_callables {options : Options} (patient : options.failFast = false)
    (symbols : options.symbols = true) (wrappers : options.wrappers = true) {graph : Graph}
    (worded : graph.Worded) (start : Progress) :
    ∃ made after opening, (generate options graph).runOn start = (.ok made, after) ∧
      let functions := functionsOf graph.declarations
      let table := madeBy (entryOf options) functions
      let callables := madeBy (callableOf options after.known) functions
      made.fragments = opening ++ tableStart options ++ table.map Prod.snd ++ tableEnd options ++
          callables.flatMap Prod.snd ∧
        (table.map Prod.fst).Sublist graph.names ∧
        ((table.map Prod.fst).Pairwise fun one two => (one == two) = false) ∧
        (callables.map Prod.fst).Sublist (table.map Prod.fst) ∧
        ∀ function ∈ functions,
          (function.name ∉ table.map Prod.fst → made.failed.contains function.name = true) ∧
          (function.name ∈ table.map Prod.fst →
            (function.name ∉ callables.map Prod.fst ↔
              ∃ parameter ∈ function.parameters, blocks options after.known parameter.type = true) ∧
            (function.name ∉ callables.map Prod.fst → made.failed.contains function.name = true)) := by
  obtain ⟨made, after, opening, run, fragments, unlisted, uncalled⟩ :=
    generate_passes patient symbols wrappers worded.keyed start
  have ordered : ((madeBy (entryOf options) (functionsOf graph.declarations)).map Prod.fst).Sublist
      graph.names := names_sublist.trans (names_functionsOf graph.declarations)
  have needs {function : Function} (member : function ∈ functionsOf graph.declarations) :
      Succeeds (callableOf options after.known function) ↔ crosses function.result = true ∧
        ∀ parameter ∈ function.parameters,
          crosses parameter.type = true ∧ blocks options after.known parameter.type = false := by
    obtain ⟨header, declared⟩ := mem_functionsOf.mp member
    have types := worded.types _ declared
    rw [isWorded, Bool.and_eq_true, Bool.and_eq_true] at types
    exact succeeds_callableOf (worded.keyed _ declared) types.1.2 types.2
      (worded.parameters function member)
  refine ⟨made, after, opening, run, fragments, ordered, worded.distinct.sublist ordered, ?_, ?_⟩
  · refine names_sublist_of_imp fun function member made => ?_
    obtain ⟨returns, takes⟩ := (needs member).mp made
    exact succeeds_entryOf.mpr ⟨returns, fun parameter inside => (takes parameter inside).1⟩
  · intro function member
    rw [mem_names_madeBy worded.distinct member, mem_names_madeBy worded.distinct member]
    refine ⟨unlisted function member, fun listed => ⟨?_, uncalled function member⟩⟩
    obtain ⟨returns, takes⟩ := succeeds_entryOf.mp listed
    rw [needs member]
    constructor
    · intro lacks
      by_contra free
      refine lacks ⟨returns, fun parameter inside => ⟨takes parameter inside, ?_⟩⟩
      exact Bool.eq_false_iff.mpr fun blocked => free ⟨parameter, inside, blocked⟩
    · rintro ⟨parameter, inside, blocked⟩ done
      rw [(done.2 parameter inside).2] at blocked
      cases blocked

theorem worded_step : (graphOf 8 stepNodes).Worded := by
  -- The parts are asked of one graph at once, so its nodes are resolved only once.
  have checked :
      (∀ entry ∈ (graphOf 8 stepNodes).declarations, entry.1.asKey = .ok entry.1) ∧
        ((Table.keys (graphOf 8 stepNodes).declarations).Pairwise fun one two => (one == two) = false) ∧
        (∀ entry ∈ (graphOf 8 stepNodes).declarations, isWorded entry.2 = true) ∧
        ((functionsOf (graphOf 8 stepNodes).declarations).all fun function =>
          function.parameters.all fun parameter => isWord parameter.name) = true := by
    decide +kernel
  obtain ⟨keyed, distinct, types, parameters⟩ := checked
  exact ⟨keyed, distinct, types, by simpa only [List.all_eq_true] using parameters⟩

theorem generate_callables_step :
    (graphOf 8 stepNodes).Worded ∧
    ∃ made after opening, (generate {} (graphOf 8 stepNodes)).runOn {} = (.ok made, after) ∧
      let functions := functionsOf (graphOf 8 stepNodes).declarations
      let table := madeBy (entryOf {}) functions
      let callables := madeBy (callableOf {} after.known) functions
      made.fragments = opening ++ tableStart {} ++ table.map Prod.snd ++ tableEnd {} ++
          callables.flatMap Prod.snd ∧
        (table.map Prod.fst).Sublist (graphOf 8 stepNodes).names ∧
        ((table.map Prod.fst).Pairwise fun one two => (one == two) = false) ∧
        (callables.map Prod.fst).Sublist (table.map Prod.fst) ∧
        ∀ function ∈ functions,
          (function.name ∉ table.map Prod.fst → made.failed.contains function.name = true) ∧
          (function.name ∈ table.map Prod.fst →
            (function.name ∉ callables.map Prod.fst ↔
              ∃ parameter ∈ function.parameters, blocks {} after.known parameter.type = true) ∧
            (function.name ∉ callables.map Prod.fst → made.failed.contains function.name = true)) :=
  ⟨worded_step, generate_callables rfl rfl rfl worded_step {}⟩

/-- A record, and a function that takes it by its address. -/
def tileNodes : List Json :=
  let parameter : Json := .obj [("kind", .str "ParmVarDecl"), ("name", .str "to"),
    ("type", .obj [("qualType", .str "struct tile *")])]
  [recordNode (.str "tile") [], .obj [("kind", .str "FunctionDecl"), ("name", .str "fill"),
    ("type", .obj [("qualType", .str "int (struct tile *)")]), ("inner", .arr [parameter])]]

/-- A function may lack its callable though the writer of the record that it takes is there: the size
of the record has no text. -/
theorem generate_callables_vast :
    let graph := graphOf (10 ^ 4300) tileNodes
    let options : Options := { allocators := false }
    let functions := functionsOf graph.declarations
    let ran := (generate options graph).runOn {}
    ran.1.toOption.map Module.failed = some [.str "fill"] ∧
      functions.map (fun function => function.parameters.map fun parameter =>
        parameter.type.pointee.header.name) = [[.str "tile"]] ∧
      (marshaler ran.2.known .writing (.str "tile")).isOk = true ∧
      (madeBy (entryOf options) functions).map Prod.fst = [.str "fill"] ∧
      (madeBy (callableOf options ran.2.known) functions).map Prod.fst = [] := by
  decide +kernel

end Emit

end NativeBindings
