import NativeBindings.Proofs.Emit.BoundNames

/-!
What each declaration of a graph has of a module, and the names that it binds there. No declaration binds
a word that the module needs, unless it is called like the one type that a module is given under such a
word. Nothing keeps the names of two declarations apart but that their own names are plain.
-/
namespace NativeBindings

/-- Whether the name of a declaration is an identifier. Synonyms of the language, which are not emitted,
have other names. -/
def isIdentified : Label × CType → Bool
  | (_, .synonym _ _ true) => true
  | (.str word, _) => Text.isIdentifier word.toList
  | _ => false

def Graph.Identified (graph : Graph) : Prop :=
  ∀ entry ∈ graph.declarations, ∃ word, entry.1 = .str word ∧ isIdentified entry = true

theorem Graph.Identified.keyed {graph : Graph} (identified : graph.Identified) :
    ∀ entry ∈ graph.declarations, entry.1.asKey = .ok entry.1 := by
  intro entry member
  obtain ⟨word, same, -⟩ := identified entry member
  rw [same]
  rfl

namespace Emit

open Act Outcome Text

/-- What a module has of one declaration: an account of where it is declared, and one of where it is
called. -/
structure Share where
  name : Label
  type : CType
  declared : Account
  called : Account

section
variable (options : Options)

def callAccount (known : List Marshaler) (name : Label) : CType → Account
  | .signature _ result parameters =>
    if options.wrappers && options.symbols then
      .tried name (callable options known name result parameters) fun lines => { lines }
    else {}
  | _ => {}

/-- The shares of entries, the first of which may use some marshalers, and whose callables may use those
that are known in the end. -/
def sharesFrom (final known : List Marshaler) : Table Label CType → List Share
  | [] => []
  | (name, type) :: rest =>
    let declared := entryAccount options known name type
    { name, type, declared, called := callAccount options final name type } ::
      sharesFrom final (known ++ declared.known) rest

def shares (graph : Graph) : List Share :=
  sharesFrom options (entriesAccount options [] graph.declarations).known [] graph.declarations

def callForms : CType → List Form
  | .signature _ _ _ => if options.wrappers && options.symbols then [.own] else []
  | _ => []

/-- The forms in which a module is to bind the identifier of a declaration. -/
def Share.forms (share : Share) : List Form :=
  formsOf options share.name.plain share.type ++ callForms options share.type

end

/-- The names that a module binds for a declaration. -/
def Share.bound (share : Share) : List String :=
  boundNames (share.declared.lines ++ share.called.lines)

/-! ### The shares of a module -/

/-- Accounts one after the other. -/
def Account.together (accounts : List Account) : Account := accounts.foldr followedBy {}

theorem lines_together (accounts : List Account) :
    (Account.together accounts).lines = accounts.flatMap Account.lines := by
  induction accounts with
  | nil => rfl
  | cons account rest ih => rw [List.flatMap_cons, ← ih, Account.together, List.foldr_cons]; rfl

theorem clean_together {accounts : List Account} (clean : (Account.together accounts).mishaps = [])
    {account : Account} (member : account ∈ accounts) : account.mishaps = [] := by
  induction accounts with
  | nil => cases member
  | cons first rest ih =>
    obtain ⟨here, later⟩ := List.append_eq_nil_iff.mp clean
    obtain rfl | member := List.mem_cons.mp member
    · exact here
    · exact ih later member

section
variable {options : Options} {final known : List Marshaler} {entries : Table Label CType}

theorem entries_shares :
    (sharesFrom options final known entries).map (fun share => (share.name, share.type)) = entries := by
  induction entries generalizing known with
  | nil => rfl
  | cons entry rest ih => rw [sharesFrom, List.map_cons, ih]

theorem declared_shares :
    Account.together ((sharesFrom options final known entries).map Share.declared) =
      entriesAccount options known entries := by
  induction entries generalizing known with
  | nil => rfl
  | cons entry rest ih => rw [entriesAccount, ← ih]; rfl

theorem called_shares :
    Account.together ((sharesFrom options final known entries).map Share.called) =
      if options.wrappers && options.symbols then
        passAccount (callableOf options final) id (functionsOf entries) else {} := by
  induction entries generalizing known with
  | nil => split <;> rfl
  | cons entry rest ih =>
    obtain ⟨name, type⟩ := entry
    rw [sharesFrom, List.map_cons, Account.together, List.foldr_cons, ← Account.together, ih]
    cases type with
    | signature header result parameters =>
      rw [callAccount]
      split <;> rfl
    | _ => rfl

/-- What a share consists of. -/
theorem share_accounts {share : Share} (member : share ∈ sharesFrom options final known entries) :
    (share.name, share.type) ∈ entries ∧ share.called = callAccount options final share.name share.type ∧
      ∃ known', share.declared = entryAccount options known' share.name share.type := by
  induction entries generalizing known with
  | nil => cases member
  | cons entry rest ih =>
    obtain rfl | member := List.mem_cons.mp member
    · exact ⟨List.mem_cons_self, rfl, known, rfl⟩
    · obtain ⟨among, accounts⟩ := ih member
      exact ⟨List.mem_cons_of_mem _ among, accounts⟩

end

/-! ### The names of a share -/

section
variable {options : Options} {known : List Marshaler}

theorem boundNames_renderedAccount (rendered : Rendered) :
    boundNames (renderedAccount options rendered).lines = boundNames rendered.lines := by
  unfold renderedAccount
  dsimp only
  cases same : rendered.lines with
  | nil => rfl
  | cons first rest =>
    rw [List.isEmpty_cons, if_neg Bool.false_ne_true, boundNames_append,
      boundNames_none (List.forall_mem_singleton.mpr bound?_blankLine), List.append_nil]

/-- What an account binds: some of these names, and all of them where nothing fails. -/
def Account.Bound (account : Account) (names : List String) : Prop :=
  (boundNames account.lines).Sublist names ∧ (account.mishaps = [] → boundNames account.lines = names)

theorem Account.Bound.of_eq {account : Account} {names : List String}
    (same : boundNames account.lines = names) : account.Bound names :=
  ⟨same ▸ List.Sublist.refl _, fun _ => same⟩

theorem Account.Bound.followedBy {first second : Account} {names names' : List String}
    (left : first.Bound names) (right : second.Bound names') :
    (first.followedBy second).Bound (names ++ names') := by
  unfold Bound Account.followedBy
  rw [boundNames_append]
  refine ⟨left.1.append right.1, fun clean => ?_⟩
  obtain ⟨clean, clean'⟩ := List.append_eq_nil_iff.mp clean
  rw [left.2 clean, right.2 clean']

theorem bound_tried {α : Type} {symbol : Label} {outcome : Except Fault α} {rest : α → Account}
    {names : List String} (each : ∀ value, outcome = .ok value → (rest value).Bound names) :
    (Account.tried symbol outcome rest).Bound names := by
  cases outcome with
  | ok value => exact each value rfl
  | error fault => exact ⟨List.nil_sublist _, fun clean => absurd clean (List.cons_ne_nil _ _)⟩

variable {name : String} (named : isIdentifier name.toList = true) (wide : 0 < options.indentWidth)
include named wide

theorem bound_callback {result : CType} {parameters : List (Parameter CType)} :
    (callbackAccount options (.str name) (ident name) result parameters).Bound
      (spellings name (.own :: eachWay options .marshaler)) := by
  have half (direction : Direction) {chosen : Bool} :
      (if chosen = true then halfAccount options direction (.str name) (ident name) result parameters
        else {}).Bound (if chosen = true then [direction.start ++ ident name] else []) := by
    split
    · exact bound_tried fun lines made => .of_eq (boundNames_callbackHalf named wide made)
    · exact .of_eq rfl
  refine bound_tried fun hinted _ => ?_
  have naming : Account.Bound { lines := [aliasLine options (ident name) hinted] } [ident name] :=
    .of_eq (boundNames_some (bound?_aliasLine (bindable_own named) hinted) (by simp))
  rw [spellings_cons, spell_own, spellings_marshalers]
  exact naming.followedBy ((half .reading).followedBy (half .writing))

theorem bound_entry {type : CType} :
    (entryAccount options known (.str name) type).Bound (spellings name (formsOf options name type)) := by
  have declared (plain : ∀ header target, type ≠ .synonym header target true) :
      (Account.tried (.str name) (declaration options known (.str name) type)
        (renderedAccount options)).Bound (spellings name (formsOf options name type)) := by
    refine bound_tried fun rendered made => .of_eq ?_
    rw [boundNames_renderedAccount, boundNames_declaration named wide plain made]
  cases type with
  | synonym header target transparent =>
    cases transparent with
    | true => exact .of_eq rfl
    | false => exact declared nofun
  | callback header own result parameters => exact bound_callback named wide
  | _ => exact declared nofun

theorem bound_call {type : CType} :
    (callAccount options known (.str name) type).Bound (spellings name (callForms options type)) := by
  cases type with
  | signature header result parameters =>
    rw [callAccount, callForms]
    split
    · rw [spellings_cons, spell_own]
      exact bound_tried fun lines made => .of_eq (boundNames_callable named wide made)
    · exact .of_eq rfl
  | _ => exact .of_eq rfl

end

/-- All that a module binds for the declarations of a graph. -/
structure Module.Binds (made : Module) (options : Options) (graph : Graph) : Prop where
  entries : (shares options graph).map (fun share => (share.name, share.type)) = graph.declarations
  fragments : made.fragments = [.text prelude] :: (if options.helpers then [[.text helpers]] else []) ++
    (shares options graph).flatMap (·.declared.lines) ++
    (if options.symbols then symbolsAccount options (functionsOf graph.declarations) else {}).lines ++
    (shares options graph).flatMap (·.called.lines)
  /-- Nothing but forms of the identifier is bound. -/
  bound : ∀ share ∈ shares options graph,
    share.bound.Sublist (spellings share.name.plain (share.forms options))
  whole : made.failed = [] → ∀ share ∈ shares options graph,
    share.bound = spellings share.name.plain (share.forms options)
  /-- No word that the module needs is bound, but by the one type that has such a name. -/
  free : ∀ share ∈ shares options graph, share.name ≠ .str "CString" →
    (share.name = .str "opaque_pointer" → .allocator ∉ share.forms options) →
      ∀ word ∈ share.bound, word ∉ needed
  /-- Two declarations are kept apart by forms that are spelled differently, and by nothing else. -/
  apart : ∀ share ∈ shares options graph, ∀ other ∈ shares options graph,
    (∀ form ∈ share.forms options, ∀ form' ∈ other.forms options,
      form.spell (ident share.name.plain) ≠ form'.spell (ident other.name.plain)) →
        share.bound.Disjoint other.bound
  meet : made.failed = [] → ∀ share ∈ shares options graph, ∀ other ∈ shares options graph,
    ∀ form ∈ share.forms options, ∀ form' ∈ other.forms options,
      form.spell (ident share.name.plain) = form'.spell (ident other.name.plain) →
        ∃ word, word ∈ share.bound ∧ word ∈ other.bound
  /-- Those of plain names are. -/
  plain : ∀ share ∈ shares options graph, ∀ other ∈ shares options graph, share.name ≠ other.name →
    IsPlain share.name.plain → IsPlain other.name.plain → share.bound.Disjoint other.bound

section
variable {options : Options} {graph : Graph} {made : Module} {start after : Progress}

/-- A module that is made is the account of its graph, and has no failures just if there is no mishap. -/
theorem generate_account (keyed : ∀ entry ∈ graph.declarations, entry.1.asKey = .ok entry.1)
    (run : (generate options graph).runOn start = (.ok made, after)) :
    made.fragments = [.text prelude] :: (moduleAccount options graph).lines ∧
      (made.failed = [] → (moduleAccount options graph).mishaps = []) := by
  cases hasty : options.failFast with
  | false =>
    obtain ⟨made', after', run', fragments, failed, -⟩ := generate_goes_on keyed hasty start
    obtain rfl : made = made' := by simpa [run] using congrArg Prod.fst run'
    refine ⟨fragments, fun clean => ?_⟩
    by_contra mishaps
    obtain ⟨mishap, others, same⟩ := List.exists_cons_of_ne_nil mishaps
    rw [failed, same] at clean
    exact foldl_insert_ne_nil (others.map Mishap.symbol) (insert_ne_nil [] mishap.symbol) clean
  | true =>
    have stops := generate_stops keyed hasty start
    unfold Ends at stops
    rw [run] at stops
    exact ⟨stops.2.1, fun _ => stops.1⟩

/-- What a module consists of, share by share. -/
theorem lines_moduleAccount : (moduleAccount options graph).lines =
    (if options.helpers then [[.text helpers]] else []) ++
      (shares options graph).flatMap (·.declared.lines) ++
      (if options.symbols then symbolsAccount options (functionsOf graph.declarations) else {}).lines ++
      (shares options graph).flatMap (·.called.lines) := by
  have declared : (entriesAccount options [] graph.declarations).lines =
      (shares options graph).flatMap (·.declared.lines) := by
    rw [← declared_shares, lines_together, List.flatMap_map]
    rfl
  have called : (if options.wrappers && options.symbols then
      passAccount (callableOf options (entriesAccount options [] graph.declarations).known) id
        (functionsOf graph.declarations) else {}).lines =
      (shares options graph).flatMap (·.called.lines) := by
    rw [← called_shares, lines_together, List.flatMap_map]
    rfl
  rw [← declared, ← called]
  simp only [moduleAccount, restAccount, Account.followedBy, List.append_assoc]

theorem identified_cases {word : String} {type : CType} (identified : isIdentified (.str word, type) = true) :
    (∃ header target, type = .synonym header target true) ∨ isIdentifier word.toList = true := by
  cases type with
  | synonym header target transparent =>
    cases transparent with
    | true => exact .inl ⟨header, target, rfl⟩
    | false => exact .inr identified
  | _ => exact .inr identified

/-- What a module binds for a share, which is whole where the module has no mishap. -/
theorem share_bound (wide : 0 < options.indentWidth) (identified : graph.Identified) {share : Share}
    (member : share ∈ shares options graph) :
    ∃ word, share.name = .str word ∧ share.bound.Sublist (spellings word (share.forms options)) ∧
      ((moduleAccount options graph).mishaps = [] → share.bound = spellings word (share.forms options)) := by
  obtain ⟨among, called, known, declared⟩ := share_accounts member
  obtain ⟨word, same, named⟩ := identified _ among
  dsimp only at same named
  have forms : share.forms options = formsOf options word share.type ++ callForms options share.type := by
    rw [Share.forms, same]
    rfl
  have both : (share.declared.followedBy share.called).Bound (spellings word (share.forms options)) := by
    rw [same] at named called declared
    rw [forms, declared, called, spellings_append]
    obtain ⟨header, target, idle⟩ | named := identified_cases named
    · rw [idle]
      exact .of_eq rfl
    · exact (bound_entry named wide).followedBy (bound_call named wide)
  refine ⟨word, same, both.1, fun clean => both.2 ?_⟩
  -- No mishap of the module is no mishap of the share.
  obtain ⟨declaring, rest⟩ := List.append_eq_nil_iff.mp (List.append_eq_nil_iff.mp clean).2
  have calling := (List.append_eq_nil_iff.mp rest).2
  rw [← declared_shares] at declaring
  rw [← called_shares] at calling
  exact List.append_eq_nil_iff.mpr ⟨clean_together declaring (List.mem_map_of_mem member),
    clean_together calling (List.mem_map_of_mem member)⟩

/-- What a module binds for declarations with identifiers as names. -/
theorem generate_binds (wide : 0 < options.indentWidth) (identified : graph.Identified)
    (run : (generate options graph).runOn start = (.ok made, after)) : made.Binds options graph := by
  obtain ⟨fragments, clean⟩ := generate_account identified.keyed run
  have bound : ∀ share ∈ shares options graph,
      share.bound.Sublist (spellings share.name.plain (share.forms options)) := by
    intro share member
    obtain ⟨word, same, bound, -⟩ := share_bound wide identified member
    rw [same]
    exact bound
  have whole : made.failed = [] → ∀ share ∈ shares options graph,
      share.bound = spellings share.name.plain (share.forms options) := by
    intro none share member
    obtain ⟨word, same, -, bound⟩ := share_bound wide identified member
    rw [same]
    exact bound (clean none)
  have apart : ∀ share ∈ shares options graph, ∀ other ∈ shares options graph,
      (∀ form ∈ share.forms options, ∀ form' ∈ other.forms options,
        form.spell (ident share.name.plain) ≠ form'.spell (ident other.name.plain)) →
          share.bound.Disjoint other.bound := by
    intro share member other member' differ word inside inside'
    obtain ⟨form, among, rfl⟩ := List.mem_map.mp ((bound share member).subset inside)
    obtain ⟨form', among', same⟩ := List.mem_map.mp ((bound other member').subset inside')
    exact differ form among form' among' same.symm
  refine ⟨entries_shares, fragments.trans (congrArg _ lines_moduleAccount), bound, whole, ?_, apart, ?_, ?_⟩
  · intro share member foreign handle word inside taken
    obtain ⟨name, same, -⟩ := share_bound wide identified member
    obtain ⟨form, among, rfl⟩ := List.mem_map.mp ((bound share member).subset inside)
    rw [same] at foreign handle taken
    obtain ⟨-, rfl⟩ | ⟨rfl, rfl | rfl⟩ := spell_needed taken
    · exact foreign rfl
    · exact foreign rfl
    · exact handle rfl among
  · intro none share member other member' form among form' among' same
    refine ⟨form.spell (ident share.name.plain), ?_, ?_⟩
    · rw [whole none share member]
      exact List.mem_map_of_mem among
    · rw [whole none other member', same]
      exact List.mem_map_of_mem among'
  · intro share member other member' distinct plain plain'
    obtain ⟨name, same, -⟩ := share_bound wide identified member
    obtain ⟨name', same', -⟩ := share_bound wide identified member'
    refine apart share member other member' fun form _ form' _ => spell_ne plain plain' ?_ form form'
    rw [same, same'] at distinct ⊢
    exact fun one => distinct (congrArg _ one)

end

theorem identified_of_all {graph : Graph} (checked : (graph.declarations.all fun entry =>
    entry.1 matches .str _ && isIdentified entry) = true) : graph.Identified := by
  intro entry member
  obtain ⟨text, identified⟩ := Bool.and_eq_true_iff.mp (List.all_eq_true.mp checked entry member)
  cases same : entry.1 with
  | str word => exact ⟨word, rfl, identified⟩
  | _ =>
    rw [same] at text
    cases text

theorem generate_binds_step :
    0 < ({} : Options).indentWidth ∧ (graphOf 8 stepNodes).Identified ∧
      ∃ made after, (generate {} (graphOf 8 stepNodes)).runOn {} = (.ok made, after) ∧
        made.Binds {} (graphOf 8 stepNodes) := by
  have identified : (graphOf 8 stepNodes).Identified := identified_of_all (by decide +kernel)
  obtain ⟨made, after, run, -⟩ :=
    @generate_goes_on {} (graphOf 8 stepNodes) identified.keyed rfl {}
  exact ⟨by decide, identified, made, after, run, generate_binds (by decide) identified run⟩

/-- A record, a function that is called like its reader, and an enum with a constant of its name. -/
def clashNodes : List Json :=
  let constant : Json := .obj [("kind", .str "EnumConstantDecl"), ("name", .str "point")]
  [recordNode (.str "point") [fieldNode "x" "int"],
    .obj [("kind", .str "FunctionDecl"), ("name", .str "read_point"),
      ("type", .obj [("qualType", .str "int (void)")])],
    recordNode (.str "CString") [fieldNode "x" "int"],
    .obj [("kind", .str "EnumDecl"), ("name", .str "kind"), ("inner", .arr [constant])]]

/-- The names that a module binds for the declaration of a name. -/
def boundFor (options : Options) (graph : Graph) (name : String) : List String :=
  ((shares options graph).filter fun share => share.name == .str name).flatMap Share.bound

/-- Names of two declarations meet, one of them is a word that the module needs, and without an indent the
constants of an enum are bound. -/
theorem names_meet :
    let graph := graphOf 8 clashNodes
    let flat : Options := { indentWidth := 0 }
    graph.Identified ∧ ((generate {} graph).runOn {}).1.toOption.map Module.failed = some [] ∧
      ("read_point" ∈ boundFor {} graph "point" ∧ "read_point" ∈ boundFor {} graph "read_point") ∧
      ("CString" ∈ boundFor {} graph "CString" ∧ "CString" ∈ needed) ∧
      "point" ∈ boundFor flat graph "point" ∧ "point" ∈ boundFor flat graph "kind" := by
  exact ⟨identified_of_all (by decide +kernel), by decide +kernel⟩

end Emit

end NativeBindings
