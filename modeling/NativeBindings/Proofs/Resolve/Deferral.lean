import NativeBindings.Proofs.Resolve.Chronicle
import NativeBindings.Proofs.Resolve.ForwardTypedef

/-!
No typedef waits for a tag that is declared. So a typedef that waits is woken when its tag is declared,
and a resolution after which one still waits fails and names the tag.
-/
namespace NativeBindings

namespace Json

/-- A row of texts is in order. -/
theorem areOrdered_texts {values : List Json} (texts : ∀ value ∈ values, ∃ s, value = .str s) :
    areOrdered values = .ok () := by
  induction values with
  | nil => rfl
  | cons a rest ih =>
    have others := ih fun value member => texts value (by simp [member])
    cases rest with
    | nil => rfl
    | cons b rest =>
      obtain ⟨s, rfl⟩ := texts a (by simp)
      obtain ⟨t, rfl⟩ := texts b (by simp)
      exact others

end Json

namespace Resolve

open Json Act Outcome

/-- A name that is a word: an identifier of C is one. -/
def IsWord (name : Label) : Prop := ∃ word, name = .str word ∧ Spelling.isWord word.toList = true

/-- A text that does not end in a bracket, as every word and every seed. -/
def IsPlain (name : Label) : Prop := ∃ text, name = .str text ∧ text.toList.getLast? ≠ some ']'

theorem IsWord.plain {name : Label} (word : IsWord name) : IsPlain name := by
  obtain ⟨text, rfl, word⟩ := word
  refine ⟨text, rfl, fun last => ?_⟩
  exact Spelling.not_mem_word (Spelling.all_of_isWord word).2 (by decide +kernel)
    (List.mem_of_getLast? last)

theorem IsPlain.eq {name other : Label} (plain : IsPlain name) (same : (name == other) = true) :
    other = name := by
  obtain ⟨text, rfl, -⟩ := plain
  exact (beq_str_iff other text).mp (BEq.symm same)

/-- The names that a node may declare: its own, and those of the records within it. -/
inductive Declares : Json → Label → Prop
  | tagged {node : Json} {name : Label}
    (kind : node.field "kind" = .ok (.str "EnumDecl") ∨ isRecord node = true)
    (named : node.field "name" = .ok name) (holds : name.holds = true) : Declares node name
  | given {node : Json} {name : Label}
    (kind : node.field "kind" = .ok (.str "TypedefDecl") ∨ node.field "kind" = .ok (.str "FunctionDecl"))
    (named : node.need "name" = .ok name) : Declares node name
  | nested {node inner : Json} {name : Label} (kind : isRecord node = true)
    (member : inner ∈ nestedIn (within node)) (declares : Declares inner name) : Declares node name

section
variable {σ : Type} {oracle : Layout.Oracle σ} {following : Option Json} {node : Json} {graph : Graph}
  {name own : Label} {type : CType} {adopted : Bool}

theorem mem_nestedIn {nodes : List Json} {inner : Json} (member : inner ∈ nestedIn nodes) :
    isRecord inner = true ∧ isNamed inner = true := by
  have kept := (List.mem_filter.mp member).2
  simp only [Bool.and_eq_true] at kept
  exact kept.1

theorem holds_of_isNamed (named : isNamed node = true) (found : node.field "name" = .ok own) :
    own.holds = true := by
  rw [← isNamed_eq found]
  exact named

/-- A tagged node has a name of its own, or that of the typedef after it. -/
theorem nameOf_declares (named : nameOf following node = .ok (name, adopted))
    (given : name.isNull = false)
    (kind : node.field "kind" = .ok (.str "EnumDecl") ∨ isRecord node = true) :
    Declares node name ∨ ∃ other ∈ following, Declares other name := by
  obtain ⟨own, found, named⟩ := bind_eq_ok.mp named
  split at named
  next holds =>
    obtain ⟨rfl, -⟩ := Prod.mk.inj (pure_eq_ok.mp named)
    exact .inl (.tagged kind found holds)
  next =>
    obtain ⟨taken, adopts, named⟩ := bind_eq_ok.mp named
    obtain ⟨rfl, -⟩ := Prod.mk.inj (pure_eq_ok.mp named)
    have nothing {label : Label} (null : (pure Json.null : Except Fault Label) = .ok label)
        (given : label.isNull = false) : False := by
      obtain rfl := pure_eq_ok.mp null
      cases given
    right
    unfold adoptedName at adopts
    split at adopts
    · exact (nothing adopts given).elim
    · exact (nothing adopts given).elim
    next other _ _ =>
      obtain ⟨word, known, adopts⟩ := bind_eq_ok.mp adopts
      split at adopts
      · exact (nothing adopts given).elim
      next isTypedef =>
        obtain ⟨wraps, -, adopts⟩ := bind_eq_ok.mp adopts
        split at adopts
        next =>
          have kind := kind_eq known (by simpa using isTypedef)
          refine ⟨other, rfl, .given (.inl kind) ?_⟩
          cases other with
          | obj entries =>
            rw [field, fieldOr] at adopts
            rw [need]
            cases present : Table.find? "name" entries with
            | none =>
              rw [present] at adopts
              exact (nothing adopts given).elim
            | some value =>
              rw [present] at adopts
              exact adopts
          | _ => cases known
        · exact (nothing adopts given).elim

theorem RecordBuilds.declares {layout : Label} (kind : isRecord node = true)
    (builds : RecordBuilds oracle node name layout graph own type) : own = name ∨ Declares node own := by
  induction builds with
  | own => exact .inl rfl
  | nested member named _ ih =>
    have inner := mem_nestedIn member
    right
    rcases ih inner.1 with rfl | declares
    · exact .nested kind member (.tagged (.inr inner.1) named (holds_of_isNamed inner.2 named))
    · exact .nested kind member declares

/-- What a node declares goes by a name of it, or of the node after it. -/
theorem Builds.declares (builds : Builds oracle following node graph name type) :
    Declares node name ∨ ∃ other ∈ following, Declares other name := by
  cases builds with
  | enum named given kind => exact nameOf_declares named given (.inl kind)
  | record named given kind _ builds =>
    rcases builds.declares kind with rfl | declares
    · exact nameOf_declares named given (.inr kind)
    · exact .inl declares
  | synonym kind named => exact .inl (.given (.inl kind) named)
  | pointer kind named => exact .inl (.given (.inl kind) named)
  | callback kind named => exact .inl (.given (.inl kind) named)
  | function kind named => exact .inl (.given (.inr kind) named)

/-- A typedef waits for a name that is not declared, if no declared name ends in a bracket. -/
theorem Defers.absent {tag : Label} (defers : Defers node graph tag name)
    (plain : ∀ own, graph.has own = true → IsPlain own) : graph.has tag = false := by
  obtain ⟨text, missing, -, waits, notPointer, unknown, rfl⟩ := defers.spelled
  cases single : Spelling.array? [] (Text.trim text.toList) with
  | some found =>
    refine Bool.eq_false_iff.mpr fun present => ?_
    obtain ⟨other, same, last⟩ := plain _ present
    obtain rfl := Json.str.inj same
    exact last (Spelling.normal_last single)
  | none =>
    rcases Spelling.parse_eq single notPointer with parsed | same
    · rw [typeOf, typeOfWith, if_neg (by decide), parsed] at unknown
      dsimp only at unknown
      refine Bool.eq_false_iff.mpr fun present => ?_
      obtain ⟨node, found⟩ := Option.isSome_iff_exists.mp present
      have used : graph.use (.str (Spelling.normal text)) = .ok node.use := by
        have there : graph.find? (.str (Spelling.normal text)) = some node := found
        rw [Graph.use_text, there]
        rfl
      rw [used] at unknown
      cases unknown
    · -- A spelling that starts with a tag is not the text type.
      exfalso
      have front : Text.trim text.toList <+: Text.trimLeft text.toList := Spelling.trimRight_start _
      rw [same] at front
      obtain ⟨more, cut⟩ := front
      rw [mayWait, Bool.or_eq_true] at waits
      have begins {word : String} (starts : word.toList.isPrefixOf text.toList = true) {c : Char}
          (head : word.toList.head? = some c) (solid : Text.isBlank c = false) :
          (Text.trimLeft text.toList).head? = some c := by
        obtain ⟨rest, begun⟩ := List.isPrefixOf_iff_prefix.mp starts
        cases chars : word.toList with
        | nil =>
          rw [chars] at head
          cases head
        | cons first others =>
          rw [chars] at begun head
          obtain rfl := Option.some.inj head
          rw [← begun, List.cons_append, Spelling.trimLeft_of_head solid]
          rfl
      rw [← cut] at begins
      rcases waits with starts | starts
      · cases begins (c := 's') starts (by decide) (by decide +kernel)
      · cases begins (c := 'u') starts (by decide) (by decide +kernel)

end

/-- The names at a desk end in no bracket, and what waits does so for tags that are not declared. -/
structure Tidy (desk : Desk) : Prop where
  declared : ∀ name, desk.registry.graph.has name = true → IsPlain name
  waiting : ∀ entry ∈ desk.registry.waiting, ∀ own ∈ entry.2, IsPlain own
  due : ∀ due ∈ desk.due, IsPlain due.name
  awake : Desk.Awake desk.registry

section
variable {desk after : Desk} {event : Event} {name : Label} {type : CType}

theorem Tidy.waiters {tag : Label} {names : List Label} (tidy : Tidy desk)
    (found : Table.find? tag desk.registry.waiting = some names) : ∀ own ∈ names, IsPlain own := by
  obtain ⟨key, -, member⟩ := Table.mem_of_find? found
  exact tidy.waiting (key, names) member

theorem Tidy.enter (tidy : Tidy desk) (plain : IsPlain name) : Tidy (desk.enter name type) where
  declared other present := by
    rw [Desk.graph_enter, Graph.has_enter, Bool.or_eq_true] at present
    rcases present with same | old
    · rw [plain.eq same]
      exact plain
    · exact tidy.declared other old
  waiting entry member := tidy.waiting entry (List.mem_of_mem_filter member)
  due due member := by
    rcases Desk.mem_due_enter.mp member with ⟨names, found, inside, -, -⟩ | old
    · exact tidy.waiters found due.name inside
    · exact tidy.due due old
  awake := Desk.awake_enter tidy.awake

/-- An event whose name is a word, and whose typedef waits for a tag that is not declared. -/
structure Sane (graph : Graph) (event : Event) : Prop where
  subject : ∀ name, event.subject? = some name → IsPlain name
  absent : (∀ own, graph.has own = true → IsPlain own) →
    ∀ tag name, event = .defer tag name → graph.has tag = false

theorem Tidy.step (tidy : Tidy desk) (step : Desk.Step desk event after)
    (sane : Sane desk.registry.graph event) : Tidy after := by
  have awake := step.awake (sane.absent tidy.declared) tidy.awake
  cases step with
  | declare registry own type => exact tidy.enter (sane.subject own rfl)
  | wake registry first rest =>
    have fewer : Tidy { registry, due := rest } :=
      ⟨tidy.declared, tidy.waiting, fun due member => tidy.due due (List.mem_cons_of_mem _ member),
        tidy.awake⟩
    exact fewer.enter (tidy.due first List.mem_cons_self)
  | defer registry tag own =>
    refine ⟨tidy.declared, fun entry member waiter inside => ?_, tidy.due, awake⟩
    rcases Table.mem_insert_value member with before | ⟨same, -⟩
    · exact tidy.waiting entry before waiter inside
    · rw [same] at inside
      rcases List.mem_append.mp inside with inside | last
      · cases waits : Table.find? tag registry.waiting with
        | none =>
          rw [waits] at inside
          cases inside
        | some before =>
          rw [waits] at inside
          exact tidy.waiters waits waiter inside
      · obtain rfl := List.mem_singleton.mp last
        exact sane.subject waiter rfl
  | mark declarations _ same =>
    refine ⟨fun name present => tidy.declared name ?_, fun entry member => ?_, tidy.due, awake⟩
    · rw [Graph.has, ← declarations]
      exact present
    · rw [same] at member
      exact tidy.waiting entry member

theorem sow_plain : (Seed.sow {}).declarations.all (fun entry => match entry.1 with
    | .str text => text.toList.getLast? != some ']'
    | _ => false) = true := by
  decide +kernel

theorem tidy_opening {σ : Type} (state : σ) : Tidy { registry := (opening state).registry } where
  declared name present := by
    have plain : ∀ entry ∈ (Seed.sow {}).declarations, ∃ text, entry.1 = .str text ∧
        text.toList.getLast? ≠ some ']' := by
      intro entry member
      have checked := List.all_eq_true.mp sow_plain entry member
      split at checked
      next text same => exact ⟨text, same, by simpa using checked⟩
      next => cases checked
    obtain ⟨type, found⟩ := Option.isSome_iff_exists.mp present
    obtain ⟨own, same, member⟩ := Table.mem_of_find? found
    have known : IsPlain own := plain _ member
    rw [known.eq same]
    exact known
  waiting _ member := nomatch member
  due _ member := nomatch member
  awake _ _ found := nomatch found

end

section
variable {σ : Type} {header : Path} {oracle : Layout.Oracle σ} {nodes : List Json}

/-- The events of nodes whose names are words are sane. -/
theorem FitsIn.sane {next : Option Json} {graph : Graph} {event : Event}
    (words : ∀ node, node ∈ nodes ∨ node ∈ next → ∀ name, Declares node name → IsWord name)
    (fit : FitsIn oracle nodes next graph event) : Sane graph event := by
  obtain ⟨node, member, following, known, fit⟩ := fit
  cases event with
  | declare name type number =>
    refine ⟨?_, nofun⟩
    rintro _ ⟨⟩
    rcases Builds.declares fit with declares | ⟨other, here, declares⟩
    · exact (words node (.inl member) name declares).plain
    · exact (words other (known other here) name declares).plain
  | defer tag name =>
    refine ⟨?_, ?_⟩
    · rintro _ ⟨⟩
      exact (words node (.inl member) name (.given (.inl fit.kind) fit.named)).plain
    · rintro plain _ _ ⟨⟩
      exact Defers.absent fit plain
  | wake | mark => exact ⟨nofun, nofun⟩

theorem Chronicle.tidy {next : Option Json} {done last : Bool} {state : σ} {events : List Event}
    {session : Session σ}
    (words : ∀ node, node ∈ nodes ∨ node ∈ next → ∀ name, Declares node name → IsWord name)
    (chronicle : Chronicle header oracle next done (opening state) nodes events last session) :
    Tidy { registry := session.registry } :=
  chronicle.runs.keeps (fun _ step fit tidy => tidy.step step (fit.sane words)) (tidy_opening state)

/-- What is pending waits, and for the tag that it is pending with. -/
theorem mem_pending {registry : Registry} {pair : Label × Label} (member : pair ∈ registry.pending) :
    (∃ entry ∈ registry.waiting, entry.1 = pair.2) ∧ ∃ entry ∈ registry.waiting, pair.1 ∈ entry.2 := by
  let Waits (found : Table Label Label) : Prop := ∀ pair ∈ found,
    (∃ entry ∈ registry.waiting, entry.1 = pair.2) ∧ ∃ entry ∈ registry.waiting, pair.1 ∈ entry.2
  have outer : Waits registry.pending := by
    refine List.foldlRecOn (motive := Waits) registry.waiting _ (fun pair nothing => ?_)
      fun found known entry there => ?_
    · cases nothing
    refine List.foldlRecOn (motive := Waits) entry.2 _ known fun found known name inside pair member => ?_
    rcases Table.mem_insert_value member with before | ⟨same, rfl | ⟨old, before⟩⟩
    · exact known pair before
    · exact ⟨⟨entry, there, same.symm⟩, entry, there, inside⟩
    · exact ⟨⟨entry, there, same.symm⟩, (known _ before).2⟩
  exact outer pair member

theorem forM_ok {α : Type} {items : List α} {step : α → Except Fault Unit}
    (fine : ∀ item ∈ items, step item = .ok ()) : items.forM step = .ok () := by
  induction items with
  | nil => rfl
  | cons item rest ih =>
    have others := ih fun other member => fine other (by simp [member])
    change (step item >>= fun _ => rest.forM step) = .ok ()
    rw [fine item (by simp), others]
    rfl

/-- What waits for no declared tag is reported with its tag. -/
theorem keyed_tidy {registry : Registry} (tidy : Tidy { registry }) :
    (registry.waiting.forM fun (_, names) => names.forM fun name => do
      let _ ← name.asKey : Except Fault Unit) = .ok () := by
  refine forM_ok fun entry member => forM_ok fun name inside => ?_
  obtain ⟨text, rfl, -⟩ := tidy.waiting entry member name inside
  rfl

theorem unresolved_tidy {registry : Registry} (tidy : Tidy { registry }) :
    ∃ pairs, unresolved registry = .ok (.pendingAliases pairs) ∧
      ∀ pair ∈ pairs, registry.graph.has pair.2 = false := by
  have texts : areOrdered (registry.pending.map Prod.fst) = .ok () := by
    refine areOrdered_texts fun value member => ?_
    obtain ⟨pair, inside, rfl⟩ := List.mem_map.mp member
    obtain ⟨entry, there, own⟩ := (mem_pending inside).2
    obtain ⟨text, same, -⟩ := tidy.waiting entry there _ own
    exact ⟨text, same⟩
  refine ⟨registry.pending.mergeSort fun a b => isBefore a.1 b.1, ?_, fun pair member => ?_⟩
  · rw [unresolved, keyed_tidy tidy, orderedBy, texts]
    rfl
  · obtain ⟨entry, there, same⟩ := (mem_pending (List.mem_mergeSort.mp member)).1
    have waits : Table.has entry.1 registry.waiting = true := Table.has_of_mem there
    obtain ⟨names, found⟩ := Option.isSome_iff_exists.mp waits
    rw [← same]
    exact tidy.awake entry.1 names found

/-- A typedef that waits for a tag is woken after the declaration of the tag, as an alias of the node
that is declared there. -/
def Answered (tag name : Label) (late : List Event) : Prop :=
  ∃ early declared middle item number rest,
    late = early ++ declared :: (middle ++ .wake { name, tag, item } number :: rest) ∧
      declared.entry? = some (tag, item)

/-- A tag that no event declares. -/
def Undeclared (tag : Label) (events : List Event) : Prop :=
  ∀ event ∈ events, ∀ own item, event.entry? = some (own, item) → own ≠ tag

theorem defers_waits {next : Option Json} {desk after : Desk} {tag name : Label} {late : List Event}
    (run : Desk.Runs (FitsIn oracle nodes next) desk (.defer tag name :: late) after) :
    ∃ between, Desk.Runs (FitsIn oracle nodes next) between late after ∧ between.Waits tag name ∧
      ∃ text, tag = .str text := by
  cases run with
  | cons step fit rest =>
    cases step with
    | defer registry =>
      obtain ⟨node, -, following, -, fit⟩ := fit
      obtain ⟨text, -, -, -, -, -, same⟩ := fit.spelled
      refine ⟨_, rest, ⟨_, Desk.find?_waiting_defer_self registry, by simp⟩, _, same⟩

/-- What becomes of the typedefs that wait in the resolution of a list of nodes. -/
structure Wakes (header : Path) (oracle : Layout.Oracle σ) (nodes : List Json) (state : σ) : Prop where
  /-- Between two nodes no typedef waits for a tag that is declared. -/
  asleep : ∀ before after done session, nodes = before ++ after →
    (passNodes header oracle after.head? false before).runOn (opening state) = (.ok done, session) →
      ∀ tag names, (tag, names) ∈ session.registry.waiting → session.graph.has tag = false
  /-- If the resolution succeeds, each of them became an alias of what was declared under its tag. -/
  answered : ∀ graph, ((resolve header oracle nodes).runOn { oracle := state }).1 = .ok graph →
    ∃ events last session, Chronicle header oracle none false (opening state) nodes events last session ∧
      session.graph = graph ∧
        ∀ early tag name late, events = early ++ .defer tag name :: late → Answered tag name late
  /-- If the tag of one is not declared after it, the resolution of all nodes fails, and names tags that
  are not declared. -/
  reported : ∀ session, (topNodes header oracle false nodes).runOn (opening state) = (.ok (), session) →
    ∃ events last, Chronicle header oracle none false (opening state) nodes events last session ∧
      ∀ early tag name late, events = early ++ .defer tag name :: late → Undeclared tag late →
        ∃ pairs, ((resolve header oracle nodes).runOn { oracle := state }).1 =
            .error (.pendingAliases pairs) ∧ ∀ pair ∈ pairs, session.graph.has pair.2 = false

/-- No typedef sleeps through the declaration of its tag, where names are words. -/
theorem resolve_wakes (state : σ)
    (words : ∀ node ∈ nodes, ∀ name, Declares node name → IsWord name) :
    Wakes header oracle nodes state := by
  refine ⟨fun before after done session cut run tag names member => ?_, fun graph resolved => ?_,
    fun session run => ?_⟩
  · have told : Gives (fun last session => ∃ events,
          Chronicle header oracle after.head? false (opening state) before events last session)
        (passNodes header oracle after.head? false before) (opening state) := passNodes_chronicle false before
    unfold Gives Ends at told
    rw [run] at told
    obtain ⟨events, chronicle⟩ := told
    have tidy := chronicle.tidy fun node there => words node <| by
      rw [cut]
      exact there.elim (List.mem_append_left _)
        fun head => List.mem_append_right _ (List.mem_of_mem_head? head)
    have waits : Table.has tag session.registry.waiting = true := Table.has_of_mem member
    obtain ⟨names, found⟩ := Option.isSome_iff_exists.mp waits
    exact tidy.awake tag names found
  · obtain ⟨events, last, session, chronicle, same, nothing⟩ := resolve_chronicle resolved
    refine ⟨events, last, session, chronicle, same, fun early tag name late cut => ?_⟩
    subst cut
    obtain ⟨desk, -, after⟩ := chronicle.runs.split
    obtain ⟨between, rest, waits, text, rfl⟩ := defers_waits after
    obtain ⟨early, declared, middle, own, item, number, last, rfl, entry, same⟩ :=
      rest.answers waits rfl nothing
    obtain rfl := (beq_str_iff own text).mp same
    exact ⟨early, declared, middle, item, number, last, rfl, entry⟩
  · have told : Gives (fun _ session => ∃ events last,
          Chronicle header oracle none false (opening state) nodes events last session)
        (topNodes header oracle false nodes) (opening state) := topNodes_chronicle
    unfold Gives Ends at told
    rw [run] at told
    obtain ⟨events, last, chronicle⟩ := told
    refine ⟨events, last, chronicle, fun early tag name late cut undeclared => ?_⟩
    subst cut
    obtain ⟨desk, -, after⟩ := chronicle.runs.split
    obtain ⟨between, rest, waits, text, rfl⟩ := defers_waits after
    have still := rest.waits waits fun event member own item entry => by
      rw [Bool.eq_false_iff, ne_eq, beq_str_iff]
      exact undeclared event member own item entry
    obtain ⟨names, found, -⟩ := still
    obtain ⟨pairs, reported, absent⟩ := unresolved_tidy <| chronicle.tidy fun node there =>
      words node (there.resolve_right (by simp))
    refine ⟨pairs, ?_, absent⟩
    have something : session.registry.waiting.isEmpty = false := by
      cases waiting : session.registry.waiting with
      | nil =>
        rw [waiting] at found
        cases found
      | cons => rfl
    rw [resolve_runOn, runOn_bind, run]
    dsimp only
    rw [conclude_waits header something, reported]
    rfl

/-- Two typedefs of a record, one of them of a typedef that waits, and the record after them. -/
theorem resolve_wakes_dot :
    let nodes := [typedefNode "dot" "struct point", typedefNode "spot" "struct dot",
      recordNode "point" [fieldNode "x" "int"]]
    (∀ node ∈ nodes, ∀ name, Declares node name → IsWord name) ∧
      Wakes { parts := ["a.h"] } (answering outerAnswers) nodes () ∧
      ((resolve { parts := ["a.h"] } (answering outerAnswers) nodes).runOn
        { oracle := () }).1.toOption.map (fun graph => graph.names.drop (Seed.sow {}).names.length) =
          some [.str "point", .str "dot", .str "spot"] := by
  intro nodes
  have words : ∀ node ∈ nodes, ∀ name, Declares node name → IsWord name := by
    intro node member name declares
    simp only [nodes, List.mem_cons, List.not_mem_nil, or_false] at member
    have own (word : String) (named : node.field "name" = .ok (.str word))
        (isWord : Spelling.isWord word.toList = true) (flat : nestedIn (within node) = []) :
        IsWord name := by
      cases declares with
      | tagged _ found => exact ⟨word, Except.ok.inj (found.symm.trans named), isWord⟩
      | given _ found =>
        exact ⟨word, Except.ok.inj ((field_of_need found).symm.trans named), isWord⟩
      | nested _ inside =>
        rw [flat] at inside
        cases inside
    rcases member with rfl | rfl | rfl
    · exact own "dot" rfl (by decide) (by decide)
    · exact own "spot" rfl (by decide) (by decide)
    · exact own "point" rfl (by decide) (by decide)
  exact ⟨words, resolve_wakes () words, by decide +kernel⟩

end

end Resolve

end NativeBindings
