import NativeBindings.Proofs.Emit.Order
import NativeBindings.Proofs.Resolve.ConstantOwners
import NativeBindings.Proofs.Resolve.Shift
import NativeBindings.Proofs.Resolve.History

/-!
A typedef that is there twice. The copy declares the name again, which moves it behind what was declared
since. If it stands for the same type, and nothing that it moves behind needs its marshalers, the
resolution goes on as without the copy, and no more of the module fails.
-/
namespace NativeBindings.Resolve

open Json Act Outcome Mirror

/-! ### What a typedef does where nothing waits for its name -/

/-- Sessions before and after a typedef of a name: it does nothing, declares the name, or comes to wait. -/
structure Recurs {σ : Type} (name : Label) (session after : Session σ) : Prop where
  owners : after.owners = session.owners
  oracle : after.oracle = session.oracle
  does : (entries after.graph = entries session.graph ∧
      after.registry.waiting = session.registry.waiting) ∨
    (∃ type, entries after.graph = Table.erase name (entries session.graph) ++ [(name, type)] ∧
      after.registry.waiting = session.registry.waiting) ∨
    ∃ tag, after.registry = session.registry.defer tag name

section
variable {σ : Type} {session : Session σ} {name : Label} {type : CType}

theorem register_recurs (keyed : name.asKey = .ok name)
    (nothing : Table.find? name session.registry.waiting = none) :
    Gives (fun _ after => Recurs name session after ∧
        entries after.graph = Table.erase name (entries session.graph) ++ [(name, CType.View.essential.look type)] ∧
        after.registry.waiting = session.registry.waiting)
      (register name type) session := by
  obtain ⟨told, run⟩ := register_alone type keyed nothing
  unfold Gives Ends
  rw [run]
  have entered := entries_enter session.graph name type
  exact ⟨⟨rfl, rfl, .inr (.inl ⟨_, entered, rfl⟩)⟩, entered, rfl⟩

section
variable (keyed : name.asKey = .ok name) (nothing : Table.find? name session.registry.waiting = none)
include keyed nothing

theorem registerAlias_recurs (target : CType) :
    Gives (fun _ => Recurs name session) (registerAlias name target) session := by
  unfold registerAlias
  split
  · exact ⟨rfl, rfl, .inl ⟨rfl, rfl⟩⟩
  · exact (register_recurs keyed nothing).then fun _ _ done => gives_pure done.1

theorem typedefOf_recurs (spelling : String) :
    Gives (fun _ => Recurs name session) (typedefOf name spelling) session := by
  refine gives_graph_then ?_
  split
  · exact registerAlias_recurs keyed nothing _
  · split
    · exact ⟨rfl, rfl, .inr (.inr ⟨_, rfl⟩)⟩
    · exact ⟨rfl, rfl, .inl ⟨rfl, rfl⟩⟩
  · exact gives_throw _

/-- A declaration whose name is marked then. -/
theorem marked_recurs {change : Graph → Graph} (kept : ∀ graph, entries (change graph) = entries graph) :
    Gives (fun _ => Recurs name session)
      (register name type >>= fun _ => changeGraph change) session := by
  refine (register_recurs keyed nothing).then fun _ middle done => ?_
  exact ⟨done.1.owners, done.1.oracle, .inr (.inl ⟨_, (kept _).trans done.2.1, done.2.2⟩)⟩

theorem typedef_recurs {node : Json} (named : node.need "name" = .ok name) :
    Gives (fun _ => Recurs name session) (typedef node) session := by
  refine gives_lift_then fun own found => ?_
  obtain rfl := Except.ok.inj (named.symm.trans found)
  refine gives_lift_then fun spelling _ => gives_lift_then fun type _ => gives_lift_then fun id _ => ?_
  split
  · refine gives_graph_then <| gives_lift_then fun text _ => gives_lift_then fun target _ => ?_
    exact registerAlias_recurs keyed nothing target
  refine gives_lift_then fun prototype _ => ?_
  split
  · exact gives_graph_then <| gives_lift_then fun type _ => marked_recurs keyed nothing fun _ => rfl
  · refine gives_lift_then fun text _ => gives_lift_then fun shape _ => ?_
    split
    · exact gives_graph_then <| gives_lift_then fun target _ => marked_recurs keyed nothing fun _ => rfl
    · exact typedefOf_recurs keyed nothing text

end

theorem isSkipped_keeps (header : Path) (node : Json) :
    Gives (fun _ after => after.registry = session.registry ∧ after.owners = session.owners ∧
        after.oracle = session.oracle)
      (isSkipped header node) session := by
  have zoomed : Gives (fun _ after => after.registry = session.registry ∧ after.owners = session.owners ∧
        after.oracle = session.oracle)
      (Act.zoom Session.includer (fun session includer => { session with includer })
        (Origin.skips header session.graph.has node)) session := by
    unfold Gives
    rw [ends_zoom, ends_iff]
    exact ⟨fun _ _ => ⟨rfl, rfl, rfl⟩, fun _ _ => trivial⟩
  exact gives_graph_then (zoomed.then fun _ _ same => same)

theorem topNode_recurs {header : Path} {oracle : Layout.Oracle σ} {following : Option Json} {node : Json}
    (kind : node.field "kind" = .ok (.str "TypedefDecl")) (keyed : name.asKey = .ok name)
    (named : node.need "name" = .ok name)
    (nothing : Table.find? name session.registry.waiting = none) :
    Gives (fun _ => Recurs name session) (topNode header oracle following node) session := by
  refine (isSkipped_keeps header node).then fun skipped after kept => ?_
  obtain ⟨registry, owners, oracle⟩ := kept
  split
  · exact ⟨owners, oracle, .inl ⟨congrArg (fun registry => entries registry.graph) registry,
      congrArg Registry.waiting registry⟩⟩
  refine gives_lift_then fun own found => ?_
  obtain rfl := Except.ok.inj (kind.symm.trans found)
  rw [if_neg (by decide)]
  refine gives_lift_then fun among found => ?_
  obtain rfl : among = false := Except.ok.inj (found.symm.trans rfl)
  rw [if_neg (by decide), if_pos (by decide)]
  rw [← registry] at nothing
  refine (typedef_recurs keyed nothing named).then fun _ last recurs => ?_
  refine ⟨recurs.owners.trans owners, recurs.oracle.trans oracle, ?_⟩
  have does := recurs.does
  have same : after.graph = session.graph := congrArg Registry.graph registry
  rw [same, registry] at does
  exact does

end

/-! ### Where a name is declared -/

/-- The entries behind that of a name. -/
def behind (name : Label) (table : Table Label CType) : Table Label CType :=
  (table.dropWhile fun entry => !(entry.1 == name)).drop 1

theorem split_behind {name : Label} {table : Table Label CType} {type : CType}
    (found : Table.find? name table = some type) :
    ∃ front own, table = front ++ (own, type) :: behind name table ∧ (own == name) = true := by
  induction table with
  | nil => cases found
  | cons entry rest ih =>
    obtain ⟨own, first⟩ := entry
    rw [Table.find?] at found
    unfold behind
    cases same : own == name with
    | true =>
      rw [if_pos same] at found
      obtain rfl := Option.some.inj found
      exact ⟨[], own, by simp [same], same⟩
    | false =>
      rw [if_neg (by simp [same])] at found
      obtain ⟨front, other, cut, named⟩ := ih found
      refine ⟨(own, first) :: front, other, ?_, named⟩
      rw [List.dropWhile_cons_of_pos (by simp [same])]
      exact congrArg ((own, first) :: ·) cut

theorem behind_map (look : CType → CType) (name : Label) (table : Table Label CType) :
    behind name (table.map fun entry => (entry.1, look entry.2)) =
      (behind name table).map fun entry => (entry.1, look entry.2) := by
  rw [behind, behind, List.dropWhile_map, List.map_drop]
  rfl

/-- A name that is declared once is the name of no other entry. -/
theorem apart_of_distinct {name : Label} {front back : Table Label CType} {type : CType}
    (distinct : (Table.keys (front ++ (name, type) :: back)).Pairwise
      fun one other => (one == other) = false) :
    ∀ entry ∈ front ++ back, (entry.1 == name) = false := by
  rw [Table.keys, List.map_append, List.map_cons, List.pairwise_append, List.pairwise_cons] at distinct
  intro entry member
  rcases List.mem_append.mp member with before | behind
  · exact distinct.2.2 _ (List.mem_map_of_mem before) name List.mem_cons_self
  · rw [BEq.comm]
    exact distinct.2.1.1 _ (List.mem_map_of_mem behind)

theorem Desk.Step.distinct {desk after : Desk} {event : Event} (step : Step desk event after)
    (distinct : desk.registry.graph.Distinct) : after.registry.graph.Distinct := by
  cases step with
  | declare | wake => exact distinct.enter _
  | defer => exact distinct
  | mark declarations =>
    rw [Graph.Distinct, Graph.names, declarations]
    exact distinct

section
variable {σ : Type} {header : Path} {oracle : Layout.Oracle σ} {state : σ}

theorem opening_distinct : (opening state).graph.Distinct :=
  (sow_leads Graph.sound_empty).distinct List.Pairwise.nil

theorem passNodes_distinct {next : Option Json} {nodes : List Json} :
    Gives (fun _ there => there.graph.Distinct) (passNodes header oracle next false nodes)
      (opening state) := by
  have told : Gives (fun last there => ∃ events,
        Chronicle header oracle next false (opening state) nodes events last there)
      (passNodes header oracle next false nodes) (opening state) := passNodes_chronicle false nodes
  refine told.mono (fun last there chronicle => ?_) fun _ _ _ => trivial
  obtain ⟨events, chronicle⟩ := chronicle
  have start : (opening state).graph.Distinct := opening_distinct
  exact chronicle.runs.keeps (P := fun desk => desk.registry.graph.Distinct)
    (fun _ step _ distinct => step.distinct distinct) start

end

/-! ### Going on after a copy -/

/-- Entries that do not need the marshalers of a name. -/
def Free (name : Label) (entry : Label × CType) : Prop :=
  ∀ other ∈ Emit.needs entry.2, Emit.identText other ≠ Emit.identText name

/-- What a copy of a typedef leaves, where it comes: it puts nothing off, nothing waits for the name, and
the name stands for the same type. No entry behind needs the name by value, and if it is a pointer, none is
another pointer to its base. -/
structure Repeats {σ : Type} (name : Label) (there copied : Session σ) : Prop where
  place : copied.includer = there.includer
  waiting : copied.registry.waiting = there.registry.waiting
  idle : Table.find? name there.registry.waiting = none
  same : (copied.graph.find? name).map CType.View.essential.look =
    (there.graph.find? name).map CType.View.essential.look
  free : ∀ entry ∈ behind name there.graph.declarations, Free name entry
  pointers : ∀ type base isConst, there.graph.find? name = some type →
    Graph.isPointerTo base isConst type = true →
      ∀ entry ∈ behind name there.graph.declarations, Graph.isPointerTo base isConst entry.2 = false

theorem free_look {name own : Label} {type : CType} :
    Free name (own, CType.View.essential.look type) ↔ Free name (own, type) := by
  unfold Free
  rw [Emit.needs_look Emit.accessed_aliasTarget]

theorem find?_entries (graph : Graph) (name : Label) :
    Table.find? name (entries graph) = (graph.find? name).map CType.View.essential.look :=
  graph.find?_seen .essential name

theorem behind_entries (graph : Graph) (name : Label) :
    behind name (entries graph) = (behind name graph.declarations).map
      fun entry => (entry.1, CType.View.essential.look entry.2) :=
  behind_map _ _ _

section
variable {σ : Type} {header : Path} {oracle : Layout.Oracle σ} {following : Option Json} {node : Json}
  {name : String} {there copied : Session σ}

theorem waiting_of_defer {registry : Registry} {tag other : Label} :
    (registry.defer tag other).waiting ≠ registry.waiting := by
  intro same
  have found := congrArg (Table.find? tag) same
  rw [Registry.defer, Table.find?_insert_self] at found
  cases before : Table.find? tag registry.waiting with
  | none => simp [before] at found
  | some names => simp [before] at found

/-- After a copy the name comes later. -/
theorem Repeats.shifted (repeats : Repeats (.str name) there copied)
    (recurs : Recurs (.str name) there copied) (distinct : there.graph.Distinct) :
    Shifted (.str name) (Free (.str name)) there.graph copied.graph := by
  rcases recurs.does with ⟨kept, -⟩ | ⟨type, again, -⟩ | ⟨tag, deferred⟩
  · exact shifted_same kept.symm
  · have found : Table.find? (.str name) (entries there.graph) = some type := by
      rw [find?_entries, ← repeats.same, ← find?_entries, again, Table.find?_append,
        Table.find?_erase_self, Option.none_or, Table.find?, if_pos BEq.rfl]
    obtain ⟨front, own, listed, named⟩ := split_behind found
    obtain rfl := (beq_str_iff own name).mp named
    rw [find?_entries] at found
    obtain ⟨held, declared, rfl⟩ := Option.map_eq_some_iff.mp found
    have keys : Table.keys (entries there.graph) = there.graph.names := there.graph.names_seen .essential
    refine shifted_again listed (@apart_of_distinct _ _ _ (CType.View.essential.look held) ?_) ?_ ?_ again
    · rw [← listed, keys]
      exact distinct
    · intro base isConst other member pointer
      rw [behind_entries] at member
      obtain ⟨entry, among, rfl⟩ := List.mem_map.mp member
      rw [Graph.isPointerTo_look] at pointer ⊢
      exact repeats.pointers held base isConst declared pointer entry among
    · intro other member
      rw [behind_entries] at member
      obtain ⟨entry, among, rfl⟩ := List.mem_map.mp member
      exact free_look.mpr (repeats.free entry among)
  · have waiting := repeats.waiting
    rw [deferred] at waiting
    exact absurd waiting waiting_of_defer

end

section
variable {σ : Type} (name : Label)

/-- Two resolutions, in the second of which a name comes later. -/
def moving : Mirror σ σ where
  outlook := .shifted name (Free name)
  tuned := Eq
  waits := Eq
  fine _ := True
  clear _ _ := True
  place _ := True
  strict := True

theorem moving_faithful (oracle : Layout.Oracle σ) : (moving name).Faithful oracle oracle := Steady.faithful {
  ask := ask_mirrors rfl fun _ => trivial
  declare _ _ _ _ _ := trivial
  release := by
    rintro declarations waiting name declared -
    exact ⟨trivial, by rintro _ rfl; exact ⟨rfl, rfl⟩⟩
  defer := by
    rintro declarations waiting tag name names -
    exact ⟨trivial, by rintro _ rfl; exact ⟨rfl, rfl⟩⟩ }

end

/-- Whether no more of a module fails for the second graph than for the first one. -/
def FailsNoMore (graph graph' : Graph) : Prop :=
  ∀ options : Emit.Options, options.failFast = false → ∀ start start',
    ∃ made made', ((Emit.generate options graph).runOn start).1 = .ok made ∧
      ((Emit.generate options graph').runOn start').1 = .ok made' ∧
      ∀ symbol, made'.failed.contains symbol = true → made.failed.contains symbol = true

theorem generate_essential (options : Emit.Options) (graph : Graph) :
    Emit.generate options (graph.seen .essential) = Emit.generate options graph := by
  have twice : graph.seen .essential = (graph.seen .unnumbered).seen .straight := by
    simp only [Graph.seen, List.map_map]
    rfl
  rw [twice, Emit.generate_look options Emit.legible_straight,
    Emit.generate_look options Emit.legible_unnumbered]

theorem Shifted.failsNoMore {name : String} {graph graph' : Graph}
    (shifted : Shifted (.str name) (Free (.str name)) graph graph')
    (keyed : ∀ entry ∈ graph.declarations, entry.1.asKey = .ok entry.1)
    (keyed' : ∀ entry ∈ graph'.declarations, entry.1.asKey = .ok entry.1) : FailsNoMore graph graph' := by
  intro options patient start start'
  obtain ⟨shift, of, before, after⟩ := shifted
  have kept {graph : Graph} (keyed : ∀ entry ∈ graph.declarations, entry.1.asKey = .ok entry.1) :
      ∀ entry ∈ (graph.seen .essential).declarations, entry.1.asKey = .ok entry.1 := by
    intro entry member
    obtain ⟨own, inside, rfl⟩ := List.mem_map.mp member
    exact keyed own inside
  have moved := @Emit.entries_moved options [] shift.passed shift.late (Emit.ident name) shift.front shift.back
    (fun entry member => by
      rw [(beq_str_iff entry.1 name).mp (of.own entry member)]
      rfl)
    fun entry member other needed => of.passes entry member other needed
  have betters := @Emit.module_betters options (graph.seen .essential) (graph'.seen .essential)
    (by
      rw [show (graph.seen .essential).declarations = shift.before from before,
        show (graph'.seen .essential).declarations = shift.after from after]
      exact moved)
    (by
      rw [show (graph.seen .essential).declarations = shift.before from before,
        show (graph'.seen .essential).declarations = shift.after from after]
      intro entry member
      simp only [Shift.before, Shift.after, List.mem_append] at member ⊢
      grind)
  have generated := Emit.generate_betters patient (kept keyed) (kept keyed') betters start start'
  rwa [generate_essential, generate_essential] at generated

section
variable {σ : Type} {header : Path} {oracle : Layout.Oracle σ} {state : σ}

theorem resolve_keyed {nodes : List Json} {graph : Graph}
    (resolved : ((resolve header oracle nodes).runOn { oracle := state }).1 = .ok graph) :
    ∀ entry ∈ graph.declarations, entry.1.asKey = .ok entry.1 := by
  obtain ⟨done, history, same⟩ := resolve_history oracle header nodes { oracle := state }
  have gives := resolve_gives oracle header nodes { oracle := state } graph resolved
  rw [gives, same]
  exact history.keyed fun _ member => absurd member List.not_mem_nil

/-- Where a resolution comes to after some nodes. -/
def reached (header : Path) (oracle : Layout.Oracle σ) (state : σ) (nodes : List Json) : Session σ :=
  ((passNodes header oracle none false nodes).runOn (opening state)).2

section
variable {nodes more : List Json} {session : Session σ} (settled : ∀ last ∈ nodes.getLast?, Settled last)
include settled

/-- A resolution that gets through a list gets through its start. -/
theorem passes_of_topNodes
    (run : (topNodes header oracle false (nodes ++ more)).runOn (opening state) = (.ok (), session)) :
    (passNodes header oracle none false nodes).runOn (opening state) =
      (.ok false, reached header oracle state nodes) := by
  have undone : Gives (fun done _ => done = false) (passNodes header oracle none false nodes)
      (opening state) :=
    passNodes_undone (fun last member => (settled last member).apart none) (fun _ => rfl) (opening state)
  rw [topNodes_append, passNodes_settled settled more.head? none, runOn_bind] at run
  unfold Gives Ends at undone
  unfold reached
  generalize (passNodes header oracle none false nodes).runOn (opening state) = ended at run undone
  obtain ⟨outcome, there⟩ := ended
  cases outcome with
  | error fault => cases run
  | ok done =>
    obtain rfl : done = false := undone
    rfl

/-- After the start of a list a resolution goes on with the rest. -/
theorem topNodes_reached (passes : (passNodes header oracle none false nodes).runOn (opening state) =
      (.ok false, reached header oracle state nodes)) (more : List Json) :
    (topNodes header oracle false (nodes ++ more)).runOn (opening state) =
      (topNodes header oracle false more).runOn (reached header oracle state nodes) := by
  rw [topNodes_append, passNodes_settled settled more.head? none, runOn_bind, passes]

end

theorem settled_of_typedef {node : Json} (kind : node.field "kind" = .ok (.str "TypedefDecl")) :
    Settled node := by
  intro own known tagged
  obtain rfl := Except.ok.inj (kind.symm.trans known)
  exact absurd tagged (by decide)

theorem resolve_of_topNodes {nodes : List Json} {session : Session σ}
    (run : (topNodes header oracle false nodes).runOn (opening state) = (.ok (), session))
    (nothing : session.registry.waiting = []) :
    ((resolve header oracle nodes).runOn { oracle := state }).1 = .ok session.graph := by
  obtain ⟨told, ends⟩ := @conclude_done _ session header (by rw [nothing]; rfl)
  rw [resolve_runOn, runOn_bind, run]
  dsimp only
  rw [ends]

/-- Like sessions come to like ends with the same nodes. -/
theorem topNodes_like {m : Mirror σ σ} {nodes : List Json} {there copied session : Session σ}
    (faithful : m.Faithful oracle oracle) (good : ∀ session, m.Good session) (place : ∀ includer, m.place includer)
    (waits : ∀ node ∈ nodes, m.Waits node) (like : m.Like there copied)
    (run : (topNodes header oracle false nodes).runOn there = (.ok (), session)) :
    ∃ last, (topNodes header oracle false nodes).runOn copied = (.ok (), last) ∧ m.Like session last := by
  have some : Nonempty σ := ⟨there.oracle⟩
  have mirrors : m.Mirrors id (topNodes header oracle false nodes) (topNodes header oracle false nodes) :=
    topNodes_mirrors faithful header false (fun _ _ _ _ => place _) waits
  have walk := (mirrors there (good _)).2 copied like
  rw [run] at walk
  generalize (topNodes header oracle false nodes).runOn copied = ended at walk ⊢
  obtain ⟨outcome, last⟩ := ended
  cases outcome with
  | error fault => exact walk.elim
  | ok done => exact ⟨last, rfl, walk.2⟩

end

end NativeBindings.Resolve
