import NativeBindings.Proofs.Resolve.Chronicle
import NativeBindings.Proofs.Resolve.ForwardTypedef

/-!
Of several declarations of a name the last one counts, unless a typedef of the name waits when it
comes: that one is woken later and takes the place of the last declaration.
-/
namespace NativeBindings

namespace Table

variable {κ α : Type} [BEq κ] {key : κ} {table : Table κ α}

/-- A key that is there is there once, if no two keys are the same. -/
theorem countP_keys [EquivBEq κ] (distinct : (keys table).Pairwise fun one other => (one == other) = false)
    (present : has key table = true) : (keys table).countP (· == key) = 1 := by
  induction table with
  | nil => cases present
  | cons entry rest ih =>
    obtain ⟨other, value⟩ := entry
    obtain ⟨apart, distinct⟩ := List.pairwise_cons.mp distinct
    change (other :: keys rest).countP (· == key) = 1
    cases same : other == key with
    | true =>
      have absent : (keys rest).countP (· == key) = 0 := by
        refine List.countP_eq_zero.mpr fun first member equal => ?_
        have differs := apart first member
        rw [BEq.trans same (BEq.symm equal)] at differs
        cases differs
      rw [List.countP_cons_of_pos (by simpa using same), absent]
    | false =>
      rw [has_cons_of_ne same] at present
      rw [List.countP_cons_of_neg (by simp [same]), ih distinct present]

theorem find?_of_mem [PartialEquivBEq κ] [ReflBEq κ] {key : κ} {value : α} {table : Table κ α}
    (distinct : (keys table).Pairwise fun one other => (one == other) = false)
    (member : (key, value) ∈ table) : find? key table = some value := by
  induction table with
  | nil => cases member
  | cons entry rest ih =>
    obtain ⟨other, first⟩ := entry
    obtain ⟨apart, distinct⟩ := List.pairwise_cons.mp distinct
    rcases List.mem_cons.mp member with same | inside
    · obtain ⟨rfl, rfl⟩ := Prod.mk.inj same
      simp [find?]
    · have differs : (other == key) = false := apart key (List.mem_map_of_mem inside)
      rw [find?, if_neg (by simp [differs]), ih distinct inside]

theorem erase_append_cons {key : κ} {entry : κ × α} (apart : (entry.1 == key) = false)
    (front back : Table κ α) :
    erase key (front ++ entry :: back) = erase key front ++ entry :: erase key back := by
  simp [erase, bne, apart]

end Table

namespace Graph

variable {graph before after : Graph}

/-- No name is declared twice. -/
def Distinct (graph : Graph) : Prop := graph.names.Pairwise fun one other => (one == other) = false

theorem Distinct.remove (distinct : graph.Distinct) (name : Label) : (graph.remove name).Distinct := by
  have sublist : (Table.keys (Table.erase name graph.declarations)).Sublist graph.names :=
    List.filter_sublist.map _
  exact List.Pairwise.sublist sublist distinct

theorem Distinct.assign (distinct : graph.Distinct) (name : Label) (type : CType) :
    (graph.assign name type).Distinct := by
  rw [Distinct, names, Graph.assign, Table.keys_insert]
  split
  · exact distinct
  next absent =>
    refine List.pairwise_append.mpr ⟨distinct, List.pairwise_singleton .., fun other member last new => ?_⟩
    obtain rfl := List.mem_singleton.mp new
    obtain ⟨⟨own, value⟩, inside, rfl⟩ := List.mem_map.mp member
    refine Bool.eq_false_iff.mpr fun same => absent ?_
    have present : Table.has own graph.declarations = true := Table.has_of_mem inside
    rw [Table.has, ← Table.find?_congr same]
    exact present

theorem Distinct.enter {graph : Graph} (distinct : graph.Distinct) (entry : Label × CType) :
    (graph.enter entry).Distinct :=
  (distinct.remove entry.1).assign entry.1 entry.2

theorem Step.distinct (step : Step before after) (distinct : before.Distinct) : after.Distinct := by
  cases step with
  | assign name type => exact distinct.assign name type
  | replace name type => exact (distinct.remove name).assign name type
  | mark declarations =>
    rw [Distinct, names, declarations]
    exact distinct

theorem Leads.distinct (leads : Leads before after) (distinct : before.Distinct) : after.Distinct := by
  induction leads with
  | refl => exact distinct
  | tail _ step ih => exact step.1.distinct ih

end Graph

namespace Resolve

open Json Act Outcome

section
variable {σ : Type} {oracle : Layout.Oracle σ} {following : Option Json} {node : Json} {graph : Graph}
  {name : Label} {type : CType}

theorem RecordBuilds.fresh {layout own : Label} (builds : RecordBuilds oracle node name layout graph own type) :
    type.serial = none := by
  induction builds with
  | own => rfl
  | nested _ _ _ ih => exact ih

theorem enum_fresh {nodes : List Json} {session : Session σ} :
    Gives (fun type _ => type.serial = none) (enum name nodes) session :=
  (gives_any _ _).then fun _ _ _ => gives_pure rfl

/-- What a node declares is a new type. -/
theorem Builds.fresh (builds : Builds oracle following node graph name type) : type.serial = none := by
  cases builds with
  | @enum _ _ nodes _ start after _ _ _ _ evaluated =>
    have fresh : Gives (fun type _ => type.serial = none) (Resolve.enum name nodes) start := enum_fresh
    unfold Gives Ends at fresh
    rw [evaluated] at fresh
    exact fresh
  | record _ _ _ _ builds => exact builds.fresh
  | synonym => rfl
  | pointer => rfl
  | callback _ _ _ found =>
    obtain ⟨result, parameters, rfl⟩ := callback_eq_ok found
    rfl
  | function _ _ found =>
    obtain ⟨result, parameters, rfl⟩ := signature_eq_ok found
    rfl

end

namespace Desk

variable {desk after : Desk} {event : Event} {name : Label}

/-- A name that was pending once is pending or declared from then on. -/
theorem Step.present (step : Step desk event after)
    (present : desk.Pending name ∨ desk.registry.graph.has name = true) :
    after.Pending name ∨ after.registry.graph.has name = true := by
  cases step with
  | declare registry own type =>
    rw [pending_enter, graph_enter, Graph.has_enter]
    exact present.imp_right fun there => by rw [there, Bool.or_true]
  | wake registry first rest =>
    rw [pending_enter, graph_enter, Graph.has_enter]
    rw [pending_cons, or_assoc] at present
    rcases present with same | pending | there
    · exact .inr (by rw [same, Bool.true_or])
    · exact .inl pending
    · refine .inr ?_
      rw [show registry.graph.has name = true from there, Bool.or_true]
  | defer => exact present.imp_left fun pending => pending_defer.mpr (.inr pending)
  | mark declarations _ same =>
    rw [Pending, same, Graph.has, declarations]
    exact present

/-- What an event gives a name to is declared in the end. -/
theorem Runs.present {fits : Graph → Event → Prop} {late : List Event}
    (run : Runs fits desk (event :: late) after) (subject : event.subject? = some name)
    (done : after.due = []) (nothing : after.registry.waiting = []) :
    after.registry.graph.has name = true := by
  cases run with
  | @cons _ between _ _ _ step _ rest =>
    have start : between.Pending name ∨ between.registry.graph.has name = true := by
      cases step with
      | declare registry own type =>
        obtain rfl := Option.some.inj subject
        rw [graph_enter, Graph.has_enter, BEq.rfl, Bool.true_or]
        exact .inr rfl
      | defer registry tag own =>
        obtain rfl := Option.some.inj subject
        exact .inl (pending_defer.mpr (.inl BEq.rfl))
      | wake | mark => cases subject
    refine (rest.keeps (P := fun desk => desk.Pending name ∨ desk.registry.graph.has name = true)
      (fun _ step _ => step.present) start).resolve_left ?_
    rintro (⟨tag, names, own, found, -⟩ | ⟨due, member, -⟩)
    · rw [nothing] at found
      cases found
    · rw [done] at member
      cases member

end Desk

/-- The entry of a name in the end is what an event gives it: the type that is declared, or an alias of
what is declared later under the tag. -/
def Event.Prevails (event : Event) (late : List Event) (graph : Graph) : Prop :=
  match event with
  | .declare name type number => graph.find? name = some (type.numbered number)
  | .defer tag name => ∃ early declared rest own item number, late = early ++ declared :: rest ∧
    declared.entry? = some (own, item) ∧ (own == tag) = true ∧
      graph.find? name = some ((Registry.aliasOf name item).numbered number)
  | .wake _ _ | .mark => True

section
variable {σ : Type} {header : Path} {oracle : Layout.Oracle σ} {nodes : List Json}

/-- The events of the nodes lead to a graph. A name that some node gives is there once. What the last
such event gives it prevails if no typedef of the name was pending; one that was pending overtakes the
declaration of a node. -/
def LaterWins (header : Path) (oracle : Layout.Oracle σ) (nodes : List Json) (state : σ) (graph : Graph) :
    Prop :=
  ∃ events last session, Chronicle header oracle none false (opening state) nodes events last session ∧
    session.graph = graph ∧
      ∀ early own late name, events = early ++ own :: late → own.subject? = some name →
        graph.names.countP (· == name) = 1 ∧
          ((∀ event ∈ late, ∀ other, event.subject? = some other → (other == name) = false) →
            ∃ desk, Desk.Runs (FitsIn oracle nodes none) { registry := (opening state).registry } early desk ∧
              (¬ desk.Pending name → own.Prevails late graph) ∧
                (desk.Pending name → ∀ type number, own = .declare name type number →
                  ¬ own.Prevails late graph))

theorem resolve_distinct {state : σ} {graph : Graph}
    (resolved : ((resolve header oracle nodes).runOn { oracle := state }).1 = .ok graph) : graph.Distinct := by
  rw [resolve_gives oracle header nodes _ graph resolved]
  have advances : Advances (resolve header oracle nodes) { oracle := state } :=
    resolve_advances oracle header nodes
  have ends := (advances Graph.sound_empty).mono (fun _ _ ends => ends.1) fun _ _ leads => leads
  exact ends.after.distinct List.Pairwise.nil

theorem resolve_later_wins {state : σ} {graph : Graph}
    (resolved : ((resolve header oracle nodes).runOn { oracle := state }).1 = .ok graph) :
    LaterWins header oracle nodes state graph := by
  have distinct : graph.Distinct := resolve_distinct resolved
  obtain ⟨events, last, session, chronicle, rfl, nothing⟩ := resolve_chronicle resolved
  refine ⟨events, last, session, chronicle, rfl, fun early own late name cut subject => ?_⟩
  subst cut
  obtain ⟨desk, before, after⟩ := chronicle.runs.split
  refine ⟨Table.countP_keys distinct (after.present subject rfl nothing), fun others => ?_⟩
  refine ⟨desk, before, ?_⟩
  cases own with
  | wake | mark => cases subject
  | declare other type number =>
    obtain rfl := Option.some.inj subject
    have fresh : type.serial = none := by
      cases after with
      | cons _ fit _ =>
        obtain ⟨node, -, following, -, builds⟩ := fit
        exact Builds.fresh builds
    have prevails := after.declared others fresh rfl nothing
    refine ⟨prevails.mpr, ?_⟩
    rintro pending _ _ ⟨⟩ wins
    exact prevails.mp wins pending
  | defer tag other =>
    obtain rfl := Option.some.inj subject
    exact ⟨fun idle => after.deferred others idle rfl nothing, nofun⟩

/-- A typedef that waits for a record, an enum of another name, and the record. -/
theorem resolve_later_wins_dot :
    ∃ graph, ((resolve { parts := ["a.h"] } (answering outerAnswers) [typedefNode "dot" "struct point",
        .obj [("kind", .str "EnumDecl"), ("name", .str "tint")],
        recordNode "point" [fieldNode "x" "int"]]).runOn { oracle := () }).1 = .ok graph ∧
      LaterWins { parts := ["a.h"] } (answering outerAnswers) [typedefNode "dot" "struct point",
        .obj [("kind", .str "EnumDecl"), ("name", .str "tint")],
        recordNode "point" [fieldNode "x" "int"]] () graph := by
  have fine : ((resolve { parts := ["a.h"] } (answering outerAnswers) [typedefNode "dot" "struct point",
      .obj [("kind", .str "EnumDecl"), ("name", .str "tint")],
      recordNode "point" [fieldNode "x" "int"]]).runOn { oracle := () }).1.isOk = true := by
    decide +kernel
  obtain ⟨graph, after, run⟩ := runs_of_isOk fine
  have resolved := congrArg (·.1) run
  exact ⟨graph, resolved, resolve_later_wins resolved⟩

/-- The enum is the last to be called `dot`, and the typedef before it takes its place. -/
theorem resolve_later_overtaken :
    let tint : Json := .obj [("kind", .str "EnumDecl"), ("name", .str "dot")]
    let point := recordNode "point" [fieldNode "x" "int"]
    let resolved (nodes : List Json) := ((resolve { parts := ["a.h"] } (answering outerAnswers)
      nodes).runOn { oracle := () }).1.toOption.map fun graph =>
        (graph.names.drop (Seed.sow {}).names.length, (graph.find? (.str "dot")).map CType.kind)
    resolved [typedefNode "dot" "struct point", tint, point] =
        some ([.str "point", .str "dot"], some "alias") ∧
      resolved [point, typedefNode "dot" "struct point", tint] =
        some ([.str "point", .str "dot"], some "enum") := by
  decide +kernel

end

end Resolve

end NativeBindings
