import NativeBindings.Proofs.Resolve.History
import NativeBindings.Proofs.Resolve.References

/-!
A resolution goes from one sound graph to the next: whatever it declares is made of nodes that are
declared. So every graph on its way is closed, unless a declaration was given up.
-/
namespace NativeBindings.Resolve

open Json Act Outcome

section
variable {base : Graph} {done : List Turn} {name : Label} {type : CType} {field : Field CType}

/-- After some turns all graphs on the way were sound, and led to the last one. -/
def Onward (base : Graph) (done : List Turn) : Prop :=
  ∀ early, early <+: done → (replay base early).Sound ∧ (replay base early).Leads (replay base done)

theorem Onward.sound (onward : Onward base done) : (replay base done).Sound :=
  (onward done (List.prefix_refl _)).1

/-- What was seen once is made of nodes that are still declared, unless a declaration was given up. -/
theorem Seen.covers (seen : Seen base done type) (onward : Onward base done)
    (unbroken : (replay base done).Unbroken) : Covers (replay base done).declarations type := by
  obtain ⟨early, before, found⟩ := seen
  obtain ⟨sound, leads⟩ := onward early before
  obtain ⟨whole, longer⟩ := leads.unbroken sound unbroken
  exact (found.covers (sound.orderly whole)).mono longer.subset

theorem Formed.covers (formed : Formed base done field) (onward : Onward base done)
    (unbroken : (replay base done).Unbroken) : CoversField (replay base done).declarations field.type := by
  refine formed.type.imp (fun seen => seen.covers onward unbroken) ?_
  rintro ⟨size, variants, same, inside⟩
  exact ⟨size, variants, same, fun variant member => (inside variant member).2.covers onward unbroken⟩

theorem Justified.fits (justified : Justified base done name type) (onward : Onward base done)
    (unbroken : (replay base done).Unbroken) : (replay base done).Fits name type := by
  have covers {target : CType} (seen : Seen base done target) :
      Covers (replay base done).declarations target := seen.covers onward unbroken
  cases justified with
  | builtin => exact ⟨rfl, rfl, trivial⟩
  | enum keyed => exact ⟨rfl, rfl, keyed⟩
  | record lays answered formed =>
    exact ⟨rfl, rfl, fun field member => (formed field member).covers onward unbroken⟩
  | synonym seen => exact ⟨rfl, rfl, covers seen⟩
  | pointer seen => exact ⟨rfl, rfl, fun target same => covers (seen target same)⟩
  | signature returns takes =>
    exact ⟨rfl, rfl, covers returns, fun parameter member => covers (takes parameter member)⟩
  | callback returns takes =>
    exact ⟨rfl, rfl, covers returns, fun parameter member => covers (takes parameter member)⟩

theorem enter_leads {graph : Graph} (fits : graph.Sound → graph.Unbroken → graph.Fits name type) :
    graph.Leads (graph.enter (name, type)) := by
  cases found : graph.find? name with
  | some old =>
    have present : graph.has name = true := Option.isSome_iff_exists.mpr ⟨old, found⟩
    exact .single ⟨.replace graph name type present, fun sound => sound.replace present⟩
  | none =>
    have same : graph.remove name = graph := by
      rw [Graph.remove, show Table.erase name graph.declarations = graph.declarations from
        Table.erase_of_absent found]
    have entered : graph.enter (name, type) = graph.assign name type := by rw [Graph.enter, same]
    rw [entered]
    exact .single ⟨.assign graph name type, fun sound => sound.assign (fits sound)⟩

end

section
variable {base : Graph} {done : List Turn}

theorem Onward.concat (onward : Onward base done) {turn : Turn}
    (leads : (replay base done).Leads (turn.apply (replay base done))) : Onward base (done ++ [turn]) := by
  rw [← replay_concat] at leads
  intro early before
  obtain rfl | before := List.prefix_concat_iff.mp before
  · exact ⟨leads.sound onward.sound, .refl _⟩
  · exact ⟨(onward early before).1, (onward early before).2.trans leads⟩

theorem History.onward {σ : Type} {outset : Outset σ} {now : σ} (history : History outset done now)
    (sound : outset.graph.Sound) : Onward outset.graph done := by
  induction history with
  | nil =>
    intro early before
    obtain rfl := List.prefix_nil.mp before
    exact ⟨sound, .refl _⟩
  | asked past query ih => exact ih.concat (.refl _)
  | sown past keyed justified ih =>
    exact ih.concat (.single ⟨.assign .., fun sound => sound.assign (justified.fits ih)⟩)
  | declared past keyed justified ih => exact ih.concat (enter_leads fun _ => justified.fits ih)
  | marked past pointers callbacks ih =>
    exact ih.concat (.single ⟨.mark rfl rfl, fun sound => sound.mark rfl rfl⟩)

end

section
variable {σ α : Type} {session : Session σ}

/-- From a sound graph an act leads to other sound ones, and its result is as it should be unless a
declaration was given up. -/
def Keeps (value : Graph → α → Prop) (act : Resolving σ α) (session : Session σ) : Prop :=
  session.graph.Sound →
    Ends (fun result after => session.graph.Leads after.graph ∧
        (after.graph.Unbroken → value after.graph result))
      (fun _ after => session.graph.Leads after.graph) act session

/-- An act of whose result nothing is said. -/
abbrev Advances (act : Resolving σ α) (session : Session σ) : Prop := Keeps (fun _ _ => True) act session

/-- A graph stays unbroken just as long as no name is declared twice. -/
theorem Registry.declare_unbroken {registry : Registry} {name : Label} {type : CType}
    (sound : registry.graph.Sound) :
    (registry.declare name type).1.graph.Unbroken ↔
      registry.graph.Unbroken ∧ registry.graph.has name = false := by
  cases found : registry.graph.find? name with
  | some old =>
    have present : registry.graph.has name = true := Option.isSome_iff_exists.mpr ⟨old, found⟩
    rw [Registry.declare, found, present]
    exact ⟨fun unbroken => absurd unbroken (Graph.replace_broken sound.counted present),
      fun fresh => nomatch fresh.2⟩
  | none =>
    have absent : registry.graph.has name = false := by
      rw [Graph.has, Table.has, show Table.find? name registry.graph.declarations = none from found]
      rfl
    rw [Registry.declare, found]
    constructor
    · intro unbroken
      exact ⟨(Graph.assign_unbroken sound.counted unbroken).2, absent⟩
    · rintro ⟨unbroken, -⟩
      rw [Graph.Unbroken, Graph.declarations_assign absent, List.length_append, ← unbroken]
      rfl

end

theorem sow_leads {graph : Graph} (sound : graph.Sound) : graph.Leads (Seed.sow graph) := by
  let outset : Outset Unit := { oracle := fun _ state => (.ok .null, [], state), state := (), graph }
  have sows : Sows outset () [] (Seed.sow graph) := sow_sows ⟨[], .nil, rfl⟩
  obtain ⟨done, history, same⟩ := sows
  rw [same]
  exact (history.onward sound [] List.nil_prefix).2

section
variable {σ : Type} (oracle : Layout.Oracle σ) {session : Session σ}

theorem resolve_advances (header : Path) (nodes : List Json) :
    Advances (resolve header oracle nodes) session := by
  intro sound
  obtain ⟨done, history, same⟩ := resolve_history oracle header nodes session
  have leads := (history.onward sound [] List.nil_prefix).2
  rw [replay, List.foldl_nil, ← same] at leads
  exact ends_iff.mpr ⟨fun _ _ => ⟨leads, fun _ => trivial⟩, fun _ _ => leads⟩

/-- What a resolution gives is the graph it ends with. -/
theorem resolve_gives (header : Path) (nodes : List Json) (session : Session σ) :
    ∀ graph, ((resolve header oracle nodes).runOn session).1 = .ok graph →
      graph = ((resolve header oracle nodes).runOn session).2.graph := by
  have ends : Ends (fun result after => result = Session.graph after) (fun _ _ => True)
      (resolve header oracle nodes) session := by
    refine ends_timed fun begun => ?_
    refine ends_bind_any (fun _ sown => ends_bind_any (fun _ after => ?_) ?_) ?_
    · rw [ends_bind, ends_get]
      dsimp only
      split
      · refine ends_bind_any (fun fault later => ?_) fun _ _ _ => trivial
        exact fun _ => trivial
      · exact fun _ => rfl
    · exact fun _ _ _ => trivial
    · exact fun _ _ _ => trivial
  exact (ends_iff.mp ends).1

/-- What a resolution gives is in order, unless the declaration of a name was given up. -/
theorem resolve_orderly {header : Path} {nodes : List Json} {graph : Graph}
    (sound : session.graph.Sound) (resolved : ((resolve header oracle nodes).runOn session).1 = .ok graph)
    (unbroken : graph.Unbroken) : Orderly graph.declarations := by
  have advances : Advances (resolve header oracle nodes) session := resolve_advances oracle header nodes
  have ends := (ends_iff.mp (advances sound)).1 graph resolved
  have last := ends.1.sound sound
  rw [← resolve_gives oracle header nodes session graph resolved] at last
  exact last.orderly unbroken

/-- Every graph on the way of a resolution, to success or to a fault, is closed and acyclic, unless
the declaration of a name was given up by then. -/
theorem resolve_closes_references (header : Path) (nodes : List Json) (state : σ) :
    ∃ path : List Graph, path.IsChain Graph.Step ∧ path.head? = some {} ∧
      path.getLast? = some ((resolve header oracle nodes).runOn { oracle := state }).2.graph ∧
      (∀ graph ∈ path, graph.Unbroken →
        graph.Closed ∧ ∀ type, ¬ Relation.TransGen graph.Refers type type) ∧
      ∀ graph, ((resolve header oracle nodes).runOn { oracle := state }).1 = .ok graph →
        graph = ((resolve header oracle nodes).runOn { oracle := state }).2.graph := by
  have leads : Graph.Leads {} ((resolve header oracle nodes).runOn { oracle := state }).2.graph := by
    have advances : Advances (resolve header oracle nodes) { oracle := state } :=
      resolve_advances oracle header nodes
    have ends := (advances Graph.sound_empty).mono (fun _ _ ends => ends.1) fun _ _ leads => leads
    exact ends.after
  obtain ⟨path, chain, head, last, sounds⟩ := leads.path Graph.sound_empty
  refine ⟨path, chain, head, last, fun graph member unbroken => ?_, resolve_gives oracle header nodes _⟩
  have closed := Graph.closed_of_orderly ((sounds graph member).orderly unbroken)
  exact ⟨closed, closed.acyclic⟩

end

example :
    let answers : Layout.Oracle Unit := fun _ state => (.ok (.int 4), [], state)
    let color : Json := .obj [("kind", .str "EnumDecl"), ("name", .str "Color")]
    let tint : Json := .obj [("kind", .str "TypedefDecl"), ("name", .str "Tint"),
      ("type", .obj [("qualType", .str "enum Color")])]
    let run := (resolve { parts := ["paint.h"] } answers [color, tint]).runOn { oracle := () }
    run.2.graph.issued = 44 ∧ run.2.graph.names.drop 42 = [.str "Color", .str "Tint"] := by
  decide +kernel

end NativeBindings.Resolve
