import NativeBindings.Proofs.Resolve.Announce
import NativeBindings.Proofs.Resolve.Views
import NativeBindings.Proofs.Straight

/-!
Two resolutions of the same nodes, side by side. They differ in what their oracles hold, in what waits
for a declaration and in how far their graphs look the same, and stay alike on the way as long as the
first one keeps a promise.
-/
namespace NativeBindings.Resolve

open Json Act

/-- How two graphs look the same, and go on to do so. -/
structure Outlook where
  view : CType.View
  graphs : Graph → Graph → Prop
  refl : ∀ graph, graphs graph graph
  sees : ∀ {graph graph'}, graphs graph graph' → Sees view graph graph'
  numbered : ∀ {graph graph'} {type type' : CType}, graphs graph graph' →
    view.look type = view.look type' →
      view.look (type.numbered graph.issued) = view.look (type'.numbered graph'.issued)
  enter : ∀ {graph graph'} name {type type' : CType}, graphs graph graph' →
    view.look type = view.look type' → graphs (graph.enter (name, type)) (graph'.enter (name, type'))
  addPointer : ∀ {graph graph'} name, graphs graph graph' →
    graphs (graph.addPointer name) (graph'.addPointer name)
  addCallback : ∀ {graph graph'} name, graphs graph graph' →
    graphs (graph.addCallback name) (graph'.addCallback name)

/-- The declared type comes last through any view. -/
theorem seen_enter (view : CType.View) (graph : Graph) (name : Label) (type : CType) :
    ((graph.enter (name, type)).seen view).declarations =
      Table.erase name (graph.seen view).declarations ++
        [(name, view.look (type.numbered graph.issued))] := by
  rw [Graph.seen, declarations_enter, List.map_append, Graph.seen, Table.erase, Table.erase,
    List.filter_map]
  rfl

/-- Graphs that differ in the detours of their aliases. -/
def Outlook.straight : Outlook where
  view := .straight
  graphs graph graph' := graph.straight = graph'.straight
  refl _ := rfl
  sees same := sees_of_seen same
  numbered {graph graph' type type'} same looks := by
    have issued := congrArg Graph.issued same
    change graph.issued = graph'.issued at issued
    change (type.numbered graph.issued).straight = (type'.numbered graph'.issued).straight
    rw [CType.straight_numbered, CType.straight_numbered, issued]
    exact congrArg (CType.numbered _) looks
  enter {graph graph'} name {type type'} same looks := by
    have entered (graph : Graph) (type : CType) : (graph.enter (name, type)).straight =
        Graph.mk (Table.erase name graph.straight.declarations ++
            [(name, type.straight.numbered graph.straight.issued)])
          graph.straight.pointers graph.straight.callbacks (graph.straight.issued + 1) := by
      rw [← CType.straight_numbered]
      exact congrArg (Graph.mk · _ _ _) (seen_enter .straight graph name type)
    rw [entered, entered, same]
    exact congrArg (fun type => Graph.mk (_ ++ [(name, CType.numbered _ type)]) _ _ _) looks
  addPointer name same := congrArg (·.addPointer name) same
  addCallback name same := congrArg (·.addCallback name) same

/-- What two sessions may differ in, and the promise on the first one. A promise that is kept at an
end was kept all the way. -/
structure Mirror (σ τ : Type) where
  outlook : Outlook := .straight
  /-- States in which the two oracles answer alike. -/
  tuned : σ → τ → Prop
  waits : Waiting → Waiting → Prop
  fine : σ → Prop
  clear : Table Label CType → Waiting → Prop
  /-- Where the current file may come from. -/
  place : Origin.Includer → Prop
  /-- For which tag which typedef may come to wait. -/
  defers : Label → Label → Prop := fun _ _ => True
  /-- Whether what fails on the first side fails on the second. -/
  strict : Prop

namespace Mirror

section
variable {σ τ α β γ δ : Type} (m : Mirror σ τ)

/-- How types look on the two sides. -/
abbrev look : CType → CType := m.outlook.view.look

def Good (session : Session σ) : Prop :=
  m.fine session.oracle ∧ m.clear session.registry.graph.declarations session.registry.waiting

structure Like (session : Session σ) (other : Session τ) : Prop where
  graph : m.outlook.graphs session.registry.graph other.registry.graph
  waiting : m.waits session.registry.waiting other.registry.waiting
  owners : session.owners = other.owners
  includer : session.includer = other.includer
  place : m.place session.includer
  oracle : m.tuned session.oracle other.oracle

/-- Ends of two acts: values that look the same, in like sessions, or the same fault. -/
def Alike (view : α → β) : Except Fault α × Session σ → Except Fault α × Session τ → Prop
  | (.ok value, after), (.ok value', after') => view value = view value' ∧ m.Like after after'
  | (.ok _, _), (.error _, _) => False
  | (.error fault, _), (outcome, _) => m.strict → outcome = .error fault

/-- Acts that lead from like sessions to like ends. -/
def Mirrors (view : α → β) (act : Resolving σ α) (other : Resolving τ α) : Prop :=
  ∀ session, m.Good (act.runOn session).2 →
    m.Good session ∧ ∀ session', m.Like session session' →
      m.Alike view (act.runOn session) (other.runOn session')

/-- What two resolutions owe, to stay alike. -/
structure Faithful (oracle : Layout.Oracle σ) (oracle' : Layout.Oracle τ) : Prop where
  ask : ∀ query, m.Mirrors id (Resolve.ask oracle query) (Resolve.ask oracle' query)
  register : ∀ {type type'} name, Declarable name type → m.look type = m.look type' →
    m.Mirrors m.look (Resolve.register name type) (Resolve.register name type')
  defer : ∀ tag name, m.defers tag name →
    m.Mirrors id
      (modify fun session => { session with registry := session.registry.defer tag name } :
        Resolving σ Unit)
      (modify fun session => { session with registry := session.registry.defer tag name })

/-- What the oracles and the promise owe, where the same typedefs wait for what is declared. -/
structure Steady (oracle : Layout.Oracle σ) (oracle' : Layout.Oracle τ) : Prop where
  ask : ∀ query, m.Mirrors id (Resolve.ask oracle query) (Resolve.ask oracle' query)
  declare : ∀ (graph : Graph) waiting name type,
    m.clear (graph.enter (name, type)).declarations waiting → m.clear graph.declarations waiting
  release : ∀ declarations waiting name, Table.has name declarations = true →
    m.clear declarations (Table.erase name waiting) → m.clear declarations waiting ∧
      ∀ waiting', m.waits waiting waiting' → Table.find? name waiting = Table.find? name waiting' ∧
        m.waits (Table.erase name waiting) (Table.erase name waiting')
  defer : ∀ declarations waiting tag name names,
    m.clear declarations (Table.insert tag (names ++ [name]) waiting) → m.clear declarations waiting ∧
      ∀ waiting', m.waits waiting waiting' → Table.find? tag waiting = Table.find? tag waiting' ∧
        m.waits (Table.insert tag (names ++ [name]) waiting)
          (Table.insert tag (names ++ [name]) waiting')

end

section
variable {σ τ α β γ δ : Type} {m : Mirror σ τ} {view : α → β}

/-- What is done after like ends is like where it is like from every value on. -/
theorem Alike.then {seen : γ → δ} {first : Resolving σ γ} {first' : Resolving τ γ}
    {next : γ → Resolving σ α} {next' : γ → Resolving τ α} {session : Session σ} {session' : Session τ}
    (alike : m.Alike seen (first.runOn session) (first'.runOn session'))
    (rest : ∀ value middle value' middle', first.runOn session = (.ok value, middle) →
      seen value = seen value' → m.Like middle middle' →
        m.Alike view ((next value).runOn middle) ((next' value').runOn middle')) :
    m.Alike view ((first >>= next).runOn session) ((first' >>= next').runOn session') := by
  rw [runOn_bind, runOn_bind]
  generalize first.runOn session = ended at alike rest ⊢
  generalize first'.runOn session' = ended' at alike ⊢
  obtain ⟨outcome, middle⟩ := ended
  obtain ⟨outcome', middle'⟩ := ended'
  cases outcome with
  | error fault =>
    intro strict
    obtain rfl : outcome' = .error fault := alike strict
    rfl
  | ok value =>
    cases outcome' with
    | error fault => exact alike.elim
    | ok value' => exact rest value middle value' middle' rfl alike.1 alike.2

theorem Mirrors.then {seen : γ → δ} {first : Resolving σ γ} {first' : Resolving τ γ}
    {next : γ → Resolving σ α} {next' : γ → Resolving τ α} (mirrors : m.Mirrors seen first first')
    (rest : ∀ value value', seen value = seen value' →
      m.Mirrors view (next value) (next' value')) :
    m.Mirrors view (first >>= next) (first' >>= next') := by
  intro session good
  have before := mirrors session
  rw [runOn_bind] at good
  have reached : m.Good (first.runOn session).2 := by
    generalize first.runOn session = ended at good ⊢
    obtain ⟨outcome, middle⟩ := ended
    cases outcome with
    | error fault => exact good
    | ok value => exact (rest value value rfl middle good).1
  refine ⟨(before reached).1, fun session' like => ?_⟩
  refine Alike.then ((before reached).2 session' like) fun value middle value' middle' run same like => ?_
  rw [run] at good
  exact (rest value value' same middle good).2 middle' like

theorem mirrors_pure {value value' : α} (same : view value = view value') :
    m.Mirrors view (pure value) (pure value') :=
  fun _ good => ⟨good, fun _ like => ⟨same, like⟩⟩

theorem mirrors_throw (fault : Fault) :
    m.Mirrors view (throw fault : Resolving σ α) (throw fault) :=
  fun _ good => ⟨good, fun _ _ _ => rfl⟩

theorem mirrors_throw_then (fault : Fault) {next : γ → Resolving σ α} {next' : γ → Resolving τ α} :
    m.Mirrors view ((throw fault : Resolving σ γ) >>= next) ((throw fault : Resolving τ γ) >>= next') :=
  fun _ good => ⟨good, fun _ _ _ => rfl⟩

/-- What a computation finds on the two sides. -/
theorem mirrors_found_then {seen : γ → δ} {outcome outcome' : Except Fault γ}
    {next : γ → Resolving σ α} {next' : γ → Resolving τ α}
    (same : outcome.map seen = outcome'.map seen)
    (rest : ∀ value value', outcome = .ok value → seen value = seen value' →
      m.Mirrors view (next value) (next' value')) :
    m.Mirrors view (liftM outcome >>= next) (liftM outcome' >>= next') := by
  cases outcome with
  | error fault =>
    cases outcome' with
    | error fault' =>
      obtain rfl := Except.error.inj same
      exact mirrors_throw_then fault
    | ok value' => cases same
  | ok value =>
    cases outcome' with
    | error fault' => cases same
    | ok value' => exact rest value value' rfl (Except.ok.inj same)

theorem mirrors_lift_then {outcome : Except Fault γ} {next : γ → Resolving σ α}
    {next' : γ → Resolving τ α}
    (rest : ∀ value, outcome = .ok value → m.Mirrors view (next value) (next' value)) :
    m.Mirrors view (liftM outcome >>= next) (liftM outcome >>= next') := by
  cases outcome with
  | error fault => exact mirrors_throw_then fault
  | ok value => exact rest value rfl

theorem mirrors_graph_then {next : Graph → Resolving σ α} {next' : Graph → Resolving τ α}
    (rest : ∀ graph graph' : Graph, m.outlook.graphs graph graph' →
      m.Mirrors view (next graph) (next' graph')) :
    m.Mirrors view (graph >>= next) (graph >>= next') := by
  intro session good
  have kept := (rest _ _ (m.outlook.refl _) session good).1
  exact ⟨kept, fun session' like => (rest _ _ like.graph session good).2 session' like⟩

/-- What an act reads of a session beside the graph are the owners. -/
theorem mirrors_get_then [Nonempty τ] {next : Session σ → Resolving σ α}
    {next' : Session τ → Resolving τ α}
    (rest : ∀ session session', session.owners = session'.owners →
      m.Mirrors view (next session) (next' session')) :
    m.Mirrors view (get >>= next) (get >>= next') := by
  intro session good
  obtain ⟨state⟩ : Nonempty τ := inferInstance
  have kept := (rest session { owners := session.owners, oracle := state } rfl session good).1
  exact ⟨kept, fun session' like => (rest session session' like.owners session good).2 session' like⟩

theorem mirrors_note (journal journal' : Journal) :
    m.Mirrors id (note journal : Resolving σ Unit) (note journal') :=
  fun _ good => ⟨good, fun _ like =>
    ⟨rfl, like.graph, like.waiting, like.owners, like.includer, like.place, like.oracle⟩⟩

theorem mirrors_forM {step : γ → Resolving σ Unit} {step' : γ → Resolving τ Unit}
    (steps : ∀ item, m.Mirrors id (step item) (step' item)) (items : List γ) :
    m.Mirrors id (items.forM step) (items.forM step') := by
  induction items with
  | nil => exact mirrors_pure rfl
  | cons item rest ih => exact (steps item).then fun _ _ _ => ih

end

section
variable {σ τ α β : Type} {m : Mirror σ τ} {oracle : Layout.Oracle σ} {oracle' : Layout.Oracle τ}
  {name : Label} {type type' : CType} {graph graph' : Graph}

theorem has_enter (graph : Graph) (name : Label) (type : CType) :
    Table.has name (graph.enter (name, type)).declarations = true := by
  rw [Table.has, Graph.enter, Graph.assign, Table.find?_insert_self]
  rfl

theorem aliasOf_alike {view : CType.View} (name : Label) (same : view.look type = view.look type') :
    view.look (Registry.aliasOf name type) = view.look (Registry.aliasOf name type') := by
  rw [Registry.aliasOf, Registry.aliasOf, CType.View.same_size same]
  exact CType.View.same_alias same _

variable (steady : m.Steady oracle oracle') (same : m.look type = m.look type')
include steady same

theorem declare_mirrors (name : Label) :
    m.Mirrors m.look (declare name type) (declare name type') := by
  intro session good
  cases keyed : name.asKey with
  | error fault =>
    rw [declare_unkeyed keyed] at good ⊢
    refine ⟨good, fun session' _ => ?_⟩
    rw [declare_unkeyed keyed]
    exact fun _ => rfl
  | ok key =>
    obtain ⟨told, run⟩ := declare_runOn keyed type session
    rw [run] at good ⊢
    refine ⟨⟨good.1, steady.declare _ _ name type good.2⟩, fun session' like => ?_⟩
    obtain ⟨told', run'⟩ := declare_runOn keyed type' session'
    rw [run']
    exact ⟨m.outlook.numbered like.graph same,
      ⟨m.outlook.enter name like.graph same, like.waiting, like.owners, like.includer, like.place, like.oracle⟩⟩

theorem announce_mirrors (name : Label) :
    m.Mirrors (fun announced => (m.look announced.1, announced.2)) (announce name type)
      (announce name type') := by
  intro session good
  cases keyed : name.asKey with
  | error fault =>
    rw [announce_unkeyed keyed] at good ⊢
    refine ⟨good, fun session' _ => ?_⟩
    rw [announce_unkeyed keyed]
    exact fun _ => rfl
  | ok key =>
    obtain ⟨told, run⟩ := announce_runOn keyed type session
    rw [run] at good ⊢
    have cleared := steady.release _ _ name (has_enter session.graph name type) good.2
    refine ⟨⟨good.1, steady.declare _ _ name type cleared.1⟩, fun session' like => ?_⟩
    obtain ⟨told', run'⟩ := announce_runOn keyed type' session'
    obtain ⟨taken, left⟩ := cleared.2 _ like.waiting
    rw [run']
    exact ⟨Prod.ext (m.outlook.numbered like.graph same) (congrArg (·.getD []) taken),
      ⟨m.outlook.enter name like.graph same, left, like.owners, like.includer, like.place, like.oracle⟩⟩

theorem registerWith_mirrors (fuel : Nat) (name : Label) :
    m.Mirrors m.look (registerWith fuel name type) (registerWith fuel name type') := by
  induction fuel generalizing name type type' with
  | zero => exact declare_mirrors steady same name
  | succ fuel ih =>
    rw [registerWith_succ, registerWith_succ]
    refine (announce_mirrors steady same name).then fun (item, waiters) (item', waiters') alike => ?_
    obtain ⟨items, rfl⟩ := Prod.mk.inj alike
    refine (mirrors_forM (fun waiter => ?_) waiters).then fun _ _ _ => mirrors_pure items
    refine (mirrors_note _ _).then fun _ _ _ => ?_
    exact (ih (aliasOf_alike waiter items) waiter).then fun _ _ _ => mirrors_pure rfl

omit steady same in
/-- A registration needs no more fuel than there is. -/
theorem register_mirrors_of (name : Label)
    (mirrors : ∀ fuel, m.Mirrors m.look (registerWith fuel name type) (registerWith fuel name type')) :
    m.Mirrors m.look (register name type) (register name type') := by
  intro session good
  have alike (fuel : Nat) (enough : count session.registry.waiting < fuel) :
      m.Good session ∧ ∀ session', m.Like session session' → m.Alike m.look
        ((register name type).runOn session) ((registerWith fuel name type').runOn session') := by
    rw [register_runOn enough] at good ⊢
    exact mirrors fuel session good
  refine ⟨(alike _ (Nat.lt_succ_self _)).1, fun session' like => ?_⟩
  let fuel := max (count session.registry.waiting) (count session'.registry.waiting) + 1
  have ends := (alike fuel (by omega)).2 session' like
  rw [register_runOn (show count session'.registry.waiting < fuel by omega)]
  exact ends

omit same in
theorem Steady.faithful : m.Faithful oracle oracle' where
  ask := steady.ask
  register name _ same := register_mirrors_of name (registerWith_mirrors steady same · name)
  defer tag name _ := by
    intro session good
    have deferred := steady.defer _ _ tag name _ good.2
    refine ⟨⟨good.1, deferred.1⟩, fun session' like => ⟨rfl, like.graph, ?_, like.owners, like.includer,
      like.place, like.oracle⟩⟩
    have waits := deferred.2 _ like.waiting
    have names : (Table.find? tag session.registry.waiting).getD [] ++ [name] =
        (Table.find? tag session'.registry.waiting).getD [] ++ [name] := by rw [waits.1]
    exact Eq.subst (motive := fun names => m.waits _ (Table.insert tag names _)) names waits.2

end

section
variable {σ τ α β : Type} {m : Mirror σ τ} {oracle : Layout.Oracle σ} {oracle' : Layout.Oracle τ}

theorem changeGraph_mirrors {change : Graph → Graph}
    (kept : ∀ graph, (change graph).declarations = graph.declarations)
    (alike : ∀ graph graph', m.outlook.graphs graph graph' →
      m.outlook.graphs (change graph) (change graph')) :
    m.Mirrors id (changeGraph change : Resolving σ Unit) (changeGraph change) := by
  intro session good
  have promise : m.clear (change session.graph).declarations session.registry.waiting := good.2
  rw [kept] at promise
  exact ⟨⟨good.1, promise⟩, fun session' like => ⟨rfl, alike _ _ like.graph, like.waiting, like.owners,
    like.includer, like.place, like.oracle⟩⟩

/-- Whether a node leaves the current file where it may be. -/
def Tracks (m : Mirror σ τ) (node : Json) : Prop :=
  ∀ includer, m.place includer → m.place ((Origin.trackNode node).runOn includer).2

/-- Whether a node, if it comes to wait, waits for what it may. -/
def Waits (m : Mirror σ τ) (node : Json) : Prop :=
  ∀ name spelling text, node.need "name" = .ok name → spellingOf node = .ok spelling →
    spelling.asText "strip" = .ok text → mayWait text = true →
      m.defers (.str (Spelling.normal text)) name

theorem waits_any (any : ∀ tag name, m.defers tag name) (node : Json) : m.Waits node :=
  fun _ _ _ _ _ _ _ => any _ _

/-- The filter leaves the current file where the places of the node lead. -/
theorem skips_place {P : Origin.Includer → Prop} {node : Json} {includer : Origin.Includer}
    (tracked : P ((Origin.trackNode node).runOn includer).2) (header : Path) (known : Label → Bool) :
    P ((Origin.skips header known node).runOn includer).2 := by
  have ends : Ends (fun _ => P) (fun _ => P) (Origin.skips header known node) includer := by
    refine ends_bind.mpr (ends_bind.mpr ?_)
    have start : Ends (fun _ => P) (fun _ => P) (Origin.trackNode node) includer := by
      rw [ends_iff]
      exact ⟨fun _ _ => tracked, fun _ _ => tracked⟩
    refine start.mono (fun _ after kept => ?_) fun _ _ kept => kept
    rw [ends_bind, ends_get, ends_lift]
    refine ⟨fun foreign _ => ?_, fun _ _ => kept⟩
    split
    · exact kept
    · exact (ends_lift _).mpr ⟨fun _ _ => kept, fun _ _ => kept⟩
  exact ends.after

theorem isSkipped_mirrors {node : Json} (tracks : m.Tracks node) (header : Path) :
    m.Mirrors id (isSkipped header node : Resolving σ Bool) (isSkipped header node) := by
  refine mirrors_graph_then fun graph graph' graphs => ?_
  rw [(m.outlook.sees graphs).has]
  have skips : m.Mirrors id
      (zoom Session.includer (fun (session : Session σ) includer => { session with includer })
        (Origin.skips header graph'.has node))
      (zoom Session.includer (fun (session : Session τ) includer => { session with includer })
        (Origin.skips header graph'.has node)) := by
    intro session good
    refine ⟨good, fun session' like => ?_⟩
    have place := skips_place (tracks _ (like.includer ▸ like.place)) header graph'.has
    unfold zoom
    rw [runOn_ofRun, runOn_ofRun, like.includer]
    generalize (Origin.skips header graph'.has node).runOn session'.includer = ended at place ⊢
    obtain ⟨outcome, includer⟩ := ended
    cases outcome with
    | error fault => exact fun _ => rfl
    | ok told => exact ⟨rfl, like.graph, like.waiting, like.owners, rfl, place, like.oracle⟩
  refine skips.then fun told _ same => ?_
  obtain rfl := same
  exact (mirrors_note _ _).then fun _ _ _ => mirrors_pure rfl

/-- A constant comes to belong to an enum. -/
theorem own_mirrors (name owner : Label) :
    m.Mirrors id
      (modify fun session => { session with owners := Table.insert name owner session.owners } :
        Resolving σ Unit)
      (modify fun session => { session with owners := Table.insert name owner session.owners }) := by
  intro session good
  refine ⟨good, fun session' like => ⟨rfl, like.graph, like.waiting, ?_, like.includer, like.place, like.oracle⟩⟩
  exact congrArg (Table.insert name owner) like.owners

theorem constants_mirrors [Nonempty τ] (owner : Label) (count : Option Int) (done : Table Label Constant)
    (nodes : List Json) :
    m.Mirrors id (constants owner count done nodes : Resolving σ (Table Label Constant))
      (constants owner count done nodes) := by
  induction nodes generalizing count done with
  | nil => exact mirrors_pure rfl
  | cons node rest ih =>
    refine mirrors_lift_then fun kind _ => ?_
    split
    · refine mirrors_lift_then fun name _ => mirrors_get_then fun session session' same => ?_
      rw [same]
      refine mirrors_lift_then fun pair _ => mirrors_lift_then fun key _ => ?_
      exact (own_mirrors key owner).then fun _ _ _ => ih _ _
    · exact ih count done

end

section
variable {σ τ α β : Type} {m : Mirror σ τ} {oracle : Layout.Oracle σ} {oracle' : Layout.Oracle τ}
  (faithful : m.Faithful oracle oracle')
include faithful

theorem registerAlias_mirrors (name : Label) {target target' : CType}
    (same : m.look target = m.look target') :
    m.Mirrors id (registerAlias name target) (registerAlias name target') := by
  unfold registerAlias
  rw [CType.View.same_name same]
  split
  · exact mirrors_note _ _
  · refine (faithful.register name (declarable_aliasOf name target) ?_).then fun _ _ _ => mirrors_pure rfl
    exact aliasOf_alike name same

theorem typedefOf_mirrors (name : Label) (spelling : String)
    (waits : mayWait spelling = true → m.defers (.str (Spelling.normal spelling)) name) :
    m.Mirrors id (typedefOf name spelling : Resolving σ Unit) (typedefOf name spelling) := by
  refine mirrors_graph_then fun graph graph' graphs => ?_
  have found := typeOf_alike (m.outlook.sees graphs) spelling
  generalize typeOf graph spelling = outcome at found
  generalize typeOf graph' spelling = outcome' at found
  cases outcome with
  | ok target =>
    cases outcome' with
    | ok target' => exact registerAlias_mirrors faithful name (Except.ok.inj found)
    | error fault => cases found
  | error fault =>
    cases outcome' with
    | ok target' => cases found
    | error fault' =>
      obtain rfl := Except.error.inj found
      cases fault with
      | unknownName unknown =>
        dsimp only
        split
        next may => exact (mirrors_note _ _).then fun _ _ _ => faithful.defer _ _ (waits may)
        next => exact mirrors_note _ _
      | _ => exact mirrors_throw _

theorem typedef_mirrors {node : Json} (waits : m.Waits node) :
    m.Mirrors id (typedef node : Resolving σ Unit) (typedef node) := by
  refine mirrors_lift_then fun name named => mirrors_lift_then fun spelling spelled => ?_
  refine mirrors_lift_then fun type _ => mirrors_lift_then fun declared _ => ?_
  split
  · refine mirrors_graph_then fun graph graph' graphs => mirrors_lift_then fun text _ => ?_
    refine mirrors_found_then ((m.outlook.sees graphs).find _) fun _ _ _ same => ?_
    exact registerAlias_mirrors faithful name same
  refine mirrors_lift_then fun prototype _ => ?_
  split
  · refine mirrors_graph_then fun graph graph' graphs => ?_
    refine mirrors_found_then (callback_alike (m.outlook.sees graphs) name _) fun _ _ made same => ?_
    refine (faithful.register name (callback_declarable made) same).then fun _ _ _ => ?_
    exact changeGraph_mirrors (fun _ => rfl) fun _ _ => m.outlook.addCallback name
  · refine mirrors_lift_then fun text known => mirrors_lift_then fun shape _ => ?_
    split
    · refine mirrors_graph_then fun graph graph' graphs => ?_
      refine mirrors_found_then (pointeeOf_alike (m.outlook.sees graphs) _) fun target target' _ same => ?_
      have declarable {isConst : Bool} : Declarable name
          (.pointer { name, size := CType.pointerSize } target isConst) := ⟨rfl, rfl, nofun⟩
      refine (faithful.register name declarable (m.outlook.view.same_pointer same _ _)).then fun _ _ _ => ?_
      exact changeGraph_mirrors (fun _ => rfl) fun _ _ => m.outlook.addPointer name
    · exact typedefOf_mirrors faithful name text (waits name spelling text named spelled known)

theorem function_mirrors (node : Json) :
    m.Mirrors id (function node : Resolving σ Unit) (function node) := by
  refine mirrors_lift_then fun name _ => mirrors_graph_then fun graph graph' graphs => ?_
  refine mirrors_found_then (signature_alike (m.outlook.sees graphs) name node) fun type type' made same => ?_
  refine mirrors_lift_then fun variadic _ => ?_
  have registers : m.Mirrors id (do let _ ← register name type) (do let _ ← register name type') :=
    (faithful.register name (signature_declarable made) same).then fun _ _ _ => mirrors_pure rfl
  dsimp only
  split
  · exact (mirrors_note _ _).then fun _ _ _ => registers
  · exact registers

theorem member_mirrors (layout : Label) (node : Json) :
    m.Mirrors m.outlook.view.field (member oracle layout node) (member oracle' layout node) := by
  refine mirrors_lift_then fun name _ => mirrors_graph_then fun graph graph' graphs => ?_
  refine mirrors_found_then (spelledType_alike (m.outlook.sees graphs) node) fun type type' _ same => ?_
  refine (faithful.ask _).then fun offset offset' offsets => mirrors_pure ?_
  rw [CType.View.field, CType.View.field, same, CType.View.same_size same,
    show offset = offset' from offsets]

theorem namedUnion_mirrors (layout name : Label) (node : Json) :
    m.Mirrors m.outlook.view.field (namedUnion oracle layout name node)
      (namedUnion oracle' layout name node) := by
  refine mirrors_lift_then fun tag _ => ?_
  dsimp only
  split
  · exact mirrors_throw _
  refine mirrors_graph_then fun graph graph' graphs => mirrors_lift_then fun inner _ => ?_
  refine mirrors_lift_then fun items _ => ?_
  refine mirrors_found_then (variants_alike (m.outlook.sees graphs) items) fun inside inside' _ same => ?_
  refine (faithful.ask _).then fun offset _ offsets => (faithful.ask _).then fun size _ sizes => ?_
  obtain rfl := offsets
  obtain rfl := sizes
  refine mirrors_pure ?_
  rw [CType.View.field, CType.View.field, m.outlook.view.same_union same]
  rfl

omit faithful in
/-- A field before other fields. -/
theorem cons_mirrors {first : Resolving σ (Field CType)} {first' : Resolving τ (Field CType)}
    {rest : Resolving σ (List (Field CType))} {rest' : Resolving τ (List (Field CType))}
    (field : m.Mirrors m.outlook.view.field first first')
    (fields : m.Mirrors (List.map m.outlook.view.field) rest rest') :
    m.Mirrors (List.map m.outlook.view.field) (do return (← first) :: (← rest))
      (do return (← first') :: (← rest')) := by
  refine field.then fun one one' same => fields.then fun others others' alike => mirrors_pure ?_
  exact congrArg₂ List.cons same alike

omit faithful in
/-- Fields before other fields. -/
theorem append_mirrors {first rest : Resolving σ (List (Field CType))}
    {first' rest' : Resolving τ (List (Field CType))}
    (fields : m.Mirrors (List.map m.outlook.view.field) first first')
    (others : m.Mirrors (List.map m.outlook.view.field) rest rest') :
    m.Mirrors (List.map m.outlook.view.field) (do return (← first) ++ (← rest))
      (do return (← first') ++ (← rest')) := by
  refine fields.then fun some some' same => others.then fun more more' alike => mirrors_pure ?_
  rw [List.map_append, List.map_append, same, alike]

theorem unnamedMembers_mirrors {layout : Label} {inside : Json → Resolving σ (List (Field CType))}
    {inside' : Json → Resolving τ (List (Field CType))}
    (inner : ∀ node, m.Mirrors (List.map m.outlook.view.field) (inside node) (inside' node))
    (nodes : List Json) :
    m.Mirrors (List.map m.outlook.view.field) (unnamedMembers oracle layout inside nodes)
      (unnamedMembers oracle' layout inside' nodes) := by
  induction nodes with
  | nil => exact mirrors_pure rfl
  | cons node rest ih =>
    refine mirrors_lift_then fun kind _ => mirrors_lift_then fun mute _ => ?_
    split
    · exact ih
    refine mirrors_lift_then fun name _ => mirrors_lift_then fun among _ => ?_
    split
    · exact append_mirrors (inner node) ih
    split
    · exact mirrors_throw _
    split
    · exact ih
    · exact cons_mirrors (member_mirrors faithful layout node) ih

theorem flattenWith_mirrors (layout : Label) (fuel : Nat) (node : Json) :
    m.Mirrors (List.map m.outlook.view.field) (flattenWith oracle layout fuel node)
      (flattenWith oracle' layout fuel node) := by
  induction fuel generalizing node with
  | zero => exact mirrors_throw _
  | succ fuel ih =>
    refine mirrors_lift_then fun inner _ => mirrors_lift_then fun items _ => ?_
    exact unnamedMembers_mirrors faithful ih items

theorem members_mirrors {nested : Json → Label → Label → Resolving σ CType}
    {nested' : Json → Label → Label → Resolving τ CType}
    (inner : ∀ node own layout, m.Mirrors m.look (nested node own layout)
      (nested' node own layout)) (name layout : Label) (nodes : List Json) :
    m.Mirrors (List.map m.outlook.view.field) (members oracle nested name layout nodes)
      (members oracle' nested' name layout nodes) := by
  fun_induction members oracle nested name layout nodes with
  | case1 => exact mirrors_pure rfl
  | case2 node rest ih next =>
    rw [members.eq_def oracle' nested' name layout (node :: rest)]
    refine mirrors_lift_then fun kind _ => mirrors_lift_then fun mute _ => ?_
    split
    · exact ih
    refine mirrors_lift_then fun among _ => ?_
    split
    · -- A record is declared, is the type of the following field or is taken apart.
      refine mirrors_lift_then fun own _ => ?_
      split
      · refine mirrors_lift_then fun body _ => ?_
        dsimp only
        split
        · exact (inner node own _).then fun _ _ _ => ih
        · exact ih
      · cases rest with
        | nil => exact flattenWith_mirrors faithful layout _ node
        | cons following after =>
          refine mirrors_lift_then fun naming _ => ?_
          split
          · refine mirrors_lift_then fun field _ => ?_
            exact cons_mirrors (namedUnion_mirrors faithful layout field node) next.1
          · exact append_mirrors (flattenWith_mirrors faithful layout _ node) next.2
    split
    · exact mirrors_throw _
    refine mirrors_lift_then fun field _ => ?_
    split
    · refine mirrors_lift_then fun implicit _ => ?_
      split
      · exact ih
      · exact mirrors_throw _
    · exact cons_mirrors (member_mirrors faithful layout node) ih

theorem recordWith_mirrors (fuel : Nat) (node : Json) (name layout : Label) :
    m.Mirrors m.look (recordWith oracle fuel node name layout)
      (recordWith oracle' fuel node name layout) := by
  induction fuel generalizing node name layout with
  | zero => exact mirrors_throw _
  | succ fuel ih =>
    refine (faithful.ask _).then fun size _ sizes => ?_
    obtain rfl := sizes
    refine mirrors_lift_then fun inner _ => mirrors_lift_then fun nodes _ => ?_
    refine (members_mirrors faithful ih name layout nodes).then fun fields fields' same => ?_
    exact faithful.register name ⟨rfl, rfl, nofun⟩ (m.outlook.view.same_record same _)

theorem topEnum_mirrors [Nonempty τ] (following : Option Json) (node : Json) :
    m.Mirrors id (topEnum following node : Resolving σ Bool) (topEnum following node) := by
  refine mirrors_lift_then fun named _ => ?_
  split
  · refine mirrors_lift_then fun told _ => ?_
    exact (mirrors_note _ _).then fun _ _ _ => mirrors_pure rfl
  · refine mirrors_lift_then fun inner _ => mirrors_lift_then fun items _ => ?_
    rw [enum, enum, bind_assoc, bind_assoc]
    refine (constants_mirrors _ (some 0) [] items).then fun constants _ same => ?_
    obtain rfl := same
    have declarable {name : Label} : Declarable name (.enum { name, size := CType.enumSize } constants) :=
      ⟨rfl, rfl, nofun⟩
    exact (faithful.register _ declarable rfl).then fun _ _ _ => mirrors_pure rfl

theorem topRecord_mirrors (following : Option Json) (node : Json) :
    m.Mirrors id (topRecord oracle following node) (topRecord oracle' following node) := by
  refine mirrors_lift_then fun named _ => ?_
  split
  · refine mirrors_lift_then fun tag _ => mirrors_lift_then fun told _ => ?_
    exact (mirrors_note _ _).then fun _ _ _ => mirrors_pure rfl
  · refine mirrors_lift_then fun body _ => ?_
    dsimp only
    split
    · exact (mirrors_note _ _).then fun _ _ _ => mirrors_pure rfl
    · exact (recordWith_mirrors faithful _ node _ _).then fun _ _ _ => mirrors_pure rfl

theorem topNode_mirrors [Nonempty τ] (header : Path) (following : Option Json) {node : Json}
    (tracks : m.Tracks node) (waits : m.Waits node) :
    m.Mirrors id (topNode header oracle following node) (topNode header oracle' following node) := by
  refine (isSkipped_mirrors tracks header).then fun skipped _ same => ?_
  obtain rfl := same
  dsimp only [id]
  split
  · exact mirrors_pure rfl
  refine mirrors_lift_then fun kind _ => ?_
  split
  · exact topEnum_mirrors faithful following node
  refine mirrors_lift_then fun among _ => ?_
  split
  · exact topRecord_mirrors faithful following node
  split
  · exact (typedef_mirrors faithful waits).then fun _ _ _ => mirrors_pure rfl
  split
  · exact (function_mirrors faithful node).then fun _ _ _ => mirrors_pure rfl
  · refine mirrors_lift_then fun name _ => ?_
    exact (mirrors_note _ _).then fun _ _ _ => mirrors_pure rfl

theorem topNodes_mirrors [Nonempty τ] (header : Path) (done : Bool) {nodes : List Json}
    (tracks : ∀ node ∈ nodes, m.Tracks node) (waits : ∀ node ∈ nodes, m.Waits node) :
    m.Mirrors id (topNodes header oracle done nodes) (topNodes header oracle' done nodes) := by
  induction nodes generalizing done with
  | nil => exact mirrors_pure rfl
  | cons node rest ih =>
    have others := fun done => ih done (fun other member => tracks other (by simp [member]))
      fun other member => waits other (by simp [member])
    rw [topNodes, topNodes]
    split
    · exact others false
    · have first := topNode_mirrors faithful header rest.head? (tracks node (by simp)) (waits node (by simp))
      refine first.then fun done _ same => ?_
      obtain rfl := same
      exact others done

end

end Mirror

end NativeBindings.Resolve
