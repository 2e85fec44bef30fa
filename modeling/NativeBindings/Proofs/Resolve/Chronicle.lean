import NativeBindings.Proofs.Resolve.Moves
import NativeBindings.Proofs.Resolve.TopLevel
import NativeBindings.Proofs.Resolve.Waking

/-!
The events of a resolution. Every node that is resolved goes with a row of events: what it declares,
the typedef that it lets wait, and the typedefs that are woken by its declarations.
-/
namespace NativeBindings.Resolve

open Json Act Outcome

section
variable {σ : Type} (oracle : Layout.Oracle σ)

/-- The declarations of a record node under a name and a layout name: its own, and those of the named
records within it. Types are looked up in a graph. -/
inductive RecordBuilds : Json → Label → Label → Graph → Label → CType → Prop
  | own {node : Json} {name layout : Label} {fuel : Nat} {size : Amount} {fields : List (Field CType)}
    {start asked after : Session σ} (sized : (ask oracle (.sizeOf layout)).runOn start = (.ok size, asked))
    (laid : (members oracle (recordWith oracle fuel) name layout (Resolve.within node)).runOn asked =
      (.ok fields, after)) :
    RecordBuilds node name layout after.graph name (.record { name, size } fields)
  | nested {node inner : Json} {name layout own other : Label} {graph : Graph} {type : CType}
    (member : inner ∈ nestedIn (Resolve.within node)) (named : inner.field "name" = .ok own)
    (builds : RecordBuilds inner own (.str (layout.plain ++ "::" ++ own.plain)) graph other type) :
    RecordBuilds node name layout graph other type

/-- What a typedef node is an alias of. -/
structure Targets (graph : Graph) (node : Json) (target : CType) : Prop where
  found : ∃ text, spellingOf node = .ok (.str text) ∧
    (typeOf graph text = .ok target ∨ graph.find (.str (Spelling.normal text)) = .ok target)

/-- The declarations that a node gives rise to, where types are looked up in a graph. -/
inductive Builds (following : Option Json) (node : Json) : Graph → Label → CType → Prop
  | enum {graph : Graph} {name : Label} {adopted : Bool} {nodes : List Json} {type : CType}
    {start after : Session σ} (named : nameOf following node = .ok (name, adopted))
    (given : name.isNull = false) (kind : node.field "kind" = .ok (.str "EnumDecl"))
    (listed : (children node >>= items) = .ok nodes)
    (evaluated : (Resolve.enum name nodes).runOn start = (.ok type, after)) :
    Builds following node graph name type
  | record {graph : Graph} {name own : Label} {adopted : Bool} {type : CType}
    (named : nameOf following node = .ok (name, adopted)) (given : name.isNull = false)
    (kind : isRecord node = true) (body : hasBody node = true)
    (builds : RecordBuilds oracle node name name graph own type) : Builds following node graph own type
  | synonym {graph : Graph} {name : Label} {target : CType}
    (kind : node.field "kind" = .ok (.str "TypedefDecl")) (named : node.need "name" = .ok name)
    (targets : Targets graph node target) :
    Builds following node graph name (Registry.aliasOf name target)
  | pointer {graph : Graph} {name : Label} {text base : String} {isConst : Bool} {target : Option CType}
    (kind : node.field "kind" = .ok (.str "TypedefDecl")) (named : node.need "name" = .ok name)
    (spelled : spellingOf node = .ok (.str text)) (parsed : Spelling.parse text = .ok (.pointer base isConst))
    (found : pointeeOf graph base = .ok target) :
    Builds following node graph name (.pointer { name, size := CType.pointerSize } target isConst)
  | callback {graph : Graph} {name : Label} {prototype : Json} {type : CType}
    (kind : node.field "kind" = .ok (.str "TypedefDecl")) (named : node.need "name" = .ok name)
    (typed : prototype? node = .ok (some prototype))
    (found : Resolve.callback graph name prototype = .ok type) : Builds following node graph name type
  | function {graph : Graph} {name : Label} {type : CType}
    (kind : node.field "kind" = .ok (.str "FunctionDecl")) (named : node.need "name" = .ok name)
    (found : signature graph name node = .ok type) : Builds following node graph name type

theorem callback_eq_ok {graph : Graph} {name : Label} {prototype : Json} {type : CType}
    (found : Resolve.callback graph name prototype = .ok type) :
    ∃ result parameters, type = .callback { name, size := CType.pointerSize }
      { name, size := CType.pointerSize } result parameters := by
  obtain ⟨inner, -, found⟩ := bind_eq_ok.mp found
  split at found
  · cases found
  · obtain ⟨first, -, found⟩ := bind_eq_ok.mp found
    obtain ⟨result, -, found⟩ := bind_eq_ok.mp found
    obtain ⟨items, -, found⟩ := bind_eq_ok.mp found
    obtain ⟨parameters, -, found⟩ := bind_eq_ok.mp found
    exact ⟨result, parameters, (pure_eq_ok.mp found).symm⟩

theorem signature_eq_ok {graph : Graph} {name : Label} {node : Json} {type : CType}
    (found : signature graph name node = .ok type) :
    ∃ result parameters, type = .signature { name, size := CType.pointerSize } result parameters := by
  obtain ⟨spelling, -, found⟩ := bind_eq_ok.mp found
  obtain ⟨text, -, found⟩ := bind_eq_ok.mp found
  obtain ⟨result, -, found⟩ := bind_eq_ok.mp found
  obtain ⟨inner, -, found⟩ := bind_eq_ok.mp found
  obtain ⟨items, -, found⟩ := bind_eq_ok.mp found
  obtain ⟨parameters, -, found⟩ := bind_eq_ok.mp found
  exact ⟨result, parameters, (pure_eq_ok.mp found).symm⟩

/-- A typedef node that is to wait for a tag. -/
structure Defers (node : Json) (graph : Graph) (tag name : Label) : Prop where
  kind : node.field "kind" = .ok (.str "TypedefDecl")
  named : node.need "name" = .ok name
  spelled : ∃ text missing, spellingOf node = .ok (.str text) ∧ mayWait text = true ∧
    (∀ base isConst, Spelling.parse text ≠ .ok (.pointer base isConst)) ∧
      typeOf graph text = .error (.unknownName missing) ∧ tag = .str (Spelling.normal text)

/-- Whether an event is one of a node. -/
def Fits (following : Option Json) (node : Json) (graph : Graph) : Event → Prop
  | .declare name type _ => Builds oracle following node graph name type
  | .defer tag name => Defers node graph tag name
  | .wake _ _ | .mark => True

end

/-- From one desk to another some fit events lead. -/
def Desk.Leads (fits : Graph → Event → Prop) (before after : Desk) : Prop :=
  ∃ events, Desk.Runs fits before events after

/-- Between two registries nothing but fit events took place. -/
abbrev Logged (fits : Graph → Event → Prop) (before after : Registry) : Prop :=
  Desk.Leads fits { registry := before } { registry := after }

section
variable {fits : Graph → Event → Prop} {first second third : Desk}

theorem Desk.Leads.refl (desk : Desk) : desk.Leads fits desk := ⟨[], .nil _⟩

theorem Desk.Leads.trans (left : first.Leads fits second) (right : second.Leads fits third) :
    first.Leads fits third := by
  obtain ⟨events, left⟩ := left
  obtain ⟨more, right⟩ := right
  exact ⟨events ++ more, left.append right⟩

theorem Desk.Leads.cons {event : Event} (step : first.Step event second)
    (fit : fits first.registry.graph event) (rest : second.Leads fits third) : first.Leads fits third := by
  obtain ⟨events, run⟩ := rest
  exact ⟨event :: events, .cons step fit run⟩

theorem Desk.Leads.mono {fits' : Graph → Event → Prop} (leads : first.Leads fits second)
    (wider : ∀ graph event, fits graph event → fits' graph event) : first.Leads fits' second :=
  leads.imp fun _ run => run.mono wider

end

section
variable {σ α β : Type} {session : Session σ} {fits : Graph → Event → Prop}

theorem gives_run (act : Resolving σ α) :
    Gives (fun value after => act.runOn session = (.ok value, after)) act session := by
  rw [Gives, ends_iff]
  refine ⟨fun value done => ?_, fun _ _ => trivial⟩
  rw [← done]

theorem Gives.both {act : Resolving σ α} {good other : α → Session σ → Prop}
    (first : Gives good act session) (second : Gives other act session) :
    Gives (fun value after => good value after ∧ other value after) act session :=
  (Ends.and first second).mono (fun _ _ both => both) fun _ _ _ => trivial

theorem announce_gives (name : Label) (type : CType) :
    Gives (fun announced after => announced = (type.numbered session.graph.issued,
        (Table.find? name session.registry.waiting).getD []) ∧
      after.registry = { graph := session.graph.enter (name, type)
                         waiting := Table.erase name session.registry.waiting })
      (announce name type) session := by
  unfold Gives Ends
  cases keyed : name.asKey with
  | error fault => rw [announce_unkeyed keyed]; trivial
  | ok key =>
    obtain ⟨told, run⟩ := announce_runOn keyed type session
    rw [run]
    exact ⟨rfl, rfl⟩

theorem registerWith_owners (fuel : Nat) (name : Label) (type : CType) :
    Gives (fun _ after => after.owners = session.owners) (registerWith fuel name type) session := by
  induction fuel generalizing session name type with
  | zero => exact gives_lift_then fun key _ => rfl
  | succ fuel ih =>
    have declares : Gives (fun _ after => after.owners = session.owners) (declare name type) session :=
      gives_lift_then fun key _ => rfl
    refine Gives.then declares fun item declared same => ?_
    refine Gives.then (show Gives (fun _ after => after.owners = session.owners) _ declared from same)
      fun waiters after same => ?_
    refine Gives.then (gives_forM (P := fun before => before.owners = session.owners) same ?_) fun _ _ same => same
    intro waiter before same
    refine Gives.then (show Gives (fun _ after => after.owners = session.owners) _ before from same)
      fun _ between same => ?_
    refine Gives.then (ih waiter (Registry.aliasOf waiter item)) fun _ after kept => ?_
    exact kept.trans same

theorem register_owners (name : Label) (type : CType) :
    Gives (fun _ after => after.owners = session.owners) (register name type) session :=
  registerWith_owners _ name type

section
variable (wakes : ∀ graph due number, fits graph (.wake due number))
include wakes

/-- Typedefs that wait for a tag come due. -/
abbrev called (name : Label) (item : CType) (waiters : List Label) : List Due :=
  waiters.map fun waiter => { name := waiter, tag := name, item }

/-- The typedefs that come due are woken in order; `rest` are those that are due after them. -/
theorem promotes_lead {fuel : Nat} (name : Label) (item : CType) (rest : List Due)
    (registers : ∀ name type (session : Session σ) rest, count session.registry.waiting < fuel →
      Gives (fun _ after => Desk.Leads fits
          (Desk.enter { registry := session.registry, due := rest } name type)
          { registry := after.registry, due := rest }) (registerWith fuel name type) session)
    (waiters : List Label) (enough : waiters ≠ [] → count session.registry.waiting < fuel) :
    Gives (fun _ after => Desk.Leads fits
        { registry := session.registry, due := called name item waiters ++ rest }
        { registry := after.registry, due := rest })
      (waiters.forM (promote fuel name item)) session := by
  induction waiters generalizing session with
  | nil => exact .refl _
  | cons waiter others ih =>
    have bound := enough (by simp)
    have woken : Gives (fun _ after => Desk.Leads fits
          (Desk.enter { registry := session.registry, due := called name item others ++ rest } waiter
            (Registry.aliasOf waiter item))
          { registry := after.registry, due := called name item others ++ rest } ∧
        count after.registry.waiting ≤ count session.registry.waiting)
        (promote fuel name item waiter) session := by
      refine ends_bind.mpr ((ends_modify _).mpr ?_)
      have runs := registers waiter (Registry.aliasOf waiter item) (Noting.tell (Journal.debug
        ("Resolved lazy alias " ++ waiter.plain ++ " -> " ++ name.plain)) session)
        (called name item others ++ rest) bound
      have both := runs.and (registerWith_settles _ fuel waiter (Registry.aliasOf waiter item))
      exact Gives.then (both.mono (fun _ _ both => both) fun _ _ _ => trivial) fun _ _ both => both
    have walk : Gives (fun _ after => Desk.Leads fits
        { registry := session.registry, due := called name item (waiter :: others) ++ rest }
        { registry := after.registry, due := rest })
        (promote fuel name item waiter >>= fun _ => others.forM (promote fuel name item)) session := by
      refine woken.then fun _ between first => ?_
      refine (ih fun _ => Nat.lt_of_le_of_lt first.2 bound).mono (fun _ after last => ?_)
        fun _ _ _ => trivial
      exact .cons (.wake session.registry _ _) (wakes _ _ _) (first.1.trans last)
    exact walk

theorem registerWith_leads {fuel : Nat} (name : Label) (type : CType) (rest : List Due)
    (enough : count session.registry.waiting < fuel) :
    Gives (fun _ after => Desk.Leads fits
        (Desk.enter { registry := session.registry, due := rest } name type)
        { registry := after.registry, due := rest }) (registerWith fuel name type) session := by
  induction fuel generalizing session name type rest with
  | zero => omega
  | succ fuel ih =>
    rw [registerWith_succ]
    refine (announce_gives name type).then fun announced between told => ?_
    obtain ⟨rfl, entered⟩ := told
    have bound := count_release name session.registry.waiting
    have walk := @promotes_lead _ between _ wakes fuel name (type.numbered session.graph.issued) rest
      (fun name type session rest enough => ih name type rest enough)
      ((Table.find? name session.registry.waiting).getD []) (fun some => by
        have positive := List.length_pos_iff.mpr some
        rw [entered]
        dsimp only
        omega)
    refine walk.then fun _ after leads => gives_pure ?_
    rw [entered] at leads
    exact leads

/-- An act that does to the registry what some fit events do, and leaves the owners of the constants. -/
abbrev Logs (fits : Graph → Event → Prop) (act : Resolving σ α) (session : Session σ) : Prop :=
  Gives (fun _ after => Logged fits session.registry after.registry ∧ after.owners = session.owners)
    act session

/-- A registration is the declaration of a name and whatever it wakes. -/
theorem register_logs (name : Label) (type : CType)
    (fit : fits session.graph (.declare name type session.graph.issued)) :
    Logs fits (register name type) session := by
  have leads : Gives (fun _ after => Desk.Leads fits (Desk.enter { registry := session.registry } name type)
      { registry := after.registry }) (register name type) session :=
    registerWith_leads wakes name type [] (Nat.lt_succ_self _)
  refine (Gives.both leads (register_owners name type)).mono (fun _ after both => ?_) fun _ _ _ => trivial
  exact ⟨.cons (.declare session.registry name type) fit both.1, both.2⟩

end

/-- An act that leaves what is declared, what waits and the owners of the constants as they are. -/
abbrev Quiet (act : Resolving σ α) (session : Session σ) : Prop :=
  Gives (fun _ after => after.registry = session.registry ∧ after.owners = session.owners) act session

theorem Quiet.then {act : Resolving σ β} {next : β → Resolving σ α} (quiet : Quiet act session)
    (rest : ∀ value after, Quiet (next value) after) : Quiet (act >>= next) session :=
  Gives.then quiet fun value after first => (rest value after).mono
    (fun _ _ last => ⟨last.1.trans first.1, last.2.trans first.2⟩) fun _ _ _ => trivial

theorem ask_quiet (oracle : Layout.Oracle σ) (query : Layout.Query) : Quiet (ask oracle query) session :=
  (paced_same.ask_moves oracle query).mono (fun _ _ same => same) fun _ _ _ => trivial

theorem isSkipped_quiet (header : Path) (node : Json) : Quiet (isSkipped header node) session :=
  (paced_same.isSkipped_moves header node).mono (fun _ _ same => same) fun _ _ _ => trivial

/-- The constants of an enum declare nothing, also if one of them fails. -/
theorem constants_still (owner : Label) (count : Option Int) {done : Table Label Constant}
    (nodes : List Json) :
    Ends (fun _ after => after.registry = session.registry)
      (fun _ after => after.registry = session.registry) (constants owner count done nodes) session := by
  induction nodes generalizing count done session with
  | nil => exact rfl
  | cons node rest ih =>
    refine ends_lift_then (fun _ => rfl) fun kind _ => ?_
    split
    · refine ends_lift_then (fun _ => rfl) fun name _ => ?_
      refine ends_bind.mpr (ends_get.mpr ?_)
      refine ends_lift_then (fun _ => rfl) fun value _ => ?_
      refine ends_lift_then (fun _ => rfl) fun key _ => ?_
      exact ends_bind.mpr ((ends_modify _).mpr (ih value.2))
    · exact ih count

theorem enum_still (name : Label) (nodes : List Json) :
    Ends (fun _ after => after.registry = session.registry)
      (fun _ after => after.registry = session.registry) (enum name nodes) session :=
  ends_bind.mpr ((constants_still name (some 0) nodes).mono (fun _ _ same => same) fun _ _ same => same)

theorem constants_registry (owner : Label) (count : Option Int) {done : Table Label Constant}
    (nodes : List Json) :
    Gives (fun _ after => after.registry = session.registry) (constants owner count done nodes) session :=
  (constants_still owner count nodes).mono (fun _ _ same => same) fun _ _ _ => trivial

theorem Logs.then {act : Resolving σ β} {next : β → Resolving σ α} (logs : Logs fits act session)
    (rest : ∀ value after, Logs fits (next value) after) : Logs fits (act >>= next) session :=
  Gives.then logs fun value after first => (rest value after).mono
    (fun _ _ last => ⟨first.1.trans last.1, last.2.trans first.2⟩) fun _ _ _ => trivial

theorem Quiet.logs {act : Resolving σ α} (quiet : Quiet act session) : Logs fits act session :=
  Ends.mono quiet (fun _ _ same => ⟨same.1 ▸ .refl _, same.2⟩) fun _ _ _ => trivial

theorem logs_pure (value : α) : Logs fits (pure value) session := gives_pure ⟨.refl _, rfl⟩

theorem paced_logged : Paced (fun before after : Session σ =>
    Logged fits before.registry after.registry ∧ after.owners = before.owners) fun _ _ => True where
  still registry owners := ⟨registry ▸ .refl _, owners⟩
  halts _ _ := trivial
  trans first second := ⟨first.1.trans second.1, second.2.trans first.2⟩
  stops _ _ := trivial

theorem recordWith_logs (oracle : Layout.Oracle σ)
    (wakes : ∀ graph due number, fits graph (.wake due number)) (fuel : Nat) {node : Json}
    {name layout : Label}
    (covers : ∀ graph own type number, RecordBuilds oracle node name layout graph own type →
      fits graph (.declare own type number)) :
    Logs fits (recordWith oracle fuel node name layout) session := by
  induction fuel generalizing node name layout session with
  | zero => exact gives_throw _
  | succ fuel ih =>
    refine Gives.then (Gives.both (gives_run (ask oracle (.sizeOf layout))) (ask_quiet oracle _)) ?_
    rintro size asked ⟨sized, same⟩
    refine gives_lift_then fun children listed => gives_lift_then fun nodes walked => ?_
    rcases items_eq_ok listed (items_of_sequence walked) with rfl | ⟨s, rest, rfl⟩
    · have inside : Logs fits (members oracle (recordWith oracle fuel) name layout (within node)) asked := by
        refine paced_logged.members_moves oracle name layout (within node)
          fun inner member own named between => ?_
        refine ih fun graph other type number builds => covers graph other type number ?_
        exact .nested member named builds
      refine Gives.then (Gives.both (gives_run _) inside) ?_
      rintro fields between ⟨laid, logged, kept⟩
      rw [same.1] at logged
      rw [same.2] at kept
      refine (register_logs wakes name (.record { name, size } fields) ?_).mono
        (fun _ _ last => ⟨logged.trans last.1, last.2.trans kept⟩) fun _ _ _ => trivial
      exact covers _ _ _ _ (.own sized laid)
    · have refused : Gives (fun _ _ => False)
          (members oracle (recordWith oracle fuel) name layout (.str s :: rest)) asked := by
        unfold members
        exact gives_lift_then fun kind known => by cases known
      exact refused.then fun _ _ impossible => impossible.elim

section
variable {oracle : Layout.Oracle σ} {following : Option Json} {node : Json}

theorem changeGraph_logs {change : Graph → Graph}
    (declarations : (change session.graph).declarations = session.graph.declarations)
    (issued : (change session.graph).issued = session.graph.issued) :
    Logs (Fits oracle following node) (changeGraph change) session :=
  have step : Desk.Step { registry := session.registry } .mark
      { registry := { session.registry with graph := change session.registry.graph } } :=
    .mark declarations issued rfl
  ⟨.cons step trivial (.refl _), rfl⟩

theorem register_fits {name : Label} {type : CType}
    (builds : Builds oracle following node session.graph name type) :
    Logs (Fits oracle following node) (register name type) session :=
  register_logs (fun _ _ _ => trivial) name type builds

theorem registerAlias_fits {name : Label} {target : CType}
    (kind : node.field "kind" = .ok (.str "TypedefDecl")) (named : node.need "name" = .ok name)
    (targets : Targets session.graph node target) :
    Logs (Fits oracle following node) (registerAlias name target) session := by
  unfold registerAlias
  split
  · exact Quiet.logs ⟨rfl, rfl⟩
  · exact (register_fits (.synonym kind named targets)).then fun _ _ => logs_pure _

theorem typedefOf_fits {name : Label} {text : String}
    (kind : node.field "kind" = .ok (.str "TypedefDecl")) (named : node.need "name" = .ok name)
    (spelled : spellingOf node = .ok (.str text))
    (plain : ∀ base isConst, Spelling.parse text ≠ .ok (.pointer base isConst)) :
    Logs (Fits oracle following node) (typedefOf name text) session := by
  refine gives_graph_then ?_
  split
  next target found => exact registerAlias_fits kind named ⟨text, spelled, .inl found⟩
  next missing absent =>
    split
    next waits =>
      have fit : Fits oracle following node session.graph (.defer (.str (Spelling.normal text)) name) :=
        ⟨kind, named, text, missing, spelled, waits, plain, absent, rfl⟩
      exact ⟨.cons (.defer session.registry _ name) fit (.refl _), rfl⟩
    next => exact Quiet.logs ⟨rfl, rfl⟩
  next => exact gives_throw _

theorem typedef_fits (kind : node.field "kind" = .ok (.str "TypedefDecl")) :
    Logs (Fits oracle following node) (typedef node) session := by
  refine gives_lift_then fun name named => gives_lift_then fun spelling spelled => ?_
  refine gives_lift_then fun type _ => gives_lift_then fun id _ => ?_
  split
  · refine gives_graph_then <| gives_lift_then fun text shown => gives_lift_then fun target found => ?_
    obtain rfl := asText_eq_ok shown
    exact registerAlias_fits kind named ⟨text, spelled, .inr found⟩
  refine gives_lift_then fun prototype typed => ?_
  split
  · refine gives_graph_then <| gives_lift_then fun type made => ?_
    refine (register_fits (.callback kind named typed made)).then fun _ after => ?_
    exact changeGraph_logs rfl rfl
  · refine gives_lift_then fun text shown => gives_lift_then fun shape parsed => ?_
    obtain rfl := asText_eq_ok shown
    split
    · refine gives_graph_then <| gives_lift_then fun target found => ?_
      refine (register_fits (.pointer kind named spelled parsed found)).then fun _ after => ?_
      exact changeGraph_logs rfl rfl
    next other =>
      refine typedefOf_fits kind named spelled fun base isConst pointer => ?_
      exact other base isConst (Except.ok.inj (parsed.symm.trans pointer))

theorem function_fits (kind : node.field "kind" = .ok (.str "FunctionDecl")) :
    Logs (Fits oracle following node) (function node) session := by
  refine gives_lift_then fun name named => gives_graph_then <| gives_lift_then fun type found => ?_
  refine gives_lift_then fun variadic _ => ?_
  have registers (between : Session σ) (same : between.registry = session.registry) :
      Logs (Fits oracle following node) (register name type >>= fun _ => pure ()) between := by
    refine (register_fits (.function kind named ?_)).then fun _ _ => logs_pure _
    rw [Session.graph, same]
    exact found
  dsimp only
  split
  · exact registers _ rfl
  · exact registers session rfl

theorem topEnum_fits (kind : node.field "kind" = .ok (.str "EnumDecl")) :
    Gives (fun _ after => Logged (Fits oracle following node) session.registry after.registry)
      (topEnum following node) session := by
  refine gives_lift_then fun named found => ?_
  split
  · exact gives_lift_then fun told _ => .refl _
  next name adopted plain =>
    have given : name.isNull = false := by
      cases name with
      | null => exact absurd rfl plain
      | _ => rfl
    refine gives_lift_then fun inner listed => gives_lift_then fun nodes items => ?_
    have keeps : Gives (fun _ after => after.registry = session.registry) (enum name nodes) session :=
      (enum_still name nodes).mono (fun _ _ same => same) fun _ _ _ => trivial
    refine Gives.then (Gives.both (gives_run (enum name nodes)) keeps) ?_
    rintro type between ⟨evaluated, same⟩
    have registers : Logs (Fits oracle following node) (register name type) between := by
      refine register_fits (.enum found given kind ?_ evaluated)
      rw [listed]
      exact items
    refine Gives.then registers fun _ after logged => gives_pure ?_
    rw [← same]
    exact logged.1

theorem topRecord_fits (kind : isRecord node = true) :
    Logs (Fits oracle following node) (topRecord oracle following node) session := by
  refine gives_lift_then fun named found => ?_
  split
  · exact gives_lift_then fun tag _ => gives_lift_then fun told _ => Quiet.logs ⟨rfl, rfl⟩
  next name adopted plain =>
    have given : name.isNull = false := by
      cases name with
      | null => exact absurd rfl plain
      | _ => rfl
    refine gives_lift_then fun inner body => ?_
    have bodied := hasBody_eq body
    dsimp only
    split
    · exact Quiet.logs ⟨rfl, rfl⟩
    next present =>
      refine Logs.then (recordWith_logs oracle (fun _ _ _ => trivial) _ fun graph own type _ builds => ?_)
        fun _ _ => logs_pure _
      refine .record found given kind ?_ builds
      rw [bodied]
      simpa using present

/-- The events of a node. Only an enum changes the owners of the constants. -/
theorem topNode_fits (header : Path) (following : Option Json) (node : Json) :
    Gives (fun _ after => Logged (Fits oracle following node) session.registry after.registry ∧
        (node.field "kind" ≠ .ok (.str "EnumDecl") → after.owners = session.owners))
      (topNode header oracle following node) session := by
  have other {α : Type} {act : Resolving σ α} {before : Session σ}
      (logs : Logs (Fits oracle following node) act before) :
      Gives (fun _ after => Logged (Fits oracle following node) before.registry after.registry ∧
        (node.field "kind" ≠ .ok (.str "EnumDecl") → after.owners = before.owners)) act before :=
    Ends.mono logs (fun _ _ both => ⟨both.1, fun _ => both.2⟩) fun _ _ _ => trivial
  refine Gives.then (isSkipped_quiet header node) fun skipped after same => ?_
  rw [← same.1, ← same.2]
  split
  · exact other (logs_pure _)
  refine gives_lift_then fun kind known => ?_
  split
  next same =>
    exact (topEnum_fits (kind_eq known same)).mono
      (fun _ _ logged => ⟨logged, fun apart => absurd (kind_eq known same) apart⟩) fun _ _ _ => trivial
  refine gives_lift_then fun among checked => ?_
  split
  next record => exact other (topRecord_fits (isRecord_eq known (record ▸ checked)))
  split
  next same => exact other (Logs.then (typedef_fits (kind_eq known same)) fun _ _ => logs_pure _)
  split
  next same => exact other (Logs.then (function_fits (kind_eq known same)) fun _ _ => logs_pure _)
  · exact other (gives_lift_then fun name _ => Quiet.logs ⟨rfl, rfl⟩)

end

end

section
variable {σ : Type} (header : Path) (oracle : Layout.Oracle σ) (next : Option Json)

/-- The run over a list of nodes, with the events of each node that is not done already. -/
inductive Chronicle : Bool → Session σ → List Json → List Event → Bool → Session σ → Prop
  | nil (done : Bool) (session : Session σ) : Chronicle done session [] [] done session
  | done {session after : Session σ} {node : Json} {rest : List Json} {events : List Event} {last : Bool}
    (others : Chronicle false session rest events last after) :
    Chronicle true session (node :: rest) events last after
  | step {session between after : Session σ} {node : Json} {rest : List Json} {events more : List Event}
    {done last : Bool}
    (run : (topNode header oracle (rest.head?.or next) node).runOn session = (.ok done, between))
    (told : Desk.Runs (Fits oracle (rest.head?.or next) node) { registry := session.registry } events
      { registry := between.registry })
    (others : Chronicle done between rest more last after) :
    Chronicle false session (node :: rest) (events ++ more) last after

variable {header oracle next} {session after : Session σ} {nodes : List Json} {events : List Event}
  {done last : Bool}

theorem passNodes_chronicle (done : Bool) (nodes : List Json) :
    Gives (fun last after => ∃ events, Chronicle header oracle next done session nodes events last after)
      (passNodes header oracle next done nodes) session := by
  induction nodes generalizing done session with
  | nil => exact ⟨[], .nil done session⟩
  | cons node rest ih =>
    rw [passNodes]
    split
    next passed =>
      obtain rfl : done = true := passed
      exact (ih false).mono (fun _ _ told => told.imp fun _ others => .done others) fun _ _ _ => trivial
    next open_ =>
      obtain rfl : done = false := by simpa using open_
      refine Gives.then (Gives.both (gives_run _) (topNode_fits header (rest.head?.or next) node)) ?_
      rintro passed between ⟨run, ⟨events, told⟩, -⟩
      refine (ih passed).mono (fun last after others => ?_) fun _ _ _ => trivial
      obtain ⟨more, others⟩ := others
      exact ⟨events ++ more, .step run told others⟩

/-- Whether an event is one of a node of a list that goes on with another node. -/
def FitsIn (oracle : Layout.Oracle σ) (nodes : List Json) (next : Option Json) (graph : Graph)
    (event : Event) : Prop :=
  ∃ node ∈ nodes, ∃ following, (∀ other ∈ following, other ∈ nodes ∨ other ∈ next) ∧
    Fits oracle following node graph event

theorem FitsIn.cons {node : Json} {graph : Graph} {event : Event}
    (fit : FitsIn oracle nodes next graph event) : FitsIn oracle (node :: nodes) next graph event := by
  obtain ⟨own, member, following, known, fit⟩ := fit
  refine ⟨own, List.mem_cons_of_mem _ member, following, fun other here => ?_, fit⟩
  exact (known other here).imp_left (List.mem_cons_of_mem _)

theorem Chronicle.runs (chronicle : Chronicle header oracle next done session nodes events last after) :
    Desk.Runs (FitsIn oracle nodes next) { registry := session.registry } events
      { registry := after.registry } := by
  induction chronicle with
  | nil => exact .nil _
  | done _ ih => exact ih.mono fun _ _ fit => fit.cons
  | @step _ _ _ node rest _ _ _ _ _ told _ ih =>
    refine (told.mono fun graph event fit => ?_).append (ih.mono fun _ _ fit => fit.cons)
    refine ⟨node, List.mem_cons_self, _, fun other here => ?_, fit⟩
    cases rest with
    | nil => exact .inr here
    | cons first others =>
      obtain rfl : first = other := Option.some.inj here
      exact .inl (by simp)

theorem topNodes_eq (nodes : List Json) :
    topNodes header oracle false nodes =
      passNodes header oracle none false nodes >>= fun done => topNodes header oracle done [] := by
  have cut := topNodes_append header oracle false nodes []
  rwa [List.append_nil] at cut

theorem topNodes_chronicle {session : Session σ} {nodes : List Json} :
    Gives (fun _ after => ∃ events last,
        Chronicle header oracle none false session nodes events last after)
      (topNodes header oracle false nodes) session := by
  rw [topNodes_eq]
  refine (passNodes_chronicle false nodes).then fun last after told => ?_
  obtain ⟨events, told⟩ := told
  exact gives_pure ⟨events, last, told⟩

/-- A resolution that succeeds comes to an end where nothing waits. -/
theorem resolve_eq_ok {state : σ} {graph : Graph}
    (resolved : ((resolve header oracle nodes).runOn { oracle := state }).1 = .ok graph) :
    ∃ session, (topNodes header oracle false nodes).runOn (opening state) = (.ok (), session) ∧
      session.graph = graph ∧ session.registry.waiting = [] := by
  rw [resolve_runOn, runOn_bind] at resolved
  cases passed : (topNodes header oracle false nodes).runOn (opening state) with
  | mk outcome session =>
    rw [passed] at resolved
    cases outcome with
    | error fault => cases resolved
    | ok _ =>
      dsimp only at resolved
      refine ⟨session, rfl, ?_⟩
      cases waits : session.registry.waiting with
      | cons entry rest =>
        rw [conclude_waits header (by rw [waits]; rfl)] at resolved
        cases faulty : unresolved session.registry with
        | ok fault =>
          rw [faulty] at resolved
          cases resolved
        | error fault =>
          rw [faulty] at resolved
          cases resolved
      | nil =>
        obtain ⟨told, ends⟩ := @conclude_done _ session header (by rw [waits]; rfl)
        rw [ends] at resolved
        exact ⟨Except.ok.inj resolved, rfl⟩

theorem resolve_chronicle {state : σ} {graph : Graph}
    (resolved : ((resolve header oracle nodes).runOn { oracle := state }).1 = .ok graph) :
    ∃ events last session, Chronicle header oracle none false (opening state) nodes events last session ∧
      session.graph = graph ∧ session.registry.waiting = [] := by
  obtain ⟨session, run, same, nothing⟩ := resolve_eq_ok resolved
  have told : Gives (fun _ after => ∃ events last,
        Chronicle header oracle none false (opening state) nodes events last after)
      (topNodes header oracle false nodes) (opening state) := topNodes_chronicle
  unfold Gives Ends at told
  rw [run] at told
  obtain ⟨events, last, told⟩ := told
  exact ⟨events, last, session, told, same, nothing⟩

end

end NativeBindings.Resolve
