import NativeBindings.Proofs.Resolve.Mirror

/-!
Runs over lists of top-level nodes, cut where one list goes on with another, and what a resolution
does before its first node and after its last.
-/
namespace NativeBindings.Resolve

open Json Act Mirror

section
variable {σ : Type} (header : Path) (oracle : Layout.Oracle σ)

/-- The nodes of a list that goes on with another node. Tells whether that one is done too. -/
def passNodes (next : Option Json) (done : Bool) : List Json → Resolving σ Bool
  | [] => return done
  | node :: rest => do
    if done then passNodes next false rest
    else passNodes next (← topNode header oracle (rest.head?.or next) node) rest

theorem topNodes_append (done : Bool) (nodes more : List Json) :
    topNodes header oracle done (nodes ++ more) =
      passNodes header oracle more.head? done nodes >>= fun done =>
        topNodes header oracle done more := by
  induction nodes generalizing done with
  | nil =>
    rw [passNodes, pure_bind]
    rfl
  | cons node rest ih =>
    rw [List.cons_append, topNodes, passNodes]
    split
    · exact ih false
    · rw [bind_assoc, List.head?_append]
      exact bind_congr fun done => ih done

theorem passNodes_append (next : Option Json) (done : Bool) (nodes more : List Json) :
    passNodes header oracle next done (nodes ++ more) =
      passNodes header oracle (more.head?.or next) done nodes >>= fun done =>
        passNodes header oracle next done more := by
  induction nodes generalizing done with
  | nil =>
    rw [passNodes, pure_bind]
    rfl
  | cons node rest ih =>
    rw [List.cons_append, passNodes, passNodes]
    split
    · exact ih false
    · rw [bind_assoc, List.head?_append, Option.or_assoc]
      exact bind_congr fun done => ih done

theorem passNodes_mirrors {m : Mirror σ σ} (faithful : m.Faithful oracle oracle) (next : Option Json)
    (done : Bool) {nodes : List Json} (tracks : ∀ node ∈ nodes, m.Tracks node)
    (waits : ∀ node ∈ nodes, m.Waits node) (some : Nonempty σ) :
    m.Mirrors id (passNodes header oracle next done nodes) (passNodes header oracle next done nodes) := by
  induction nodes generalizing done with
  | nil => exact mirrors_pure rfl
  | cons node rest ih =>
    have others := fun done => ih done (fun other member => tracks other (by simp [member]))
      fun other member => waits other (by simp [member])
    rw [passNodes]
    split
    · exact others false
    · have first := topNode_mirrors faithful header (rest.head?.or next) (tracks node (by simp))
        (waits node (by simp))
      refine first.then fun done _ same => ?_
      obtain rfl := same
      exact others done

/-- An enum or a record that has a name of its own, or any other node. -/
def Settled (node : Json) : Prop :=
  ∀ kind, node.field "kind" = .ok kind →
    kind.isKind "EnumDecl" = true ∨ kind.isAmong recordKinds = .ok true →
      ∃ own, node.field "name" = .ok own ∧ own.holds = true

variable {header oracle} {following other : Option Json} {node : Json}

theorem nameOf_own {own : Json} (named : node.field "name" = .ok own) (holds : own.holds = true) :
    nameOf following node = .ok (own, false) := by
  rw [nameOf, named]
  exact if_pos holds

theorem topEnum_congr (same : nameOf following node = nameOf other node) :
    (topEnum following node : Resolving σ Bool) = topEnum other node := by
  unfold topEnum
  rw [same]

theorem topRecord_congr (same : nameOf following node = nameOf other node) :
    topRecord oracle following node = topRecord oracle other node := by
  unfold topRecord
  rw [same]

theorem topNode_settled (settled : Settled node) :
    topNode header oracle following node = topNode header oracle other node := by
  unfold topNode
  refine bind_congr fun skipped => ?_
  split
  · rfl
  cases known : node.field "kind" with
  | error fault => rfl
  | ok kind =>
    rw [lift_ok_bind, lift_ok_bind]
    split
    next isEnum =>
      obtain ⟨own, named, holds⟩ := settled kind known (.inl isEnum)
      exact topEnum_congr ((nameOf_own named holds).trans (nameOf_own named holds).symm)
    cases among : kind.isAmong recordKinds with
    | error fault => rfl
    | ok isRecord =>
      rw [lift_ok_bind, lift_ok_bind]
      split
      next chosen =>
        obtain ⟨own, named, holds⟩ := settled kind known (.inr (chosen ▸ among))
        exact topRecord_congr ((nameOf_own named holds).trans (nameOf_own named holds).symm)
      next => rfl

/-- An enum or a record that does not take its name from the node after it, or any other node. -/
def Apart (following : Option Json) (node : Json) : Prop :=
  ∀ kind, node.field "kind" = .ok kind →
    kind.isKind "EnumDecl" = true ∨ kind.isAmong recordKinds = .ok true →
      ∀ named, nameOf following node = .ok named → named.2 = false

theorem Settled.apart (settled : Settled node) (following : Option Json) : Apart following node := by
  intro kind known tagged named found
  obtain ⟨own, given, holds⟩ := settled kind known tagged
  rw [nameOf_own given holds] at found
  exact Except.ok.inj found ▸ rfl

/-- Only a typedef gives a name away. -/
theorem apart_of_kind {next : Json} {kind : String} (known : next.field "kind" = .ok (.str kind))
    (plain : kind ≠ "TypedefDecl") : Apart (some next) node := by
  intro _ _ _ named found
  have none : adoptedName (some next) node = .ok .null := by
    cases next with
    | obj entries =>
      rw [adoptedName, known]
      · exact if_pos (by simpa [isKind] using plain)
      · rintro ⟨⟩
    | _ => cases known
  rw [nameOf] at found
  obtain ⟨own, -, found⟩ := Outcome.bind_eq_ok.mp found
  split at found
  · exact Except.ok.inj found ▸ rfl
  · rw [none] at found
    exact Except.ok.inj found ▸ rfl

theorem gives_any {α : Type} (act : Resolving σ α) (session : Session σ) :
    Gives (fun _ _ => True) act session := by
  rw [Gives, ends_iff]
  exact ⟨fun _ _ => trivial, fun _ _ => trivial⟩

/-- An enum tells whether it took the name of the node after it. -/
theorem topEnum_tells (session : Session σ) :
    Gives (fun done _ => ∃ name, nameOf following node = .ok (name, done)) (topEnum following node)
      session := by
  refine gives_lift_then fun named found => ?_
  split
  · obtain rfl := adopted_of_null found
    refine gives_lift_then fun told _ => ?_
    exact (gives_any _ _).then fun _ _ _ => gives_pure ⟨_, found⟩
  · refine gives_lift_then fun inner _ => gives_lift_then fun items _ => ?_
    refine (gives_any _ _).then fun type _ _ => (gives_any _ _).then fun _ _ _ => ?_
    exact gives_pure ⟨_, found⟩

theorem topRecord_tells (session : Session σ) :
    Gives (fun done _ => ∃ name, nameOf following node = .ok (name, done))
      (topRecord oracle following node) session := by
  refine gives_lift_then fun named found => ?_
  split
  · obtain rfl := adopted_of_null found
    refine gives_lift_then fun tag _ => gives_lift_then fun told _ => ?_
    exact (gives_any _ _).then fun _ _ _ => gives_pure ⟨_, found⟩
  · refine gives_lift_then fun body _ => ?_
    dsimp only
    split
    · exact (gives_any _ _).then fun _ _ _ => gives_pure ⟨_, found⟩
    · exact (gives_any _ _).then fun _ _ _ => gives_pure ⟨_, found⟩

/-- A node that stands apart from the one after it leaves that one to be done. -/
theorem topNode_undone (apart : Apart following node) (session : Session σ) :
    Gives (fun done _ => done = false) (topNode header oracle following node) session := by
  refine (gives_any _ _).then fun skipped after _ => ?_
  split
  · exact gives_pure rfl
  refine gives_lift_then fun kind known => ?_
  split
  next isEnum =>
    exact (topEnum_tells after).mono
      (fun _ _ ⟨_, found⟩ => apart kind known (.inl isEnum) _ found) fun _ _ _ => trivial
  refine gives_lift_then fun isRecord among => ?_
  split
  next chosen =>
    exact (topRecord_tells after).mono
      (fun _ _ ⟨_, found⟩ => apart kind known (.inr (chosen ▸ among)) _ found) fun _ _ _ => trivial
  split
  · exact (gives_any _ _).then fun _ _ _ => gives_pure rfl
  split
  · exact (gives_any _ _).then fun _ _ _ => gives_pure rfl
  · refine gives_lift_then fun name _ => ?_
    exact (gives_any _ _).then fun _ _ _ => gives_pure rfl

theorem passNodes_undone {next : Option Json} {nodes : List Json}
    (apart : ∀ last ∈ nodes.getLast?, Apart next last) {done : Bool} (start : nodes = [] → done = false)
    (session : Session σ) :
    Gives (fun done _ => done = false) (passNodes header oracle next done nodes) session := by
  induction nodes generalizing done session with
  | nil => exact gives_pure (start rfl)
  | cons node rest ih =>
    have others (done : Bool) (start : rest = [] → done = false) (after : Session σ) :
        Gives (fun done _ => done = false) (passNodes header oracle next done rest) after := by
      refine ih (fun last member => apart last ?_) start after
      cases rest with
      | nil => cases member
      | cons first others => simpa [List.getLast?_cons_cons] using member
    rw [passNodes]
    split
    · exact others false (fun _ => rfl) session
    cases rest with
    | nil =>
      refine (topNode_undone (apart node rfl) session).then fun done after undone => ?_
      exact others done (fun _ => undone) after
    | cons first more =>
      exact (gives_any _ _).then fun done after _ => others done nofun after

/-- A node that does not take the name of the one after it has the same name without that one. -/
theorem nameOf_alone {name : Label} (found : nameOf following node = .ok (name, false)) :
    nameOf none node = .ok (name, false) := by
  obtain ⟨own, named, found⟩ := Outcome.bind_eq_ok.mp found
  split at found
  next holds =>
    obtain ⟨rfl, -⟩ := Prod.mk.inj (Outcome.pure_eq_ok.mp found)
    exact nameOf_own named holds
  next blank =>
    obtain ⟨given, -, found⟩ := Outcome.bind_eq_ok.mp found
    obtain ⟨rfl, absent⟩ := Prod.mk.inj (Outcome.pure_eq_ok.mp found)
    obtain rfl : given = .null := by
      cases given with
      | null => rfl
      | _ => cases absent
    rw [nameOf, named]
    exact if_neg blank

section
variable {session after : Session σ}

theorem topEnum_alone (run : (topEnum following node).runOn session = (.ok false, after)) :
    (topEnum none node).runOn session = (.ok false, after) := by
  obtain ⟨name, found⟩ := (topEnum_tells session).of_run run
  rwa [topEnum_congr (found.trans (nameOf_alone found).symm)] at run

theorem topRecord_alone (run : (topRecord oracle following node).runOn session = (.ok false, after)) :
    (topRecord oracle none node).runOn session = (.ok false, after) := by
  obtain ⟨name, found⟩ := (topRecord_tells session).of_run run
  rwa [topRecord_congr (found.trans (nameOf_alone found).symm)] at run

theorem topNode_alone (run : (topNode header oracle following node).runOn session = (.ok false, after)) :
    (topNode header oracle none node).runOn session = (.ok false, after) := by
  unfold topNode at run ⊢
  rw [runOn_bind] at run ⊢
  generalize (isSkipped header node).runOn session = checked at run ⊢
  obtain ⟨skipped | skipped, middle⟩ := checked
  · exact run
  dsimp only at run ⊢
  split
  next yes => rwa [if_pos yes] at run
  next no =>
  rw [if_neg no] at run
  cases known : node.field "kind" with
  | error fault =>
    rw [known] at run
    exact run
  | ok kind =>
    rw [known, lift_ok_bind] at run
    rw [lift_ok_bind]
    split
    next isEnum =>
      rw [if_pos isEnum] at run
      exact topEnum_alone run
    next other =>
      rw [if_neg other] at run
      cases among : kind.isAmong recordKinds with
      | error fault =>
        rw [among] at run
        exact run
      | ok isRecord =>
        rw [among, lift_ok_bind] at run
        rw [lift_ok_bind]
        split
        next chosen =>
          rw [if_pos chosen] at run
          exact topRecord_alone run
        next plain => rwa [if_neg plain] at run

/-- Nodes that leave the one after them to be done do what they do without it. -/
theorem passNodes_alone {next : Option Json} {done : Bool} {nodes : List Json}
    (run : (passNodes header oracle next done nodes).runOn session = (.ok false, after)) :
    (passNodes header oracle none done nodes).runOn session = (.ok false, after) := by
  induction nodes generalizing done session with
  | nil => exact run
  | cons node rest ih =>
    rw [passNodes] at run ⊢
    split
    next passed =>
      rw [if_pos passed] at run
      exact ih run
    next open_ =>
      rw [if_neg open_, runOn_bind] at run
      rw [runOn_bind]
      cases rest with
      | nil =>
        cases first : (topNode header oracle next node).runOn session with
        | mk outcome middle =>
        cases outcome with
        | error fault =>
          simp only [List.head?_nil, Option.none_or, first] at run
          cases run
        | ok passed =>
          simp only [List.head?_nil, Option.none_or, first] at run
          obtain ⟨rfl, rfl⟩ : passed = false ∧ middle = after := by
            obtain ⟨same, last⟩ := Prod.mk.inj run
            exact ⟨Except.ok.inj same, last⟩
          simp only [List.head?_nil, Option.none_or, topNode_alone first]
          rfl
      | cons following others =>
        simp only [List.head?_cons, Option.some_or] at run ⊢
        generalize (topNode header oracle (some following) node).runOn session = ended at run ⊢
        obtain ⟨outcome, middle⟩ := ended
        cases outcome with
        | error fault => exact run
        | ok passed => exact ih run

end

/-- The node that follows a list counts only for the last of the list. -/
theorem passNodes_settled {nodes : List Json} (settled : ∀ last ∈ nodes.getLast?, Settled last)
    (next next' : Option Json) (done : Bool) :
    passNodes header oracle next done nodes = passNodes header oracle next' done nodes := by
  induction nodes generalizing done with
  | nil => rfl
  | cons node rest ih =>
    cases rest with
    | nil =>
      rw [passNodes, passNodes, topNode_settled (settled node rfl)]
      rfl
    | cons first more =>
      have others := ih fun last member => settled last (by simpa using member)
      cases done with
      | true => exact others false
      | false => exact bind_congr fun done => others done
end

section
variable {σ : Type} {header : Path} {oracle : Layout.Oracle σ} {session : Session σ}

/-- What a resolution gives after its nodes. -/
def conclude (header : Path) : Resolving σ Graph := do
  let registry := (← get).registry
  if !registry.waiting.isEmpty then throw (← unresolved registry)
  let count := registry.graph.declarations.length
  note (Journal.info s!"Resolved {count} declarations from \"{header.text}\"")
  return registry.graph

theorem conclude_done (header : Path) (nothing : session.registry.waiting.isEmpty = true) :
    ∃ told, (conclude header).runOn session =
      (.ok session.graph, { session with journal := session.journal ++ told }) := by
  refine ⟨Journal.info
    s!"Resolved {session.graph.declarations.length} declarations from \"{header.text}\"", ?_⟩
  have entered : (get : Resolving σ (Session σ)).runOn session = (.ok session, session) := rfl
  rw [conclude, runOn_bind, entered]
  dsimp only
  rw [nothing]
  rfl

/-- What still waits makes a resolution fail. -/
theorem conclude_waits (header : Path) (something : session.registry.waiting.isEmpty = false) :
    (conclude header).runOn session = (unresolved session.registry >>= Except.error, session) := by
  have entered : (get : Resolving σ (Session σ)).runOn session = (.ok session, session) := rfl
  rw [conclude, runOn_bind, entered]
  dsimp only
  rw [something]
  cases unresolved session.registry with
  | ok fault => rfl
  | error fault => rfl

theorem resolveNodes_eq (nodes : List Json) :
    resolveNodes header oracle nodes = changeGraph Seed.sow >>= fun _ =>
      topNodes header oracle false nodes >>= fun _ => conclude header := rfl

/-- A resolution where it comes to its first node. -/
def opening (state : σ) : Session σ where
  registry := { graph := Seed.sow {} }
  oracle := state
  journal := Journal.debug "AstResolver.resolve: started"

/-- A resolution does what is done from its first node on, and tells when it ends. -/
theorem resolve_told (nodes : List Json) (state : σ) :
    ∃ told, (resolve header oracle nodes).runOn { oracle := state } =
      (((topNodes header oracle false nodes >>= fun _ => conclude header).runOn (opening state)).1,
        Noting.tell told
          ((topNodes header oracle false nodes >>= fun _ => conclude header).runOn (opening state)).2) := by
  have begun : Journal.debug ("AstResolver.resolve" ++ ": started") =
      Journal.debug "AstResolver.resolve: started" := rfl
  have sown : (changeGraph Seed.sow : Resolving σ Unit).runOn
      (Noting.tell (Journal.debug "AstResolver.resolve: started") { oracle := state }) =
      (.ok (), opening state) := rfl
  rw [resolve, resolveNodes_eq]
  unfold timed
  rw [runOn_ofRun, begun]
  dsimp only
  rw [runOn_bind, sown]
  dsimp only
  generalize (topNodes header oracle false nodes >>= fun _ => conclude header).runOn (opening state) =
    ended
  obtain ⟨outcome, after⟩ := ended
  cases outcome with
  | error fault => exact ⟨_, rfl⟩
  | ok graph => exact ⟨_, rfl⟩

theorem resolve_runOn (nodes : List Json) (state : σ) :
    ((resolve header oracle nodes).runOn { oracle := state }).1 =
      ((topNodes header oracle false nodes >>= fun _ => conclude header).runOn (opening state)).1 := by
  obtain ⟨told, run⟩ := @resolve_told _ header oracle nodes state
  rw [run]

end

end NativeBindings.Resolve
