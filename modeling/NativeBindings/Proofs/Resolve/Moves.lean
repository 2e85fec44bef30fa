import NativeBindings.Proofs.Resolve.RecordLayout

/-!
What the members of a record do to a session, whether they are resolved or fail. Only the named
records within do anything to what is declared, so what holds of these holds of all the members.
-/
namespace NativeBindings.Resolve

open Json Act

section
variable {σ α β : Type} {along halt : Session σ → Session σ → Prop} {session : Session σ}

/-- How acts relate the session before them to the one after, for an act that gives a value and for
one that fails. What is declared and the owners of the constants are all that counts. -/
structure Paced (along halt : Session σ → Session σ → Prop) : Prop where
  still : ∀ {before after : Session σ}, after.registry = before.registry →
    after.owners = before.owners → along before after
  halts : ∀ {before after : Session σ}, after.registry = before.registry →
    after.owners = before.owners → halt before after
  trans : ∀ {first second third : Session σ}, along first second → along second third →
    along first third
  stops : ∀ {first second third : Session σ}, along first second → halt second third →
    halt first third

/-- An act that goes along where it gives a value, and halts where it fails. -/
abbrev Moves (along halt : Session σ → Session σ → Prop) (act : Resolving σ α)
    (session : Session σ) : Prop :=
  Ends (fun _ => along session) (fun _ => halt session) act session

theorem paced_same : Paced (fun before after : Session σ =>
      after.registry = before.registry ∧ after.owners = before.owners)
    fun before after => after.registry = before.registry ∧ after.owners = before.owners where
  still registry owners := ⟨registry, owners⟩
  halts registry owners := ⟨registry, owners⟩
  trans first second := ⟨second.1.trans first.1, second.2.trans first.2⟩
  stops first second := ⟨second.1.trans first.1, second.2.trans first.2⟩

section
variable (paced : Paced along halt)
include paced

theorem Paced.then {act : Resolving σ β} {next : β → Resolving σ α}
    (moves : Moves along halt act session) (rest : ∀ value after, Moves along halt (next value) after) :
    Moves along halt (act >>= next) session := by
  refine ends_bind.mpr (moves.mono (fun value between first => ?_) fun _ _ failed => failed)
  exact (rest value between).mono (fun _ _ last => paced.trans first last)
    fun _ _ last => paced.stops first last

theorem Paced.lift_then {outcome : Except Fault β} {next : β → Resolving σ α}
    (rest : ∀ value, outcome = .ok value → Moves along halt (next value) session) :
    Moves along halt (liftM outcome >>= next) session :=
  ends_lift_then (fun _ => paced.halts rfl rfl) rest

omit paced in
theorem moves_graph_then {next : Graph → Resolving σ α}
    (rest : Moves along halt (next session.graph) session) : Moves along halt (graph >>= next) session :=
  rest

theorem Paced.value (value : α) : Moves along halt (pure value) session := paced.still rfl rfl

theorem Paced.fault (fault : Fault) : Moves along halt (throw fault : Resolving σ α) session :=
  paced.halts rfl rfl

variable (oracle : Layout.Oracle σ)

theorem Paced.ask_moves (query : Layout.Query) : Moves along halt (ask oracle query) session := by
  rw [Moves, ask, ends_ofRun]
  dsimp only
  split
  next same =>
    exact paced.still (congrArg (·.2.registry) same.symm) (congrArg (·.2.owners) same.symm)
  next same =>
    exact paced.halts (congrArg (·.2.registry) same.symm) (congrArg (·.2.owners) same.symm)

theorem Paced.isSkipped_moves (header : Path) (node : Json) :
    Moves along halt (isSkipped header node) session := by
  have zoomed : Moves along halt (Act.zoom Session.includer
      (fun session includer => { session with includer }) (Origin.skips header session.graph.has node)) session := by
    rw [Moves, ends_zoom, ends_iff]
    exact ⟨fun _ _ => paced.still rfl rfl, fun _ _ => paced.halts rfl rfl⟩
  exact moves_graph_then <| paced.then zoomed fun _ _ => paced.still rfl rfl

theorem Paced.member_moves (layout : Label) (node : Json) :
    Moves along halt (member oracle layout node) session := by
  refine paced.lift_then fun name _ => moves_graph_then <| paced.lift_then fun type _ => ?_
  exact paced.then (paced.ask_moves oracle _) fun _ _ => paced.value _

theorem Paced.namedUnion_moves (layout name : Label) (node : Json) :
    Moves along halt (namedUnion oracle layout name node) session := by
  refine paced.lift_then fun tag _ => ?_
  dsimp only
  split
  · exact paced.fault _
  refine moves_graph_then <| paced.lift_then fun inner _ => paced.lift_then fun items _ => ?_
  refine paced.lift_then fun inside _ => paced.then (paced.ask_moves oracle _) fun _ _ => ?_
  exact paced.then (paced.ask_moves oracle _) fun _ _ => paced.value _

theorem Paced.unnamedMembers_moves {layout : Label} {inside : Json → Resolving σ (List (Field CType))}
    (inner : ∀ node (between : Session σ), Moves along halt (inside node) between) (nodes : List Json) :
    Moves along halt (unnamedMembers oracle layout inside nodes) session := by
  induction nodes generalizing session with
  | nil => exact paced.value _
  | cons node rest ih =>
    refine paced.lift_then fun kind _ => paced.lift_then fun mute _ => ?_
    split
    · exact ih
    refine paced.lift_then fun name _ => paced.lift_then fun among _ => ?_
    split
    · exact paced.then (inner node session) fun _ _ => paced.then ih fun _ _ => paced.value _
    split
    · exact paced.fault _
    split
    · exact ih
    · refine paced.then (paced.member_moves oracle layout node) fun _ _ => ?_
      exact paced.then ih fun _ _ => paced.value _

theorem Paced.flattenWith_moves (layout : Label) (fuel : Nat) (node : Json) :
    Moves along halt (flattenWith oracle layout fuel node) session := by
  induction fuel generalizing node session with
  | zero => exact paced.fault _
  | succ fuel ih =>
    refine paced.lift_then fun inner _ => paced.lift_then fun nodes _ => ?_
    exact paced.unnamedMembers_moves oracle (fun node _ => ih node) nodes

omit paced in
theorem mem_nestedIn_cons {node other : Json} {rest : List Json} (member : other ∈ nestedIn rest) :
    other ∈ nestedIn (node :: rest) := by
  rw [nestedIn, List.filter_cons]
  split
  · exact List.mem_cons_of_mem _ member
  · exact member

/-- The members of a record do what the named records among them do. -/
theorem Paced.members_moves {nested : Json → Label → Label → Resolving σ CType} (name layout : Label)
    (nodes : List Json) (inner : ∀ node ∈ nestedIn nodes, ∀ own, node.field "name" = .ok own →
      ∀ between : Session σ,
        Moves along halt (nested node own (.str (layout.plain ++ "::" ++ own.plain))) between) :
    Moves along halt (members oracle nested name layout nodes) session := by
  fun_induction members oracle nested name layout nodes generalizing session with
  | case1 => exact paced.value _
  | case2 node rest ih next =>
    have others (between : Session σ) :
        Moves along halt (members oracle nested name layout rest) between :=
      @ih between fun other member => inner other (mem_nestedIn_cons member)
    refine paced.lift_then fun kind known => paced.lift_then fun mute muted => ?_
    cases mute with
    | true => exact others session
    | false =>
    refine paced.lift_then fun among checked => ?_
    have record := isRecord_eq known checked
    cases among with
    | true =>
      refine paced.lift_then fun own named => ?_
      have called := isNamed_eq named
      cases holds : own.holds with
      | true =>
        rw [holds] at called
        refine paced.lift_then fun body found => ?_
        have bodied := hasBody_eq found
        dsimp only
        cases empty : body.isNull with
        | true => exact others session
        | false =>
          have first : node ∈ nestedIn (node :: rest) := by
            rw [nestedIn_record record called (by rw [bodied, empty]; rfl)]
            exact List.mem_cons_self
          exact paced.then (inner node first own named session) fun _ after => others after
      | false =>
        cases rest with
        | nil => exact paced.flattenWith_moves oracle layout _ node
        | cons following after =>
          obtain ⟨afterNext, afterThis⟩ := next
          refine paced.lift_then fun naming _ => ?_
          cases naming with
          | true =>
            refine paced.lift_then fun field _ => ?_
            refine paced.then (paced.namedUnion_moves oracle layout field node) fun _ between => ?_
            refine paced.then (@afterNext between fun other member =>
              inner other (mem_nestedIn_cons (mem_nestedIn_cons member))) fun _ _ => paced.value _
          | false =>
            refine paced.then (paced.flattenWith_moves oracle layout _ node) fun _ between => ?_
            exact paced.then (others between) fun _ _ => paced.value _
    | false =>
      cases kind.isKind "FieldDecl" with
      | false => exact paced.fault _
      | true =>
      refine paced.lift_then fun own _ => ?_
      cases own.holds with
      | false =>
        refine paced.lift_then fun implicit _ => ?_
        cases implicit.holds with
        | true => exact others session
        | false => exact paced.fault _
      | true =>
        refine paced.then (paced.member_moves oracle layout node) fun _ between => ?_
        exact paced.then (others between) fun _ _ => paced.value _

end

end

end NativeBindings.Resolve
