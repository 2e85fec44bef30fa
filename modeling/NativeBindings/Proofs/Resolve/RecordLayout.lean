import NativeBindings.Proofs.Resolve.Closure

/-!
Where the members of records lie. The fields of a record are read off its node: which members have a
place in it, in which order and under which names they are asked for. A resolution that succeeds gives
just these fields, and declares the named records within before the record itself.
-/
namespace NativeBindings

namespace Graph

def enterAll (graph : Graph) (entries : List (Label × CType)) : Graph := entries.foldl enter graph

theorem enterAll_append (graph : Graph) (first second : List (Label × CType)) :
    graph.enterAll (first ++ second) = (graph.enterAll first).enterAll second :=
  List.foldl_append

end Graph

namespace Resolve

open Json Act Outcome

/-- Whether a check of a node says yes. -/
def affirms : Except Fault Bool → Bool
  | .ok answer => answer
  | .error _ => false

def isRecord (node : Json) : Bool := affirms do (← node.field "kind").isAmong recordKinds

def isField (node : Json) : Bool := affirms do return (← node.field "kind").isKind "FieldDecl"

def isNamed (node : Json) : Bool := affirms do return (← node.field "name").holds

def hasBody (node : Json) : Bool := affirms do return !(← node.field "inner").isNull

section
variable {node kind value : Json} {answer : Bool}

theorem isRecord_eq (known : node.field "kind" = .ok kind)
    (among : kind.isAmong recordKinds = .ok answer) : isRecord node = answer := by
  simp [isRecord, known, among, bind, Except.bind, affirms]

theorem isField_eq (known : node.field "kind" = .ok kind) : isField node = kind.isKind "FieldDecl" := by
  simp [isField, known, bind, Except.bind, pure, Except.pure, affirms]

theorem isNamed_eq (named : node.field "name" = .ok value) : isNamed node = value.holds := by
  simp [isNamed, named, bind, Except.bind, pure, Except.pure, affirms]

theorem hasBody_eq (inner : node.field "inner" = .ok value) : hasBody node = !value.isNull := by
  simp [hasBody, inner, bind, Except.bind, pure, Except.pure, affirms]

theorem kind_eq {word : String} (known : node.field "kind" = .ok kind)
    (same : kind.isKind word = true) : node.field "kind" = .ok (.str word) := by
  cases kind with
  | str s =>
    obtain rfl : s = word := by simpa [isKind] using same
    exact known
  | _ => cases same

theorem asText_eq_ok {use text : String} (done : value.asText use = .ok text) : value = .str text := by
  cases value with
  | str s => exact congrArg _ (Except.ok.inj done)
  | _ => cases done

end

/-- The nodes within a node. -/
def within (node : Json) : List Json :=
  match node.get? "inner" with
  | some (arr items) => items
  | _ => []

theorem sizeOf_within_le (node : Json) : sizeOf (within node) ≤ sizeOf node := by
  unfold within
  split
  next items found =>
    cases node with
    | obj entries =>
      obtain ⟨own, -, member⟩ := Table.mem_of_find? found
      have entry := List.sizeOf_lt_of_mem member
      simp only [Prod.mk.sizeOf_spec, arr.sizeOf_spec] at entry
      rw [obj.sizeOf_spec]
      omega
    | _ => cases found
  next => cases node <;> simp

/-- The fields in unnamed records, at any depth. -/
def fieldsIn : List Json → List Json
  | [] => []
  | node :: rest =>
    if affirms (isMute node) then fieldsIn rest
    else if isRecord node && !isNamed node then fieldsIn (within node) ++ fieldsIn rest
    else if isField node && isNamed node then node :: fieldsIn rest
    else fieldsIn rest
termination_by nodes => sizeOf nodes
decreasing_by
  all_goals
    have inside := sizeOf_within_le node
    simp only [List.cons.sizeOf_spec]
    omega

/-- A place in a record: that of a field, or that of an unnamed union which a field gives its name. -/
inductive Part where
  | field (node : Json)
  | union (naming record : Json)

/-- The places in a record with these members. Named records within have no place of their own. -/
def parts : List Json → List Part
  | [] => []
  | node :: rest =>
    if affirms (isMute node) then parts rest
    else if isRecord node then
      if isNamed node then parts rest
      else
        match rest with
        | following :: after =>
          if affirms (isNaming following node) then .union following node :: parts after
          else (fieldsIn (within node)).map .field ++ parts (following :: after)
        | [] => (fieldsIn (within node)).map .field
    else if isField node && isNamed node then .field node :: parts rest
    else parts rest

/-- The named records with a body among the members of a record. -/
def nestedIn (nodes : List Json) : List Json :=
  nodes.filter fun node => isRecord node && isNamed node && hasBody node

section
variable {node following : Json} {rest : List Json}

theorem parts_mute (mute : affirms (isMute node) = true) : parts (node :: rest) = parts rest := by
  cases rest <;> simp [parts, mute]

theorem parts_named (counts : affirms (isMute node) = false) (record : isRecord node = true)
    (named : isNamed node = true) : parts (node :: rest) = parts rest := by
  cases rest <;> simp [parts, counts, record, named]

theorem parts_union (counts : affirms (isMute node) = false) (record : isRecord node = true)
    (unnamed : isNamed node = false) (naming : affirms (isNaming following node) = true) :
    parts (node :: following :: rest) = .union following node :: parts rest := by
  simp [parts, counts, record, unnamed, naming]

theorem parts_unnamed (counts : affirms (isMute node) = false) (record : isRecord node = true)
    (unnamed : isNamed node = false)
    (alone : ∀ following ∈ rest.head?, affirms (isNaming following node) = false) :
    parts (node :: rest) = (fieldsIn (within node)).map .field ++ parts rest := by
  cases rest with
  | nil => simp [parts, counts, record, unnamed]
  | cons following after => simp [parts, counts, record, unnamed, alone following rfl]

theorem parts_field (counts : affirms (isMute node) = false) (plain : isRecord node = false) :
    parts (node :: rest) =
      if isField node && isNamed node then .field node :: parts rest else parts rest := by
  cases rest <;> simp [parts, counts, plain]

theorem nestedIn_record (record : isRecord node = true) (named : isNamed node = true)
    (body : hasBody node = true) : nestedIn (node :: rest) = node :: nestedIn rest := by
  simp [nestedIn, record, named, body]

theorem nestedIn_other (other : (isRecord node && isNamed node && hasBody node) = false) :
    nestedIn (node :: rest) = nestedIn rest := by
  simp [nestedIn, other]

/-- A record is nothing but a record. -/
theorem kind_of_isRecord (record : isRecord node = true) :
    node.field "kind" = .ok (.str "RecordDecl") ∨ node.field "kind" = .ok (.str "CXXRecordDecl") := by
  cases known : node.field "kind" with
  | error fault => simp [isRecord, known, bind, Except.bind, affirms] at record
  | ok kind =>
    cases kind with
    | str s =>
      have listed : recordKinds.contains s = true := by
        rw [← record]
        exact (isRecord_eq known rfl).symm
      simpa [recordKinds] using listed
    | arr items | obj entries =>
      rw [isRecord, known] at record
      cases record
    | _ => exact absurd (isRecord_eq known rfl) (by rw [record]; decide)

theorem isMute_eq {kind : String} (known : node.field "kind" = .ok (.str kind)) :
    isMute node = .ok (kind == "FullComment" || "Attr".toList.isSuffixOf kind.toList ||
      kind == "IndirectFieldDecl") := by
  have given : node.fieldOr "kind" (.str "") = .ok (.str kind) := by
    cases node with
    | obj entries =>
      cases found : Table.find? "kind" entries with
      | none => simp [field, fieldOr, found] at known
      | some value => simpa [field, fieldOr, found] using known
    | _ => cases known
  rw [isMute, isSkippable, given, known]
  rfl

/-- No record is a comment, an attribute or an indirect field. -/
theorem isMute_record (record : isRecord node = true) : isMute node = .ok false := by
  rcases kind_of_isRecord record with known | known
  · rw [isMute_eq known]
    rfl
  · rw [isMute_eq known]
    rfl

theorem isRecord_of_mute (mute : isMute node = .ok true) : isRecord node = false := by
  cases record : isRecord node with
  | false => rfl
  | true =>
    rw [isMute_record record] at mute
    cases mute

/-- No record names the record before it. -/
theorem isRecord_of_naming (naming : isNaming following node = .ok true) :
    isRecord following = false := by
  cases record : isRecord following with
  | false => rfl
  | true =>
    unfold isNaming at naming
    split at naming
    · cases naming
    obtain ⟨kind, known, naming⟩ := bind_eq_ok.mp naming
    rcases kind_of_isRecord record with same | same
    · obtain rfl := Except.ok.inj (known.symm.trans same)
      cases naming
    · obtain rfl := Except.ok.inj (known.symm.trans same)
      cases naming

end

/-- A variant is of the type that is spelled, and at the start of its union. -/
structure Variant (graph : Graph) (node : Json) (variant : Field CType) : Prop where
  name : node.field "name" = .ok variant.name
  type : spelledType graph node = .ok variant.type
  offset : variant.offset = .int 0
  size : variant.size = variant.type.size

section
variable (answers : Layout.Query → Except Fault Amount)

/-- What a place in a record with a layout name is to be, where types are looked up in a graph. -/
inductive Placed (layout : Label) (graph : Graph) : Part → Field CType → Prop
  | field {node : Json} {field : Field CType} (name : node.need "name" = .ok field.name)
      (type : spelledType graph node = .ok field.type)
      (offset : answers (.offsetOf layout field.name) = .ok field.offset)
      (size : field.size = field.type.size) : Placed layout graph (.field node) field
  | union {naming record : Json} {field : Field CType} {variants : List (Field CType)}
      (name : naming.need "name" = .ok field.name)
      (type : field.type = .union { name := .null, size := field.size } variants)
      (inside : List.Forall₂ (Variant graph)
        ((within record).filter fun node => !affirms (isSkippable node)) variants)
      (offset : answers (.offsetOf layout field.name) = .ok field.offset)
      (size : answers (.fieldSizeOf layout field.name) = .ok field.size) :
      Placed layout graph (.union naming record) field

/-- A place where the types are looked up after some of the declarations that were made. -/
def PlacedAmid (layout : Label) (before : Graph) (declared : List (Label × CType)) (part : Part)
    (field : Field CType) : Prop :=
  ∃ done, done <+: declared ∧ Placed answers layout (before.enterAll done) part field

mutual

/-- A record is laid out under its layout name, and declared after the records within it; then come
the aliases that waited for it. The list is of all that is declared, in order. -/
inductive LaidOut : Graph → Json → Label → Label → CType → List (Label × CType) → Prop
  | intro {before : Graph} {node : Json} {name layout : Label} {size : Amount}
      {fields : List (Field CType)} {earlier waiting : List (Label × CType)}
      (hoisted : Hoisted before layout (nestedIn (within node)) earlier)
      (sized : answers (.sizeOf layout) = .ok size)
      (placed : List.Forall₂ (PlacedAmid answers layout before earlier) (parts (within node)) fields)
      (aliases : ∀ entry ∈ waiting, ∃ header target, entry.2 = .synonym header target false) :
      LaidOut before node name layout (.record { name, size } fields)
        (earlier ++ (name, .record { name, size } fields) :: waiting)

/-- The named records within a record are laid out in turn, each under the layout name of the outer
one and its own name. -/
inductive Hoisted : Graph → Label → List Json → List (Label × CType) → Prop
  | nil {before : Graph} {layout : Label} : Hoisted before layout [] []
  | cons {before : Graph} {layout own : Label} {node : Json} {nodes : List Json} {type : CType}
      {declared others : List (Label × CType)} (name : node.field "name" = .ok own)
      (first : LaidOut before node own (.str (layout.plain ++ "::" ++ own.plain)) type declared)
      (rest : Hoisted (before.enterAll declared) layout nodes others) :
      Hoisted before layout (node :: nodes) (declared ++ others)

end

end

section
variable {answers : Layout.Query → Except Fault Amount} {layout : Label} {before after : Graph}
  {nested : List Json} {places : List Part} {fields : List (Field CType)}

/-- What the members of a record come to: the declarations of the records within, and the fields. -/
def Composed (answers : Layout.Query → Except Fault Amount) (layout : Label) (before : Graph)
    (nested : List Json) (places : List Part) (fields : List (Field CType)) (after : Graph) : Prop :=
  ∃ earlier, Hoisted answers before layout nested earlier ∧ after = before.enterAll earlier ∧
    List.Forall₂ (PlacedAmid answers layout before earlier) places fields

theorem Composed.nil : Composed answers layout before [] [] [] before := ⟨[], .nil, rfl, .nil⟩

theorem Composed.place {more : List Part} {others : List (Field CType)}
    (placed : List.Forall₂ (Placed answers layout before) places fields)
    (rest : Composed answers layout before nested more others after) :
    Composed answers layout before nested (places ++ more) (fields ++ others) after := by
  obtain ⟨earlier, hoisted, same, amid⟩ := rest
  refine ⟨earlier, hoisted, same, List.rel_append (placed.imp fun part field here => ?_) amid⟩
  exact ⟨[], List.nil_prefix, here⟩

theorem Composed.hoist {own : Label} {node : Json} {type : CType} {declared : List (Label × CType)}
    (name : node.field "name" = .ok own)
    (first : LaidOut answers before node own (.str (layout.plain ++ "::" ++ own.plain)) type declared)
    (rest : Composed answers layout (before.enterAll declared) nested places fields after) :
    Composed answers layout before (node :: nested) places fields after := by
  obtain ⟨others, hoisted, same, amid⟩ := rest
  refine ⟨declared ++ others, .cons name first hoisted, ?_, amid.imp fun part field placed => ?_⟩
  · rw [Graph.enterAll_append, same]
  · obtain ⟨done, early, placed⟩ := placed
    refine ⟨declared ++ done, (List.prefix_append_right_inj declared).mpr early, ?_⟩
    rw [Graph.enterAll_append]
    exact placed

end

section
variable {σ α β : Type} {session : Session σ} {good : α → Session σ → Prop}

/-- What holds of an act that succeeds. -/
abbrev Gives (good : α → Session σ → Prop) (act : Resolving σ α) (session : Session σ) : Prop :=
  Ends good (fun _ _ => True) act session

theorem Gives.then {first : β → Session σ → Prop} {act : Resolving σ β} {next : β → Resolving σ α}
    (gives : Gives first act session)
    (rest : ∀ value after, first value after → Gives good (next value) after) :
    Gives good (act >>= next) session :=
  ends_bind.mpr (gives.mono rest fun _ _ _ => trivial)

theorem gives_lift_then {outcome : Except Fault β} {next : β → Resolving σ α}
    (rest : ∀ value, outcome = .ok value → Gives good (next value) session) :
    Gives good (liftM outcome >>= next) session :=
  ends_bind.mpr ((ends_lift outcome).mpr ⟨rest, fun _ _ => trivial⟩)

theorem gives_graph_then {next : Graph → Resolving σ α} (rest : Gives good (next session.graph) session) :
    Gives good (graph >>= next) session := rest

theorem gives_forM {P : Session σ → Prop} {items : List β} {step : β → Resolving σ Unit}
    (start : P session)
    (keeps : ∀ item before, P before → Gives (fun _ => P) (step item) before) :
    Gives (fun _ => P) (items.forM step) session :=
  ends_forM start fun item _ before kept => keeps item before kept

theorem gives_pure {value : α} (right : good value session) : Gives good (pure value) session := right

theorem gives_throw (fault : Fault) : Gives good (throw fault : Resolving σ α) session := trivial

end

section
variable {σ : Type} {session : Session σ}

/-- Some aliases were declared, and nothing else. -/
def Aliased (before after : Graph) : Prop :=
  ∃ waiting : List (Label × CType), after = before.enterAll waiting ∧
    ∀ entry ∈ waiting, ∃ header target, entry.2 = .synonym header target false

theorem Aliased.refl (graph : Graph) : Aliased graph graph := ⟨[], rfl, by simp⟩

theorem Aliased.trans {first second third : Graph} (left : Aliased first second)
    (right : Aliased second third) : Aliased first third := by
  obtain ⟨waiting, rfl, aliases⟩ := left
  obtain ⟨others, rfl, more⟩ := right
  refine ⟨waiting ++ others, (first.enterAll_append waiting others).symm, fun entry member => ?_⟩
  rcases List.mem_append.mp member with member | member
  · exact aliases entry member
  · exact more entry member

theorem declare_gives (name : Label) (type : CType) :
    Gives (fun item after => item = type.numbered session.graph.issued ∧
      after.graph = session.graph.enter (name, type)) (declare name type) session := by
  refine gives_lift_then fun key keyed => ?_
  obtain rfl := asKey_eq_ok keyed
  exact ⟨rfl, session.registry.declare_graph key type⟩

theorem release_gives (name : Label) :
    Gives (fun _ after => after.graph = session.graph) (modifyGet fun session : Session σ =>
      let (waiters, registry) := session.registry.release name
      (waiters, { session with registry })) session := rfl

theorem registerWith_gives (fuel : Nat) (name : Label) (type : CType) :
    Gives (fun item after => item = type.numbered session.graph.issued ∧
      Aliased (session.graph.enter (name, type)) after.graph) (registerWith fuel name type) session := by
  induction fuel generalizing session name type with
  | zero =>
    refine (declare_gives name type).mono (fun item after ends => ?_) fun _ _ _ => trivial
    exact ⟨ends.1, ends.2 ▸ .refl _⟩
  | succ fuel ih =>
    refine (declare_gives name type).then fun item declared entered => ?_
    refine (release_gives name).then fun waiters before same => ?_
    have walk : Gives (fun _ after => Aliased before.graph after.graph) (waiters.forM fun waiter => do
        note (Journal.debug ("Resolved lazy alias " ++ waiter.plain ++ " -> " ++ name.plain))
        let _ ← registerWith fuel waiter (Registry.aliasOf waiter item)) before := by
      refine gives_forM (.refl _) fun waiter between aliased => ?_
      refine ends_bind.mpr ((ends_modify _).mpr ?_)
      refine (ih waiter (Registry.aliasOf waiter item)).then fun _ after further => ?_
      refine gives_pure (aliased.trans (Aliased.trans ?_ further.2))
      exact ⟨[(waiter, Registry.aliasOf waiter item)], rfl, by simp [Registry.aliasOf]⟩
    refine walk.then fun _ after aliased => ?_
    refine ⟨entered.1, ?_⟩
    rw [← entered.2, ← same]
    exact aliased

theorem register_gives (name : Label) (type : CType) :
    Gives (fun item after => item = type.numbered session.graph.issued ∧
      Aliased (session.graph.enter (name, type)) after.graph) (register name type) session :=
  registerWith_gives _ name type

theorem variants_eq_ok {graph : Graph} {nodes : List Json} {found : List (Field CType)}
    (done : variants graph nodes = .ok found) :
    List.Forall₂ (Variant graph) (nodes.filter fun node => !affirms (isSkippable node)) found := by
  induction nodes generalizing found with
  | nil =>
    obtain rfl := pure_eq_ok.mp done
    exact .nil
  | cons node rest ih =>
    obtain ⟨skips, checked, done⟩ := bind_eq_ok.mp done
    rw [List.filter_cons, checked]
    cases skips with
    | true => exact ih done
    | false =>
      obtain ⟨name, named, done⟩ := bind_eq_ok.mp done
      obtain ⟨kind, -, done⟩ := bind_eq_ok.mp done
      split at done
      · cases done
      obtain ⟨type, spelled, done⟩ := bind_eq_ok.mp done
      obtain ⟨others, walked, done⟩ := bind_eq_ok.mp done
      obtain rfl := pure_eq_ok.mp done
      exact .cons ⟨named, spelled, rfl, rfl⟩ (ih walked)

end

/-- The children of a node are the nodes within, or no list. -/
theorem children_eq_ok {node inner : Json} (done : children node = .ok inner) :
    inner = arr (within node) ∨ inner.holds = true ∧ ∀ nodes, inner ≠ arr nodes := by
  obtain ⟨value, found, done⟩ := bind_eq_ok.mp done
  obtain rfl := pure_eq_ok.mp done
  cases node with
  | obj entries =>
    have same : (obj entries).get? "inner" = Table.find? "inner" entries := rfl
    obtain rfl := Except.ok.inj found
    rw [within, same, Json.orElse]
    cases Table.find? "inner" entries with
    | none => exact .inl rfl
    | some value =>
      cases holds : value.holds with
      | true => cases value <;> simp_all
      | false => cases value <;> simp_all [Json.holds]
  | _ => cases found

/-- Other children than the nodes within start with a text, which is no member. -/
theorem items_eq_ok {node inner : Json} (listed : children node = .ok inner) {nodes : List Json}
    (done : inner.items = .ok nodes) : nodes = within node ∨ ∃ s rest, nodes = .str s :: rest := by
  rcases children_eq_ok listed with rfl | ⟨holds, other⟩
  · exact .inl (Except.ok.inj done).symm
  right
  cases inner with
  | str s =>
    obtain rfl := Except.ok.inj done
    cases chars : s.toList with
    | nil => simp_all [Json.holds]
    | cons c rest => exact ⟨_, _, rfl⟩
  | obj entries =>
    obtain rfl := Except.ok.inj done
    cases entries with
    | nil => cases holds
    | cons entry rest => exact ⟨_, _, rfl⟩
  | arr items => exact absurd rfl (other items)
  | _ => cases done

theorem items_of_sequence {inner : Json} {nodes : List Json} (done : inner.sequence = .ok nodes) :
    inner.items = .ok nodes := by
  unfold Json.sequence at done
  split at done
  next => exact done
  next => exact done
  next => exact done
  next => cases done
  next => cases done

section
variable {σ : Type} {oracle : Layout.Oracle σ} {answers : Layout.Query → Except Fault Amount}
  (functional : ∀ query state, (oracle query state).1 = answers query) {session : Session σ}
include functional

theorem ask_gives (query : Layout.Query) :
    Gives (fun answer after => answers query = .ok answer ∧ after.graph = session.graph)
      (ask oracle query) session := by
  have same := functional query session.oracle
  rw [Gives, ask, ends_ofRun]
  dsimp only
  split
  next result =>
    obtain ⟨outcome, rfl⟩ := Prod.mk.inj result
    exact ⟨same ▸ outcome, rfl⟩
  next => trivial

theorem member_gives (layout : Label) (node : Json) :
    Gives (fun field after => Placed answers layout session.graph (.field node) field ∧
      after.graph = session.graph) (member oracle layout node) session := by
  refine gives_lift_then fun name named => gives_graph_then ?_
  refine gives_lift_then fun type spelled => ?_
  refine (ask_gives functional _).then fun offset after asked => gives_pure ⟨?_, asked.2⟩
  exact .field named spelled asked.1 rfl

theorem namedUnion_gives {naming : Json} {layout name : Label} (named : naming.need "name" = .ok name)
    (node : Json) :
    Gives (fun field after => Placed answers layout session.graph (.union naming node) field ∧
      after.graph = session.graph) (namedUnion oracle layout name node) session := by
  refine gives_lift_then fun tag _ => ?_
  dsimp only
  split
  · exact gives_throw _
  refine gives_graph_then <| gives_lift_then fun inner listed => gives_lift_then fun nodes items => ?_
  refine gives_lift_then fun inside walked => ?_
  have variants : List.Forall₂ (Variant session.graph)
      ((within node).filter fun node => !affirms (isSkippable node)) inside := by
    rcases items_eq_ok listed items with rfl | ⟨s, rest, rfl⟩
    · exact variants_eq_ok walked
    · cases walked
  refine (ask_gives functional _).then fun offset asked answered => ?_
  refine (ask_gives functional _).then fun size after sized => gives_pure ⟨?_, ?_⟩
  · exact .union named rfl variants answered.1 sized.1
  · rw [sized.2, answered.2]

/-- All fields of a list of places are where they are to be. -/
abbrev AllPlaced (answers : Layout.Query → Except Fault Amount) (layout : Label) (graph : Graph) :
    List Part → List (Field CType) → Prop := List.Forall₂ (Placed answers layout graph)

theorem unnamedMembers_gives {layout : Label} {inside : Json → Resolving σ (List (Field CType))}
    (inner : ∀ node (between : Session σ), Gives (fun fields after =>
      AllPlaced answers layout between.graph ((fieldsIn (within node)).map .field) fields ∧
        after.graph = between.graph) (inside node) between) (nodes : List Json) :
    Gives (fun fields after =>
      AllPlaced answers layout session.graph ((fieldsIn nodes).map .field) fields ∧
        after.graph = session.graph) (unnamedMembers oracle layout inside nodes) session := by
  induction nodes generalizing session with
  | nil =>
    rw [fieldsIn]
    exact gives_pure ⟨.nil, rfl⟩
  | cons node rest ih =>
    refine gives_lift_then fun kind known => gives_lift_then fun mute muted => ?_
    rw [fieldsIn, muted, affirms]
    split
    · exact ih
    refine gives_lift_then fun name named => gives_lift_then fun among checked => ?_
    rw [isRecord_eq known checked, isNamed_eq named, isField_eq known]
    split
    · rw [List.map_append]
      refine (inner node session).then fun some between given => ?_
      refine (given.2 ▸ @ih between).then fun others after walked => ?_
      exact gives_pure ⟨List.rel_append given.1 walked.1, walked.2⟩
    cases kind.isKind "FieldDecl" with
    | false => exact gives_throw _
    | true =>
    cases name.holds with
    | false => exact ih
    | true =>
      refine (member_gives functional layout node).then fun field between given => ?_
      refine (given.2 ▸ @ih between).then fun others after walked => ?_
      exact gives_pure ⟨.cons given.1 walked.1, walked.2⟩

theorem flattenWith_gives (layout : Label) (fuel : Nat) (node : Json) :
    Gives (fun fields after =>
      AllPlaced answers layout session.graph ((fieldsIn (within node)).map .field) fields ∧
        after.graph = session.graph) (flattenWith oracle layout fuel node) session := by
  induction fuel generalizing node session with
  | zero => exact gives_throw _
  | succ fuel ih =>
    refine gives_lift_then fun inner listed => gives_lift_then fun nodes items => ?_
    rcases items_eq_ok listed items with rfl | ⟨s, rest, rfl⟩
    · exact unnamedMembers_gives functional (fun node between => ih node) (within node)
    · exact gives_lift_then fun kind known => by cases known

/-- What a record within a record comes to. -/
def NestedGives (answers : Layout.Query → Except Fault Amount)
    (nested : Json → Label → Label → Resolving σ CType) : Prop :=
  ∀ node own layout (between : Session σ), Gives (fun _ after => ∃ type declared,
    LaidOut answers between.graph node own layout type declared ∧
      after.graph = between.graph.enterAll declared) (nested node own layout) between

theorem members_gives {nested : Json → Label → Label → Resolving σ CType}
    (inner : NestedGives answers nested) (name layout : Label) (nodes : List Json) :
    Gives (fun fields after => Composed answers layout session.graph (nestedIn nodes) (parts nodes)
      fields after.graph) (members oracle nested name layout nodes) session := by
  fun_induction members oracle nested name layout nodes generalizing session with
  | case1 =>
    rw [parts]
    exact gives_pure .nil
  | case2 node rest ih next =>
    refine gives_lift_then fun kind known => gives_lift_then fun mute muted => ?_
    cases mute with
    | true =>
      rw [nestedIn_other (by rw [isRecord_of_mute muted]; rfl), parts_mute (by rw [muted]; rfl)]
      exact ih
    | false =>
    have counts : affirms (isMute node) = false := by
      rw [muted]
      rfl
    refine gives_lift_then fun among checked => ?_
    have record := isRecord_eq known checked
    cases among with
    | true =>
      -- A record is declared, is the type of the following field or is taken apart.
      refine gives_lift_then fun own named => ?_
      have name := isNamed_eq named
      cases holds : own.holds with
      | true =>
        rw [holds] at name
        rw [if_pos rfl, parts_named counts record name]
        refine gives_lift_then fun body found => ?_
        have bodied := hasBody_eq found
        dsimp only
        cases empty : body.isNull with
        | true =>
          rw [nestedIn_other (by rw [bodied, empty]; simp), if_neg (by simp)]
          exact ih
        | false =>
          rw [nestedIn_record record name (by rw [bodied, empty]; rfl),
            if_pos (show (!false) = true from rfl)]
          refine (inner node own _ session).then fun _ between declared => ?_
          obtain ⟨type, entries, first, entered⟩ := declared
          refine ih.mono (fun fields after composed => ?_) fun _ _ _ => trivial
          exact .hoist named first (entered ▸ composed)
      | false =>
        rw [holds] at name
        rw [if_neg (by simp), nestedIn_other (by rw [name]; simp)]
        cases rest with
        | nil =>
          rw [parts_unnamed counts record name (by simp), parts]
          refine (flattenWith_gives functional layout _ node).mono (fun fields after placed => ?_)
            fun _ _ _ => trivial
          rw [← List.append_nil fields, placed.2]
          exact .place placed.1 .nil
        | cons following after =>
          obtain ⟨afterNext, afterThis⟩ := next
          refine gives_lift_then fun naming checked => ?_
          cases naming with
          | true =>
            rw [if_pos rfl, parts_union counts record name (by rw [checked]; rfl),
              nestedIn_other (by rw [isRecord_of_naming checked]; rfl)]
            refine gives_lift_then fun field named => ?_
            refine (namedUnion_gives functional named node).then fun first between placed => ?_
            refine (@afterNext between).then fun others last composed => gives_pure ?_
            exact .place (.cons placed.1 .nil) (placed.2 ▸ composed)
          | false =>
            have alone : ∀ other ∈ (following :: after).head?,
                affirms (isNaming other node) = false := by
              rintro other ⟨⟩
              rw [checked]
              rfl
            rw [if_neg (by simp), parts_unnamed counts record name alone]
            refine (flattenWith_gives functional layout _ node).then fun fields between placed => ?_
            refine (@afterThis between).then fun others last composed => gives_pure ?_
            exact .place placed.1 (placed.2 ▸ composed)
    | false =>
      rw [nestedIn_other (by rw [record]; rfl), parts_field counts record, isField_eq known]
      cases kind.isKind "FieldDecl" with
      | false => exact gives_throw _
      | true =>
      refine gives_lift_then fun own named => ?_
      rw [isNamed_eq named]
      cases own.holds with
      | false =>
        refine gives_lift_then fun implicit _ => ?_
        cases implicit.holds with
        | true => exact ih
        | false => exact gives_throw _
      | true =>
        refine (member_gives functional layout node).then fun field between placed => ?_
        refine (@ih between).then fun others last composed => gives_pure ?_
        exact .place (.cons placed.1 .nil) (placed.2 ▸ composed)

theorem recordWith_gives (fuel : Nat) (node : Json) (name layout : Label) :
    Gives (fun type after => ∃ size fields number declared,
      type = .record { name, size, serial := some number } fields ∧
        LaidOut answers session.graph node name layout (.record { name, size } fields) declared ∧
          after.graph = session.graph.enterAll declared)
      (recordWith oracle fuel node name layout) session := by
  induction fuel generalizing node name layout session with
  | zero => exact gives_throw _
  | succ fuel ih =>
    have inner : NestedGives answers (recordWith oracle fuel) := by
      intro node own layout between
      refine (ih node own layout).mono (fun type after laid => ?_) fun _ _ _ => trivial
      obtain ⟨size, fields, number, declared, -, laid, entered⟩ := laid
      exact ⟨_, declared, laid, entered⟩
    refine (ask_gives functional _).then fun size asked sized => ?_
    refine gives_lift_then fun children listed => gives_lift_then fun nodes walked => ?_
    rcases items_eq_ok listed (items_of_sequence walked) with rfl | ⟨s, rest, rfl⟩
    · refine (members_gives functional inner name layout (within node)).then fun fields between made => ?_
      obtain ⟨earlier, hoisted, middle, placed⟩ := made
      refine (register_gives name (.record { name, size } fields)).mono (fun type after done => ?_)
        fun _ _ _ => trivial
      obtain ⟨rfl, waiting, last, aliases⟩ := done
      rw [sized.2] at hoisted placed middle
      refine ⟨size, fields, _, _, rfl, .intro hoisted sized.1 placed aliases, ?_⟩
      rw [last, middle, Graph.enterAll_append]
      rfl
    · have refused : Gives (fun _ _ => False)
          (members oracle (recordWith oracle fuel) name layout (.str s :: rest)) asked := by
        unfold members
        exact gives_lift_then fun kind known => by cases known
      exact refused.then fun _ _ impossible => impossible.elim

omit functional in
theorem adopted_of_null {following : Option Json} {node : Json} {adopted : Bool}
    (found : nameOf following node = .ok (null, adopted)) : adopted = false := by
  obtain ⟨own, -, found⟩ := bind_eq_ok.mp found
  split at found
  next holds =>
    obtain ⟨rfl, -⟩ := Prod.mk.inj (pure_eq_ok.mp found)
    cases holds
  next =>
    obtain ⟨name, -, found⟩ := bind_eq_ok.mp found
    obtain ⟨rfl, rfl⟩ := Prod.mk.inj (pure_eq_ok.mp found)
    rfl

theorem topRecord_gives (following : Option Json) (node : Json) :
    Gives (fun adopted after => ∃ name, nameOf following node = .ok (name, adopted) ∧
      ((name.isNull || !hasBody node) = true → after.graph = session.graph) ∧
      ((name.isNull || !hasBody node) = false → ∃ type declared,
        LaidOut answers session.graph node name name type declared ∧
          after.graph = session.graph.enterAll declared)) (topRecord oracle following node) session := by
  refine gives_lift_then fun named found => ?_
  split
  next adopted =>
    obtain rfl := adopted_of_null found
    refine gives_lift_then fun what _ => gives_lift_then fun told _ => ?_
    exact ⟨null, found, fun _ => rfl, nofun⟩
  next name adopted plain =>
    have given : name.isNull = false := by
      cases name with
      | null => exact absurd rfl plain
      | _ => rfl
    refine gives_lift_then fun inner body => ?_
    have bodied := hasBody_eq body
    dsimp only
    cases empty : inner.isNull with
    | true =>
      rw [if_pos rfl]
      refine ⟨name, found, fun _ => rfl, ?_⟩
      rw [bodied, empty]
      simp
    | false =>
      rw [if_neg (by simp)]
      refine (recordWith_gives functional _ node name name).then fun type after laid => gives_pure ?_
      obtain ⟨size, fields, number, declared, -, laid, entered⟩ := laid
      refine ⟨name, found, ?_, fun _ => ⟨_, declared, laid, entered⟩⟩
      rw [bodied, empty, given]
      nofun

/-- A record that is resolved has the size of its layout name, and one field for each of its places,
in order, at the offset that was asked for. The records within it are declared before it, each under
the layout name that the nesting gives. A record of the unit goes by its own name or by the name that
it adopted. -/
theorem record_lays_out :
    (∀ node name layout (session : Session σ) type after,
      (record oracle node name layout).runOn session = (.ok type, after) →
        ∃ size fields number declared,
          type = .record { name, size, serial := some number } fields ∧
            LaidOut answers session.graph node name layout (.record { name, size } fields) declared ∧
            after.graph = session.graph.enterAll declared) ∧
    ∀ following node (session : Session σ) adopted after,
      (topRecord oracle following node).runOn session = (.ok adopted, after) →
        ∃ name, nameOf following node = .ok (name, adopted) ∧
          ((name.isNull || !hasBody node) = true → after.graph = session.graph) ∧
          ((name.isNull || !hasBody node) = false → ∃ type declared,
            LaidOut answers session.graph node name name type declared ∧
              after.graph = session.graph.enterAll declared) := by
  constructor
  · intro node name layout session type after run
    have gives : Gives _ (record oracle node name layout) session :=
      recordWith_gives functional (node.depth + 1) node name layout
    have succeeds := (ends_iff.mp gives).1
    rw [run] at succeeds
    exact succeeds type rfl
  · intro following node session adopted after run
    have gives : Gives _ (topRecord oracle following node) session :=
      topRecord_gives functional following node
    have succeeds := (ends_iff.mp gives).1
    rw [run] at succeeds
    exact succeeds adopted rfl

end

theorem runs_of_isOk {σ α : Type} {act : Act σ α} {state : σ}
    (fine : (act.runOn state).1.isOk = true) : ∃ value after, act.runOn state = (.ok value, after) := by
  cases run : act.runOn state with
  | mk outcome after =>
    cases outcome with
    | ok value => exact ⟨value, after, rfl⟩
    | error fault =>
      rw [run] at fine
      cases fine

/-- A compiler that answers by a table. -/
def answering (answers : Layout.Query → Except Fault Amount) : Layout.Oracle Unit :=
  fun query state => (answers query, [], state)

/-- A record with a record within, a union that a field names, and a union in an unnamed record. -/
def outerNode : Json :=
  let field (name : String) : List (String × Json) := [("kind", .str "FieldDecl"), ("name", .str name),
    ("type", .obj [("qualType", .str "int")])]
  let record (tag : String) (more : List (String × Json)) (inner : List Json) : Json :=
    .obj ([("kind", .str "RecordDecl"), ("tagUsed", .str tag), ("inner", .arr inner)] ++ more)
  let place (offset : Int) : Json := .obj [("offset", .int offset)]
  let naming : Json := .obj (field "value" ++ [("range", .obj [("begin", place 20)])])
  record "struct" [("name", .str "outer")]
    [record "struct" [("name", .str "inner")] [.obj (field "a")],
      record "union" [("loc", place 30)] [.obj (field "word"), .obj (field "half")], naming,
      record "struct" [] [.obj (field "first"), record "union" [] [.obj (field "second")]]]

/-- Sizes of eight bytes, and offsets by the name of the member. -/
def outerAnswers : Layout.Query → Except Fault Amount
  | .sizeOf _ => .ok (.int 8)
  | .offsetOf (.str "outer") (.str "first") => .ok (.int 8)
  | .offsetOf (.str "outer") (.str "second") => .ok (.int 12)
  | .offsetOf _ _ => .ok (.int 0)
  | .fieldSizeOf _ _ => .ok (.int 4)

/-- A session in which only the seeds are declared. -/
def sownSession : Session Unit := { registry := { graph := Seed.sow {} }, oracle := () }

theorem record_lays_out_outer :
    (∃ type after, (record (answering outerAnswers) outerNode (.str "outer") (.str "outer")).runOn
        sownSession = (.ok type, after) ∧
      ∃ size fields number declared,
        type = .record { name := .str "outer", size, serial := some number } fields ∧
          LaidOut outerAnswers sownSession.graph outerNode (.str "outer") (.str "outer")
            (.record { name := .str "outer", size } fields) declared ∧
          after.graph = sownSession.graph.enterAll declared) ∧
    ∃ adopted after, (topRecord (answering outerAnswers) none outerNode).runOn sownSession =
        (.ok adopted, after) ∧
      ∃ type declared, LaidOut outerAnswers sownSession.graph outerNode (.str "outer") (.str "outer")
        type declared ∧ after.graph = sownSession.graph.enterAll declared := by
  obtain ⟨records, units⟩ := @record_lays_out Unit (answering outerAnswers) outerAnswers fun _ _ => rfl
  constructor
  · obtain ⟨type, after, run⟩ := @runs_of_isOk (Session Unit) CType (record (answering outerAnswers)
      outerNode (.str "outer") (.str "outer")) sownSession (by decide +kernel)
    exact ⟨type, after, run, records _ _ _ _ _ _ run⟩
  · obtain ⟨adopted, after, run⟩ := @runs_of_isOk (Session Unit) Bool (topRecord (answering outerAnswers)
      none outerNode) sownSession (by decide +kernel)
    obtain ⟨name, named, -, laid⟩ := units _ _ _ _ _ run
    obtain ⟨rfl, -⟩ := Prod.mk.inj (Except.ok.inj named)
    exact ⟨adopted, after, run, laid (by decide +kernel)⟩

end Resolve

end NativeBindings
