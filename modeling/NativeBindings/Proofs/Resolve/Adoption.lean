import NativeBindings.Proofs.Resolve.LaterWins

/-!
Unnamed declarations that take a name from what follows them. An unnamed enum or record takes the name of
a typedef that begins before it, and an unnamed union that of a field. Where the following declaration
begins is all that is looked at: neither how its type is spelled nor, for a typedef, whether the filter
keeps it.
-/
namespace NativeBindings.Resolve

open Json Act Outcome

/-- A declaration whose type is spelled by name, not as a pointer or an array. -/
def ByValue (node : Json) : Prop :=
  ∃ text name, spellingOf node = .ok (.str text) ∧ Spelling.parse text = .ok (.name name)

/-- An enum or a record. -/
def IsTagged (node : Json) : Prop := node.field "kind" = .ok (.str "EnumDecl") ∨ isRecord node = true

/-- A named typedef that begins at a node or before it. -/
structure Wraps (next node : Json) : Prop where
  kind : next.field "kind" = .ok (.str "TypedefDecl")
  encloses : Location.encloses next node = .ok true
  named : ∃ name, next.field "name" = .ok name ∧ name.isNull = false

section
variable {following : Option Json} {node : Json} {name : Label}

theorem adoptedName_iff (found : adoptedName following node = .ok name) :
    name.isNull = false ↔ ∃ next, following = some next ∧ Wraps next node := by
  constructor
  · intro given
    rw [adoptedName.eq_def] at found
    split at found
    · cases found
      cases given
    · cases found
      cases given
    next next plain =>
      obtain ⟨kind, known, found⟩ := bind_eq_ok.mp found
      cases same : kind.isKind "TypedefDecl" with
      | false =>
        rw [same] at found
        cases found
        cases given
      | true =>
        rw [same] at found
        obtain ⟨encloses, placed, found⟩ := bind_eq_ok.mp found
        cases encloses with
        | false =>
          cases found
          cases given
        | true => exact ⟨next, rfl, kind_eq known same, placed, name, found, given⟩
  · rintro ⟨next, rfl, wraps⟩
    obtain ⟨own, named, given⟩ := wraps.named
    have plain : next ≠ null := by
      rintro rfl
      cases named
    rw [adoptedName.eq_def] at found
    split at found
    next same => cases same
    next same => exact absurd (Option.some.inj same) plain
    next other _ same =>
      obtain rfl := Option.some.inj same
      rw [wraps.kind, wraps.encloses] at found
      obtain rfl := Except.ok.inj (named.symm.trans found)
      exact given

/-- A node takes a name if it has none and the node after it wraps it. -/
theorem nameOf_iff {adopted : Bool} (found : nameOf following node = .ok (name, adopted)) :
    adopted = true ↔ isNamed node = false ∧ ∃ next, following = some next ∧ Wraps next node := by
  obtain ⟨own, named, found⟩ := bind_eq_ok.mp found
  rw [isNamed_eq named]
  cases holds : own.holds with
  | true =>
    rw [holds] at found
    obtain ⟨-, rfl⟩ := Prod.mk.inj (pure_eq_ok.mp found)
    simp
  | false =>
    rw [holds] at found
    obtain ⟨given, adopts, found⟩ := bind_eq_ok.mp found
    obtain ⟨rfl, rfl⟩ := Prod.mk.inj (pure_eq_ok.mp found)
    rw [← adoptedName_iff adopts]
    simp

end

section
variable {σ : Type} {header : Path} {oracle : Layout.Oracle σ} {following : Option Json} {node : Json}
  {session : Session σ}

/-- The filter keeps a node. -/
def KeptIn (header : Path) (session : Session σ) (node : Json) : Prop :=
  ∃ after, (isSkipped header node).runOn session = (.ok false, after)

theorem topEnum_done (following : Option Json) (node : Json) (session : Session σ) :
    Gives (fun done _ => ∃ name, nameOf following node = .ok (name, done)) (topEnum following node)
      session := by
  refine gives_lift_then fun named found => ?_
  split
  next adopted =>
    obtain rfl := adopted_of_null found
    refine gives_lift_then fun told _ => ?_
    exact (gives_any _ _).then fun _ _ _ => gives_pure ⟨null, found⟩
  next name adopted _ =>
    refine gives_lift_then fun inner _ => gives_lift_then fun items _ => ?_
    refine (gives_any _ _).then fun type _ _ => (gives_any _ _).then fun _ _ _ => ?_
    exact gives_pure ⟨name, found⟩

theorem topRecord_done (oracle : Layout.Oracle σ) (following : Option Json) (node : Json)
    (session : Session σ) :
    Gives (fun done _ => ∃ name, nameOf following node = .ok (name, done))
      (topRecord oracle following node) session := by
  refine gives_lift_then fun named found => ?_
  split
  next adopted =>
    obtain rfl := adopted_of_null found
    refine gives_lift_then fun tag _ => gives_lift_then fun told _ => ?_
    exact (gives_any _ _).then fun _ _ _ => gives_pure ⟨null, found⟩
  next name adopted _ =>
    refine gives_lift_then fun body _ => ?_
    dsimp only
    split
    · exact (gives_any _ _).then fun _ _ _ => gives_pure ⟨name, found⟩
    · exact (gives_any _ _).then fun _ _ _ => gives_pure ⟨name, found⟩

/-- A node that the filter keeps, an unnamed enum or record, before a typedef that wraps it. -/
structure Adopts (header : Path) (session : Session σ) (node next : Json) : Prop where
  kept : KeptIn header session node
  tagged : IsTagged node
  unnamed : isNamed node = false
  wraps : Wraps next node

/-- One node uses up the following one if and only if it takes the name of it. -/
theorem topNode_adopts (header : Path) (oracle : Layout.Oracle σ) (following : Option Json) (node : Json)
    (session : Session σ) :
    Gives (fun done _ => done = true ↔ ∃ next, following = some next ∧ Adopts header session node next)
      (topNode header oracle following node) session := by
  refine (gives_run (isSkipped header node)).then fun skipped after ran => ?_
  cases skipped with
  | true =>
    refine gives_pure ⟨nofun, ?_⟩
    rintro ⟨next, -, adopts⟩
    obtain ⟨other, kept⟩ := adopts.kept
    rw [ran] at kept
    cases kept
  | false =>
    have named (tagged : IsTagged node) (name : Label) (done : Bool)
        (found : nameOf following node = .ok (name, done)) :
        done = true ↔ ∃ next, following = some next ∧ Adopts header session node next := by
      rw [nameOf_iff found]
      constructor
      · rintro ⟨unnamed, next, same, wraps⟩
        exact ⟨next, same, ⟨after, ran⟩, tagged, unnamed, wraps⟩
      · rintro ⟨next, same, adopts⟩
        exact ⟨adopts.unnamed, next, same, adopts.wraps⟩
    refine gives_lift_then fun kind known => ?_
    cases isEnum : kind.isKind "EnumDecl" with
    | true =>
      refine (topEnum_done following node after).mono (fun done _ found => ?_) fun _ _ _ => trivial
      obtain ⟨name, found⟩ := found
      exact named (.inl (kind_eq known isEnum)) name done found
    | false =>
      refine gives_lift_then fun among checked => ?_
      cases among with
      | true =>
        refine (topRecord_done oracle following node after).mono (fun done _ found => ?_)
          fun _ _ _ => trivial
        obtain ⟨name, found⟩ := found
        exact named (.inr (isRecord_eq known checked)) name done found
      | false =>
        have other : ¬ ∃ next, following = some next ∧ Adopts header session node next := by
          rintro ⟨next, -, adopts⟩
          rcases adopts.tagged with same | record
          · obtain rfl := Except.ok.inj (known.symm.trans same)
            cases isEnum
          · rw [isRecord_eq known checked] at record
            cases record
        have undone (act : Resolving σ Unit) : Gives (fun done _ => done = true ↔
            ∃ next, following = some next ∧ Adopts header session node next)
            (act >>= fun _ => pure false) after := by
          refine (gives_any act after).then fun _ _ _ => gives_pure ?_
          exact ⟨nofun, fun adopts => absurd adopts other⟩
        cases kind.isKind "TypedefDecl" with
        | true => exact undone _
        | false =>
        cases kind.isKind "FunctionDecl" with
        | true => exact undone _
        | false => exact gives_lift_then fun name _ => undone _

/-- What a place in a record holds, offsets apart. A field that gives its name to an unnamed union has
the type of the union. -/
inductive Shaped : Part → Field CType → Prop
  | field {node : Json} {field : Field CType} (graph : Graph) (type : spelledType graph node = .ok field.type) :
    Shaped (.field node) field
  | union {naming record : Json} {field : Field CType} {variants : List (Field CType)}
    (name : naming.need "name" = .ok field.name)
    (type : field.type = .union { name := .null, size := field.size } variants) :
    Shaped (.union naming record) field

theorem member_shaped (oracle : Layout.Oracle σ) (layout : Label) (node : Json) (session : Session σ) :
    Gives (fun field _ => Shaped (.field node) field) (member oracle layout node) session := by
  refine gives_lift_then fun name _ => gives_graph_then <| gives_lift_then fun type spelled => ?_
  exact (gives_any _ _).then fun offset _ _ => gives_pure (.field _ spelled)

theorem namedUnion_shaped {naming : Json} {name : Label} (named : naming.need "name" = .ok name)
    (oracle : Layout.Oracle σ) (layout : Label) (node : Json) (session : Session σ) :
    Gives (fun field _ => Shaped (.union naming node) field) (namedUnion oracle layout name node)
      session := by
  refine gives_lift_then fun tag _ => ?_
  dsimp only
  split
  · exact gives_throw _
  refine gives_graph_then <| gives_lift_then fun inner _ => gives_lift_then fun nodes _ => ?_
  refine gives_lift_then fun inside _ => ?_
  refine (gives_any _ _).then fun offset _ _ => (gives_any _ _).then fun size _ _ => ?_
  exact gives_pure (.union named rfl)

theorem unnamedMembers_shaped (oracle : Layout.Oracle σ) (layout : Label)
    {inside : Json → Resolving σ (List (Field CType))}
    (inner : ∀ node between, Gives (fun fields _ =>
      List.Forall₂ Shaped ((fieldsIn (within node)).map .field) fields) (inside node) between)
    (nodes : List Json) (session : Session σ) :
    Gives (fun fields _ => List.Forall₂ Shaped ((fieldsIn nodes).map .field) fields)
      (unnamedMembers oracle layout inside nodes) session := by
  induction nodes generalizing session with
  | nil =>
    rw [fieldsIn]
    exact gives_pure .nil
  | cons node rest ih =>
    refine gives_lift_then fun kind known => gives_lift_then fun mute muted => ?_
    rw [fieldsIn, muted, affirms]
    split
    · exact ih session
    refine gives_lift_then fun name named => gives_lift_then fun among checked => ?_
    rw [isRecord_eq known checked, isNamed_eq named, isField_eq known]
    split
    · rw [List.map_append]
      refine (inner node session).then fun some between given => ?_
      exact (ih between).then fun others _ walked => gives_pure (List.rel_append given walked)
    cases kind.isKind "FieldDecl" with
    | false => exact gives_throw _
    | true =>
    cases name.holds with
    | false => exact ih session
    | true =>
      refine (member_shaped oracle layout node session).then fun field between given => ?_
      exact (ih between).then fun others _ walked => gives_pure (.cons given walked)

theorem flattenWith_shaped (oracle : Layout.Oracle σ) (layout : Label) (fuel : Nat) (node : Json)
    (session : Session σ) :
    Gives (fun fields _ => List.Forall₂ Shaped ((fieldsIn (within node)).map .field) fields)
      (flattenWith oracle layout fuel node) session := by
  induction fuel generalizing node session with
  | zero => exact gives_throw _
  | succ fuel ih =>
    refine gives_lift_then fun inner listed => gives_lift_then fun nodes items => ?_
    rcases items_eq_ok listed items with rfl | ⟨s, rest, rfl⟩
    · exact unnamedMembers_shaped oracle layout ih (within node) session
    · exact gives_lift_then fun kind known => by cases known

/-- The fields of a record are those of its places, whatever the oracle says. -/
theorem members_shaped (oracle : Layout.Oracle σ) (nested : Json → Label → Label → Resolving σ CType)
    (name layout : Label) (nodes : List Json) (session : Session σ) :
    Gives (fun fields _ => List.Forall₂ Shaped (parts nodes) fields)
      (members oracle nested name layout nodes) session := by
  fun_induction members oracle nested name layout nodes generalizing session with
  | case1 =>
    rw [parts]
    exact gives_pure .nil
  | case2 node rest ih next =>
    refine gives_lift_then fun kind known => gives_lift_then fun mute muted => ?_
    cases mute with
    | true =>
      rw [parts_mute (by rw [muted]; rfl)]
      exact ih session
    | false =>
    have counts : affirms (isMute node) = false := by
      rw [muted]
      rfl
    refine gives_lift_then fun among checked => ?_
    have record := isRecord_eq known checked
    cases among with
    | true =>
      -- A record is declared, is the type of the following field or is taken apart.
      refine gives_lift_then fun own named => ?_
      have name := isNamed_eq named
      cases holds : own.holds with
      | true =>
        rw [holds] at name
        rw [if_pos rfl, parts_named counts record name]
        refine gives_lift_then fun body found => ?_
        dsimp only
        split
        · exact (gives_any _ _).then fun _ between _ => ih between
        · exact ih session
      | false =>
        rw [holds] at name
        rw [if_neg (by simp)]
        cases rest with
        | nil =>
          rw [parts_unnamed counts record name (by simp), parts, List.append_nil]
          exact flattenWith_shaped oracle layout _ node session
        | cons following after =>
          obtain ⟨afterNext, afterThis⟩ := next
          refine gives_lift_then fun naming checked => ?_
          cases naming with
          | true =>
            rw [if_pos rfl, parts_union counts record name (by rw [checked]; rfl)]
            refine gives_lift_then fun field named => ?_
            refine (namedUnion_shaped named oracle layout node session).then fun first between shaped => ?_
            exact (afterNext between).then fun others _ walked => gives_pure (.cons shaped walked)
          | false =>
            have alone : ∀ other ∈ (following :: after).head?,
                affirms (isNaming other node) = false := by
              rintro other ⟨⟩
              rw [checked]
              rfl
            rw [if_neg (by simp), parts_unnamed counts record name alone]
            refine (flattenWith_shaped oracle layout _ node session).then fun fields between shaped => ?_
            exact (afterThis between).then fun others _ walked =>
              gives_pure (List.rel_append shaped walked)
    | false =>
      rw [parts_field counts record, isField_eq known]
      cases kind.isKind "FieldDecl" with
      | false => exact gives_throw _
      | true =>
      refine gives_lift_then fun own named => ?_
      rw [isNamed_eq named]
      cases own.holds with
      | false =>
        refine gives_lift_then fun implicit _ => ?_
        cases implicit.holds with
        | true => exact ih session
        | false => exact gives_throw _
      | true =>
        refine (member_shaped oracle layout node session).then fun field between shaped => ?_
        exact (ih between).then fun others _ walked => gives_pure (.cons shaped walked)

/-- A run over a list of nodes comes to a node that is not done. -/
def Reaches (header : Path) (oracle : Layout.Oracle σ) (state : σ) (nodes : List Json)
    (following : Option Json) (node : Json) (session : Session σ) : Prop :=
  ∃ front rest, nodes = front ++ node :: rest ∧ following = rest.head? ∧
    (passNodes header oracle (some node) false front).runOn (opening state) = (.ok false, session)

/-- No typedef that is spelled as a pointer or an array, or that the filter would leave out, gives its
name away. -/
def KeepsTypedefs (header : Path) (oracle : Layout.Oracle σ) (state : σ) (nodes : List Json) : Prop :=
  ∀ following node session, Reaches header oracle state nodes following node session →
    ((topNode header oracle following node).runOn session).1 = .ok true →
      ∃ next, following = some next ∧ ByValue next ∧
        KeptIn header ((isSkipped header node).runOn session).2 next

/-- No field that is spelled as a pointer or an array has the type of an unnamed union. -/
def KeepsFields (nodes : List Json) (fields : List (Field CType)) : Prop :=
  ∀ (i : Nat) naming record field, (parts nodes)[i]? = some (.union naming record) →
    fields[i]? = some field → (∃ header variants, field.type = .union header variants) → ByValue naming

/-- A declaration is dropped where the one before it takes its name, and only there. So none is dropped
that is a pointer, an array or foreign if and only if none of these begins before an unnamed declaration
that it follows. -/
theorem keeps_declarators (header : Path) (oracle : Layout.Oracle σ) (state : σ) (nodes : List Json)
    {nested : Json → Label → Label → Resolving σ CType} {name layout : Label} {session after : Session σ}
    {inner : List Json} {fields : List (Field CType)}
    (run : (members oracle nested name layout inner).runOn session = (.ok fields, after)) :
    (KeepsTypedefs header oracle state nodes ↔
      ∀ next node session, Reaches header oracle state nodes (some next) node session →
        Succeeds ((topNode header oracle (some next) node).runOn session).1 →
          Adopts header session node next →
            ByValue next ∧ KeptIn header ((isSkipped header node).runOn session).2 next) ∧
    (KeepsFields inner fields ↔ ∀ naming record, .union naming record ∈ parts inner → ByValue naming) := by
  constructor
  · constructor
    · intro keeps next node session reaches succeeds adopts
      obtain ⟨done, ran⟩ := succeeds
      have used := (ends_iff.mp (topNode_adopts header oracle (some next) node session)).1 done ran
      obtain rfl := used.mpr ⟨next, rfl, adopts⟩
      obtain ⟨other, same, byValue, kept⟩ := keeps (some next) node session reaches ran
      obtain rfl := Option.some.inj same
      exact ⟨byValue, kept⟩
    · intro keeps following node session reaches ran
      have used := (ends_iff.mp (topNode_adopts header oracle following node session)).1 true ran
      obtain ⟨next, rfl, adopts⟩ := used.mp rfl
      exact ⟨next, rfl, keeps next node session reaches ⟨true, ran⟩ adopts⟩
  · have shaped := (members_shaped oracle nested name layout inner session).of_run run
    constructor
    · intro keeps naming record member
      obtain ⟨i, place⟩ := List.mem_iff_getElem?.mp member
      obtain ⟨short, same⟩ := List.getElem?_eq_some_iff.mp place
      have there : i < fields.length := shaped.length_eq ▸ short
      have own : Shaped (parts inner)[i] fields[i] := (List.forall₂_iff_get.mp shaped).2 i short there
      rw [same] at own
      cases own with
      | union _ type => exact keeps i naming record _ place (List.getElem?_eq_getElem there) ⟨_, _, type⟩
    · intro keeps i naming record field place _ _
      exact keeps naming record (List.mem_of_getElem? place)

/-- An unnamed record with a field. -/
def bareRecord (tag : String) : Json :=
  obj [("kind", str "RecordDecl"), ("tagUsed", str tag), ("loc", obj [("offset", .int 8)]),
    ("inner", arr [fieldNode "x" "int"])]

/-- A declaration that begins before an unnamed record. -/
def enclosing (kind name spelling : String) : Json :=
  obj [("kind", str kind), ("name", str name), ("type", obj [("qualType", str spelling)]),
    ("range", obj [("begin", obj [("offset", .int 0)])])]

theorem keeps_declarators_point :
    let nodes := [bareRecord "struct", enclosing "TypedefDecl" "point" "struct point"]
    let inner := [bareRecord "union", enclosing "FieldDecl" "first" "union (unnamed union at a.h:1:9)"]
    ∃ fields after, (members (answering outerAnswers) (recordWith (answering outerAnswers) 1)
        (str "outer") (str "outer") inner).runOn sownSession = (.ok fields, after) ∧
      (KeepsTypedefs { parts := ["a.h"] } (answering outerAnswers) () nodes ↔
        ∀ next node session, Reaches { parts := ["a.h"] } (answering outerAnswers) () nodes (some next)
            node session →
          Succeeds ((topNode { parts := ["a.h"] } (answering outerAnswers) (some next) node).runOn
              session).1 →
            Adopts { parts := ["a.h"] } session node next →
              ByValue next ∧
                KeptIn { parts := ["a.h"] } ((isSkipped { parts := ["a.h"] } node).runOn session).2 next) ∧
      (KeepsFields inner fields ↔
        ∀ naming record, .union naming record ∈ parts inner → ByValue naming) := by
  intro nodes inner
  have fine : ((members (answering outerAnswers) (recordWith (answering outerAnswers) 1) (str "outer")
      (str "outer") inner).runOn sownSession).1.isOk = true := by decide +kernel
  obtain ⟨fields, after, run⟩ := runs_of_isOk fine
  exact ⟨fields, after, run, keeps_declarators _ _ () nodes run⟩

/-- A typedef of a pointer and a typedef that is left out give their names to a struct, and a field that
is a pointer has the type of a union. -/
theorem drops_declarators :
    let pointer := "struct (unnamed struct at a.h:1:9) *"
    ¬ KeepsTypedefs { parts := ["a.h"] } (answering outerAnswers) ()
        [bareRecord "struct", enclosing "TypedefDecl" "point_p" pointer] ∧
      ¬ KeepsTypedefs { parts := ["a.h"] } (answering outerAnswers) ()
        [bareRecord "struct", enclosing "TypedefDecl" "__NSpoint" "struct __NSpoint"] ∧
      ∃ fields, ((members (answering outerAnswers) (recordWith (answering outerAnswers) 1) (str "outer")
          (str "outer") [bareRecord "union", enclosing "FieldDecl" "first" pointer]).runOn
            sownSession).1 = .ok fields ∧
        ¬ KeepsFields [bareRecord "union", enclosing "FieldDecl" "first" pointer] fields := by
  intro pointer
  have parsed : Spelling.parse pointer =
      .ok (.pointer "(unnamed struct at a.h:1:9)" false) := by decide +kernel
  refine ⟨fun keeps => ?_, fun keeps => ?_, ?_⟩
  · have used : ((topNode { parts := ["a.h"] } (answering outerAnswers)
        (some (enclosing "TypedefDecl" "point_p" pointer)) (bareRecord "struct")).runOn (opening ())).1 =
        .ok true := by decide +kernel
    obtain ⟨next, same, ⟨text, name, spelled, named⟩, -⟩ :=
      keeps _ _ (opening ()) ⟨[], _, rfl, rfl, rfl⟩ used
    obtain rfl := Option.some.inj same
    obtain rfl := str.inj (Except.ok.inj spelled)
    cases parsed.symm.trans named
  · have used : ((topNode { parts := ["a.h"] } (answering outerAnswers)
        (some (enclosing "TypedefDecl" "__NSpoint" "struct __NSpoint")) (bareRecord "struct")).runOn
          (opening ())).1 = .ok true := by decide +kernel
    have skipped : ((isSkipped { parts := ["a.h"] }
        (enclosing "TypedefDecl" "__NSpoint" "struct __NSpoint")).runOn
          ((isSkipped { parts := ["a.h"] } (bareRecord "struct")).runOn (opening ())).2).1 =
        .ok true := by decide +kernel
    obtain ⟨next, same, -, after, kept⟩ :=
      keeps _ _ (opening ()) ⟨[], _, rfl, rfl, rfl⟩ used
    obtain rfl := Option.some.inj same
    rw [kept] at skipped
    cases skipped
  · have fine : ((members (answering outerAnswers) (recordWith (answering outerAnswers) 1) (str "outer")
        (str "outer") [bareRecord "union", enclosing "FieldDecl" "first" pointer]).runOn
          sownSession).1.isOk = true := by decide +kernel
    obtain ⟨fields, after, run⟩ := runs_of_isOk fine
    refine ⟨fields, congrArg (·.1) run, fun keeps => ?_⟩
    have counts : affirms (isMute (bareRecord "union")) = false := by decide +kernel
    have record : isRecord (bareRecord "union") = true := by decide +kernel
    have unnamed : isNamed (bareRecord "union") = false := by decide +kernel
    have naming : affirms (isNaming (enclosing "FieldDecl" "first" pointer) (bareRecord "union")) = true := by
      decide +kernel
    have places : parts [bareRecord "union", enclosing "FieldDecl" "first" pointer] =
        [.union (enclosing "FieldDecl" "first" pointer) (bareRecord "union")] := by
      rw [parts_union counts record unnamed naming, parts]
    have shaped := (members_shaped _ _ _ _ _ _).of_run run
    rw [places] at shaped
    cases shaped with
    | @cons _ field _ others own rest =>
      cases own with
      | union _ type =>
        obtain ⟨text, name, spelled, named⟩ := keeps 0 _ _ field (by rw [places]; rfl) rfl ⟨_, _, type⟩
        obtain rfl := str.inj (Except.ok.inj spelled)
        cases parsed.symm.trans named

end

end NativeBindings.Resolve
