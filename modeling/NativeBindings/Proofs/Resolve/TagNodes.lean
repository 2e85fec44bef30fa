import NativeBindings.Proofs.Resolve.TopLevel
import NativeBindings.Proofs.Spelling

/-!
What a resolution does at a record and at a typedef that names the record by its tag.
-/
namespace NativeBindings.Resolve

open Json Act Mirror

/-- The filter keeps a node of the header itself that names no file, unless its name is declared. -/
def Kept (header : Path) (node : Json) : Prop :=
  ∀ known : Label → Bool, (∀ name, node.field "name" = .ok name → known name = false) →
    ∃ told, (Origin.skips header known node).runOn .null = (.ok (false, told), .null)

/-- A record of a name, with a body. -/
structure Defines (name : String) (node : Json) : Prop where
  kind : ∃ kind ∈ recordKinds, node.field "kind" = .ok (.str kind)
  named : node.field "name" = .ok (.str name)
  body : ∃ inner, node.field "inner" = .ok inner ∧ inner.isNull = false
  word : Spelling.isWord name.toList = true

/-- A plain typedef of a record, spelled with its tag. -/
structure Typedefs (tag name : String) (node : Json) : Prop where
  kind : node.field "kind" = .ok (.str "TypedefDecl")
  named : node.need "name" = .ok (.str name)
  spelling : ∃ word ∈ ["struct ", "union "], spellingOf node = .ok (.str (word ++ tag))
  plain : ∃ type id, node.field "type" = .ok type ∧
    (type.orElse (obj [])).field "typeAliasDeclId" = .ok id ∧ id.holds = false
  data : prototype? node = .ok none

section
variable {σ : Type} {header : Path} {oracle : Layout.Oracle σ} {following : Option Json} {node : Json}
  {name tag : String} {session : Session σ}

theorem isSkipped_kept (kept : Kept header node) (place : session.includer = .null)
    (fresh : ∀ name, node.field "name" = .ok name → session.graph.has name = false) :
    ∃ told, (isSkipped header node).runOn session =
      (.ok false, { session with journal := session.journal ++ told }) := by
  obtain ⟨told, skips⟩ := kept session.graph.has fresh
  refine ⟨told, ?_⟩
  have inside : (zoom Session.includer (fun session includer => { session with includer })
      (Origin.skips header session.graph.has node)).runOn session = (.ok (false, told), session) := by
    rw [zoom, runOn_ofRun, place, skips]
    obtain ⟨registry, owners, includer, state, journal⟩ := session
    obtain rfl : includer = .null := place
    rfl
  have known : (graph : Resolving σ Graph).runOn session = (.ok session.graph, session) := rfl
  rw [isSkipped, runOn_bind, known]
  dsimp only
  rw [runOn_bind, inside]
  rfl

/-- A node that names no file. -/
def Unmarked (node : Json) : Prop := ((Origin.trackNode node).runOn .null).2 = .null

theorem Kept.unmarked (kept : Kept header node) : Unmarked node := by
  obtain ⟨told, skips⟩ := kept (fun _ => false) fun _ _ => rfl
  have same : ((Origin.skips header (fun _ => false) node).runOn .null).2 =
      ((Origin.trackNode node).runOn .null).2 :=
    skips_place (P := (· = ((Origin.trackNode node).runOn .null).2)) rfl header fun _ => false
  rw [Unmarked, ← same, skips]

/-- The size and the fields of a record, after the declarations within it. -/
def bodyOf (oracle : Layout.Oracle σ) (node : Json) (name : Label) :
    Resolving σ (Amount × List (Field CType)) := do
  let size ← ask oracle (.sizeOf name)
  let fields ← members oracle (recordWith oracle node.depth) name name (← (← children node).sequence)
  return (size, fields)

theorem record_eq (node : Json) (name : Label) :
    record oracle node name name =
      bodyOf oracle node name >>= fun body =>
        register name (.record { name, size := body.1 } body.2) := by
  simp only [record, recordWith, bodyOf, bind_assoc, pure_bind]

theorem topRecord_eq (following : Option Json) (defines : Defines name node) :
    topRecord oracle following node =
      bodyOf oracle node (.str name) >>= fun body => do
        let _ ← register (.str name) (.record { name := .str name, size := body.1 } body.2)
        return false := by
  obtain ⟨inner, body, present⟩ := defines.body
  have holds : (Json.str name).holds = true := by
    have nonempty := (Spelling.all_of_isWord defines.word).1
    have filled : name ≠ "" := by
      rintro rfl
      exact nonempty rfl
    simpa [Json.holds] using filled
  rw [topRecord, nameOf_own defines.named holds, lift_ok_bind]
  dsimp only
  rw [body, lift_ok_bind, present, record_eq, bind_assoc]
  rfl

/-- A spelling that names a tag, and that may name it before it is declared. -/
structure Names (tag text : String) : Prop where
  parse : Spelling.parse text = .ok (.name tag)
  normal : Spelling.normal text = tag
  waits : mayWait text = true

theorem names_tagged {word : String} (tagged : word ∈ ["struct ", "union "])
    (isWord : Spelling.isWord tag.toList = true) : Names tag (word ++ tag) := by
  have tags : word.toList ∈ Spelling.recordTags := by
    simp only [List.mem_cons, List.not_mem_nil, or_false] at tagged
    rcases tagged with rfl | rfl
    · decide
    · decide
  have text : word ++ tag = String.ofList (word.toList ++ tag.toList) := by
    rw [String.ofList_append, String.ofList_toList, String.ofList_toList]
  refine ⟨?_, ?_, ?_⟩
  · rw [text, Spelling.parse_tagged tags isWord, String.ofList_toList]
  · rw [text, Spelling.normal_tagged tags isWord, String.ofList_toList]
  · rw [mayWait, String.toList_append]
    rcases Spelling.eq_of_mem_recordTags tags with same | same
    · rw [same]
      rfl
    · rw [same]
      rfl

theorem topNode_record (oracle : Layout.Oracle σ) (following : Option Json) (defines : Defines name node)
    (kept : Kept header node) (place : session.includer = .null)
    (fresh : session.graph.has (.str name) = false) :
    (topNode header oracle following node).runOn session =
      (isSkipped header node >>= fun _ => bodyOf oracle node (.str name) >>= fun body => do
        let _ ← register (.str name) (.record { name := .str name, size := body.1 } body.2)
        return false : Resolving σ Bool).runOn session := by
  obtain ⟨told, skipped⟩ := isSkipped_kept kept place fun own named => by
    rw [defines.named] at named
    exact Except.ok.inj named ▸ fresh
  obtain ⟨kind, member, known⟩ := defines.kind
  rw [← topRecord_eq following defines, topNode, runOn_bind, runOn_bind, skipped]
  dsimp only
  rw [if_neg (by simp), known, lift_ok_bind]
  simp only [recordKinds, List.mem_cons, List.not_mem_nil, or_false] at member
  rcases member with rfl | rfl
  · rfl
  · rfl

theorem field_of_need {entry : String} {value : Json} (needed : node.need entry = .ok value) :
    node.field entry = .ok value := by
  cases node with
  | obj entries =>
    rw [need] at needed
    split at needed
    next found =>
      rw [field, fieldOr, found]
      exact needed
    next => cases needed
  | _ => cases needed

theorem need_of_field {node value : Json} {entry : String} (found : node.field entry = .ok value)
    (some : value ≠ .null) : node.need entry = .ok value := by
  cases node with
  | obj entries =>
    rw [field, fieldOr] at found
    rw [need]
    cases there : Table.find? entry entries with
    | none =>
      rw [there] at found
      exact absurd (Except.ok.inj found).symm some
    | some own =>
      rw [there] at found
      exact found
  | _ => cases found

theorem typedef_eq {text : String} (spelled : spellingOf node = .ok (.str text)) (names : Names tag text)
    (typedefs : Typedefs tag name node) :
    (typedef node : Resolving σ Unit) = typedefOf (.str name) text := by
  obtain ⟨type, id, typed, declared, plain⟩ := typedefs.plain
  rw [typedef, typedefs.named, lift_ok_bind, spelled, lift_ok_bind, typed, lift_ok_bind]
  dsimp only
  rw [declared, lift_ok_bind, if_neg (by simp [plain]), typedefs.data, lift_ok_bind]
  have given : (Json.str text).asText "strip" = .ok text := rfl
  rw [given, lift_ok_bind, names.parse]
  rfl

theorem topNode_typedef (oracle : Layout.Oracle σ) (following : Option Json)
    (typedefs : Typedefs tag name node) (isWord : Spelling.isWord tag.toList = true)
    (kept : Kept header node) (place : session.includer = .null)
    (fresh : session.graph.has (.str name) = false) :
    ∃ told text, Names tag text ∧ (topNode header oracle following node).runOn session =
      (typedefOf (.str name) text >>= fun _ => return false : Resolving σ Bool).runOn
        { session with journal := session.journal ++ told } := by
  obtain ⟨word, tagged, spelled⟩ := typedefs.spelling
  have names := names_tagged tagged isWord
  obtain ⟨told, skipped⟩ := isSkipped_kept kept place fun own named => by
    rw [field_of_need typedefs.named] at named
    exact Except.ok.inj named ▸ fresh
  refine ⟨told, word ++ tag, names, ?_⟩
  rw [← typedef_eq spelled names typedefs, topNode, runOn_bind, skipped]
  dsimp only
  rw [if_neg (by simp), typedefs.kind, lift_ok_bind]
  rfl

theorem typeOf_name {text name : String} (parsed : Spelling.parse text = .ok (.name name))
    (graph : Graph) : typeOf graph text = graph.use (.str name) := by
  rw [typeOf, typeOfWith, if_neg (by decide), parsed]

theorem typeOf_names {text : String} (names : Names tag text) (graph : Graph) :
    typeOf graph text = graph.use (.str tag) :=
  typeOf_name names.parse graph

theorem Graph.use_text (graph : Graph) (text : String) :
    graph.use (.str text) = (graph.find? (.str text)).elim (.error (.unknownName (.str text)))
      fun type => .ok type.use := by
  simp only [Graph.use, Graph.find, Json.asKey, bind, Except.bind]
  cases graph.find? (.str text) <;> rfl

theorem use_absent {graph : Graph} (absent : graph.has (.str tag) = false) :
    graph.use (.str tag) = .error (.unknownName (.str tag)) := by
  have missing : graph.find? (.str tag) = none := by
    rw [← Option.isNone_iff_eq_none, ← Option.isSome_eq_false_iff]
    exact absent
  rw [Graph.use_text, missing]
  rfl

theorem erase_insert_absent {waiting : Waiting} {label : Label} (absent : Table.find? label waiting = none)
    (names : List Label) : Table.erase label (Table.insert label names waiting) = waiting := by
  have added : Table.insert label names waiting = waiting ++ [(label, names)] :=
    Table.insert_of_absent (by rw [Table.has, absent]; rfl)
  have gone : Table.erase label [(label, names)] = [] := by simp [Table.erase, bne]
  have kept : Table.erase label waiting = waiting := Table.erase_of_absent absent
  rw [Table.erase] at gone kept
  rw [added, Table.erase, List.filter_append, kept, gone, List.append_nil]

/-- A typedef by what its spelling names. -/
theorem typedefOf_runOn (label : Label) (text : String) (session : Session σ) :
    (typedefOf label text).runOn session =
      (match typeOf session.graph text with
        | .ok target => registerAlias label target
        | .error (.unknownName _) =>
          if mayWait text then do
            note (Journal.debug ("Deferring typedef " ++ label.plain ++ " until " ++
              Spelling.normal text ++ " is declared"))
            modify fun session => { session with
              registry := session.registry.defer (.str (Spelling.normal text)) label }
          else
            note (Journal.info
              ("Unknown typedef " ++ label.plain ++ " -> " ++ Text.quoted text ++ ", skipping"))
        | .error fault => throw fault : Resolving σ Unit).runOn session := rfl

theorem typedefOf_waits {text : String} (names : Names tag text) (label : Label)
    (session : Session σ) (absent : session.graph.has (.str tag) = false) :
    ∃ told, (typedefOf label text).runOn session = (.ok (), { session with
      registry := session.registry.defer (.str tag) label
      journal := session.journal ++ told }) := by
  refine ⟨Journal.debug ("Deferring typedef " ++ label.plain ++ " until " ++ tag ++ " is declared"), ?_⟩
  rw [typedefOf_runOn, typeOf_names names, use_absent absent]
  dsimp only
  rw [if_pos names.waits, names.normal]
  rfl

theorem apart_str (apart : tag ≠ name) : (Json.str tag == Json.str name) = false := by
  rw [Bool.eq_false_iff, ne_eq, beq_str_iff]
  exact fun same => apart (Json.str.inj same)

theorem has_enter_of_ne {graph : Graph} {label other : Label} (apart : (label == other) = false)
    (type : CType) : (graph.enter (label, type)).has other = graph.has other := by
  rw [Graph.has, Table.has, Graph.enter, Graph.assign, Table.find?_insert_of_ne apart, Graph.remove,
    Table.find?_erase_of_ne apart]
  rfl

theorem use_enter (graph : Graph) (tag : String) (type : CType) :
    (graph.enter (.str tag, type)).use (.str tag) = .ok (type.numbered graph.issued).use := by
  have found : (graph.enter (.str tag, type)).find? (.str tag) =
      some (type.numbered graph.issued) := Table.find?_insert_self _ _ _
  rw [Graph.use_text, found]
  rfl

section
variable {label other : Label} (type : CType)

/-- A declaration for which nothing waits. -/
theorem registerWith_alone (fuel : Nat) (keyed : label.asKey = .ok label)
    (nothing : Table.find? label session.registry.waiting = none) :
    ∃ told, (registerWith fuel label type).runOn session = (.ok (type.numbered session.graph.issued),
      { session with
        registry := { session.registry with graph := session.graph.enter (label, type) }
        journal := session.journal ++ told }) := by
  cases fuel with
  | zero => exact declare_runOn keyed type session
  | succ fuel =>
    obtain ⟨told, announced⟩ := announce_runOn keyed type session
    have kept : Table.erase label session.registry.waiting = session.registry.waiting :=
      Table.erase_of_absent nothing
    rw [nothing, kept] at announced
    refine ⟨told, ?_⟩
    rw [registerWith_succ, runOn_bind, announced]
    rfl

theorem register_alone (keyed : label.asKey = .ok label)
    (nothing : Table.find? label session.registry.waiting = none) :
    ∃ told, (register label type).runOn session = (.ok (type.numbered session.graph.issued),
      { session with
        registry := { session.registry with graph := session.graph.enter (label, type) }
        journal := session.journal ++ told }) := by
  rw [register_runOn (Nat.lt_succ_self _)]
  exact registerWith_alone type _ keyed nothing

/-- A declaration for which one typedef waits, which is declared next. -/
theorem register_promotes (keyed : label.asKey = .ok label)
    (waits : Table.find? label session.registry.waiting = some [other]) :
    ∃ told, (register label type).runOn session =
      (register other (Registry.aliasOf other (type.numbered session.graph.issued)) >>= fun _ =>
        return type.numbered session.graph.issued : Resolving σ CType).runOn { session with
          registry := {
            graph := session.graph.enter (label, type)
            waiting := Table.erase label session.registry.waiting }
          journal := session.journal ++ told } := by
  obtain ⟨told, announced⟩ := announce_runOn keyed type session
  have fewer := count_release label session.registry.waiting
  rw [waits] at announced fewer
  change 1 + count (Table.erase label session.registry.waiting) ≤ _ at fewer
  refine ⟨told ++ Journal.debug ("Resolved lazy alias " ++ other.plain ++ " -> " ++ label.plain), ?_⟩
  have promoted (fuel : Nat) (item : CType) :
      ((Option.getD (some [other]) []).forM (promote fuel label item) >>= fun _ => pure item :
        Resolving σ CType) =
      note (Journal.debug ("Resolved lazy alias " ++ other.plain ++ " -> " ++ label.plain)) >>=
        fun _ => registerWith fuel other (Registry.aliasOf other item) >>= fun _ => pure item := by
    change (promote fuel label item other >>= fun _ => pure ()) >>= _ = _
    simp only [promote, bind_assoc, pure_bind]
  have noted (journal : Journal) (before : Session σ) : (note journal).runOn before =
      (.ok (), { before with journal := before.journal ++ journal }) := rfl
  rw [register_runOn (Nat.lt_succ_self _), registerWith_succ, runOn_bind, announced]
  dsimp only
  rw [promoted, runOn_bind, noted]
  dsimp only
  rw [runOn_bind, runOn_bind, register_runOn, List.append_assoc]
  change count (Table.erase label session.registry.waiting) < count session.registry.waiting
  omega

end

/-- A typedef of a record that was just declared. -/
theorem topNode_aliases (session : Session σ) (oracle : Layout.Oracle σ) (following : Option Json)
    (typedefs : Typedefs tag name node) (isWord : Spelling.isWord tag.toList = true) (apart : tag ≠ name)
    (kept : Kept header node) (place : session.includer = .null)
    (fresh : session.graph.has (.str name) = false) {item : CType}
    (declared : session.graph.use (.str tag) = .ok item) (named : item.name = .str tag) :
    ∃ told, (topNode header oracle following node).runOn session =
      (register (.str name) (Registry.aliasOf (.str name) item) >>= fun _ => return false :
        Resolving σ Bool).runOn { session with journal := session.journal ++ told } := by
  obtain ⟨told, text, names, run⟩ :=
    topNode_typedef oracle following typedefs isWord kept place fresh
  refine ⟨told, run.trans ?_⟩
  have different : ¬ (item.name == .str name) = true := by
    rw [named, beq_str_iff]
    exact fun same => apart (Json.str.inj same)
  have looked : (typedefOf (.str name) text).runOn { session with journal := session.journal ++ told } =
      (registerAlias (.str name) item).runOn { session with journal := session.journal ++ told } := by
    rw [typedefOf_runOn, typeOf_names names, declared]
  have aliased : (registerAlias (.str name) item : Resolving σ Unit) =
      register (.str name) (Registry.aliasOf (.str name) item) >>= fun _ => pure () := by
    rw [registerAlias, if_neg different]
  rw [runOn_bind, looked, aliased, ← runOn_bind, bind_assoc]
  rfl

end

/-- A node without a place is kept if nothing in it says otherwise. -/
theorem kept_of_unplaced (header : Path) {node : Json} (location : node.field "loc" = .ok .null)
    (range : node.field "range" = .ok .null)
    (stays : ∀ known, (∀ name, node.field "name" = .ok name → known name = false) →
      ∃ told, Origin.isDropped known node = .ok (false, told)) : Kept header node := by
  intro known fresh
  obtain ⟨told, stays⟩ := stays known fresh
  refine ⟨told, ?_⟩
  have tracked : (Origin.trackNode node).runOn .null = (.ok (), .null) := by
    rw [Origin.trackNode, location, lift_ok_bind, range]
    rfl
  have enters : (Origin.entersForeign header node).runOn .null = (.ok false, .null) := by
    rw [Origin.entersForeign, runOn_bind, tracked]
    rfl
  rw [Origin.skips, runOn_bind, enters, stays]
  rfl

end NativeBindings.Resolve
