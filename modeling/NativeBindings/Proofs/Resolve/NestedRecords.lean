import NativeBindings.Proofs.Debug.NestedMembers
import NativeBindings.Proofs.Layout.IndexAnswers
import NativeBindings.Proofs.Resolve.ForwardTypedef

/-!
Records of named fields and of unnamed records, nested to any depth, in syntax trees. Their fields are
those of the members, and with debug information as the oracle each of them is at the sum of the offsets
on the way to it.
-/
namespace NativeBindings.Resolve

open Json Act Layout

/-- Nodes depict the members of a record: a field by its name and the spelling of its type, an unnamed
record by its own node, the implicit field of that type and the fields that it gives indirectly. -/
inductive Depicts : Body → List Json → Prop
  | empty : Depicts .empty []
  | field {name : String} {type : Builtin} {offset : Int} {body : Body} {node : Json} {rest : List Json}
      (kind : node.field "kind" = .ok (.str "FieldDecl")) (named : node.field "name" = .ok (.str name))
      (typed : spellingOf node = .ok (.str type.spelling)) (others : Depicts body rest) :
      Depicts (.field name type offset body) (node :: rest)
  | unnamed {kind : RecordKind} {offset : Int} {inside body : Body} {node implicit name : Json}
      {nodes indirect rest : List Json} (record : isRecord node = true)
      (named : node.field "name" = .ok name) (unnamed : name.holds = false)
      (listed : children node = .ok (.arr nodes)) (within : Depicts inside nodes)
      (field : implicit.field "kind" = .ok (.str "FieldDecl"))
      (nameless : implicit.field "name" = .ok .null)
      (implied : implicit.field "isImplicit" = .ok (.bool true))
      (indirectly : ∀ other ∈ indirect, other.field "kind" = .ok (.str "IndirectFieldDecl"))
      (others : Depicts body rest) :
      Depicts (.unnamed kind offset inside body) (node :: implicit :: (indirect ++ rest))

/-- A walk over the members of a record that gives a field for each named one, and for each unnamed
record what `flat` gives for it. -/
structure Walks {σ : Type} (oracle : Layout.Oracle σ) (layout : Label)
    (flat : Json → Resolving σ (List (Field CType)))
    (walk : List Json → Resolving σ (List (Field CType))) : Prop where
  nil : walk [] = pure []
  field : ∀ {node name : Json} {rest : List Json}, node.field "kind" = .ok (.str "FieldDecl") →
    node.field "name" = .ok name → name.holds = true → walk (node :: rest) = do
      let field ← member oracle layout node
      return field :: (← walk rest)
  unnamed : ∀ {node implicit name : Json} {indirect rest : List Json}, isRecord node = true →
    node.field "name" = .ok name → name.holds = false →
    implicit.field "kind" = .ok (.str "FieldDecl") → implicit.field "name" = .ok .null →
    implicit.field "isImplicit" = .ok (.bool true) →
    (∀ other ∈ indirect, other.field "kind" = .ok (.str "IndirectFieldDecl")) →
    walk (node :: implicit :: (indirect ++ rest)) = do return (← flat node) ++ (← walk rest)

section
variable {node : Json}

theorem among_field : (str "FieldDecl").isAmong recordKinds = .ok false := rfl

theorem isMute_field (known : node.field "kind" = .ok (.str "FieldDecl")) : isMute node = .ok false := by
  rw [isMute_eq known]
  rfl

theorem isMute_indirect (known : node.field "kind" = .ok (.str "IndirectFieldDecl")) :
    isMute node = .ok true := by
  rw [isMute_eq known]
  rfl

theorem among_of_isRecord (record : isRecord node = true) :
    ∃ kind, node.field "kind" = .ok kind ∧ kind.isAmong recordKinds = .ok true := by
  rcases kind_of_isRecord record with known | known
  · exact ⟨_, known, rfl⟩
  · exact ⟨_, known, rfl⟩

end

section
variable {σ : Type} {oracle : Layout.Oracle σ} {layout : Label}
  {inside : Json → Resolving σ (List (Field CType))} {node name : Json} {rest : List Json}

theorem mute_append {walk : List Json → Resolving σ (List (Field CType))}
    (mute : ∀ node rest, node.field "kind" = .ok (.str "IndirectFieldDecl") →
      walk (node :: rest) = walk rest)
    {indirect : List Json}
    (indirectly : ∀ other ∈ indirect, other.field "kind" = .ok (.str "IndirectFieldDecl")) :
    walk (indirect ++ rest) = walk rest := by
  induction indirect with
  | nil => rfl
  | cons other more ih =>
    obtain ⟨first, others⟩ := List.forall_mem_cons.mp indirectly
    rw [List.cons_append, mute other _ first, ih others]

theorem unnamedMembers_indirect (known : node.field "kind" = .ok (.str "IndirectFieldDecl")) :
    unnamedMembers oracle layout inside (node :: rest) = unnamedMembers oracle layout inside rest := by
  rw [unnamedMembers, known, lift_ok_bind, isMute_indirect known, lift_ok_bind]
  rfl

theorem unnamedMembers_field (known : node.field "kind" = .ok (.str "FieldDecl"))
    (named : node.field "name" = .ok name) :
    unnamedMembers oracle layout inside (node :: rest) =
      if name.holds then do
        let field ← member oracle layout node
        return field :: (← unnamedMembers oracle layout inside rest)
      else unnamedMembers oracle layout inside rest := by
  rw [unnamedMembers, known, lift_ok_bind, isMute_field known, lift_ok_bind, named, lift_ok_bind]
  cases name.holds <;> rfl

theorem unnamedMembers_record (record : isRecord node = true) (named : node.field "name" = .ok name)
    (unnamed : name.holds = false) :
    unnamedMembers oracle layout inside (node :: rest) = do
      return (← inside node) ++ (← unnamedMembers oracle layout inside rest) := by
  obtain ⟨kind, known, among⟩ := among_of_isRecord record
  rw [unnamedMembers, known, lift_ok_bind, isMute_record record, lift_ok_bind, named, lift_ok_bind, among,
    unnamed]
  rfl

theorem walks_unnamedMembers :
    Walks oracle layout inside (unnamedMembers oracle layout inside) where
  nil := rfl
  field known named holds := by rw [unnamedMembers_field known named, if_pos holds]
  unnamed record named unnamed field nameless implied indirectly := by
    rw [unnamedMembers_record record named unnamed, unnamedMembers_field field nameless,
      if_neg (by decide), mute_append (fun _ _ => unnamedMembers_indirect) indirectly]

section
variable {nested : Json → Label → Label → Resolving σ CType} {own : Label}

theorem members_indirect (known : node.field "kind" = .ok (.str "IndirectFieldDecl")) :
    members oracle nested own layout (node :: rest) = members oracle nested own layout rest := by
  rw [members.eq_def]
  dsimp only
  rw [known, lift_ok_bind, isMute_indirect known, lift_ok_bind]
  rfl

theorem members_field (known : node.field "kind" = .ok (.str "FieldDecl"))
    (named : node.field "name" = .ok name) (some : name.holds = true) :
    members oracle nested own layout (node :: rest) = do
      let field ← member oracle layout node
      return field :: (← members oracle nested own layout rest) := by
  rw [members.eq_def]
  dsimp only
  rw [known, lift_ok_bind, isMute_field known, lift_ok_bind, among_field, lift_ok_bind, named]
  simp only [Bool.false_eq_true, if_false, lift_ok_bind, some]
  rfl

theorem members_implicit (known : node.field "kind" = .ok (.str "FieldDecl"))
    (nameless : node.field "name" = .ok .null) (implied : node.field "isImplicit" = .ok (.bool true)) :
    members oracle nested own layout (node :: rest) = members oracle nested own layout rest := by
  rw [members.eq_def]
  dsimp only
  rw [known, lift_ok_bind, isMute_field known, lift_ok_bind, nameless, implied]
  rfl

theorem isNaming_implicit {following : Json} (known : following.field "kind" = .ok (.str "FieldDecl"))
    (nameless : following.field "name" = .ok .null) : isNaming following node = .ok false := by
  rw [isNaming.eq_def, known, nameless]
  cases following <;> rfl

theorem members_record {following : Json} (record : isRecord node = true)
    (named : node.field "name" = .ok name) (unnamed : name.holds = false)
    (apart : isNaming following node = .ok false) :
    members oracle nested own layout (node :: following :: rest) = do
      return (← flatten oracle layout node) ++
        (← members oracle nested own layout (following :: rest)) := by
  obtain ⟨kind, known, among⟩ := among_of_isRecord record
  rw [members, known, lift_ok_bind, isMute_record record, lift_ok_bind, among, named, apart]
  simp only [Bool.false_eq_true, if_false, lift_ok_bind, unnamed]
  rfl

theorem walks_members :
    Walks oracle layout (flatten oracle layout) (members oracle nested own layout) where
  nil := by rw [members]
  field := members_field
  unnamed record named unnamed field nameless implied indirectly := by
    rw [members_record record named unnamed (isNaming_implicit field nameless),
      members_implicit field nameless implied, mute_append (fun _ _ => members_indirect) indirectly]

end

end

/-- Whether a spelling is a name that is read as it is. -/
def isPlainName (spelling : String) : Bool :=
  match Spelling.parse spelling with
  | .ok (.name name) => name == spelling
  | _ => false

theorem typeOf_plainName {spelling : String} (plain : isPlainName spelling = true) (graph : Graph) :
    typeOf graph spelling = graph.use (.str spelling) := by
  rw [isPlainName] at plain
  split at plain
  next name parsed =>
    obtain rfl := eq_of_beq plain
    exact typeOf_name parsed graph
  next => cases plain

theorem names_plain : Seed.names.all isPlainName = true := by decide +kernel

/-- Whether a graph has all that every graph starts with. -/
def Seeded (graph : Graph) : Prop := ∀ spelling ∈ Seed.names, graph.has (.str spelling) = true

theorem Seeded.use {graph : Graph} (seeded : Seeded graph) (type : Builtin) :
    ∃ found, graph.use (.str type.spelling) = .ok found := by
  have there := seeded type.spelling type.sown
  rw [Graph.use_text]
  rw [Graph.has, Table.has, Option.isSome_iff_exists] at there
  obtain ⟨found, there⟩ := there
  exact ⟨found.use, by rw [Graph.find?, there]; rfl⟩

theorem spelledType_builtin {node : Json} {type : Builtin}
    (typed : spellingOf node = .ok (.str type.spelling)) (graph : Graph) :
    spelledType graph node = graph.use (.str type.spelling) := by
  have plain := List.all_eq_true.mp names_plain type.spelling type.sown
  rw [spelledType, typed]
  exact typeOf_plainName plain graph

theorem depthItems_lt {node : Json} {nodes : List Json} (listed : children node = .ok (.arr nodes)) :
    depthItems nodes < node.depth := by
  obtain ⟨value, found, same⟩ := Outcome.bind_eq_ok.mp listed
  have same := Outcome.pure_eq_ok.mp same
  cases node with
  | obj entries =>
    rw [orElse] at same
    rw [depth]
    split at same
    next holds =>
      subst same
      rw [field, fieldOr] at found
      cases there : Table.find? "inner" entries with
      | none =>
        rw [there] at found
        cases found
      | some own =>
        rw [there] at found
        obtain rfl := Except.ok.inj found
        obtain ⟨key, -, member⟩ := Table.mem_of_find? there
        have inside := depth_le_depthEntries member
        rw [depth] at inside
        exact Nat.lt_of_lt_of_le (Nat.lt_succ_self _) (inside.trans (Nat.le_succ _))
    next =>
      obtain rfl := arr.inj same
      exact Nat.succ_pos _
  | _ => cases found

/-- A field of a record at a place of its members, of the type that is declared. -/
structure IsPlaced (graph : Graph) (place : Body.Place) (field : Field CType) : Prop where
  name : field.name = .str place.name
  offset : field.offset = .int place.offset
  type : graph.use (.str place.type.spelling) = .ok field.type
  size : field.size = field.type.size

/-- A session where nothing was declared since the start, and whose oracle goes by the debug
information of a type. -/
structure Stays (header name : String) (index : Debug.Index) (layout : Debug.TypeLayout)
    (start session : Session Bench) : Prop where
  registry : session.registry = start.registry
  consults : Consults header name index layout session.oracle

section
variable {header name : String} {index : Debug.Index} {layout : Debug.TypeLayout}
  {start session : Session Bench}
  (word : ∃ c ∈ name.toList, Text.isBlank c = false)
include word

theorem ask_attains (stays : Stays header name index layout start session) {query : Query} {n : Amount}
    (tells : Tells name layout query n) :
    Attains (fun m after => m = n ∧ Stays header name index layout start after)
      (ask (compilerOracle .debug header) query) session := by
  obtain ⟨told, run⟩ := @ask_runOn .debug header query session
  obtain ⟨after, answered, consults⟩ := stays.consults.asked word tells
  rw [answered] at run
  unfold Attains Ends
  rw [run]
  exact ⟨rfl, stays.registry, consults _⟩

/-- A named field is placed where the layout has it. -/
theorem member_attains (seeded : Seeded start.graph) (stays : Stays header name index layout start session)
    {place : Body.Place} {node : Json} {size : Amount}
    (named : node.field "name" = .ok (.str place.name))
    (typed : spellingOf node = .ok (.str place.type.spelling))
    (found : Table.find? place.name layout.members = some (place.offset, size)) :
    Attains (fun field after => IsPlaced start.graph place field ∧
      Stays header name index layout start after)
      (member (compilerOracle .debug header) (.str name) node) session := by
  obtain ⟨type, used⟩ := seeded.use place.type
  have graph : session.graph = start.graph := congrArg Registry.graph stays.registry
  have spelled := spelledType_builtin typed start.graph
  rw [member, need_of_field named (by rintro ⟨⟩), lift_ok_bind]
  refine attains_graph_then ?_
  rw [graph, spelled, used, lift_ok_bind]
  refine (ask_attains word stays (.offset found)).then fun offset after asked => ?_
  obtain ⟨rfl, stays⟩ := asked
  exact ⟨⟨rfl, rfl, used, rfl⟩, stays⟩

/-- Whether an act gives the fields of a record at their places, wherever the layout has them there. -/
def Places (header name : String) (index : Debug.Index) (layout : Debug.TypeLayout)
    (start : Session Bench) (body : Body) (act : Resolving Bench (List (Field CType))) : Prop :=
  ∀ (base : Int) (session : Session Bench), "" ∉ body.names →
    (∀ place ∈ body.places base,
      ∃ size, Table.find? place.name layout.members = some (place.offset, size)) →
    Stays header name index layout start session →
    Attains (fun fields after => List.Forall₂ (IsPlaced start.graph) (body.places base) fields ∧
      Stays header name index layout start after) act session

/-- A walk gives the fields of a record at their places if it does so within each unnamed record. -/
theorem walk_places (seeded : Seeded start.graph) {flat : Json → Resolving Bench (List (Field CType))}
    {walk : List Json → Resolving Bench (List (Field CType))}
    (walks : Walks (compilerOracle .debug header) (.str name) flat walk) {body : Body}
    {nodes : List Json} (depicts : Depicts body nodes)
    (inside : ∀ node ∈ nodes, ∀ nested inner, children node = .ok (.arr nested) →
      Depicts inner nested → Places header name index layout start inner (flat node)) :
    Places header name index layout start body (walk nodes) := by
  intro base session nonempty found stays
  induction depicts generalizing session with
  | empty =>
    rw [walks.nil]
    exact ⟨.nil, stays⟩
  | @field own type offset body node rest kind named typed others ih =>
    obtain ⟨apart, nonempty⟩ := not_or.mp (mt List.mem_cons.mpr nonempty)
    obtain ⟨⟨size, first⟩, found⟩ := List.forall_mem_cons.mp found
    rw [walks.field kind named (by simpa [holds] using Ne.symm apart)]
    refine (member_attains word seeded stays named typed first).then fun field middle placed => ?_
    have later := ih (List.forall_mem_cons.mp inside).2 middle nonempty found placed.2
    exact later.then fun fields after all => ⟨.cons placed.1 all.1, all.2⟩
  | @unnamed kind offset inner body node implicit _ nodes indirect rest record named unnamed listed
      within field nameless implied indirectly others _ ih =>
    obtain ⟨nonempty, nonempty'⟩ := not_or.mp (mt List.mem_append.mpr nonempty)
    obtain ⟨found, found'⟩ := List.forall_mem_append.mp found
    obtain ⟨first, rest⟩ := List.forall_mem_cons.mp inside
    rw [walks.unnamed record named unnamed field nameless implied indirectly]
    have own := first nodes inner listed within (base + offset) session nonempty found stays
    refine own.then fun fields middle placed => ?_
    have behind := (List.forall_mem_append.mp (List.forall_mem_cons.mp rest).2).2
    have later := ih behind middle nonempty' found' placed.2
    exact later.then fun others after all => ⟨List.rel_append placed.1 all.1, all.2⟩

/-- The fields of an unnamed record are those of its members, and fuel for its depth is enough. -/
theorem flattenWith_places (seeded : Seeded start.graph) {fuel : Nat} {node : Json} {nodes : List Json}
    {body : Body} (enough : node.depth ≤ fuel) (listed : children node = .ok (.arr nodes))
    (depicts : Depicts body nodes) :
    Places header name index layout start body
      (flattenWith (compilerOracle .debug header) (.str name) fuel node) := by
  induction fuel generalizing node nodes body with
  | zero => exact absurd (Nat.lt_of_lt_of_le (depthItems_lt listed) enough) (Nat.not_lt_zero _)
  | succ fuel ih =>
    have within : flattenWith (compilerOracle .debug header) (.str name) (fuel + 1) node =
        unnamedMembers (compilerOracle .debug header) (.str name)
          (flattenWith (compilerOracle .debug header) (.str name) fuel) nodes := by
      rw [flattenWith, listed]
      rfl
    rw [within]
    refine walk_places word seeded walks_unnamedMembers depicts fun other member nested inner => ?_
    have shallow : other.depth ≤ fuel := by
      have below := depth_le_depthItems member
      have above := depthItems_lt listed
      omega
    exact ih shallow

end

/-- A node of a record under a name, with children that depict its members. -/
structure DepictsRecord (name : String) (body : Body) (node : Json) : Prop where
  record : isRecord node = true
  named : node.field "name" = .ok (.str name)
  members : ∃ nodes, children node = .ok (.arr nodes) ∧ Depicts body nodes

/-- A session with all that every graph starts with, and with an oracle that goes by an index and has no
answers yet. -/
structure Opens (header : String) (index : Debug.Index) (session : Session Bench) : Prop where
  seeded : Seeded session.graph
  answerable : Answerable session.registry.waiting
  goes : GoesBy header index session.oracle
  sizes : session.oracle.cache.sizes = []
  offsets : session.oracle.cache.offsets = []

/-- A record of named fields and of unnamed records, in a syntax tree and in debug information, is
resolved with its named fields in order, each at the sum of the offsets on the way to it. Its name is
not blank, as no identifier is. -/
theorem record_places {info : Debug.Info} {entry : Debug.Entry} {name header : String} {size : Int}
    {body : Body} {node : Json} (depicts : DepictsRecord name body node)
    (describes : Debug.Describes info name size body entry)
    (word : ∃ c ∈ name.toList, Text.isBlank c = false) (nonempty : "" ∉ body.names)
    (distinct : body.names.Nodup) :
    ∃ index, (Debug.index info).1 = .ok index ∧ ∀ session : Session Bench, Opens header index session →
      ∃ fields number after,
        (record (compilerOracle .debug header) node (.str name) (.str name)).runOn session =
          (.ok (.record { name := .str name, size := .int size, serial := some number } fields), after) ∧
        List.Forall₂ (IsPlaced session.graph) (body.places 0) fields := by
  obtain ⟨index, members, built, found, covers⟩ := Debug.index_describes describes distinct
  refine ⟨index, built, fun session opens => ?_⟩
  obtain ⟨nodes, listed, depicts'⟩ := depicts.members
  have stays : Stays header name index { size := .int size, members } session session :=
    ⟨rfl, consults_unused opens.goes found opens.sizes opens.offsets⟩
  have attains : Attains (fun type _ => ∃ fields number,
      type = .record { name := .str name, size := .int size, serial := some number } fields ∧
        List.Forall₂ (IsPlaced session.graph) (body.places 0) fields)
      (record (compilerOracle .debug header) node (.str name) (.str name)) session := by
    refine (ask_attains word stays .size).then fun own asked sized => ?_
    obtain ⟨rfl, stays⟩ := sized
    rw [listed, lift_ok_bind, Json.sequence, lift_ok_bind]
    have placing : Places header name index { size := .int size, members } session body
        (Resolve.members (compilerOracle .debug header)
          (recordWith (compilerOracle .debug header) node.depth) (.str name) (.str name) nodes) :=
      walk_places word opens.seeded walks_members depicts' fun other _ _ _ listed within =>
        flattenWith_places word opens.seeded (Nat.le_succ _) listed within
    have found' (place : Body.Place) (member : place ∈ body.places 0) := covers.find? distinct member
    refine (placing 0 asked nonempty found' stays).then fun fields middle placed => ?_
    have answerable : Answerable middle.registry.waiting := by
      rw [placed.2.registry]
      exact opens.answerable
    have registered := (registerWith_attains rfl answerable).and
      (register_gives (.str name) (.record { name := .str name, size := .int size } fields))
    refine registered.mono (fun type after both => ?_) fun _ _ wrong => wrong.1
    exact ⟨fields, _, both.2.1, placed.1⟩
  obtain ⟨type, after, run, fields, number, rfl, placed⟩ := attains.run
  exact ⟨fields, number, after, run, placed⟩

/-- The field without a name that an unnamed record is the type of. -/
def implicitNode : Json := .obj [("kind", .str "FieldDecl"), ("isImplicit", .bool true)]

/-- A field of an unnamed record as one of the record around it. -/
def indirectNode (name : String) : Json :=
  .obj [("kind", .str "IndirectFieldDecl"), ("name", .str name)]

def taggedNode (kind : RecordKind) (inner : List Json) (more : List (String × Json)) : Json :=
  .obj ([("kind", .str "RecordDecl"), ("tagUsed", .str kind.word), ("inner", .arr inner)] ++ more)

/-- The nodes of the members of a record. -/
def nodesOf : Body → List Json
  | .empty => []
  | .field name type _ rest => fieldNode name type.spelling :: nodesOf rest
  | .unnamed kind _ inside rest =>
    taggedNode kind (nodesOf inside) [] :: implicitNode :: (inside.names.map indirectNode ++ nodesOf rest)

theorem children_taggedNode (kind : RecordKind) (inner : List Json) (more : List (String × Json)) :
    children (taggedNode kind inner more) = .ok (.arr inner) := by
  cases inner <;> rfl

theorem depicts_nodesOf (body : Body) : Depicts body (nodesOf body) := by
  induction body with
  | empty => exact .empty
  | field name type offset rest ih => exact .field rfl rfl rfl ih
  | unnamed kind offset inside rest first second =>
    refine .unnamed rfl rfl rfl (children_taggedNode kind _ []) first rfl rfl rfl (fun other member => ?_)
      second
    obtain ⟨name, -, rfl⟩ := List.mem_map.mp member
    rfl

theorem depicts_taggedNode (kind : RecordKind) (name : String) (body : Body) :
    DepictsRecord name body (taggedNode kind (nodesOf body) [("name", .str name)]) :=
  ⟨rfl, rfl, _, children_taggedNode kind _ _, depicts_nodesOf body⟩

/-- A union of a word and of its two halves, between two fields. -/
def packet : Body :=
  let int : Builtin := ⟨"int", by decide⟩
  let short : Builtin := ⟨"unsigned short", by decide⟩
  let word : Builtin := ⟨"uint32_t", by decide⟩
  .field "kind" int 0 <|
    .unnamed .union 4
      (.field "word" word 0 <|
        .unnamed .struct 0 (.field "low" short 0 <| .field "high" short 2 .empty) .empty) <|
    .field "tag" int 8 .empty

def packetSession (index : Debug.Index) : Session Bench where
  registry := sownSession.registry
  oracle := { outerBench with layouts := some index }

theorem record_places_packet :
    (packet.places 0).map (fun place => (place.name, place.offset)) =
      [("kind", 0), ("word", 4), ("low", 4), ("high", 6), ("tag", 8)] ∧
    ∃ index, (Debug.index (packet.info .struct "packet" 12)).1 = .ok index ∧ ∃ fields number after,
      (record (compilerOracle .debug "packet.h") (taggedNode .struct (nodesOf packet)
        [("name", .str "packet")]) (.str "packet") (.str "packet")).runOn (packetSession index) =
          (.ok (.record { name := .str "packet", size := .int 12, serial := some number } fields), after) ∧
      List.Forall₂ (IsPlaced sownSession.graph) (packet.places 0) fields := by
  refine ⟨by decide +kernel, ?_⟩
  have seeds : (Seed.names.all fun spelling => sownSession.graph.has (.str spelling)) = true := by
    decide +kernel
  obtain ⟨index, built, runs⟩ := @record_places _ _ "packet" "packet.h" 12 packet _
    (depicts_taggedNode .struct "packet" packet)
    (packet.describes_info .struct 12 (by decide)) ⟨'p', by decide, by decide +kernel⟩ (by decide)
    (by decide)
  refine ⟨index, built, runs (packetSession index) ⟨List.all_eq_true.mp seeds, ?_, ?_, rfl, rfl⟩⟩
  · exact fun entry member => absurd member List.not_mem_nil
  · exact goesBy_of_layouts rfl

end NativeBindings.Resolve
