import NativeBindings.Proofs.Refinement
import NativeBindings.Proofs.Resolve.ForwardTypedef

/-!
Documentation comments in a syntax tree. A compiler puts a comment at the end of the nodes within the
node that it documents, where nothing that reads the tree takes it for anything else.
-/
namespace NativeBindings

namespace Json

theorem depthEntries_insert {key : String} {value : Json} {entries : List (String × Json)}
    (deeper : ∀ old, Table.find? key entries = some old → old.depth ≤ value.depth) :
    depthEntries entries ≤ depthEntries (Table.insert key value entries) := by
  induction entries with
  | nil => exact Nat.zero_le _
  | cons entry rest ih =>
    obtain ⟨other, old⟩ := entry
    rw [Table.find?] at deeper
    rw [Table.insert]
    split
    next same =>
      rw [if_pos same] at deeper
      have more := deeper old rfl
      simp only [depthEntries]
      omega
    next apart =>
      rw [if_neg apart] at deeper
      have more := ih deeper
      simp only [depthEntries]
      omega

end Json

namespace Resolve

open Json Act Outcome

def IsComment (node : Json) : Prop := node.field "kind" = .ok (.str "FullComment")

/-- The kinds of the nodes that are documented. -/
def documentedKinds : List String :=
  ["EnumDecl", "EnumConstantDecl", "RecordDecl", "CXXRecordDecl", "FieldDecl", "TypedefDecl",
    "FunctionDecl"]

/-- Nodes as others, one by one, with comments after them. -/
inductive Commented (R : Json → Json → Prop) : List Json → List Json → Prop
  | nil {comments : List Json} (all : ∀ comment ∈ comments, IsComment comment) : Commented R [] comments
  | cons {node other : Json} {nodes others : List Json} (first : R node other)
    (rest : Commented R nodes others) : Commented R (node :: nodes) (other :: others)

/-- Whether comments may be put after the nodes within a node. The constant of an enum has its value
there: it needs one. -/
def Carries (entries : List (String × Json)) (nodes : List Json) : Prop :=
  ∃ kind ∈ documentedKinds, Table.find? "kind" entries = some (.str kind) ∧
    (kind = "EnumConstantDecl" → nodes ≠ [])

/-- Whether comments may be put into a node that holds no nodes so far. A record of a name would be
defined by them. -/
def Gains (entries : List (String × Json)) : Prop :=
  Carries entries [] ∧ (isRecord (obj entries) && isNamed (obj entries)) = false

/-- A node and the same one with comments in it, at any depth. -/
inductive Documents : Json → Json → Prop
  | same (node : Json) : Documents node node
  | inside {entries : List (String × Json)} {nodes others : List Json}
    (found : Table.find? "inner" entries = some (arr nodes)) (walk : Commented Documents nodes others)
    (may : others.length = nodes.length ∨ Carries entries nodes) :
    Documents (obj entries) (obj (Table.insert "inner" (arr others) entries))
  | into {entries : List (String × Json)} {comments : List Json}
    (absent : Table.find? "inner" entries = none ∨ Table.find? "inner" entries = some null)
    (all : ∀ comment ∈ comments, IsComment comment) (may : Gains entries) :
    Documents (obj entries) (obj (Table.insert "inner" (arr comments) entries))

/-- What a node holds within, and the same with comments in it. -/
inductive Holds : Json → Json → Prop
  | same (value : Json) : Holds value value
  | list {nodes others : List Json} (walk : Commented Documents nodes others) :
    Holds (arr nodes) (arr others)

/-- The same, where no comment is put at the end. -/
inductive Retains : Json → Json → Prop
  | same (value : Json) : Retains value value
  | list {nodes others : List Json} (walk : List.Forall₂ Documents nodes others) :
    Retains (arr nodes) (arr others)

section
variable {node other : Json} (documents : Documents node other)

include documents

theorem Documents.find? {entries : List (String × Json)} (object : node = obj entries) :
    ∃ more, other = obj more ∧ ∀ key, key ≠ "inner" → Table.find? key more = Table.find? key entries := by
  cases documents with
  | same => exact ⟨entries, object, fun _ _ => rfl⟩
  | inside | into =>
    obtain rfl := obj.inj object
    exact ⟨_, rfl, fun key apart => Table.find?_insert_of_ne (by simpa using apart.symm) _ _⟩

theorem Documents.fieldOr {key : String} (apart : key ≠ "inner") (default : Json) :
    other.fieldOr key default = node.fieldOr key default := by
  cases node with
  | obj entries =>
    obtain ⟨more, rfl, found⟩ := documents.find? rfl
    rw [Json.fieldOr, Json.fieldOr, found key apart]
  | _ =>
    cases documents
    rfl

theorem Documents.field {key : String} (apart : key ≠ "inner") : other.field key = node.field key :=
  documents.fieldOr apart null

theorem Documents.need {key : String} (apart : key ≠ "inner") : other.need key = node.need key := by
  cases node with
  | obj entries =>
    obtain ⟨more, rfl, found⟩ := documents.find? rfl
    rw [Json.need, Json.need, found key apart]
  | _ =>
    cases documents
    rfl

theorem Documents.isRecord : isRecord other = isRecord node := by
  rw [Resolve.isRecord, Resolve.isRecord, documents.field (by decide)]

theorem Documents.isNamed : isNamed other = isNamed node := by
  rw [Resolve.isNamed, Resolve.isNamed, documents.field (by decide)]

theorem Documents.spellingOf : spellingOf other = spellingOf node := by
  rw [Resolve.spellingOf, Resolve.spellingOf, documents.field (by decide)]

theorem Documents.spelledTypeAt (graph : Graph) (depth : Nat) :
    spelledTypeAt graph depth other = spelledTypeAt graph depth node := by
  rw [Resolve.spelledTypeAt, Resolve.spelledTypeAt, documents.spellingOf]

theorem Documents.spelledType (graph : Graph) : spelledType graph other = spelledType graph node :=
  documents.spelledTypeAt graph 0

theorem Documents.isSkippable : isSkippable other = isSkippable node := by
  rw [Resolve.isSkippable, Resolve.isSkippable, documents.fieldOr (by decide)]

theorem Documents.isMute : isMute other = isMute node := by
  rw [Resolve.isMute, Resolve.isMute, documents.isSkippable, documents.field (by decide)]

theorem Documents.trackNode : Origin.trackNode other = Origin.trackNode node := by
  rw [Origin.trackNode, Origin.trackNode, documents.field (by decide), documents.field (by decide)]

theorem Documents.entersForeign (header : Path) :
    Origin.entersForeign header other = Origin.entersForeign header node := by
  rw [Origin.entersForeign, Origin.entersForeign, documents.trackNode]

theorem Documents.holds : other.holds = node.holds := by
  have filled {key : String} {value : Json} {entries : List (String × Json)}
      (found : Table.find? key entries = some value) (new : Json) :
      (obj (Table.insert "inner" new entries)).holds = (obj entries).holds := by
    cases entries with
    | nil => cases found
    | cons entry rest =>
      rw [Table.insert]
      split
      · rfl
      · rfl
  cases documents with
  | same => rfl
  | inside found => exact filled found _
  | into _ _ may =>
    obtain ⟨⟨kind, -, found, -⟩, -⟩ := may
    exact filled found _

theorem Documents.encloses {inner known : Json} (within : Documents inner known) :
    Location.encloses other known = Location.encloses node inner := by
  rw [Location.encloses, Location.encloses, documents.field (by decide), within.field (by decide),
    documents.holds]

theorem Documents.isNull : other.isNull = node.isNull := by
  cases documents with
  | same => rfl
  | inside | into => rfl

/-- Neither a record nor the field after it changes its part by comments. -/
theorem Documents.isNaming {record known : Json} (within : Documents record known) :
    isNaming other known = isNaming node record := by
  cases node with
  | null =>
    cases documents
    rfl
  | _ =>
    have present := documents.isNull
    cases other with
    | null => cases present
    | _ =>
      rw [Resolve.isNaming, Resolve.isNaming, documents.field (by decide), documents.field (by decide),
        documents.field (by decide), documents.encloses within]
      · nofun
      · nofun

theorem Documents.member {σ : Type} (oracle : Layout.Oracle σ) (layout : Label) :
    member oracle layout other = member oracle layout node := by
  unfold Resolve.member
  rw [documents.need (by decide)]
  simp only [documents.spelledType]

end

theorem Commented.refl (nodes : List Json) : Commented Documents nodes nodes := by
  induction nodes with
  | nil => exact .nil nofun
  | cons node rest ih => exact .cons (.same node) ih

theorem orElse_empty (nodes : List Json) : (arr nodes).orElse (arr []) = arr nodes := by
  cases nodes with
  | nil => rfl
  | cons node rest => rfl

section
variable {node other value known : Json}

theorem Holds.items (holds : Holds value known) : Matches (Commented Documents) value.items known.items := by
  cases holds with
  | same => exact fun nodes done => ⟨nodes, done, .refl nodes⟩
  | list walk => exact matches_pure walk

theorem Holds.sequence (holds : Holds value known) :
    Matches (Commented Documents) value.sequence known.sequence := by
  cases holds with
  | same => exact fun nodes done => ⟨nodes, done, .refl nodes⟩
  | list walk => exact matches_pure walk

theorem Retains.item (retains : Retains value known) (i : Nat) :
    Matches Documents (value.item i) (known.item i) := by
  cases retains with
  | same => exact fun node done => ⟨node, done, .same node⟩
  | @list nodes others walk =>
    intro node done
    have found : nodes[i]? = some node := by
      rw [Json.item] at done
      cases at_ : nodes[i]? with
      | none =>
        rw [at_] at done
        cases done
      | some value =>
        rw [at_] at done
        exact congrArg some (Except.ok.inj done)
    obtain ⟨inside, rfl⟩ := List.getElem?_eq_some_iff.mp found
    have inside' : i < others.length := walk.length_eq ▸ inside
    refine ⟨others[i], ?_, (List.forall₂_iff_get.mp walk).2 i inside inside'⟩
    rw [Json.item, List.getElem?_eq_getElem inside']

theorem Retains.items (retains : Retains value known) :
    Matches (List.Forall₂ Documents) value.items known.items := by
  cases retains with
  | same => exact fun nodes done => ⟨nodes, done, List.forall₂_same.mpr fun node _ => .same node⟩
  | list walk => exact matches_pure walk

theorem Retains.holds (retains : Retains value known) : known.holds = value.holds := by
  cases retains with
  | same => rfl
  | list walk =>
    cases walk with
    | nil => rfl
    | cons => rfl

theorem Retains.orElse (retains : Retains value known) (default : Json) :
    Retains (value.orElse default) (known.orElse default) := by
  rw [Json.orElse, Json.orElse, retains.holds]
  split
  · exact retains
  · exact .same default

theorem Commented.forall₂ {nodes others : List Json} (walk : Commented Documents nodes others)
    (same : others.length = nodes.length) : List.Forall₂ Documents nodes others := by
  induction walk with
  | nil =>
    obtain rfl := List.length_eq_zero_iff.mp same
    exact .nil
  | cons first _ ih => exact .cons first (ih (Nat.succ.inj same))

theorem Retains.within (retains : Retains value known) : Holds value known := by
  cases retains with
  | same => exact .same value
  | list walk =>
    refine .list ?_
    induction walk with
    | nil => exact .nil nofun
    | cons first _ ih => exact .cons first ih

/-- A node of a kind that is not documented. -/
def Plain (node : Json) : Prop := ∀ kind ∈ documentedKinds, node.field "kind" ≠ .ok (.str kind)

theorem plain_of_kind {kind : Json} {word : String} (known : node.field "kind" = .ok kind)
    (same : kind.isKind word = true) (other : word ∉ documentedKinds) : Plain node := by
  intro listed member found
  rw [kind_eq known same] at found
  obtain rfl := Json.str.inj (Except.ok.inj found)
  exact other member

theorem Plain.carries {entries : List (String × Json)} {nodes : List Json} (plain : Plain (obj entries)) :
    ¬ Carries entries nodes := by
  rintro ⟨kind, member, found, -⟩
  refine plain kind member ?_
  rw [Json.field, Json.fieldOr, found]
  rfl

variable (documents : Documents node other)
include documents

theorem Documents.inner : Matches (fun value known => Holds (value.orElse (arr [])) (known.orElse (arr [])))
    (node.field "inner") (other.field "inner") := by
  cases documents with
  | same => exact fun value done => ⟨value, done, .same _⟩
  | inside found walk =>
    rw [Json.field, Json.fieldOr, Json.field, Json.fieldOr, found, Table.find?_insert_self]
    refine matches_pure ?_
    rw [Option.getD_some, Option.getD_some, orElse_empty, orElse_empty]
    exact .list walk
  | into absent all =>
    rw [Json.field, Json.fieldOr, Json.field, Json.fieldOr, Table.find?_insert_self]
    refine matches_pure ?_
    rw [Option.getD_some, orElse_empty]
    rcases absent with none | null
    · rw [none]
      exact .list (.nil all)
    · rw [null]
      exact .list (.nil all)

theorem Documents.children : Matches Holds (children node) (children other) :=
  documents.inner.bind fun _ _ holds => matches_pure holds

theorem Documents.retained (plain : Plain node) :
    Matches Retains (node.field "inner") (other.field "inner") := by
  cases documents with
  | same => exact fun value done => ⟨value, done, .same _⟩
  | inside found walk may =>
    rw [Json.field, Json.fieldOr, Json.field, Json.fieldOr, found, Table.find?_insert_self]
    exact matches_pure (.list (walk.forall₂ (may.resolve_right plain.carries)))
  | into _ _ may => exact absurd may.1 plain.carries

theorem Documents.needed (plain : Plain node) :
    Matches Retains (node.need "inner") (other.need "inner") := by
  cases documents with
  | same => exact fun value done => ⟨value, done, .same _⟩
  | inside found walk may =>
    rw [Json.need, Json.need, found, Table.find?_insert_self]
    exact matches_pure (.list (walk.forall₂ (may.resolve_right plain.carries)))
  | into _ _ may => exact absurd may.1 plain.carries

theorem Documents.firstChild (plain : Plain node) :
    Matches Documents (firstChild node) (firstChild other) :=
  (documents.retained plain).bind fun _ _ retains => (retains.orElse _).item 0

omit documents in
theorem depthItems_commented {R : Json → Json → Prop} {nodes others : List Json}
    (walk : Commented R nodes others)
    (deeper : ∀ node ∈ nodes, ∀ other, R node other → node.depth ≤ other.depth) :
    depthItems nodes ≤ depthItems others := by
  induction walk with
  | nil => exact Nat.zero_le _
  | @cons node other _ _ first _ ih =>
    have here := deeper node (by simp) other first
    have there := ih fun node member => deeper node (by simp [member])
    simp only [depthItems]
    omega

end

/-- Comments make no tree less deep. -/
theorem Documents.depth_le {node other : Json} (documents : Documents node other) :
    node.depth ≤ other.depth := by
  induction size : sizeOf node using Nat.strong_induction_on generalizing node other with
  | _ size ih =>
    subst size
    cases documents with
    | same => exact Nat.le_refl _
    | inside found walk =>
      refine Nat.succ_le_succ (depthEntries_insert fun old held => ?_)
      obtain rfl := Option.some.inj (found.symm.trans held)
      refine Nat.succ_le_succ (depthItems_commented walk fun child member other documents => ?_)
      refine ih _ ?_ documents rfl
      obtain ⟨own, -, entry⟩ := Table.mem_of_find? found
      have outer := List.sizeOf_lt_of_mem entry
      have inner := List.sizeOf_lt_of_mem member
      simp only [Prod.mk.sizeOf_spec, arr.sizeOf_spec] at outer
      rw [obj.sizeOf_spec]
      omega
    | into absent =>
      refine Nat.succ_le_succ (depthEntries_insert fun old held => ?_)
      rcases absent with none | null
      · rw [none] at held
        cases held
      · obtain rfl := Option.some.inj (null.symm.trans held)
        exact Nat.succ_le_succ (Nat.zero_le _)

theorem Holds.depth_le {value known : Json} (holds : Holds value known) : value.depth ≤ known.depth := by
  cases holds with
  | same => exact Nat.le_refl _
  | list walk =>
    exact Nat.succ_le_succ (depthItems_commented walk fun _ _ _ documents => documents.depth_le)

section
variable {node other : Json}

theorem evaluateWith_holds (owners : Initializer.Owners) (enum : Label) {fuel more : Nat}
    (enough : fuel ≤ more) {value known : Json} (related : Documents value known ∨ Holds value known) :
    Matches Eq (Initializer.evaluateWith owners enum fuel value)
      (Initializer.evaluateWith owners enum more known) := by
  induction fuel generalizing more value known with
  | zero => exact matches_error
  | succ fuel ih =>
    obtain ⟨more, rfl⟩ : ∃ less, more = less + 1 := ⟨more - 1, by omega⟩
    have less : fuel ≤ more := by omega
    have list {nodes others : List Json} (walk : Commented Documents nodes others) :
        Matches Eq (Initializer.evaluateWith owners enum (fuel + 1) (arr nodes))
          (Initializer.evaluateWith owners enum (more + 1) (arr others)) := by
      cases walk with
      | nil => exact matches_error
      | cons first _ => exact ih less (.inl first)
    have whole (documents : Documents value known) :
        Matches Eq (Initializer.evaluateWith owners enum (fuel + 1) value)
          (Initializer.evaluateWith owners enum (more + 1) known) := by
      cases value with
      | arr nodes =>
        cases documents
        exact list (.refl nodes)
      | obj entries =>
        obtain ⟨others, rfl, -⟩ := documents.find? rfl
        rw [Initializer.evaluateWith, Initializer.evaluateWith, documents.field (by decide)]
        · refine matches_bind fun kind found => matches_bind fun wraps _ => ?_
          split
          · exact documents.inner.bind fun _ _ holds => ih less (.inr holds)
          split
          · rw [documents.need (by decide)]
            exact matches_refl _
          split
          next same =>
            have plain := plain_of_kind found same (by decide)
            refine (documents.needed plain).bind fun _ _ retains => ?_
            refine (ih less (.inr retains.within)).bind fun _ _ same => ?_
            exact matches_pure (congrArg _ same)
          split
          next same =>
            have plain := plain_of_kind found same (by decide)
            rw [documents.need (by decide)]
            refine matches_bind fun operator _ => (documents.needed plain).bind fun _ _ retains => ?_
            refine (ih less (.inr retains.within)).bind fun _ _ same => ?_
            exact matches_pure (congrArg _ same)
          split
          next same =>
            have plain := plain_of_kind found same (by decide)
            refine (documents.needed plain).bind fun _ _ retains => ?_
            rw [documents.need (by decide)]
            refine matches_bind fun operator _ => (retains.item 0).bind fun _ _ first => ?_
            refine (ih less (.inl first)).bind fun left left' same => ?_
            refine (retains.item 1).bind fun _ _ second => ?_
            refine (ih less (.inl second)).bind fun right right' same' => ?_
            exact matches_pure (by rw [same, same'])
          split
          · rw [documents.need (by decide)]
            exact matches_refl _
          · exact matches_error
        · nofun
        · nofun
        · nofun
        · nofun
      | _ =>
        cases documents
        exact matches_error
    rcases related with documents | holds
    · exact whole documents
    · cases holds with
      | same => exact whole (.same value)
      | list walk => exact list walk

/-- A constant without a value gets none by comments. -/
theorem Documents.constantOf (documents : Documents node other)
    (kind : node.field "kind" = .ok (.str "EnumConstantDecl")) (owners : Initializer.Owners)
    (enum name : Label) (count : Option Int) :
    Matches Eq (constantOf owners enum name count node) (constantOf owners enum name count other) := by
  cases documents with
  | same => exact matches_refl _
  | @inside entries nodes others found walk may =>
    have value : (obj entries).field "inner" = .ok (arr nodes) := by
      rw [Json.field, Json.fieldOr, found]
      rfl
    have value' : (obj (Table.insert "inner" (arr others) entries)).field "inner" = .ok (arr others) := by
      rw [Json.field, Json.fieldOr, Table.find?_insert_self]
      rfl
    have held : (arr others).holds = (arr nodes).holds := by
      cases walk with
      | cons => rfl
      | nil =>
        rcases may with same | ⟨listed, -, known, given⟩
        · rw [List.length_eq_zero_iff.mp same]
        · rw [Json.field, Json.fieldOr, known] at kind
          exact absurd rfl (given (Json.str.inj (Except.ok.inj kind)))
    unfold Resolve.constantOf
    rw [value, value']
    change Matches Eq (if (arr nodes).holds then _ else _) (if (arr others).holds then _ else _)
    rw [held]
    split
    · rw [Json.need, Json.need, found, Table.find?_insert_self]
      have holds : Holds (arr nodes) (arr others) := .list walk
      refine (evaluateWith_holds owners enum (Nat.succ_le_succ holds.depth_le) (.inr holds)).bind ?_
      rintro value _ rfl
      exact matches_refl _
    · exact matches_refl _
  | into _ _ may =>
    obtain ⟨⟨listed, -, known, given⟩, -⟩ := may
    rw [Json.field, Json.fieldOr, known] at kind
    exact absurd rfl (given (Json.str.inj (Except.ok.inj kind)))

theorem isSkippable_comment {comment : Json} (isComment : IsComment comment) :
    isSkippable comment = .ok true := by
  have given : comment.fieldOr "kind" (.str "") = .ok (.str "FullComment") := by
    cases comment with
    | obj entries =>
      rw [IsComment, Json.field, Json.fieldOr] at isComment
      cases found : Table.find? "kind" entries with
      | none =>
        rw [found] at isComment
        cases isComment
      | some value =>
        rw [found] at isComment
        rw [Json.fieldOr, found]
        exact isComment
    | _ => cases isComment
  rw [isSkippable, given]
  rfl

theorem isMute_comment {comment : Json} (isComment : IsComment comment) : isMute comment = .ok true := by
  rw [isMute, isSkippable_comment isComment, isComment]
  rfl

theorem variants_comments (graph : Graph) {comments : List Json}
    (all : ∀ comment ∈ comments, IsComment comment) : variants graph comments = .ok [] := by
  induction comments with
  | nil => rfl
  | cons comment rest ih =>
    rw [variants, isSkippable_comment (all comment (by simp))]
    exact ih fun other member => all other (by simp [member])

theorem variants_commented (graph : Graph) {nodes others : List Json}
    (walk : Commented Documents nodes others) :
    Matches Eq (variants graph nodes) (variants graph others) := by
  induction walk with
  | nil all =>
    rw [variants_comments graph all]
    exact matches_refl _
  | cons first _ ih =>
    rw [variants, variants, first.isSkippable]
    refine matches_bind fun skips _ => ?_
    split
    · exact ih
    rw [first.field (by decide), first.field (by decide)]
    refine matches_bind fun name _ => matches_bind fun kind _ => ?_
    split
    · exact matches_error
    · rw [first.spelledType]
      refine matches_bind fun type _ => ih.bind fun _ _ same => ?_
      exact matches_pure (by rw [same])

theorem functionParameters_comments (graph : Graph) {comments : List Json}
    (all : ∀ comment ∈ comments, IsComment comment) : functionParameters graph comments = .ok [] := by
  induction comments with
  | nil => rfl
  | cons comment rest ih =>
    have kind : comment.field "kind" = .ok (.str "FullComment") := all comment (by simp)
    rw [functionParameters, kind]
    exact ih fun other member => all other (by simp [member])

theorem functionParameters_commented (graph : Graph) {nodes others : List Json}
    (walk : Commented Documents nodes others) :
    Matches Eq (functionParameters graph nodes) (functionParameters graph others) := by
  induction walk with
  | nil all =>
    rw [functionParameters_comments graph all]
    exact matches_refl _
  | cons first _ ih =>
    rw [functionParameters, functionParameters, first.field (by decide)]
    refine matches_bind fun kind _ => ?_
    split
    · exact ih
    · rw [first.field (by decide), first.spelledType]
      refine matches_bind fun name _ => matches_bind fun type _ => ih.bind fun _ _ same => ?_
      exact matches_pure (by rw [same])

theorem nodeTypeWith_documents (graph : Graph) {fuel more : Nat} (depth : Nat) (enough : fuel ≤ more)
    (documents : Documents node other) :
    Matches Eq (nodeTypeWith graph fuel depth node) (nodeTypeWith graph more depth other) := by
  induction fuel generalizing more depth node other with
  | zero => exact matches_error
  | succ fuel ih =>
    obtain ⟨more, rfl⟩ : ∃ less, more = less + 1 := ⟨more - 1, by omega⟩
    rw [nodeTypeWith, nodeTypeWith, documents.field (by decide), documents.spellingOf,
      documents.need (by decide), documents.spelledTypeAt]
    split
    · exact matches_error
    refine matches_bind fun kind found => ?_
    split
    · exact matches_refl _
    split
    · exact matches_refl _
    split
    · exact matches_refl _
    split
    · exact matches_refl _
    refine matches_bind fun wraps among => ?_
    split
    next chosen =>
      have plain : Plain node := by
        intro listed member same
        rw [found] at same
        obtain rfl := Except.ok.inj same
        obtain rfl : wraps = true := chosen
        have inside : wrappers.contains listed = true := Except.ok.inj among
        simp only [wrappers, List.contains_iff_mem, List.mem_cons, List.not_mem_nil, or_false] at inside
        rcases inside with rfl | rfl | rfl
        · exact absurd member (by decide)
        · exact absurd member (by decide)
        · exact absurd member (by decide)
      refine (documents.needed plain).bind fun _ _ retains => (retains.item 0).bind fun _ _ first => ?_
      exact ih (depth + 1) (by omega) first
    · exact matches_error

theorem nodeType_documents (graph : Graph) (documents : Documents node other) :
    Matches Eq (nodeType graph node) (nodeType graph other) :=
  nodeTypeWith_documents graph 0 (Nat.succ_le_succ documents.depth_le) documents

theorem prototypeParameters_documents (graph : Graph) {nodes others : List Json}
    (walk : List.Forall₂ Documents nodes others) :
    Matches Eq (prototypeParameters graph nodes) (prototypeParameters graph others) := by
  induction walk with
  | nil => exact matches_refl _
  | cons first _ ih =>
    rw [prototypeParameters, prototypeParameters, first.field (by decide)]
    refine matches_bind fun name _ => (nodeType_documents graph first).bind fun type _ same => ?_
    obtain rfl := same
    exact ih.bind fun _ _ same => matches_pure (by rw [same])

/-- A prototype and the same one with comments in it. -/
abbrev SamePrototype : Option Json → Option Json → Prop :=
  Option.Rel fun prototype known => Documents prototype known ∧ Plain prototype

/-- The prototype in the first node within a typedef. -/
def pointedPrototype (pointer : Json) : Except Fault (Option Json) := do
  if !(← pointer.field "kind").isKind "PointerType" then return none
  let paren ← firstChild pointer
  if !(← paren.field "kind").isKind "ParenType" then return none
  let prototype ← firstChild paren
  if !(← prototype.field "kind").isKind "FunctionProtoType" then return none
  return some prototype

theorem pointedPrototype_documents (documents : Documents node other) :
    Matches SamePrototype (pointedPrototype node) (pointedPrototype other) := by
  unfold pointedPrototype
  rw [documents.field (by decide)]
  refine matches_bind fun kind found => ?_
  split
  · exact matches_pure .none
  next same =>
    have plain := plain_of_kind found (by simpa using same) (by decide)
    refine (documents.firstChild plain).bind fun paren paren' first => ?_
    rw [first.field (by decide)]
    refine matches_bind fun kind found => ?_
    split
    · exact matches_pure .none
    next same =>
      have plain := plain_of_kind found (by simpa using same) (by decide)
      refine (first.firstChild plain).bind fun prototype prototype' last => ?_
      rw [last.field (by decide)]
      refine matches_bind fun kind found => ?_
      split
      · exact matches_pure .none
      next same =>
        exact matches_pure (.some ⟨last, plain_of_kind found (by simpa using same) (by decide)⟩)

theorem pointedPrototype_comment {comment : Json} (isComment : IsComment comment) :
    pointedPrototype comment = .ok none := by
  rw [pointedPrototype, isComment]
  rfl

theorem Documents.prototype? (documents : Documents node other) :
    Matches SamePrototype (prototype? node) (prototype? other) := by
  have cut (node : Json) : Resolve.prototype? node = Resolve.children node >>= fun inner =>
      if !inner.holds then pure none else inner.item 0 >>= pointedPrototype := rfl
  rw [cut, cut]
  refine documents.children.bind fun inner known holds => ?_
  cases holds with
  | same =>
    split
    · exact matches_pure .none
    · exact matches_bind fun pointer _ => pointedPrototype_documents (.same pointer)
  | @list nodes others walk =>
    cases walk with
    | nil all =>
      -- What comes first in a list of comments is no pointer.
      cases others with
      | nil => exact matches_pure .none
      | cons comment rest =>
        have nothing := pointedPrototype_comment (all comment (by simp))
        rintro _ ⟨⟩
        exact ⟨none, nothing, .none⟩
    | cons first rest => exact pointedPrototype_documents first

theorem Documents.callback (documents : Documents node other) (plain : Plain node) (graph : Graph)
    (name : Label) : Matches Eq (callback graph name node) (callback graph name other) := by
  unfold Resolve.callback Resolve.children
  rw [bind_assoc, bind_assoc]
  refine (documents.retained plain).bind fun value known retains => ?_
  have inner := retains.orElse (arr [])
  change Matches Eq (if !(value.orElse (arr [])).holds then _ else _)
    (if !(known.orElse (arr [])).holds then _ else _)
  rw [inner.holds]
  split
  · exact matches_error
  refine (inner.item 0).bind fun _ _ first => (nodeType_documents graph first).bind fun result _ same => ?_
  obtain rfl := same
  refine inner.items.bind fun nodes others walk => ?_
  refine (prototypeParameters_documents graph (List.forall₂_drop 1 walk)).bind fun _ _ same => ?_
  exact matches_pure (by rw [same])

theorem Documents.signature (documents : Documents node other) (graph : Graph) (name : Label) :
    Matches Eq (signature graph name node) (signature graph name other) := by
  unfold Resolve.signature
  rw [documents.spellingOf]
  refine matches_bind fun spelling _ => matches_bind fun text _ => matches_bind fun result _ => ?_
  refine documents.children.bind fun _ _ holds => holds.items.bind fun _ _ walk => ?_
  refine (functionParameters_commented graph walk).bind fun _ _ same => ?_
  exact matches_pure (by rw [same])

section
variable {following after : Option Json} (next : Option.Rel Documents following after)
  (documents : Documents node other)

include next documents

theorem nameOf_documents : nameOf after other = nameOf following node := by
  have adopted : adoptedName after other = adoptedName following node := by
    cases next with
    | none => rfl
    | @some next next' first =>
      have present := first.isNull
      cases next with
      | null =>
        cases first
        rfl
      | _ =>
        cases next' with
        | null => cases present
        | _ =>
          rw [adoptedName, adoptedName, first.field (by decide), first.field (by decide),
            first.encloses documents]
          · rintro ⟨⟩
          · rintro ⟨⟩
  rw [nameOf, nameOf, documents.field (by decide), adopted]

end

/-- Whether a type node within a typedef is the tag that the typedef names. -/
def isOwnTag (name : Label) (type : Json) : Except Fault (Bool × Journal) := do
  let tag ← ((← type.field "inner").orElse (arr [obj []])).item 0
  let declared := (← tag.field "decl").orElse (obj [])
  return ((← declared.field "name") == name, [])

/-- Whether the first node within a typedef says that the typedef names what is there already. -/
def renames (known : Label → Bool) (name : Label) (first : Json) : Except Fault (Bool × Journal) := do
  let kind ← first.field "kind"
  let elaborated : Except Fault (Bool × Journal) :=
    if kind.isKind "ElaboratedType" then isOwnTag name first else return (false, [])
  if kind.isKind "BuiltinType" then
    if known (← name.asKey) then
      return (true, Journal.debug ("Skipping builtin re-declaration " ++ name.plain))
    else elaborated
  else elaborated

theorem renames_documents (documents : Documents node other) (known : Label → Bool) (name : Label) :
    Matches Eq (renames known name node) (renames known name other) := by
  unfold renames
  rw [documents.field (by decide)]
  refine matches_bind fun kind found => ?_
  have elaborated : Matches Eq
      (if kind.isKind "ElaboratedType" then isOwnTag name node else return (false, []))
      (if kind.isKind "ElaboratedType" then isOwnTag name other else return (false, [])) := by
    split
    next same =>
      have plain := plain_of_kind found same (by decide)
      refine (documents.retained plain).bind fun _ _ retains => ?_
      refine ((retains.orElse _).item 0).bind fun tag tag' first => ?_
      rw [first.field (by decide)]
      exact matches_refl _
    · exact matches_refl _
  dsimp only
  split
  · refine matches_bind fun key _ => ?_
    split
    · exact matches_refl _
    · exact elaborated
  · exact elaborated

theorem renames_comment {comment : Json} (isComment : IsComment comment) (known : Label → Bool)
    (name : Label) : renames known name comment = .ok (false, []) := by
  rw [renames, isComment]
  rfl

theorem Documents.isSynonym (documents : Documents node other) (known : Label → Bool) :
    Matches Eq (Origin.isSynonym known node) (Origin.isSynonym known other) := by
  have cut (node : Json) : Origin.isSynonym known node = node.field "name" >>= fun name =>
      node.field "type" >>= fun type => (type.orElse (obj [])).field "qualType" >>= fun spelling =>
        if name == spelling then pure (true, []) else node.field "inner" >>= fun value =>
          if !(value.orElse (arr [])).holds then pure (false, [])
          else (value.orElse (arr [])).item 0 >>= renames known name := rfl
  rw [cut, cut, documents.field (by decide), documents.field (by decide)]
  refine matches_bind fun name _ => matches_bind fun type _ => matches_bind fun spelling _ => ?_
  split
  · exact matches_refl _
  refine documents.inner.bind fun value value' holds => ?_
  generalize value.orElse (arr []) = inner at holds ⊢
  generalize value'.orElse (arr []) = inner' at holds ⊢
  cases holds with
  | same => exact matches_refl _
  | @list nodes others walk =>
    cases walk with
    | nil all =>
      cases others with
      | nil => exact matches_refl _
      | cons comment rest =>
        have nothing := renames_comment (all comment (by simp)) known name
        rintro _ ⟨⟩
        exact ⟨_, nothing, rfl⟩
    | cons first rest => exact renames_documents first known name

theorem Documents.isDropped (documents : Documents node other) (known : Label → Bool) :
    Matches Eq (Origin.isDropped known node) (Origin.isDropped known other) := by
  unfold Origin.isDropped
  rw [documents.field (by decide), documents.field (by decide), documents.field (by decide)]
  refine matches_bind fun implicit _ => ?_
  split
  · exact matches_refl _
  refine matches_bind fun name _ => matches_bind fun text _ => ?_
  split
  · exact matches_refl _
  refine matches_bind fun kind _ => ?_
  split
  · exact documents.isSynonym known
  · exact matches_refl _

theorem Documents.skips (documents : Documents node other) (header : Path) (known : Label → Bool) :
    Refines Eq (Origin.skips header known node) (Origin.skips header known other) := by
  unfold Origin.skips
  rw [documents.entersForeign]
  refine refines_then _ fun foreign => ?_
  split
  · exact refines_refl _
  · have ends (outcome : Except Fault (Bool × Journal)) :
        (liftM outcome : Act Origin.Includer (Bool × Journal)) = liftM outcome >>= pure := by
      rw [bind_pure]
    rw [ends (Origin.isDropped known node), ends (Origin.isDropped known other)]
    exact Refines.lift (documents.isDropped known) fun _ _ same => refines_pure same

theorem Documents.body (documents : Documents node other) (same : hasBody other = hasBody node) :
    Matches (fun value known => known.isNull = value.isNull) (node.field "inner") (other.field "inner") := by
  intro value found
  obtain ⟨known, found', -⟩ := documents.inner value found
  rw [hasBody_eq found, hasBody_eq found'] at same
  exact ⟨known, found', by simpa using same⟩

/-- A record of a name is not defined by comments. -/
theorem Documents.hasBody (documents : Documents node other)
    (named : (Resolve.isRecord node && Resolve.isNamed node) = true) :
    hasBody other = hasBody node := by
  cases documents with
  | same => rfl
  | @inside entries nodes others found =>
    have held : (obj entries).field "inner" = .ok (arr nodes) := by
      rw [Json.field, Json.fieldOr, found]
      rfl
    have held' : (obj (Table.insert "inner" (arr others) entries)).field "inner" = .ok (arr others) := by
      rw [Json.field, Json.fieldOr, Table.find?_insert_self]
      rfl
    rw [hasBody_eq held, hasBody_eq held']
    rfl
  | into _ _ may =>
    rw [may.2] at named
    cases named

end

section
variable {σ : Type} {node other : Json}

theorem constants_comments (owner : Label) (count : Option Int) (done : Table Label Constant)
    {comments : List Json} (all : ∀ comment ∈ comments, IsComment comment) :
    (constants owner count done comments : Resolving σ _) = pure done := by
  induction comments with
  | nil => rfl
  | cons comment rest ih =>
    have kind : comment.field "kind" = .ok (.str "FullComment") := all comment (by simp)
    rw [constants, kind]
    exact ih fun other member => all other (by simp [member])

theorem constants_commented (owner : Label) {nodes others : List Json}
    (walk : Commented Documents nodes others) (count : Option Int) (done : Table Label Constant) :
    Refines Eq (constants owner count done nodes : Resolving σ _) (constants owner count done others) := by
  induction walk generalizing count done with
  | nil all =>
    rw [constants_comments owner count done all]
    exact refines_refl _
  | cons first _ ih =>
    rw [constants, constants, first.field (by decide)]
    refine refines_lift fun kind found => ?_
    split
    next same =>
      rw [first.need (by decide)]
      refine refines_lift fun name _ => refines_then _ fun session => ?_
      refine Refines.lift (first.constantOf (kind_eq found same) _ _ _ _) fun value _ same => ?_
      obtain rfl := same
      refine refines_lift fun key _ => refines_then _ fun _ => ih _ _
    · exact ih _ _

theorem topEnum_documents {following after : Option Json} (next : Option.Rel Documents following after)
    (documents : Documents node other) :
    Refines Eq (topEnum following node : Resolving σ Bool) (topEnum after other) := by
  unfold topEnum
  rw [nameOf_documents next documents]
  refine refines_lift fun named _ => ?_
  split
  · unfold unwrapped
    rw [documents.field (by decide)]
    exact refines_refl _
  · refine Refines.lift documents.children fun _ _ holds => Refines.lift holds.items fun _ _ walk => ?_
    refine Refines.then (R := Eq) ?_ fun type _ same => same ▸ refines_refl _
    exact (constants_commented _ walk _ _).then fun _ _ same => refines_pure (by rw [same])

section
variable (oracle : Layout.Oracle σ)

theorem namedUnion_documents (documents : Documents node other) (layout name : Label) :
    Refines Eq (namedUnion oracle layout name node) (namedUnion oracle layout name other) := by
  unfold namedUnion
  rw [documents.field (by decide)]
  refine refines_lift fun tag _ => ?_
  dsimp only
  split
  · exact refines_throw
  refine refines_then _ fun graph => Refines.lift documents.children fun _ _ holds => ?_
  refine Refines.lift holds.items fun _ _ walk => Refines.lift (variants_commented graph walk) ?_
  rintro inside _ rfl
  exact refines_refl _

theorem unnamedMembers_comments (layout : Label) (inside : Json → Resolving σ (List (Field CType)))
    {comments : List Json} (all : ∀ comment ∈ comments, IsComment comment) :
    unnamedMembers oracle layout inside comments = pure [] := by
  induction comments with
  | nil => rfl
  | cons comment rest ih =>
    have kind : comment.field "kind" = .ok (.str "FullComment") := all comment (by simp)
    rw [unnamedMembers, kind, lift_ok_bind, isMute_comment (all comment (by simp)), lift_ok_bind, if_pos rfl]
    exact ih fun other member => all other (by simp [member])

theorem unnamedMembers_commented (layout : Label) {inside inside' : Json → Resolving σ (List (Field CType))}
    (inner : ∀ node other, Documents node other → Refines Eq (inside node) (inside' other))
    {nodes others : List Json} (walk : Commented Documents nodes others) :
    Refines Eq (unnamedMembers oracle layout inside nodes) (unnamedMembers oracle layout inside' others) := by
  induction walk with
  | nil all =>
    rw [unnamedMembers_comments oracle layout inside' all]
    exact refines_refl _
  | cons first _ ih =>
    rw [unnamedMembers, unnamedMembers, first.field (by decide), first.isMute, first.field (by decide)]
    refine refines_lift fun kind _ => refines_lift fun mute _ => ?_
    split
    · exact ih
    refine refines_lift fun name _ => refines_lift fun among _ => ?_
    split
    · refine (inner _ _ first).then fun fields _ same => ih.then fun others _ same' => ?_
      exact refines_pure (by rw [same, same'])
    split
    · exact refines_throw
    split
    · exact ih
    · rw [first.member]
      refine refines_then _ fun field => ih.then fun others _ same => ?_
      exact refines_pure (by rw [same])

theorem flattenWith_documents (layout : Label) {fuel more : Nat} (enough : fuel ≤ more)
    (documents : Documents node other) :
    Refines Eq (flattenWith oracle layout fuel node) (flattenWith oracle layout more other) := by
  induction fuel generalizing more node other with
  | zero => exact refines_throw
  | succ fuel ih =>
    obtain ⟨more, rfl⟩ : ∃ less, more = less + 1 := ⟨more - 1, by omega⟩
    refine Refines.lift documents.children fun _ _ holds => Refines.lift holds.items fun _ _ walk => ?_
    exact unnamedMembers_commented oracle layout (fun _ _ documents => ih (by omega) documents) walk

theorem flatten_documents (layout : Label) (documents : Documents node other) :
    Refines Eq (flatten oracle layout node) (flatten oracle layout other) :=
  flattenWith_documents oracle layout (Nat.succ_le_succ documents.depth_le) documents

theorem members_comments (nested : Json → Label → Label → Resolving σ CType) (name layout : Label)
    {comments : List Json} (all : ∀ comment ∈ comments, IsComment comment) :
    members oracle nested name layout comments = pure [] := by
  induction comments with
  | nil =>
    unfold members
    rfl
  | cons comment rest ih =>
    have kind : comment.field "kind" = .ok (.str "FullComment") := all comment (by simp)
    unfold members
    rw [kind, lift_ok_bind, isMute_comment (all comment (by simp)), lift_ok_bind, if_pos rfl]
    exact ih fun other member => all other (by simp [member])

theorem isNaming_comment {comment : Json} (isComment : IsComment comment) (record : Json) :
    isNaming comment record = .ok false := by
  cases comment with
  | null => rfl
  | _ =>
    rw [isNaming, isComment]
    · rfl
    · nofun

theorem members_commented {nested nested' : Json → Label → Label → Resolving σ CType}
    (inner : ∀ node other own layout, Documents node other →
      Refines Eq (nested node own layout) (nested' other own layout)) (name layout : Label)
    {nodes others : List Json} (walk : Commented Documents nodes others) :
    Refines Eq (members oracle nested name layout nodes) (members oracle nested' name layout others) := by
  fun_induction members oracle nested name layout nodes generalizing others with
  | case1 =>
    cases walk with
    | nil all =>
      rw [members_comments oracle nested' name layout all]
      exact refines_refl _
  | case2 node rest ih next =>
    cases walk with
    | @cons _ other _ others first walk =>
    rw [members.eq_def oracle nested' name layout (other :: others)]
    dsimp only
    rw [first.field (by decide), first.isMute]
    refine refines_lift fun kind known => refines_lift fun mute _ => ?_
    cases mute with
    | true => exact ih walk
    | false =>
    refine refines_lift fun among checked => ?_
    have record := isRecord_eq known checked
    cases among with
    | true =>
      rw [first.field (by decide)]
      refine refines_lift fun own named => ?_
      have called := isNamed_eq named
      cases holds : own.holds with
      | true =>
        have same : hasBody other = hasBody node := by
          refine first.hasBody ?_
          rw [record, called, holds]
          rfl
        refine Refines.lift (first.body same) fun value value' null => ?_
        rw [null]
        cases value.isNull with
        | true => exact ih walk
        | false => exact (inner _ _ _ _ first).then fun _ _ _ => ih walk
      | false =>
        have flattens := flatten_documents oracle layout first
        cases rest with
        | nil =>
          cases walk with
          | nil all =>
            cases others with
            | nil => exact flattens
            | cons comment more =>
              -- The comments after an unnamed record neither name it nor add to it.
              have nothing := members_comments oracle nested' name layout all
              have whole : (flatten oracle layout other >>= fun fields =>
                  members oracle nested' name layout (comment :: more) >>= fun others =>
                    pure (fields ++ others)) = flatten oracle layout other := by
                simp [nothing]
              dsimp only
              rw [isNaming_comment (all comment (by simp)), lift_ok_bind]
              change Refines Eq (flatten oracle layout node) (flatten oracle layout other >>= fun fields =>
                members oracle nested' name layout (comment :: more) >>= fun others =>
                  pure (fields ++ others))
              rw [whole]
              exact flattens
        | cons following after =>
          cases walk with
          | @cons _ following' _ after' second walk =>
          obtain ⟨afterNext, afterThis⟩ := next
          dsimp only
          rw [second.isNaming first]
          refine refines_lift fun naming _ => ?_
          cases naming with
          | true =>
            rw [if_pos rfl, if_pos rfl, second.need (by decide)]
            refine refines_lift fun field _ => ?_
            refine (namedUnion_documents oracle first layout field).then fun first _ same => ?_
            obtain rfl := same
            refine (afterNext walk).then fun others _ same => refines_pure ?_
            rw [same]
          | false =>
            refine Refines.then flattens fun fields _ same => ?_
            obtain rfl := same
            refine Refines.then (afterThis (.cons second walk)) fun others _ same => refines_pure ?_
            rw [same]
    | false =>
      cases kind.isKind "FieldDecl" with
      | false => exact refines_throw
      | true =>
      have called : other.field "name" = node.field "name" := first.field (by decide)
      have hidden : other.field "isImplicit" = node.field "isImplicit" := first.field (by decide)
      rw [called, hidden]
      refine refines_lift fun own _ => ?_
      cases own.holds with
      | false =>
        simp only [Bool.not_false, if_true]
        refine refines_lift fun implicit _ => ?_
        cases implicit.holds with
        | true => exact ih walk
        | false => exact refines_throw
      | true =>
        rw [first.member]
        refine refines_then _ fun field => Refines.then (ih walk) fun others _ same => refines_pure ?_
        rw [same]

theorem recordWith_documents {fuel more : Nat} (enough : fuel ≤ more) (documents : Documents node other)
    (name layout : Label) :
    Refines Eq (recordWith oracle fuel node name layout) (recordWith oracle more other name layout) := by
  induction fuel generalizing more node other name layout with
  | zero => exact refines_throw
  | succ fuel ih =>
    obtain ⟨more, rfl⟩ : ∃ less, more = less + 1 := ⟨more - 1, by omega⟩
    refine refines_then _ fun size => Refines.lift documents.children fun _ _ holds => ?_
    refine Refines.lift holds.sequence fun _ _ walk => ?_
    have inner (node other : Json) (own layout : Label) (documents : Documents node other) :
        Refines Eq (recordWith oracle fuel node own layout) (recordWith oracle more other own layout) :=
      ih (by omega) documents own layout
    refine (members_commented oracle inner name layout walk).then fun fields _ same => ?_
    exact same ▸ refines_refl _

theorem record_documents (documents : Documents node other) (name layout : Label) :
    Refines Eq (record oracle node name layout) (record oracle other name layout) :=
  recordWith_documents oracle (Nat.succ_le_succ documents.depth_le) documents name layout

end

/-- A node of a header and the same one with comments in it. Comments alone do not define a record. -/
structure TopDocuments (node other : Json) : Prop where
  documents : Documents node other
  body : isRecord node = true → hasBody other = hasBody node

theorem TopDocuments.same (node : Json) : TopDocuments node node := ⟨.same node, fun _ => rfl⟩

theorem topRecord_documents (oracle : Layout.Oracle σ) {following after : Option Json}
    (next : Option.Rel Documents following after) (documents : Documents node other)
    (body : hasBody other = hasBody node) :
    Refines Eq (topRecord oracle following node) (topRecord oracle after other) := by
  unfold topRecord
  rw [nameOf_documents next documents]
  refine refines_lift fun named _ => ?_
  split
  · unfold unwrapped
    rw [documents.fieldOr (by decide), documents.field (by decide)]
    exact refines_refl _
  · refine Refines.lift (documents.body body) fun value value' null => ?_
    rw [null]
    split
    · exact refines_refl _
    · refine (record_documents oracle documents _ _).then fun type _ same => ?_
      exact refines_pure rfl

theorem typedef_documents (documents : Documents node other) :
    Refines Eq (typedef node : Resolving σ Unit) (typedef other) := by
  unfold typedef
  rw [documents.need (by decide), documents.spellingOf, documents.field (by decide)]
  refine refines_lift fun name _ => refines_lift fun spelling _ => refines_lift fun type _ => ?_
  refine refines_lift fun aliased _ => ?_
  split
  · exact refines_refl _
  refine Refines.lift documents.prototype? fun found found' same => ?_
  cases same with
  | none => exact refines_refl _
  | some both =>
    obtain ⟨documents, plain⟩ := both
    refine refines_then _ fun graph => Refines.lift (documents.callback plain graph name) ?_
    rintro type _ rfl
    exact refines_refl _

theorem function_documents (documents : Documents node other) :
    Refines Eq (function node : Resolving σ Unit) (function other) := by
  unfold function
  rw [documents.need (by decide)]
  refine refines_lift fun name _ => refines_then _ fun graph => ?_
  refine Refines.lift (documents.signature graph name) fun type _ same => ?_
  obtain rfl := same
  rw [documents.field (by decide)]
  exact refines_refl _

section
variable (header : Path) (oracle : Layout.Oracle σ)

theorem isSkipped_documents (documents : Documents node other) :
    Refines Eq (isSkipped header node : Resolving σ Bool) (isSkipped header other) := by
  unfold isSkipped
  refine refines_then _ fun graph => (documents.skips header graph.has).zoom.then ?_
  rintro told _ rfl
  exact refines_refl _

theorem topNode_documents {following after : Option Json} (next : Option.Rel Documents following after)
    (top : TopDocuments node other) :
    Refines Eq (topNode header oracle following node) (topNode header oracle after other) := by
  obtain ⟨documents, body⟩ := top
  unfold topNode
  refine (isSkipped_documents header documents).then fun skipped _ same => ?_
  obtain rfl := same
  split
  · exact refines_refl _
  rw [documents.field (by decide), documents.fieldOr (by decide)]
  refine refines_lift fun kind known => ?_
  split
  · exact topEnum_documents next documents
  refine refines_lift fun among checked => ?_
  split
  next record => exact topRecord_documents oracle next documents (body (by rw [isRecord_eq known checked, record]))
  split
  · exact (typedef_documents documents).then fun _ _ _ => refines_refl _
  split
  · exact (function_documents documents).then fun _ _ _ => refines_refl _
  · exact refines_refl _

theorem topNodes_documents {nodes others : List Json} (walk : List.Forall₂ TopDocuments nodes others)
    (done : Bool) :
    Refines Eq (topNodes header oracle done nodes) (topNodes header oracle done others) := by
  induction walk generalizing done with
  | nil => exact refines_refl _
  | @cons node other rest rest' first walk ih =>
    have next : Option.Rel Documents rest.head? rest'.head? := by
      cases walk with
      | nil => exact .none
      | cons second => exact .some second.documents
    rw [topNodes, topNodes]
    split
    · exact ih false
    · refine (topNode_documents header oracle next first).then fun adopted _ same => ?_
      exact same ▸ ih adopted

/-- Comments do not change what a header resolves to, but for those that define a record or give an
enum constant a value. -/
theorem resolve_documents {nodes others : List Json} (walk : List.Forall₂ TopDocuments nodes others)
    (state : σ) (graph : Graph)
    (resolved : ((resolve header oracle nodes).runOn { oracle := state }).1 = .ok graph) :
    ((resolve header oracle others).runOn { oracle := state }).1 = .ok graph := by
  rw [resolve_runOn] at resolved ⊢
  have goes : Refines Eq (topNodes header oracle false nodes >>= fun _ => conclude header)
      (topNodes header oracle false others >>= fun _ => conclude header) :=
    (topNodes_documents header oracle walk false).then fun _ _ _ => refines_refl _
  cases ran : (topNodes header oracle false nodes >>= fun _ => conclude header).runOn (opening state) with
  | mk outcome after =>
    rw [ran] at resolved
    obtain rfl : outcome = .ok graph := resolved
    obtain ⟨_, ran', rfl⟩ := goes _ _ _ ran
    rw [ran']

end

def commentNode : Json := .obj [("kind", .str "FullComment")]

theorem isComment_commentNode : IsComment commentNode := rfl

theorem all_commentNode : ∀ comment ∈ [commentNode], IsComment comment := by
  simp [isComment_commentNode]

/-- An enum with one constant. -/
def tintNode (inner : List Json) : Json :=
  .obj [("kind", .str "EnumDecl"), ("name", .str "tint"),
    ("inner", .arr [.obj [("kind", .str "EnumConstantDecl"), ("name", .str "red"), ("inner", .arr inner)]])]

def oneNode : Json := .obj [("kind", .str "IntegerLiteral"), ("value", .str "1")]

/-- Comments on a record and its field, on an enum constant with a value, and on a typedef. -/
theorem resolve_documents_point :
    let point (comments own : List Json) : Json := recordNode "point"
      (.obj ([("kind", .str "FieldDecl"), ("name", .str "x"), ("type", .obj [("qualType", .str "int")])] ++
        [("inner", .arr comments)]) :: own)
    let dot : List (String × Json) :=
      [("kind", .str "TypedefDecl"), ("name", .str "dot"), ("type", .obj [("qualType", .str "struct point")])]
    let nodes := [tintNode [oneNode], point [] [], .obj dot]
    let others := [tintNode [oneNode, commentNode], point [commentNode] [commentNode],
      .obj (dot ++ [("inner", .arr [commentNode])])]
    let resolved (nodes : List Json) :=
      ((resolve { parts := ["a.h"] } (answering outerAnswers) nodes).runOn { oracle := () }).1
    List.Forall₂ TopDocuments nodes others ∧ ∃ graph, resolved nodes = .ok graph ∧
      resolved others = .ok graph := by
  intro point dot nodes others resolved
  let red : List (String × Json) := [("kind", .str "EnumConstantDecl"), ("name", .str "red"),
    ("inner", .arr [oneNode])]
  let x : List (String × Json) := [("kind", .str "FieldDecl"), ("name", .str "x"),
    ("type", .obj [("qualType", .str "int")]), ("inner", .arr [])]
  have constant : Documents (.obj red) _ := .inside rfl (.cons (.same oneNode) (.nil all_commentNode))
    (.inr ⟨"EnumConstantDecl", by decide, rfl, by simp⟩)
  have tint : Documents (tintNode [oneNode]) (tintNode [oneNode, commentNode]) :=
    .inside rfl (.cons constant (.nil nofun)) (.inl rfl)
  have field : Documents (.obj x) _ := .inside rfl (.nil all_commentNode)
    (.inr ⟨"FieldDecl", by decide, rfl, by decide⟩)
  have record : Documents (point [] []) (point [commentNode] [commentNode]) :=
    .inside rfl (.cons field (.nil all_commentNode)) (.inr ⟨"CXXRecordDecl", by decide, rfl, by decide⟩)
  have spot : Documents (.obj dot) (.obj (dot ++ [("inner", .arr [commentNode])])) :=
    .into (.inl rfl) all_commentNode ⟨⟨"TypedefDecl", by decide, rfl, by decide⟩, rfl⟩
  have walk : List.Forall₂ TopDocuments nodes others :=
    .cons ⟨tint, nofun⟩ (.cons ⟨record, fun _ => rfl⟩ (.cons ⟨spot, nofun⟩ .nil))
  refine ⟨walk, ?_⟩
  cases done : resolved nodes with
  | error fault =>
    have succeeds : (resolved nodes).toBool = true := by decide +kernel
    rw [done] at succeeds
    cases succeeds
  | ok graph => exact ⟨graph, rfl, resolve_documents _ _ walk () graph done⟩

/-- A comment is taken for the value of an enum constant and for the body of a record. -/
theorem resolve_comment_seen :
    let constant (inner : List (String × Json)) : Json := .obj [("kind", .str "EnumDecl"),
      ("name", .str "tint"), ("inner", .arr [.obj ([("kind", .str "EnumConstantDecl"),
        ("name", .str "red")] ++ inner)])]
    let forward (inner : List (String × Json)) : Json :=
      .obj ([("kind", .str "RecordDecl"), ("name", .str "point")] ++ inner)
    let comment : List (String × Json) := [("inner", .arr [commentNode])]
    let declared (node : Json) := ((resolve { parts := ["a.h"] } (answering outerAnswers)
      [node]).runOn { oracle := () }).1.toOption.map fun graph =>
        graph.names.drop (Seed.sow {}).names.length
    declared (constant []) = some [.str "tint"] ∧ declared (constant comment) = none ∧
      declared (forward []) = some [] ∧ declared (forward comment) = some [.str "point"] := by
  decide +kernel

end

end Resolve

end NativeBindings
