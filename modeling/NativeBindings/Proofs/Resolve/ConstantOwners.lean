import NativeBindings.Proofs.Resolve.LaterWins
import NativeBindings.Proofs.Resolve.TagNodes

/-!
What the references in enum constants stand for. Each one names a constant before it: one of the same
enum, or one of an enum that is declared earlier. Which enum owns a constant is told when its enum is
evaluated, so this is an invariant of the declarations together with the owners.
-/
namespace NativeBindings

namespace Table

variable {κ α : Type} [BEq κ]

theorem find?_append (key : κ) (first second : Table κ α) :
    find? key (first ++ second) = (find? key first).or (find? key second) := by
  induction first with
  | nil => rfl
  | cons entry rest ih =>
    obtain ⟨other, value⟩ := entry
    rw [List.cons_append, find?, find?]
    split
    · rfl
    · exact ih

theorem has_append (key : κ) (first second : Table κ α) :
    has key (first ++ second) = (has key first || has key second) := by
  rw [has, has, has, find?_append, Option.isSome_or]

theorem has_insert [EquivBEq κ] (key other : κ) (value : α) (table : Table κ α) :
    has other (insert key value table) = (key == other || has other table) := by
  cases same : key == other with
  | true =>
    rw [has, ← find?_congr same, find?_insert_self]
    rfl
  | false => rw [has, find?_insert_of_ne same, Bool.false_or, has]

/-- A part of a table that has all of its keys is the table. -/
theorem eq_of_sublist [EquivBEq κ] {part table : Table κ α} (sublist : part.Sublist table)
    (distinct : (keys table).Pairwise fun one other => (one == other) = false)
    (present : ∀ entry ∈ table, has entry.1 part = true) : part = table := by
  induction sublist with
  | slnil => rfl
  | cons entry sublist =>
    obtain ⟨own, member, same⟩ := has_iff_keys.mp (present entry List.mem_cons_self)
    have apart := (List.pairwise_cons.mp distinct).1 own ((sublist.map _).subset member)
    rw [BEq.symm same] at apart
    cases apart
  | cons_cons entry sublist ih =>
    obtain ⟨apart, distinct⟩ := List.pairwise_cons.mp distinct
    refine congrArg (entry :: ·) (ih distinct fun other member => ?_)
    rw [← has_cons_of_ne (apart other.1 (List.mem_map_of_mem member)) entry.2]
    exact present other (List.mem_cons_of_mem _ member)

end Table

namespace Constant

/-- The references in a value, each with the owner that it has. -/
def references : Constant → List (Label × Label)
  | literal _ => []
  | reference name owner => [(name, owner)]
  | paren inner => inner.references
  | unary _ operand => operand.references
  | binary _ left right => left.references ++ right.references

end Constant

namespace Initializer

open Json Outcome

/-- An initializer that refers to a name somewhere. -/
inductive Mentions : Json → Label → Prop
  | here {node target : Json} {name : Label} (kind : node.field "kind" = .ok (.str "DeclRefExpr"))
    (refers : node.need "referencedDecl" = .ok target) (named : target.need "name" = .ok name) :
    Mentions node name
  | inside {node inner : Json} {name : Label} (held : node.field "inner" = .ok inner)
    (mentions : Mentions inner name) : Mentions node name
  | item {nodes : List Json} {node : Json} {name : Label} (member : node ∈ nodes)
    (mentions : Mentions node name) : Mentions (arr nodes) name

section
variable {node inner : Json} {name : Label}

theorem not_mentions_str (s : String) : ¬ Mentions (str s) name := by
  rintro (⟨kind, -, -⟩ | ⟨held, -⟩)
  · cases kind
  · cases held

theorem Mentions.of_item {i : Nat} (found : inner.item i = .ok node) (mentions : Mentions node name) :
    Mentions inner name := by
  unfold Json.item at found
  split at found
  next items =>
    cases at_ : items[i]? with
    | none =>
      rw [at_] at found
      cases found
    | some value =>
      rw [at_] at found
      obtain rfl := Except.ok.inj found
      exact .item (List.mem_of_getElem? at_) mentions
  next =>
    split at found
    · obtain rfl := Except.ok.inj found
      exact absurd mentions (not_mentions_str _)
    · cases found
  next => cases found
  next => cases found

theorem Mentions.of_need (held : node.need "inner" = .ok inner) (mentions : Mentions inner name) :
    Mentions node name :=
  .inside (Resolve.field_of_need held) mentions

theorem Mentions.of_orElse (held : node.field "inner" = .ok inner)
    (mentions : Mentions (inner.orElse (arr [])) name) : Mentions node name := by
  rw [Json.orElse] at mentions
  split at mentions
  · exact .inside held mentions
  · cases mentions with
    | here kind => cases kind
    | inside held => cases held
    | item member => cases member

end

/-- A reference in a value is one in the initializer. What no enum owns so far belongs to the enum at
hand. -/
theorem evaluateWith_references {owners : Owners} {enum : Label} {fuel : Nat} {node : Json}
    {value : Constant} (evaluated : evaluateWith owners enum fuel node = .ok value) :
    ∀ name owner, (name, owner) ∈ value.references →
      owner = (Table.find? name owners).getD enum ∧ Mentions node name := by
  induction fuel generalizing node value with
  | zero => cases evaluated
  | succ fuel ih =>
    by_cases listed : ∃ nodes, node = arr nodes
    · obtain ⟨nodes, rfl⟩ := listed
      cases nodes with
      | nil => cases evaluated
      | cons first rest =>
        intro name owner member
        exact (ih evaluated name owner member).imp_right (.item List.mem_cons_self)
    rw [evaluateWith] at evaluated
    · obtain ⟨kind, known, evaluated⟩ := bind_eq_ok.mp evaluated
      obtain ⟨wraps, -, evaluated⟩ := bind_eq_ok.mp evaluated
      split at evaluated
      · obtain ⟨inner, held, evaluated⟩ := bind_eq_ok.mp evaluated
        intro name owner member
        exact (ih evaluated name owner member).imp_right (.of_orElse held)
      split at evaluated
      · obtain ⟨text, -, evaluated⟩ := bind_eq_ok.mp evaluated
        obtain rfl := pure_eq_ok.mp evaluated
        nofun
      split at evaluated
      · obtain ⟨inner, held, evaluated⟩ := bind_eq_ok.mp evaluated
        obtain ⟨operand, within, evaluated⟩ := bind_eq_ok.mp evaluated
        obtain rfl := pure_eq_ok.mp evaluated
        intro name owner member
        exact (ih within name owner member).imp_right (.of_need held)
      split at evaluated
      · obtain ⟨operator, -, evaluated⟩ := bind_eq_ok.mp evaluated
        obtain ⟨inner, held, evaluated⟩ := bind_eq_ok.mp evaluated
        obtain ⟨operand, within, evaluated⟩ := bind_eq_ok.mp evaluated
        obtain rfl := pure_eq_ok.mp evaluated
        intro name owner member
        exact (ih within name owner member).imp_right (.of_need held)
      split at evaluated
      · obtain ⟨inner, held, evaluated⟩ := bind_eq_ok.mp evaluated
        obtain ⟨operator, -, evaluated⟩ := bind_eq_ok.mp evaluated
        obtain ⟨first, one, evaluated⟩ := bind_eq_ok.mp evaluated
        obtain ⟨left, lefts, evaluated⟩ := bind_eq_ok.mp evaluated
        obtain ⟨second, two, evaluated⟩ := bind_eq_ok.mp evaluated
        obtain ⟨right, rights, evaluated⟩ := bind_eq_ok.mp evaluated
        obtain rfl := pure_eq_ok.mp evaluated
        intro name owner member
        rcases List.mem_append.mp member with member | member
        · exact (ih lefts name owner member).imp_right fun mentions => .of_need held (mentions.of_item one)
        · exact (ih rights name owner member).imp_right fun mentions => .of_need held (mentions.of_item two)
      split at evaluated
      next same =>
        obtain ⟨target, refers, evaluated⟩ := bind_eq_ok.mp evaluated
        obtain ⟨own, named, evaluated⟩ := bind_eq_ok.mp evaluated
        obtain ⟨key, keyed, evaluated⟩ := bind_eq_ok.mp evaluated
        rw [Resolve.asKey_eq_ok keyed] at evaluated
        obtain rfl := pure_eq_ok.mp evaluated
        intro name owner member
        obtain ⟨rfl, rfl⟩ := Prod.mk.inj (List.mem_singleton.mp member)
        exact ⟨rfl, .here (Resolve.kind_eq known same) refers named⟩
      · cases evaluated
    · rintro rfl
      exact listed ⟨_, rfl⟩
    · rintro _ _ rfl
      exact listed ⟨_, rfl⟩

end Initializer

namespace CType

def isEnum : CType → Bool
  | .enum _ _ => true
  | _ => false

theorem isEnum_numbered (type : CType) (number : Nat) : (type.numbered number).isEnum = type.isEnum := by
  unfold numbered
  split
  · rfl
  · cases type <;> rfl

end CType

namespace Resolve

open Json Act Outcome Initializer

/-- The enums among declarations. -/
def enums (declared : Table Label CType) : Table Label CType := declared.filter fun entry => entry.2.isEnum

/-- Some declared enum of a name has a constant. -/
def HasConstant (declared : Table Label CType) (enum constant : Label) : Prop :=
  ∃ header fields, (enum, .enum header fields) ∈ declared ∧ Table.has constant fields = true

/-- The references in the constants of an enum are to constants before them: of the enum itself, or of
those declared earlier. -/
def Anchored (earlier : Table Label CType) (enum : Label) (fields : Table Label Constant) : Prop :=
  ∀ (i : Nat) constant value, fields[i]? = some (constant, value) →
    ∀ name owner, (name, owner) ∈ value.references →
      owner = enum ∧ Table.has name (fields.take i) = true ∨ HasConstant earlier owner name

def AllAnchored (declared : Table Label CType) : Prop :=
  ∀ (j : Nat) enum header fields, declared[j]? = some (enum, .enum header fields) →
    Anchored (declared.take j) enum fields

/-- What is declared, with the owners of the constants. -/
structure Owned (declared : Table Label CType) (owners : Owners) : Prop where
  owned : ∀ name owner, Table.find? name owners = some owner → HasConstant declared owner name
  anchored : AllAnchored declared

section
variable {declared more : Table Label CType} {owners : Owners} {enum constant : Label}
  {fields : Table Label Constant} {value : Constant} {header : Header}

theorem enums_subset : enums declared ⊆ declared := List.filter_sublist.subset

theorem enums_erase (name : Label) : enums (Table.erase name declared) = Table.erase name (enums declared) := by
  rw [enums, enums, Table.erase, Table.erase, List.filter_filter, List.filter_filter]
  exact List.filter_congr fun _ _ => Bool.and_comm _ _

theorem enums_enter (graph : Graph) (name : Label) (type : CType) :
    enums (graph.enter (name, type)).declarations = Table.erase name (enums graph.declarations) ++
      if type.isEnum then [(name, type.numbered graph.issued)] else [] := by
  rw [declarations_enter, enums, List.filter_append]
  refine congr (congrArg _ (enums_erase name)) ?_
  rw [List.filter_singleton, CType.isEnum_numbered]
  cases type.isEnum <;> rfl

theorem HasConstant.mono (has : HasConstant declared enum constant) (wider : declared ⊆ more) :
    HasConstant more enum constant := by
  obtain ⟨header, fields, member, listed⟩ := has
  exact ⟨header, fields, wider member, listed⟩

theorem Anchored.append (anchored : Anchored declared enum fields)
    (next : ∀ name owner, (name, owner) ∈ value.references →
      owner = enum ∧ Table.has name fields = true ∨ HasConstant declared owner name) :
    Anchored declared enum (fields ++ [(constant, value)]) := by
  intro i own other found
  rcases Nat.lt_trichotomy i fields.length with before | rfl | after
  · rw [List.getElem?_append_left before] at found
    rw [List.take_append_of_le_length (Nat.le_of_lt before)]
    exact anchored i own other found
  · rw [List.getElem?_append_right (Nat.le_refl _), Nat.sub_self] at found
    obtain ⟨rfl, rfl⟩ := Prod.mk.inj (Option.some.inj found)
    rw [List.take_left]
    exact next
  · rw [List.getElem?_append_right (Nat.le_of_lt after)] at found
    rw [List.getElem?_singleton, if_neg (by omega)] at found
    cases found

theorem AllAnchored.append_enum (anchored : AllAnchored declared)
    (own : Anchored declared enum fields) : AllAnchored (declared ++ [(enum, .enum header fields)]) := by
  intro j name header' fields' found
  rcases Nat.lt_or_ge j declared.length with before | after
  · rw [List.getElem?_append_left before] at found
    rw [List.take_append_of_le_length (Nat.le_of_lt before)]
    exact anchored j name header' fields' found
  · rw [List.getElem?_append_right after, List.getElem?_singleton] at found
    split at found
    next last =>
      obtain ⟨rfl, same⟩ := Prod.mk.inj (Option.some.inj found)
      obtain ⟨-, rfl⟩ := CType.enum.inj same
      rw [List.take_append_of_le_length (by omega), List.take_of_length_le (by omega)]
      exact own
    next => cases found

/-- Only the enums matter for what references stand for. -/
theorem AllAnchored.of_enums (anchored : AllAnchored (enums declared)) : AllAnchored declared := by
  intro j enum header fields found
  have cut : declared = declared.take j ++ (enum, .enum header fields) :: declared.drop (j + 1) := by
    obtain ⟨short, same⟩ := List.getElem?_eq_some_iff.mp found
    rw [← same, ← List.drop_eq_getElem_cons short, List.take_append_drop]
  have split : enums declared =
      enums (declared.take j) ++ (enum, .enum header fields) :: enums (declared.drop (j + 1)) := by
    conv_lhs => rw [cut]
    rw [enums, List.filter_append, List.filter_cons_of_pos rfl]
    rfl
  have own := anchored (enums (declared.take j)).length enum header fields (by
    rw [split, List.getElem?_append_right (Nat.le_refl _), Nat.sub_self]
    rfl)
  rw [split, List.take_left] at own
  intro i constant value listed name owner member
  exact (own i constant value listed name owner member).imp_right fun has => has.mono enums_subset

end

def isConstant (node : Json) : Bool := affirms do return (← node.field "kind").isKind "EnumConstantDecl"

/-- The constants that the nodes of an enum list. -/
def constantNames (nodes : List Json) : List Label :=
  nodes.filterMap fun node => if isConstant node then (node.need "name").toOption else none

theorem isConstant_eq {node kind : Json} (known : node.field "kind" = .ok kind) :
    isConstant node = kind.isKind "EnumConstantDecl" := by
  simp [isConstant, known, bind, Except.bind, pure, Except.pure, affirms]

/-- An enum whose first nodes are evaluated, with the constants that they give and the owners by then. -/
structure Evaluated (declared : Table Label CType) (enum : Label) (nodes : List Json)
    (fields : Table Label Constant) (owners : Owners) : Prop where
  keys : Table.keys fields = constantNames nodes
  owned : ∀ name owner, Table.find? name owners = some owner →
    owner = enum ∧ Table.has name fields = true ∨ HasConstant declared owner name
  listed : ∀ name ∈ constantNames nodes, Table.has name owners = true
  anchored : Anchored declared enum fields

section
variable {declared : Table Label CType} {enum name : Label} {nodes : List Json} {node : Json}
  {fields : Table Label Constant} {owners : Owners} {value : Constant}

theorem constantNames_append (nodes more : List Json) :
    constantNames (nodes ++ more) = constantNames nodes ++ constantNames more := List.filterMap_append

theorem constantNames_constant (constant : isConstant node = true) (named : node.need "name" = .ok name)
    (rest : List Json) : constantNames (node :: rest) = name :: constantNames rest := by
  rw [constantNames, List.filterMap_cons, constant, if_pos rfl, named]
  rfl

theorem constantNames_other (other : isConstant node = false) (rest : List Json) :
    constantNames (node :: rest) = constantNames rest := by
  rw [constantNames, List.filterMap_cons, other]
  rfl

theorem Evaluated.constant (evaluated : Evaluated declared enum nodes fields owners)
    (constant : isConstant node = true) (named : node.need "name" = .ok name)
    (fresh : Table.has name fields = false)
    (known : ∀ other owner, (other, owner) ∈ value.references →
      owner = (Table.find? other owners).getD enum ∧ Table.has other owners = true) :
    Evaluated declared enum (nodes ++ [node]) (Table.insert name value fields)
      (Table.insert name enum owners) := by
  have added := constantNames_append nodes [node]
  rw [constantNames_constant constant named] at added
  constructor
  · rw [Table.keys_insert, fresh, added, evaluated.keys]
    rfl
  · intro other owner found
    rw [Table.has_insert]
    cases same : name == other with
    | true =>
      rw [← Table.find?_congr same, Table.find?_insert_self] at found
      exact .inl ⟨(Option.some.inj found).symm, rfl⟩
    | false =>
      rw [Table.find?_insert_of_ne same] at found
      exact (evaluated.owned other owner found).imp_left fun own => ⟨own.1, by rw [own.2, Bool.or_true]⟩
  · intro other member
    rw [Table.has_insert]
    rw [added] at member
    rcases List.mem_append.mp member with old | new
    · rw [evaluated.listed other old, Bool.or_true]
    · obtain rfl := List.mem_singleton.mp new
      rw [BEq.rfl, Bool.true_or]
  · rw [Table.insert_of_absent fresh]
    refine evaluated.anchored.append fun other owner member => ?_
    obtain ⟨rfl, present⟩ := known other owner member
    obtain ⟨own, found⟩ := Option.isSome_iff_exists.mp present
    rw [found]
    exact evaluated.owned other own found

theorem Evaluated.other (evaluated : Evaluated declared enum nodes fields owners)
    (other : isConstant node = false) : Evaluated declared enum (nodes ++ [node]) fields owners := by
  have same : constantNames (nodes ++ [node]) = constantNames nodes := by
    rw [constantNames_append, constantNames_other other]
    exact List.append_nil _
  exact ⟨by rw [same, evaluated.keys], evaluated.owned, by rw [same]; exact evaluated.listed,
    evaluated.anchored⟩

theorem constantOf_references {count : Option Int} {pair : Constant × Option Int}
    (found : constantOf owners enum name count node = .ok pair) :
    ∀ other owner, (other, owner) ∈ pair.1.references →
      owner = (Table.find? other owners).getD enum ∧ Mentions node other := by
  unfold constantOf at found
  obtain ⟨inner, -, found⟩ := bind_eq_ok.mp found
  split at found
  · obtain ⟨initializer, held, found⟩ := bind_eq_ok.mp found
    obtain ⟨value, evaluated, found⟩ := bind_eq_ok.mp found
    obtain ⟨after, -, found⟩ := bind_eq_ok.mp found
    obtain rfl := pure_eq_ok.mp found
    intro other owner member
    exact (evaluateWith_references evaluated other owner member).imp_right (.of_need held)
  · split at found
    · obtain ⟨text, -, found⟩ := bind_eq_ok.mp found
      obtain rfl := pure_eq_ok.mp found
      nofun
    · cases found

section
variable {σ : Type} {session : Session σ}

/-- The constants of an enum whose references are to constants listed before, or known from outside. -/
theorem constants_evaluate {front rest : List Json} {count : Option Int} {outer : Label → Prop}
    (evaluated : Evaluated declared enum front fields session.owners)
    (distinct : (constantNames (front ++ rest)).Pairwise fun one other => (one == other) = false)
    (known : ∀ early member late, front ++ rest = early ++ member :: late → isConstant member = true →
      ∀ name, Mentions member name → name ∈ constantNames early ∨ outer name)
    (outside : ∀ name, outer name → Table.has name session.owners = true) :
    Gives (fun result after => Evaluated declared enum (front ++ rest) result after.owners ∧
        ∀ name, Table.has name session.owners = true → Table.has name after.owners = true)
      (constants enum count fields rest) session := by
  induction rest generalizing front count fields session with
  | nil =>
    rw [List.append_nil]
    exact gives_pure ⟨evaluated, fun _ present => present⟩
  | cons node rest ih =>
    have regroup : front ++ node :: rest = (front ++ [node]) ++ rest := by simp
    refine gives_lift_then fun kind found => ?_
    have constant := isConstant_eq found
    cases same : kind.isKind "EnumConstantDecl" with
    | false =>
      rw [same] at constant
      rw [regroup] at distinct known ⊢
      exact ih (evaluated.other constant) distinct known outside
    | true =>
      rw [same] at constant
      refine gives_lift_then fun name named => ends_bind.mpr (ends_get.mpr ?_)
      refine gives_lift_then fun pair valued => gives_lift_then fun key keyed => ?_
      rw [asKey_eq_ok keyed]
      have references := constantOf_references valued
      have fresh : Table.has name fields = false := by
        rw [constantNames_append, constantNames_constant constant named] at distinct
        rw [← Bool.not_eq_true, Table.has_iff_keys, evaluated.keys]
        rintro ⟨own, member, same⟩
        rw [(List.pairwise_append.mp distinct).2.2 own member name (by simp)] at same
        cases same
      have next := evaluated.constant constant named fresh fun other owner member => by
        obtain ⟨owned, mentions⟩ := references other owner member
        refine ⟨owned, ?_⟩
        rcases known front node rest rfl constant other mentions with listed | far
        · exact evaluated.listed other listed
        · exact outside other far
      rw [regroup] at distinct known ⊢
      have grows (other : Label) (present : Table.has other session.owners = true) :
          Table.has other (Table.insert name enum session.owners) = true := by
        rw [Table.has_insert, present, Bool.or_true]
      have others : Gives (fun result after => Evaluated declared enum (front ++ [node] ++ rest) result after.owners ∧
          ∀ other, Table.has other (Table.insert name enum session.owners) = true →
            Table.has other after.owners = true)
          (constants enum pair.2 (Table.insert name pair.1 fields) rest)
          { session with owners := Table.insert name enum session.owners } :=
        ih next distinct known fun other far => grows other (outside other far)
      exact others.mono (fun _ _ both => ⟨both.1, fun other present => both.2 other (grows other present)⟩)
        fun _ _ _ => trivial

end

end

section
variable {σ : Type} {oracle : Layout.Oracle σ} {following : Option Json} {node : Json} {graph : Graph}
  {name layout own : Label} {type : CType}

theorem RecordBuilds.not_isEnum (builds : RecordBuilds oracle node name layout graph own type) :
    type.isEnum = false := by
  induction builds with
  | own => rfl
  | nested _ _ _ ih => exact ih

/-- Only an enum node declares an enum. -/
theorem Builds.not_isEnum (other : node.field "kind" ≠ .ok (.str "EnumDecl"))
    (builds : Builds oracle following node graph name type) : type.isEnum = false := by
  cases builds with
  | enum _ _ kind => exact absurd kind other
  | record _ _ _ _ builds => exact builds.not_isEnum
  | synonym | pointer => rfl
  | callback _ _ _ found =>
    obtain ⟨result, parameters, rfl⟩ := callback_eq_ok found
    rfl
  | function _ _ found =>
    obtain ⟨result, parameters, rfl⟩ := signature_eq_ok found
    rfl

end

/-- A graph after another one to which no enum was added. Enums may have given way to other
declarations of their names. -/
structure AddsPlain (before after : Graph) : Prop where
  distinct : before.Distinct → after.Distinct
  fewer : (enums after.declarations).Sublist (enums before.declarations)

section
variable {first second third : Graph}

theorem AddsPlain.same (declarations : second.declarations = first.declarations) : AddsPlain first second where
  distinct distinct := by
    rw [Graph.Distinct, Graph.names, declarations]
    exact distinct
  fewer := by rw [declarations]

theorem AddsPlain.trans (left : AddsPlain first second) (right : AddsPlain second third) :
    AddsPlain first third :=
  ⟨right.distinct ∘ left.distinct, right.fewer.trans left.fewer⟩

theorem addsPlain_enter {name : Label} {type : CType} (plain : type.isEnum = false) :
    AddsPlain first (first.enter (name, type)) where
  distinct distinct := distinct.enter _
  fewer := by
    rw [enums_enter, plain, if_neg (by decide), List.append_nil]
    exact List.filter_sublist

theorem addsPlain_enterAll {entries : List (Label × CType)} (plain : ∀ entry ∈ entries, entry.2.isEnum = false) :
    AddsPlain first (first.enterAll entries) := by
  induction entries generalizing first with
  | nil => exact .same rfl
  | cons entry rest ih =>
    exact (addsPlain_enter (plain entry (by simp))).trans (ih fun other member => plain other (by simp [member]))

end

namespace Desk

variable {fits : Graph → Event → Prop} {desk after : Desk} {event : Event} {events : List Event}

theorem Step.addsPlain (step : Step desk event after)
    (plain : ∀ name type number, event = .declare name type number → type.isEnum = false) :
    AddsPlain desk.registry.graph after.registry.graph := by
  cases step with
  | declare registry name type => exact addsPlain_enter (plain name type _ rfl)
  | wake registry due rest => exact addsPlain_enter rfl
  | defer => exact .same rfl
  | mark declarations => exact .same declarations

/-- A run whose events declare no enums adds none. -/
theorem Runs.addsPlain (run : Runs fits desk events after)
    (plain : ∀ graph name type number, fits graph (.declare name type number) → type.isEnum = false) :
    AddsPlain desk.registry.graph after.registry.graph := by
  induction run with
  | nil => exact .same rfl
  | cons step fit _ ih =>
    exact (step.addsPlain fun name type number same => plain _ name type number (same ▸ fit)).trans ih

end Desk

section
variable {σ : Type} (header : Path) (oracle : Layout.Oracle σ) (state : σ) (nodes : List Json)

/-- A node whose enum is declared under a name: the filter keeps it when its turn comes, and the name is
its own or that of the typedef after it. -/
structure DeclaresEnum (i : Nat) (node : Json) (name : Label) : Prop where
  here : nodes[i]? = some node
  kind : node.field "kind" = .ok (.str "EnumDecl")
  kept : ∃ done session, (passNodes header oracle nodes[i]? false (nodes.take i)).runOn (opening state) =
    (.ok done, session) ∧ ((isSkipped header node).runOn session).1 = .ok false
  named : ∃ adopted, nameOf nodes[i + 1]? node = .ok (name, adopted)
  given : name.isNull = false

/-- A constant of an enum that is declared by one of the first nodes. -/
def Listed (i : Nat) (constant : Label) : Prop :=
  ∃ j node name, j < i ∧ DeclaresEnum header oracle state nodes j node name ∧
    constant ∈ constantNames (within node)

/-- Every enum that is declared lists its constants once, and whatever their initializers refer to is
a constant listed before, there or by an earlier node whose enum is declared. -/
def Grounded : Prop :=
  ∀ i node name, DeclaresEnum header oracle state nodes i node name →
    (constantNames (within node)).Pairwise (fun one other => (one == other) = false) ∧
      ∀ early member late, within node = early ++ member :: late → isConstant member = true →
        ∀ constant, Mentions member constant →
          constant ∈ constantNames early ∨ Listed header oracle state nodes i constant

/-- The enums that the first nodes declare are apart, and each is an enum in the graph. -/
def Intact (i : Nat) (graph : Graph) : Prop :=
  ∀ j node name, j < i → DeclaresEnum header oracle state nodes j node name →
    Table.has name (enums graph.declarations) = true ∧
      ∀ k other earlier, k < j → DeclaresEnum header oracle state nodes k other earlier →
        (earlier == name) = false

/-- A session when the first nodes are resolved. -/
structure Standing (i : Nat) (session : Session σ) : Prop where
  distinct : session.graph.Distinct
  declared : ∀ entry ∈ enums session.graph.declarations,
    ∃ j node, j < i ∧ DeclaresEnum header oracle state nodes j node entry.1
  owned : Intact header oracle state nodes i session.graph →
    Owned (enums session.graph.declarations) session.owners ∧
      ∀ constant, Listed header oracle state nodes i constant → Table.has constant session.owners = true

end

section
variable {σ : Type} {header : Path} {oracle : Layout.Oracle σ} {state : σ} {nodes : List Json}
  {i : Nat} {node : Json} {session between : Session σ} {constant : Label} {graph : Graph}

theorem DeclaresEnum.unique {other : Json} {name name' : Label}
    (one : DeclaresEnum header oracle state nodes i node name)
    (two : DeclaresEnum header oracle state nodes i other name') : node = other ∧ name = name' := by
  obtain rfl := Option.some.inj (one.here.symm.trans two.here)
  obtain ⟨adopted, named⟩ := one.named
  obtain ⟨adopted', named'⟩ := two.named
  rw [named] at named'
  exact ⟨rfl, (Prod.mk.inj (Except.ok.inj named')).1⟩

theorem Listed.succ (listed : Listed header oracle state nodes (i + 1) constant) :
    Listed header oracle state nodes i constant ∨
      ∃ node name, DeclaresEnum header oracle state nodes i node name ∧ constant ∈ constantNames (within node) := by
  obtain ⟨j, node, name, before, declares, member⟩ := listed
  rcases Nat.lt_succ_iff_lt_or_eq.mp before with before | rfl
  · exact .inl ⟨j, node, name, before, declares, member⟩
  · exact .inr ⟨node, name, declares, member⟩

theorem has_of_sublist {part table : Table Label CType} {name : Label} (sublist : part.Sublist table)
    (present : Table.has name part = true) : Table.has name table = true := by
  obtain ⟨own, member, same⟩ := Table.has_iff_keys.mp present
  exact Table.has_iff_keys.mpr ⟨own, (sublist.map _).subset member, same⟩

theorem distinct_enums (distinct : graph.Distinct) :
    (Table.keys (enums graph.declarations)).Pairwise fun one other => (one == other) = false :=
  List.Pairwise.sublist (List.filter_sublist.map _) distinct

/-- One more node that declares no enum. -/
theorem Standing.plain (standing : Standing header oracle state nodes i session)
    (adds : AddsPlain session.graph between.graph) (owners : between.owners = session.owners)
    (other : ∀ node name, ¬ DeclaresEnum header oracle state nodes i node name) :
    Standing header oracle state nodes (i + 1) between where
  distinct := adds.distinct standing.distinct
  declared entry member := by
    obtain ⟨j, node, before, declares⟩ := standing.declared entry (adds.fewer.subset member)
    exact ⟨j, node, by omega, declares⟩
  owned intact := by
    have start : Intact header oracle state nodes i session.graph := by
      intro j node name before declares
      obtain ⟨there, apart⟩ := intact j node name (by omega) declares
      exact ⟨has_of_sublist adds.fewer there, apart⟩
    have same : enums between.graph.declarations = enums session.graph.declarations := by
      refine Table.eq_of_sublist adds.fewer (distinct_enums standing.distinct) fun entry member => ?_
      obtain ⟨j, node, before, declares⟩ := standing.declared entry member
      exact (intact j node entry.1 (by omega) declares).1
    obtain ⟨owned, known⟩ := standing.owned start
    rw [same, owners]
    refine ⟨owned, fun constant listed => known constant (listed.succ.resolve_right ?_)⟩
    rintro ⟨node, name, declares, -⟩
    exact other node name declares

/-- One more node that declares an enum. -/
theorem Standing.enum {enum : Label} {fields : Table Label Constant} {size : Amount}
    (standing : Standing header oracle state nodes i session)
    (declares : DeclaresEnum header oracle state nodes i node enum)
    (evaluated : Intact header oracle state nodes i session.graph →
      Evaluated (enums session.graph.declarations) enum (within node) fields between.owners ∧
        ∀ name, Table.has name session.owners = true → Table.has name between.owners = true)
    (adds : AddsPlain (session.graph.enter (enum, .enum { name := enum, size } fields)) between.graph) :
    Standing header oracle state nodes (i + 1) between := by
  let type : CType := .enum { name := enum, size } fields
  have entered : enums (session.graph.enter (enum, type)).declarations =
      Table.erase enum (enums session.graph.declarations) ++ [(enum, type.numbered session.graph.issued)] :=
    enums_enter session.graph enum type
  constructor
  · exact adds.distinct (standing.distinct.enter _)
  · intro entry member
    have inside := adds.fewer.subset member
    rw [entered] at inside
    rcases List.mem_append.mp inside with old | new
    · obtain ⟨j, own, before, declared⟩ := standing.declared entry (List.filter_sublist.subset old)
      exact ⟨j, own, by omega, declared⟩
    · obtain rfl := List.mem_singleton.mp new
      exact ⟨i, node, by omega, declares⟩
  · intro intact
    obtain ⟨there, apart⟩ := intact i node enum (by omega) declares
    have start : Intact header oracle state nodes i session.graph := by
      intro j other name before declared
      obtain ⟨present, others⟩ := intact j other name (by omega) declared
      refine ⟨?_, others⟩
      have inside := has_of_sublist adds.fewer present
      have ne : (enum == name) = false := by
        rw [BEq.comm]
        exact apart j other name before declared
      rw [entered, Table.has_append, Table.has_cons_of_ne ne] at inside
      have erased : (Table.erase enum (enums session.graph.declarations)).Sublist (enums session.graph.declarations) :=
        List.filter_sublist
      exact has_of_sublist erased ((Bool.or_eq_true_iff.mp inside).resolve_right nofun)
    have absent : Table.find? enum (enums session.graph.declarations) = none := by
      cases found : Table.find? enum (enums session.graph.declarations) with
      | none => rfl
      | some value =>
        obtain ⟨own, same, member⟩ := Table.mem_of_find? found
        obtain ⟨j, other, before, declared⟩ := standing.declared _ member
        rw [apart j other own before declared] at same
        cases same
    rw [Table.erase_of_absent absent] at entered
    have same : enums between.graph.declarations =
        enums session.graph.declarations ++ [(enum, type.numbered session.graph.issued)] := by
      rw [← entered]
      refine Table.eq_of_sublist adds.fewer (distinct_enums (standing.distinct.enter _)) fun entry member => ?_
      rw [entered] at member
      rcases List.mem_append.mp member with old | new
      · obtain ⟨j, other, before, declared⟩ := standing.declared entry old
        exact (intact j other entry.1 (by omega) declared).1
      · obtain rfl := List.mem_singleton.mp new
        exact there
    obtain ⟨⟨-, anchored⟩, known⟩ := standing.owned start
    obtain ⟨evaluated, grows⟩ := evaluated start
    rw [same]
    refine ⟨⟨fun name owner found => ?_, anchored.append_enum evaluated.anchored⟩, fun constant listed => ?_⟩
    · rcases evaluated.owned name owner found with ⟨rfl, present⟩ | far
      · exact ⟨_, fields, List.mem_append_right _ (List.mem_singleton.mpr rfl), present⟩
      · exact far.mono (List.subset_append_left _ _)
    · rcases listed.succ with old | ⟨other, name, declared, member⟩
      · exact grows constant (known constant old)
      · obtain ⟨rfl, -⟩ := declares.unique declared
        exact evaluated.listed constant member

/-- An enum node without a name is passed over. Any other one is evaluated, and then declared. -/
theorem topEnum_adds {following : Option Json} {P : Label → Table Label Constant → Owners → Prop}
    (evaluates : ∀ enum adopted, nameOf following node = .ok (enum, adopted) → enum.isNull = false →
      Gives (fun fields after => P enum fields after.owners)
        (constants enum (some 0) [] (within node)) session) :
    Gives (fun _ after =>
        (∀ named, nameOf following node = .ok named → named.1.isNull = true) ∧
          AddsPlain session.graph after.graph ∧ after.owners = session.owners ∨
        ∃ enum adopted fields size, nameOf following node = .ok (enum, adopted) ∧ enum.isNull = false ∧
          P enum fields after.owners ∧
          AddsPlain (session.graph.enter (enum, .enum { name := enum, size } fields)) after.graph)
      (topEnum following node) session := by
  refine gives_lift_then fun named found => ?_
  split
  next adopted =>
    refine gives_lift_then fun told _ => .inl ⟨fun other same => ?_, .same rfl, rfl⟩
    rw [found] at same
    rw [← Except.ok.inj same]
    rfl
  next enum adopted plain =>
    have given : enum.isNull = false := by
      cases enum with
      | null => exact absurd rfl plain
      | _ => rfl
    refine gives_lift_then fun inner listed => gives_lift_then fun nodes items => ?_
    have members : Gives (fun fields after => after.registry = session.registry ∧ P enum fields after.owners)
        (constants enum (some 0) [] nodes) session := by
      rcases items_eq_ok listed items with rfl | ⟨s, rest, rfl⟩
      · exact Gives.both (constants_registry enum (some 0) _) (evaluates enum adopted found given)
      · exact gives_lift_then fun kind known => nomatch known
    have made : Gives (fun type after => ∃ fields, type = .enum { name := enum, size := CType.enumSize } fields ∧
        after.registry = session.registry ∧ P enum fields after.owners) (Resolve.enum enum nodes) session :=
      members.then fun fields _ kept => gives_pure ⟨fields, rfl, kept⟩
    refine made.then fun type between kept => ?_
    obtain ⟨fields, rfl, same, holds⟩ := kept
    have graphs : between.graph = session.graph := congrArg Registry.graph same
    refine (Gives.both (register_gives enum _) (register_owners enum _)).then fun item after both => ?_
    obtain ⟨⟨-, aliases, entered, plain⟩, owners⟩ := both
    refine gives_pure (.inr ⟨enum, adopted, fields, CType.enumSize, found, given, by rw [owners]; exact holds, ?_⟩)
    rw [entered, graphs]
    refine addsPlain_enterAll fun entry member => ?_
    obtain ⟨header, target, made⟩ := plain entry member
    rw [made]
    rfl

theorem evaluated_nil {owners : Owners} {declared : Table Label CType} {enum : Label}
    (owned : ∀ name owner, Table.find? name owners = some owner → HasConstant declared owner name) :
    Evaluated declared enum [] [] owners where
  keys := rfl
  owned name owner found := .inr (owned name owner found)
  listed := nofun
  anchored _ _ _ found := nomatch found

/-- One more node of the walk. -/
theorem topNode_stands (grounded : Grounded header oracle state nodes) (here : nodes[i]? = some node)
    (passed : (passNodes header oracle nodes[i]? false (nodes.take i)).runOn (opening state) =
      (.ok false, session))
    (standing : Standing header oracle state nodes i session) :
    Gives (fun _ between => Standing header oracle state nodes (i + 1) between)
      (topNode header oracle nodes[i + 1]? node) session := by
  have own {other : Json} {name : Label} (declares : DeclaresEnum header oracle state nodes i other name) :
      other = node := Option.some.inj (declares.here.symm.trans here)
  by_cases kind : node.field "kind" = .ok (.str "EnumDecl")
  swap
  · refine (topNode_fits header nodes[i + 1]? node).mono (fun _ between both => ?_) fun _ _ _ => trivial
    obtain ⟨⟨events, run⟩, owners⟩ := both
    refine standing.plain (run.addsPlain fun _ _ _ _ builds => Builds.not_isEnum kind builds) (owners kind) ?_
    intro other name declares
    exact kind (own declares ▸ declares.kind)
  refine Gives.then (Gives.both (gives_run (isSkipped header node)) (isSkipped_quiet header node)) ?_
  rintro skipped asked ⟨ran, same, owners⟩
  have graphs : asked.graph = session.graph := congrArg Registry.graph same
  cases skipped with
  | true =>
    refine gives_pure (standing.plain (.same (by rw [graphs])) owners fun other name declares => ?_)
    obtain ⟨done, reached, passed', kept⟩ := declares.kept
    obtain ⟨-, rfl⟩ := Prod.mk.inj (passed.symm.trans passed')
    rw [own declares, ran] at kept
    cases kept
  | false =>
  refine gives_lift_then fun word known => ?_
  obtain rfl := Except.ok.inj (kind.symm.trans known)
  have declares {enum : Label} {adopted : Bool} (named : nameOf nodes[i + 1]? node = .ok (enum, adopted))
      (given : enum.isNull = false) : DeclaresEnum header oracle state nodes i node enum :=
    ⟨here, kind, ⟨false, session, passed, by rw [ran]⟩, ⟨adopted, named⟩, given⟩
  refine (topEnum_adds (P := fun enum fields owners => Intact header oracle state nodes i session.graph →
      Evaluated (enums session.graph.declarations) enum (within node) fields owners ∧
        ∀ name, Table.has name session.owners = true → Table.has name owners = true)
    fun enum adopted named given => ?_).mono (fun _ between told => ?_) fun _ _ _ => trivial
  · obtain ⟨distinct, known⟩ := grounded i node enum (declares named given)
    by_cases intact : Intact header oracle state nodes i session.graph
    swap
    · exact (gives_any _ _).mono (fun _ _ _ whole => absurd whole intact) fun _ _ _ => trivial
    obtain ⟨owned, listed⟩ := standing.owned intact
    rw [← owners] at listed
    have start : Evaluated (enums session.graph.declarations) enum [] [] asked.owners := by
      rw [owners]
      exact evaluated_nil owned.owned
    refine (constants_evaluate start distinct known listed).mono (fun _ _ both _ => ?_) fun _ _ _ => trivial
    rw [← owners]
    exact both
  · rw [graphs, owners] at told
    rcases told with ⟨unnamed, adds, same⟩ | ⟨enum, adopted, fields, size, named, given, evaluated, adds⟩
    · refine standing.plain adds same fun other name declared => ?_
      obtain ⟨adopted, named⟩ := declared.named
      rw [own declared] at named
      have null := unnamed _ named
      rw [declared.given] at null
      cases null
    · exact standing.enum (declares named given) evaluated adds

theorem opening_standing : Standing header oracle state nodes 0 (opening state) := by
  have none : enums (Seed.sow {}).declarations = [] := by decide +kernel
  have same : enums (opening state).graph.declarations = [] := none
  constructor
  · exact (sow_leads Graph.sound_empty).distinct List.Pairwise.nil
  · rw [same]
    exact fun _ member => nomatch member
  · rw [same]
    exact fun _ => ⟨⟨nofun, nofun⟩, fun _ ⟨_, _, _, before, _⟩ => nomatch before⟩

theorem passNodes_stands (grounded : Grounded header oracle state nodes) (short : i ≤ nodes.length)
    {done : Bool} (passed : (passNodes header oracle nodes[i]? false (nodes.take i)).runOn (opening state) =
      (.ok done, session)) :
    Standing header oracle state nodes i session := by
  induction i generalizing done session with
  | zero =>
    obtain ⟨-, rfl⟩ := Prod.mk.inj passed
    exact opening_standing
  | succ i ih =>
    have here : nodes[i]? = some nodes[i] := List.getElem?_eq_getElem short
    rw [List.take_succ_eq_append_getElem short, passNodes_append, runOn_bind] at passed
    have next : (([nodes[i]] : List Json).head?.or nodes[i + 1]?) = nodes[i]? := here.symm
    rw [next] at passed
    cases ran : (passNodes header oracle nodes[i]? false (nodes.take i)).runOn (opening state) with
    | mk outcome middle =>
      rw [ran] at passed
      cases outcome with
      | error fault => cases (Prod.mk.inj passed).1
      | ok skips =>
        have standing := ih (by omega) ran
        dsimp only at passed
        rw [passNodes] at passed
        cases skips with
        | true =>
          obtain ⟨-, rfl⟩ := Prod.mk.inj passed
          refine standing.plain (.same rfl) rfl fun node name declares => ?_
          have undone : Gives (fun done _ => done = false) (passNodes header oracle nodes[i]? false (nodes.take i))
              (opening state) := by
            rw [declares.here]
            exact passNodes_undone (fun last _ => apart_of_kind declares.kind (by decide)) (fun _ => rfl) _
          unfold Gives Ends at undone
          rw [ran] at undone
          cases undone
        | false =>
          have step := topNode_stands grounded here ran standing
          have last : (([] : List Json).head?.or nodes[i + 1]?) = nodes[i + 1]? := rfl
          rw [if_neg (by decide), last, runOn_bind] at passed
          unfold Gives Ends at step
          generalize (topNode header oracle nodes[i + 1]? nodes[i]).runOn middle = ended at passed step
          obtain ⟨outcome, between⟩ := ended
          cases outcome with
          | error fault => cases (Prod.mk.inj passed).1
          | ok skips =>
            obtain ⟨-, rfl⟩ := Prod.mk.inj passed
            exact step

/-- Every reference in an enum of a graph is to a constant before it. -/
theorem resolve_anchored
    (resolved : ((resolve header oracle nodes).runOn { oracle := state }).1 = .ok graph)
    (intact : Intact header oracle state nodes nodes.length graph)
    (grounded : Grounded header oracle state nodes) : AllAnchored graph.declarations := by
  obtain ⟨session, run, rfl, -⟩ := resolve_eq_ok resolved
  rw [topNodes_eq, runOn_bind] at run
  cases ran : (passNodes header oracle none false nodes).runOn (opening state) with
  | mk outcome last =>
    rw [ran] at run
    cases outcome with
    | error fault => cases (Prod.mk.inj run).1
    | ok done =>
      obtain ⟨-, rfl⟩ := Prod.mk.inj run
      have standing : Standing header oracle state nodes nodes.length last := by
        have whole : (passNodes header oracle nodes[nodes.length]? false (nodes.take nodes.length)).runOn
            (opening state) = (.ok done, last) := by
          rw [List.getElem?_eq_none (Nat.le_refl _), List.take_length]
          exact ran
        exact passNodes_stands grounded (Nat.le_refl _) whole
      exact (standing.owned intact).1.anchored.of_enums

end

end Resolve

end NativeBindings
