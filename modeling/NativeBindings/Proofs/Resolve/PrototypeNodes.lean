import NativeBindings.Emit.Hint
import NativeBindings.Proofs.QualifiedNames
import NativeBindings.Proofs.Resolve.PointerReuse
import NativeBindings.Proofs.SpelledParts

/-!
Types in prototypes, as nodes and as spellings. A node goes by its kind, a spelling by its words and stars,
and both come to the same declaration, or to a use of it, unless one of them goes down too far.
-/
namespace NativeBindings

namespace CType

/-- What the node of a primitive type gives: the declared node, or what it is a synonym of. -/
def meant : CType → CType
  | synonym _ target true => target
  | type => type

/-- A node, or a wrapper for one use of it. -/
def Wraps (outer inner : CType) : Prop :=
  outer = inner ∨ outer = synonym { name := inner.name, size := inner.size } inner false

/-- Arrays are the only nodes that do not go by their names. -/
def isArray : CType → Bool
  | array _ _ _ => true
  | _ => false

variable {type : CType}

theorem meant_transparent (transparent : type.isTransparent = true) : type.meant = type.use := by
  cases type with
  | synonym _ _ own =>
    obtain rfl : own = true := transparent
    rfl
  | _ => cases transparent

theorem meant_plain (plain : type.isTransparent = false) : type.meant = type := by
  cases type with
  | synonym _ _ own =>
    obtain rfl : own = false := plain
    rfl
  | _ => rfl

theorem use_wraps (type : CType) : type.use.Wraps type.meant := by
  cases kind : type.isTransparent with
  | true => exact .inl (meant_transparent kind).symm
  | false =>
    rw [meant_plain kind]
    exact .inr (use_eq kind)

theorem Wraps.unaliased {outer inner : CType} (wraps : outer.Wraps inner) :
    outer.unaliased = inner.unaliased := by
  rcases wraps with rfl | rfl
  · rfl
  · rw [CType.unaliased]

theorem isArray_numbered (number : Nat) (type : CType) : (type.numbered number).isArray = type.isArray := by
  unfold numbered
  split
  · rfl
  · cases type <;> rfl

end CType

theorem Graph.find_text (graph : Graph) (text : String) :
    graph.find (.str text) = (graph.find? (.str text)).elim (.error (.unknownName (.str text))) .ok := by
  simp only [Graph.find, Json.asKey, bind, Except.bind]
  cases graph.find? (.str text) <;> rfl

namespace Emit

variable {type : CType}

theorem hint_named (named : type.name.isNull = false) (single : type.isArray = false)
    (plain : type.isTransparent = false) : hint type = identOf type.name := by
  have ident (other : Except Fault Label) : identOr type.header other = identOf type.name := by
    rw [identOr, show type.header.name.isNull = false from named]
    rfl
  cases type with
  | synonym header target transparent =>
    obtain rfl : transparent = false := plain
    rw [hint]
    exact ident _
  | array => cases single
  | pointer header base isConst =>
    cases base with
    | none => exact ident _
    | some base => exact ident _
  | _ => exact ident _

theorem descriptorOf_wraps {outer inner : CType} (wraps : outer.Wraps inner) :
    descriptorOf inner = descriptorOf outer := by
  rw [descriptorOf, descriptorOf, carrierOf, carrierOf, wraps.unaliased]

/-- A type has the same hint as its uses if it has a name. -/
theorem hint_use (named : type.name.isNull = false) (single : type.isArray = false) :
    hint type.use = hint type.meant := by
  cases kind : type.isTransparent with
  | true => rw [CType.meant_transparent kind]
  | false =>
    rw [CType.meant_plain kind, hint_named named single kind, ← CType.name_use kind]
    refine hint_named ?_ ?_ ?_
    · rwa [CType.name_use kind]
    · rw [CType.use_eq kind]
      rfl
    · rw [CType.use_eq kind]
      rfl

end Emit

namespace Resolve

open Json Outcome Spelling

/-! ### What is declared under a text -/

/-- A graph that resolutions lead to, whatever they are given and however far they have come. -/
inductive Reached : Graph → Prop
  | fresh : Reached {}
  | onward {σ : Type} {outset : Outset σ} {done : List Turn} {now : σ} (reached : Reached outset.graph)
    (history : History outset done now) : Reached (replay outset.graph done)

section
variable {base graph : Graph} {done : List Turn} {name : Label} {type : CType} {s : String}

theorem Justified.declares (justified : Justified base done name type) :
    type.name = name ∧ type.isArray = false := by
  cases justified <;> exact ⟨rfl, rfl⟩

/-- Whether what is declared under texts goes by them and is no array. -/
def GoesByText (graph : Graph) : Prop :=
  ∀ s type, graph.find? (.str s) = some type → type.name = .str s ∧ type.isArray = false

theorem GoesByText.assign (goes : GoesByText graph) (declares : type.name = name ∧ type.isArray = false) :
    GoesByText (graph.assign name type) := by
  intro s other found
  cases same : name == .str s with
  | true =>
    obtain rfl := (beq_str_iff name s).mp same
    have entered : (graph.assign (.str s) type).find? (.str s) = some (type.numbered graph.issued) :=
      Table.find?_insert_self _ _ _
    obtain rfl := Option.some.inj (entered.symm.trans found)
    rwa [CType.name_numbered, CType.isArray_numbered]
  | false =>
    have kept : (graph.assign name type).find? (.str s) = graph.find? (.str s) :=
      Table.find?_insert_of_ne same _ _
    exact goes s other (kept.symm.trans found)

theorem GoesByText.remove (goes : GoesByText graph) (name : Label) : GoesByText (graph.remove name) := by
  intro s other found
  cases same : name == .str s with
  | true =>
    obtain rfl := (beq_str_iff name s).mp same
    have gone : (graph.remove (.str s)).find? (.str s) = none := Table.find?_erase_self _ _
    cases gone.symm.trans found
  | false =>
    have kept : (graph.remove name).find? (.str s) = graph.find? (.str s) :=
      Table.find?_erase_of_ne same _
    exact goes s other (kept.symm.trans found)

theorem History.goesByText {σ : Type} {outset : Outset σ} {now : σ} (history : History outset done now)
    (goes : GoesByText outset.graph) : GoesByText (replay outset.graph done) := by
  induction history with
  | nil => exact goes
  | asked past query ih => rwa [replay_concat]
  | sown past keyed justified ih =>
    rw [replay_concat]
    exact ih.assign justified.declares
  | declared past keyed justified ih =>
    rw [replay_concat]
    exact (ih.remove _).assign justified.declares
  | marked past pointers callbacks ih =>
    rw [replay_concat]
    exact ih

theorem Reached.goesByText (reached : Reached graph) : GoesByText graph := by
  induction reached with
  | fresh => nofun
  | onward _ history ih => exact history.goesByText ih

/-- However a resolution ends, it leaves a graph that it has reached. -/
theorem resolve_reached {σ : Type} (oracle : Layout.Oracle σ) (header : Path) (nodes : List Json)
    {session : Session σ} (reached : Reached session.graph) :
    Reached ((resolve header oracle nodes).runOn session).2.graph := by
  obtain ⟨done, history, same⟩ := resolve_history oracle header nodes session
  rw [same]
  exact .onward reached history

theorem sow_reached (reached : Reached graph) : Reached (Seed.sow graph) := by
  let outset : Outset Unit := { oracle := fun _ state => (.ok .null, [], state), state := (), graph }
  have sows : Sows outset () [] (Seed.sow graph) := sow_sows ⟨[], .nil, rfl⟩
  obtain ⟨done, history, same⟩ := sows
  rw [same]
  exact .onward reached history

end

/-! ### Nodes -/

/-- How a type node names its declaration. -/
inductive Naming where
  | builtin
  | typedef
  | tagged (tag : Tag)

namespace Naming

def kind : Naming → String
  | builtin => "BuiltinType"
  | typedef => "TypedefType"
  | tagged .enum => "EnumType"
  | tagged _ => "RecordType"

/-- The tag in the spelling. -/
def words : Naming → List (List Char)
  | tagged tag => [tag.word]
  | _ => []

end Naming

/-- What stands inside the wrappers: a name or a pointer by its spelling. -/
inductive Leaf where
  | named (naming : Naming) (name : String)
  | pointer (spelling : String)

/-- A node that stands for a leaf, with a number of wrappers around it. -/
inductive StandsFor : Nat → Json → Leaf → Prop
  | builtin {node : Json} {name : String} (known : node.field "kind" = .ok (.str "BuiltinType"))
    (spelled : spellingOf node = .ok (.str name)) : StandsFor 0 node (.named .builtin name)
  | declared {node declaration : Json} {naming : Naming} {name : String} (other : naming ≠ .builtin)
    (known : node.field "kind" = .ok (.str naming.kind)) (held : node.need "decl" = .ok declaration)
    (called : declaration.need "name" = .ok (.str name)) : StandsFor 0 node (.named naming name)
  | pointer {node : Json} {spelling : String} (known : node.field "kind" = .ok (.str "PointerType"))
    (spelled : spellingOf node = .ok (.str spelling)) : StandsFor 0 node (.pointer spelling)
  | wrapped {count : Nat} {node inner first : Json} {kind : String} {leaf : Leaf}
    (known : node.field "kind" = .ok (.str kind)) (wraps : kind ∈ wrappers)
    (held : node.need "inner" = .ok inner) (leads : inner.item 0 = .ok first)
    (stands : StandsFor count first leaf) : StandsFor (count + 1) node leaf

/-- How a leaf is spelled around its wrappers: a pointer as it is, a name with its tag and any qualifiers
before it and behind it. -/
inductive Spells : String → Leaf → Prop
  | named {naming : Naming} {name : String} {before behind : List (List Char)} (bare : IsBare name.toList)
    (front : before ⊆ qualifiers) (back : behind ⊆ qualifiers) :
    Spells (String.ofList (dressed (before ++ naming.words) name.toList behind)) (.named naming name)
  | pointer (spelling : String) : Spells spelling (.pointer spelling)

/-- The fault of going down too far. -/
def tooDeep : Fault := .endless " while calling a Python object"

namespace Leaf

/-- The type of a leaf at a depth. -/
def typeAt (graph : Graph) (depth : Nat) : Leaf → Except Fault CType
  | named .builtin name => (graph.find (.str name)).map CType.meant
  | named _ name => graph.use (.str name)
  | pointer spelling => typeOfWith graph (spelling.length + 1) (depth + 1) spelling

end Leaf

section
variable {graph : Graph} {node : Json} {leaf : Leaf} {text : String} {count fuel depth : Nat}

theorem nodeTypeWith_deep (deep : depthLimit < depth) :
    nodeTypeWith graph (fuel + 1) depth node = .error tooDeep := by
  rw [nodeTypeWith, if_pos deep]
  rfl

section
variable (shallow : ¬ depthLimit < depth)
include shallow

theorem nodeTypeWith_leaf (stands : StandsFor 0 node leaf) :
    nodeTypeWith graph (fuel + 1) depth node = leaf.typeAt graph depth := by
  cases stands with
  | @builtin _ name known spelled =>
    rw [nodeTypeWith, if_neg shallow, known, spelled]
    change (graph.find (.str name) >>= _) = (graph.find (.str name)).map _
    cases graph.find (.str name) with
    | error fault => rfl
    | ok type =>
      cases type with
      | synonym _ _ transparent => cases transparent <;> rfl
      | _ => rfl
  | @declared _ declaration naming name other known held called =>
    rw [nodeTypeWith, if_neg shallow, known, held]
    have named : (declaration.need "name" >>= fun name => graph.use name) = graph.use (.str name) := by
      rw [called]
      rfl
    rcases naming with _ | _ | (_ | _ | _)
    · exact absurd rfl other
    · exact named
    · exact named
    · exact named
    · exact named
  | pointer known spelled =>
    rw [nodeTypeWith, if_neg shallow, known]
    change spelledTypeAt graph (depth + 1) node = _
    rw [spelledTypeAt, spelled]
    rfl

theorem nodeTypeWith_wrapper {kind : String} {inner first : Json}
    (known : node.field "kind" = .ok (.str kind)) (wraps : kind ∈ wrappers)
    (held : node.need "inner" = .ok inner) (leads : inner.item 0 = .ok first) :
    nodeTypeWith graph (fuel + 1) depth node = nodeTypeWith graph fuel (depth + 1) first := by
  rw [nodeTypeWith, if_neg shallow, known, held]
  have entered : (inner.item 0 >>= nodeTypeWith graph fuel (depth + 1)) =
      nodeTypeWith graph fuel (depth + 1) first := by
    rw [leads]
    rfl
  simp only [wrappers, List.mem_cons, List.not_mem_nil, or_false] at wraps
  rcases wraps with rfl | rfl | rfl
  · exact entered
  · exact entered
  · exact entered

end

/-- A node is read as its leaf, a step down for each wrapper. -/
theorem nodeTypeWith_standsFor (stands : StandsFor count node leaf) (enough : node.depth < fuel) :
    nodeTypeWith graph fuel depth node =
      if depthLimit < depth + count then .error tooDeep else leaf.typeAt graph (depth + count) := by
  induction count generalizing fuel depth node with
  | zero =>
    obtain ⟨fuel, rfl⟩ := Nat.exists_eq_add_one_of_ne_zero (Nat.ne_of_gt (Nat.zero_lt_of_lt enough))
    by_cases deep : depthLimit < depth
    · rw [nodeTypeWith_deep deep]
      exact (if_pos deep).symm
    · rw [nodeTypeWith_leaf deep stands]
      exact (if_neg deep).symm
  | succ count ih =>
    obtain ⟨fuel, rfl⟩ := Nat.exists_eq_add_one_of_ne_zero (Nat.ne_of_gt (Nat.zero_lt_of_lt enough))
    cases stands with
    | wrapped known wraps held leads stands =>
      by_cases deep : depthLimit < depth
      · rw [nodeTypeWith_deep deep, if_pos (by omega)]
      · have inside := depth_le_of_item leads
        have below := depth_lt_of_need held
        rw [nodeTypeWith_wrapper deep known wraps held leads, ih stands (by omega), Nat.add_right_comm]
        rfl

theorem nodeType_standsFor (stands : StandsFor count node leaf) :
    nodeType graph node = if depthLimit < count then .error tooDeep else leaf.typeAt graph count := by
  have read := @nodeTypeWith_standsFor graph _ _ _ _ 0 stands (Nat.lt_succ_self node.depth)
  rwa [Nat.zero_add] at read

/-! ### Spellings -/

/-- Of two readings of a spelling the deeper one gives the same, unless it goes down too far. -/
theorem typeOfWith_deeper (graph : Graph) (fuel depth more : Nat) (text : String) :
    typeOfWith graph fuel (depth + more) text = .error tooDeep ∨
      typeOfWith graph fuel (depth + more) text = typeOfWith graph fuel depth text := by
  induction fuel generalizing depth text with
  | zero => exact .inr rfl
  | succ fuel ih =>
    by_cases deep : depthLimit < depth + more
    · rw [typeOfWith, if_pos deep]
      exact .inl rfl
    rw [typeOfWith, typeOfWith, if_neg deep, if_neg (by omega)]
    cases Spelling.parse text with
    | error fault => exact .inr rfl
    | ok shape =>
      cases shape with
      | cstring => exact .inr rfl
      | name name => exact .inr rfl
      | array element length =>
        dsimp only
        rw [Nat.add_right_comm]
        rcases ih (depth + 1) element with fails | same
        · rw [fails]
          exact .inl rfl
        · rw [same]
          exact .inr rfl
      | pointer base isConst =>
        dsimp only
        cases graph.findPointer (.str base) isConst with
        | some declared => exact .inr rfl
        | none =>
          dsimp only
          rw [Nat.add_right_comm, pointeeBy, pointeeBy]
          by_cases composite : isComposite base = true
          · rw [if_pos composite, if_pos composite]
            rcases ih (depth + 3) base with fails | same
            · rw [fails]
              exact .inl rfl
            · rw [same]
              exact .inr rfl
          · rw [if_neg composite, if_neg composite]
            exact .inr rfl

theorem typeOf_named {naming : Naming} {name : String} (spells : Spells text (.named naming name)) :
    typeOf graph text = graph.use (.str name) := by
  cases spells with
  | @named _ _ before behind bare front back =>
    have kept : before ++ naming.words ⊆ keptWords := by
      refine List.append_subset.mpr ⟨List.Subset.trans front qualifiers_subset, ?_⟩
      cases naming with
      | tagged tag => exact List.cons_subset.mpr ⟨tag.kept, List.nil_subset _⟩
      | _ => exact List.nil_subset _
    rw [typeOf, typeOfWith, if_neg (by decide), parse_dressed bare kept back, String.ofList_toList]

/-! ### Spellings with few layers -/

/-- Whether a fault, if there is one, does not come from going down too far, and tells of an unknown name
where there are no arrays. -/
def IsTame {α : Type} (plain : Prop) (outcome : Except Fault α) : Prop :=
  ∀ fault, outcome = .error fault → fault ≠ tooDeep ∧ (plain → ∃ name, fault = .unknownName name)

theorem value_ne_tooDeep (reason : String) : Fault.value reason ≠ tooDeep := nofun

theorem mismatch_ne_tooDeep (reason : String) : Fault.mismatch reason ≠ tooDeep := nofun

section
variable {α β : Type} {plain : Prop}

theorem tame_ok (value : α) : IsTame plain (.ok value : Except Fault α) := nofun

theorem tame_unknown (name : Label) : IsTame plain (.error (.unknownName name) : Except Fault α) :=
  fun _ same => Except.error.inj same ▸ ⟨nofun, fun _ => ⟨name, rfl⟩⟩

theorem tame_arrays {fault : Fault} (near : fault ≠ tooDeep) (arrays : ¬ plain) :
    IsTame plain (.error fault : Except Fault α) :=
  fun _ same => Except.error.inj same ▸ ⟨near, fun holds => absurd holds arrays⟩

theorem IsTame.mono {other : Prop} {outcome : Except Fault α} (tame : IsTame plain outcome)
    (weaker : other → plain) : IsTame other outcome :=
  fun fault same => (tame fault same).imp_right fun unknown holds => unknown (weaker holds)

theorem IsTame.bind {first : Except Fault α} {next : α → Except Fault β} (tame : IsTame plain first)
    (rest : ∀ value, IsTame plain (next value)) : IsTame plain (first >>= next) := by
  cases first with
  | error fault => exact fun other same => tame other (Except.error.inj same ▸ rfl)
  | ok value => exact rest value

theorem tame_find (graph : Graph) (s : String) : IsTame plain (graph.find (.str s)) := by
  rw [Graph.find_text]
  cases graph.find? (.str s) with
  | some type => exact tame_ok type
  | none => exact tame_unknown _

theorem tame_use (graph : Graph) (s : String) : IsTame plain (graph.use (.str s)) :=
  (tame_find graph s).bind fun type => tame_ok type.use

theorem repeated_fault {a b : Amount} {fault : Fault} (failed : Amount.repeated a b = .error fault) :
    ∃ reason, fault = .mismatch reason := by
  unfold Amount.repeated at failed
  split at failed
  · cases failed
  · cases failed
  · exact ⟨_, (Except.error.inj failed).symm⟩

theorem times_fault {a b : Amount} {fault : Fault} (failed : Amount.times a b = .error fault) :
    ∃ reason, fault = .mismatch reason := by
  unfold Amount.times Amount.product at failed
  split at failed
  · cases failed
  split at failed
  · exact repeated_fault failed
  split at failed
  · exact repeated_fault failed
  · exact ⟨_, (Except.error.inj failed).symm⟩

theorem tame_times (arrays : ¬ plain) (a b : Amount) : IsTame plain (Amount.times a b) := by
  intro fault failed
  obtain ⟨reason, rfl⟩ := times_fault failed
  have tame : IsTame plain (.error (.mismatch reason) : Except Fault Amount) :=
    tame_arrays (mismatch_ne_tooDeep reason) arrays
  exact tame _ rfl

end

/-- Each layer of a spelling goes down three steps at most. -/
theorem typeOfWith_tame (graph : Graph) {fuel depth : Nat} {text : String}
    (near : depth + 3 * layers text.toList ≤ depthLimit) :
    IsTame ('[' ∉ text.toList) (typeOfWith graph fuel depth text) := by
  induction fuel generalizing depth text with
  | zero => exact tame_unknown _
  | succ fuel ih =>
    rw [typeOfWith, if_neg (by omega)]
    cases parsed : Spelling.parse text with
    | error fault =>
      obtain ⟨⟨reason, rfl⟩, bracket⟩ := parse_fault parsed
      have arrays : ¬ '[' ∉ text.toList := fun plain => plain bracket
      exact tame_arrays (value_ne_tooDeep reason) arrays
    | ok shape =>
      cases shape with
      | cstring => exact tame_find graph _
      | name name => exact tame_use graph name
      | array element length =>
        obtain ⟨fewer, bracket⟩ := layers_array parsed
        have within : depth + 1 + 3 * layers element.toList ≤ depthLimit := by omega
        refine ((ih within).mono fun plain => absurd bracket plain).bind fun item => ?_
        exact (tame_times (fun plain => plain bracket) _ _).bind fun size => tame_ok _
      | pointer base isConst =>
        obtain ⟨fewer, inside⟩ := layers_pointer parsed
        have within : depth + 3 + 3 * layers base.toList ≤ depthLimit := by omega
        dsimp only
        split
        · exact tame_ok _
        refine IsTame.bind ?_ fun target => tame_ok _
        rw [pointeeBy]
        split
        · exact ((ih within).mono fun plain bracket => plain (inside bracket)).bind fun type => tame_ok _
        · dsimp only
          split
          · exact (tame_use graph _).bind fun type => tame_ok _
          · exact tame_ok _

end

end Resolve

namespace Spelling

/-- The stars of a pointer after its first one. -/
def Pointer.nested : Pointer → Nat
  | toName _ _ => 0
  | toPointer target => target.nested + 1

theorem Pointer.nested_untagged (pointer : Pointer) : pointer.untagged.nested = pointer.nested := by
  induction pointer with
  | toName name isConst => cases isConst <;> rfl
  | toPointer target ih => exact congrArg (· + 1) ih

theorem Pointer.nested_le (pointer : Pointer) : pointer.nested ≤ pointer.spelling.length := by
  induction pointer with
  | toName name isConst => exact Nat.zero_le _
  | toPointer target ih =>
    rw [spelling, List.length_append]
    exact Nat.succ_le_succ ih

theorem Pointer.parse_toPointer (target : Pointer) :
    parse (String.ofList (toPointer target).spelling) =
      .ok (.pointer (String.ofList target.untagged.spelling) false) := by
  rw [Pointer.parse_spelling, Pointer.spelling, target.parseSingle_star]

end Spelling

namespace Resolve

open Json Outcome Spelling

section
variable {graph : Graph} {fuel depth : Nat}

/-- A pointer to a name is read, whether the name is declared or not. -/
theorem pointeeBy_name (inner : String → Except Fault CType) (graph : Graph) (name : Name) :
    ∃ target, pointeeBy inner graph name.text = .ok target := by
  have star : '*' ∉ name.chars := name.chars_not_mem (by decide)
  have bracket : ']' ∉ name.chars := name.chars_not_mem (by decide)
  have last : name.chars.getLast? ≠ some ']' := fun same => bracket (List.mem_of_getLast? same)
  have single : isComposite name.text = false := by
    rw [isComposite, Name.text, String.toList_ofList]
    simpa using ⟨star, last⟩
  rw [pointeeBy, single]
  dsimp only
  split
  · contradiction
  split
  next declared =>
    obtain ⟨type, found⟩ := Option.isSome_iff_exists.mp declared
    have known : graph.find? (.str (Spelling.normal name.text)) = some type := found
    rw [Graph.use, Graph.find_text, known]
    exact ⟨some type.use, rfl⟩
  · exact ⟨none, rfl⟩

/-- Where no pointer has a name, a pointer is read unless its stars go down too far. -/
theorem typeOfWith_stars (unnamed : ∀ base isConst, graph.findPointer base isConst = none)
    (pointer : Spelling.Pointer) (plain : pointer.isConst = false) (enough : pointer.nested < fuel) :
    (depthLimit < depth + 3 * pointer.nested →
      typeOfWith graph fuel depth (String.ofList pointer.spelling) = .error tooDeep) ∧
    (depth + 3 * pointer.nested ≤ depthLimit →
      ∃ type, typeOfWith graph fuel depth (String.ofList pointer.spelling) = .ok type) := by
  induction fuel generalizing depth pointer with
  | zero => cases enough
  | succ fuel ih =>
    rw [typeOfWith]
    cases pointer with
    | toName name isConst =>
      obtain rfl : isConst = false := plain
      refine ⟨fun deep => if_pos deep, fun near => ?_⟩
      have shallow : ¬ depthLimit < depth := Nat.not_lt_of_le near
      have parsed : parse (String.ofList (Spelling.Pointer.toName name false).spelling) =
          .ok (.pointer name.text false) :=
        (Spelling.Pointer.parse_spelling _).trans (congrArg _ name.parseSingle_pointer)
      obtain ⟨target, given⟩ := pointeeBy_name (typeOfWith graph fuel (depth + 3)) graph name
      rw [if_neg shallow, parsed]
      dsimp only
      rw [unnamed]
      dsimp only
      rw [given]
      exact ⟨_, rfl⟩
    | toPointer target =>
      have own : target.untagged.isConst = false := target.isConst_untagged.trans plain
      have composite : isComposite (String.ofList target.untagged.spelling) = true := by
        simp [isComposite, target.untagged.starred]
      rw [Pointer.nested] at enough
      have fewer : target.untagged.nested < fuel := by
        rw [target.nested_untagged]
        omega
      obtain ⟨unread, read⟩ := @ih (depth + 3) _ own fewer
      rw [target.nested_untagged] at unread read
      rw [Pointer.nested, target.parse_toPointer]
      dsimp only
      rw [unnamed]
      dsimp only
      rw [pointeeBy, if_pos composite]
      refine ⟨fun deep => ?_, fun near => ?_⟩
      · split
        · rfl
        rw [unread (by omega)]
        rfl
      · obtain ⟨type, given⟩ := read (by omega)
        rw [if_neg (by omega), given]
        exact ⟨_, rfl⟩

/-- Whether a leaf inside some wrappers is read before going down too far. -/
def Leaf.Within (count : Nat) : Leaf → Prop
  | named _ _ => count ≤ depthLimit
  | pointer spelling => count + 1 + 3 * layers spelling.toList ≤ depthLimit

/-- Whether a leaf is read without arrays. -/
def Leaf.IsPlain : Leaf → Prop
  | named _ _ => True
  | pointer spelling => '[' ∉ spelling.toList

section
variable (graph : Graph) (depth : Nat) (naming : Naming) (name : String)

variable {name} in
theorem Leaf.typeAt_absent (absent : graph.find? (.str name) = none) :
    (Leaf.named naming name).typeAt graph depth = .error (.unknownName (.str name)) ∧
      graph.use (.str name) = .error (.unknownName (.str name)) := by
  have unknown : graph.find (.str name) = .error (.unknownName (.str name)) := by
    rw [Graph.find_text, absent]
    rfl
  have unused : graph.use (.str name) = .error (.unknownName (.str name)) :=
    congrArg (Except.map CType.use) unknown
  cases naming with
  | builtin => exact ⟨congrArg (Except.map CType.meant) unknown, unused⟩
  | _ => exact ⟨unused, unused⟩

variable {name} in
theorem Leaf.typeAt_present {type : CType} (found : graph.find? (.str name) = some type) :
    ∃ first, (Leaf.named naming name).typeAt graph depth = .ok first ∧
      graph.use (.str name) = .ok type.use ∧ (first = type.meant ∨ first = type.use) := by
  have known : graph.find (.str name) = .ok type := by
    rw [Graph.find_text, found]
    rfl
  have used : graph.use (.str name) = .ok type.use := congrArg (Except.map CType.use) known
  cases naming with
  | builtin => exact ⟨_, congrArg (Except.map CType.meant) known, used, .inl rfl⟩
  | _ => exact ⟨_, used, used, .inr rfl⟩

/-- A node that names its declaration gives it or a use of it, its name gives a use. -/
theorem Leaf.named_alike :
    (∃ other, (Leaf.named naming name).typeAt graph depth = .error (.unknownName other) ∧
      graph.use (.str name) = .error (.unknownName other)) ∨
    ∃ first second, (Leaf.named naming name).typeAt graph depth = .ok first ∧
      graph.use (.str name) = .ok second ∧ second.Wraps first ∧
        (Reached graph → Emit.hint first = Emit.hint second) := by
  cases found : graph.find? (.str name) with
  | none => exact .inl ⟨_, typeAt_absent graph depth naming found⟩
  | some type =>
    obtain ⟨first, read, used, given⟩ := typeAt_present graph depth naming found
    refine .inr ⟨first, type.use, read, used, ?_, fun reached => ?_⟩
    · rcases given with rfl | rfl
      · exact type.use_wraps
      · exact .inl rfl
    · obtain ⟨own, single⟩ := reached.goesByText name type found
      rcases given with rfl | rfl
      · exact (Emit.hint_use (by rw [own]; rfl) single).symm
      · rfl

end

/-- The spelling of a pointer is read further down for its node, and with the same outcome if that is not
too far. -/
theorem Leaf.pointer_alike (graph : Graph) (count : Nat) (spelling : String) :
    (Leaf.pointer spelling).typeAt graph count = .error tooDeep ∧ ¬ (Leaf.pointer spelling).Within count ∨
    (Leaf.pointer spelling).typeAt graph count = typeOf graph spelling ∧
      ∀ fault, typeOf graph spelling = .error fault → (Leaf.pointer spelling).Within count →
        (Leaf.pointer spelling).IsPlain → ∃ name, fault = .unknownName name := by
  have tame (within : (Leaf.pointer spelling).Within count) :
      IsTame ('[' ∉ spelling.toList) ((Leaf.pointer spelling).typeAt graph count) :=
    typeOfWith_tame graph within
  have deeper := typeOfWith_deeper graph (spelling.length + 1) 0 (count + 1) spelling
  rw [Nat.zero_add] at deeper
  rcases deeper with fails | same
  · exact .inl ⟨fails, fun within => (tame within _ fails).1 rfl⟩
  · exact .inr ⟨same, fun fault failed within => (tame within fault (same.trans failed)).2⟩

/-- A node of a prototype and the spelling of its outermost wrapper both name what is not declared, or both
give the same type, of which the second may be wrapped for one use. Other faults come with arrays or from going
down too far. -/
theorem node_reads_as_spelled {count : Nat} {node : Json} {leaf : Leaf} {text : String}
    (stands : StandsFor count node leaf) (spells : Spells text leaf) :
    (nodeType graph node = .error tooDeep ∧ ¬ leaf.Within count) ∨
    (∃ fault, nodeType graph node = .error fault ∧ typeOf graph text = .error fault ∧
      (leaf.Within count → leaf.IsPlain → ∃ name, fault = .unknownName name)) ∨
    ∃ first second, nodeType graph node = .ok first ∧ typeOf graph text = .ok second ∧
      second.Wraps first ∧ Emit.descriptorOf first = Emit.descriptorOf second ∧
        (Reached graph → Emit.hint first = Emit.hint second) := by
  rw [nodeType_standsFor stands]
  by_cases deep : depthLimit < count
  · refine .inl ⟨if_pos deep, fun within => ?_⟩
    cases leaf with
    | named naming name => exact absurd within (Nat.not_le_of_lt deep)
    | pointer spelling =>
      rw [Leaf.Within] at within
      omega
  rw [if_neg deep]
  cases leaf with
  | named naming name =>
    rw [typeOf_named spells]
    right
    rcases Leaf.named_alike graph count naming name with
      ⟨other, unread, unused⟩ | ⟨first, second, read, used, wraps, hinted⟩
    · exact .inl ⟨_, unread, unused, fun _ _ => ⟨other, rfl⟩⟩
    · exact .inr ⟨first, second, read, used, wraps, Emit.descriptorOf_wraps wraps, hinted⟩
  | pointer spelling =>
    cases spells
    rcases Leaf.pointer_alike graph count text with lost | ⟨same, plain⟩
    · exact .inl lost
    rw [same]
    right
    cases read : typeOf graph text with
    | error fault => exact .inl ⟨fault, rfl, rfl, plain fault read⟩
    | ok type => exact .inr ⟨type, type, rfl, rfl, .inl rfl, rfl, fun _ => rfl⟩

end

/-! ### Two prototypes -/

/-- A constant floating-point parameter, in parentheses. -/
def constFloat : Json :=
  let leaf := .obj [("kind", .str "BuiltinType"), ("type", .obj [("qualType", .str "float")])]
  let paren := .obj [("kind", .str "ParenType"), ("type", .obj [("qualType", .str "float")]),
    ("inner", .arr [leaf])]
  .obj [("kind", .str "QualType"), ("type", .obj [("qualType", .str "const float")]),
    ("inner", .arr [paren])]

theorem node_reads_as_spelled_float :
    StandsFor 2 constFloat (.named .builtin "float") ∧ Spells "const float" (.named .builtin "float") ∧
      ∃ first second, nodeType (Seed.sow {}) constFloat = .ok first ∧
        typeOf (Seed.sow {}) "const float" = .ok second ∧ second.Wraps first ∧
          Emit.descriptorOf first = Emit.descriptorOf second ∧ Emit.hint first = Emit.hint second := by
  have stands : StandsFor 2 constFloat (.named .builtin "float") :=
    .wrapped rfl (by decide) rfl rfl (.wrapped rfl (by decide) rfl rfl (.builtin rfl rfl))
  have bare : IsBare "float".toList := (wordName "float" (by decide +kernel) (by decide)).isBare
  have spells : Spells "const float" (.named .builtin "float") := by
    have front : ["const".toList] ⊆ qualifiers := by decide
    exact @Spells.named .builtin "float" ["const".toList] [] bare front (List.nil_subset _)
  have read : (nodeType (Seed.sow {}) constFloat).toOption.isSome = true := by decide +kernel
  refine ⟨stands, spells, ?_⟩
  rcases @node_reads_as_spelled (Seed.sow {}) _ _ _ _ stands spells with
    ⟨fails, -⟩ | ⟨fault, fails, -⟩ | ⟨first, second, given, spelled, wraps, carried, hinted⟩
  · rw [fails] at read
    cases read
  · rw [fails] at read
    cases read
  · exact ⟨first, second, given, spelled, wraps, carried, hinted (sow_reached .fresh)⟩

/-- A pointer with many stars. -/
def stacked : Nat → Spelling.Pointer
  | 0 => .toName (wordName "float" (by decide +kernel) (by decide)) false
  | count + 1 => .toPointer (stacked count)

theorem nested_stacked (count : Nat) : (stacked count).nested = count := by
  induction count with
  | zero => rfl
  | succ count ih => exact congrArg (· + 1) ih

theorem isConst_stacked (count : Nat) : (stacked count).isConst = false := by
  induction count with
  | zero => rfl
  | succ count ih => exact ih

/-- A pointer to a pointer to and so on, in a number of parentheses. -/
def starry (stars : Nat) : Nat → Json
  | 0 => .obj [("kind", .str "PointerType"),
      ("type", .obj [("qualType", .str (String.ofList (stacked stars).spelling))])]
  | count + 1 => .obj [("kind", .str "ParenType"),
      ("type", .obj [("qualType", .str (String.ofList (stacked stars).spelling))]),
      ("inner", .arr [starry stars count])]

theorem standsFor_starry (stars count : Nat) :
    StandsFor count (starry stars count) (.pointer (String.ofList (stacked stars).spelling)) := by
  induction count with
  | zero => exact .pointer rfl rfl
  | succ count ih => exact .wrapped rfl (by decide) rfl rfl ih

/-- Where no pointer has a name, the parentheses alone decide whether a node is read that is read as it is
spelled. -/
theorem starry_deep {graph : Graph} (unnamed : ∀ base isConst, graph.findPointer base isConst = none)
    {stars count : Nat} (near : 3 * stars ≤ depthLimit) (deep : depthLimit < count + 1 + 3 * stars) :
    nodeType graph (starry stars count) = .error tooDeep ∧
      ∃ type, typeOf graph (String.ofList (stacked stars).spelling) = .ok type := by
  have enough : (stacked stars).nested < (String.ofList (stacked stars).spelling).length + 1 := by
    rw [String.length_ofList]
    exact Nat.lt_succ_of_le (stacked stars).nested_le
  have reading (depth : Nat) := @typeOfWith_stars graph _ depth unnamed _ (isConst_stacked stars) enough
  rw [nested_stacked] at reading
  refine ⟨?_, (reading 0).2 (by omega)⟩
  rw [nodeType_standsFor (standsFor_starry stars count)]
  split
  · rfl
  · exact (reading (count + 1)).1 deep

/-- In 200 parentheses a pointer with 271 stars is not read as a node, though it is as it is spelled. -/
theorem starry_unread :
    Reached (Seed.sow {}) ∧
      StandsFor 200 (starry 270 200) (.pointer (String.ofList (stacked 270).spelling)) ∧
      Spells (String.ofList (stacked 270).spelling) (.pointer (String.ofList (stacked 270).spelling)) ∧
      (∃ second, typeOf (Seed.sow {}) (String.ofList (stacked 270).spelling) = .ok second) ∧
      ¬ ((∃ name, nodeType (Seed.sow {}) (starry 270 200) = .error (.unknownName name) ∧
          typeOf (Seed.sow {}) (String.ofList (stacked 270).spelling) = .error (.unknownName name)) ∨
        ∃ first second, nodeType (Seed.sow {}) (starry 270 200) = .ok first ∧
          typeOf (Seed.sow {}) (String.ofList (stacked 270).spelling) = .ok second) := by
  have unnamed (base : Label) (isConst : Bool) : (Seed.sow {}).findPointer base isConst = none := by
    have plain :
        ((Table.values (Seed.sow {}).declarations).all fun type => type.kind != "pointer") = true := by
      decide +kernel
    refine List.find?_eq_none.mpr fun type member pointer => ?_
    obtain ⟨header, target, rfl, -⟩ := Graph.isPointerTo_iff.mp pointer
    exact absurd (List.all_eq_true.mp plain _ member) (by simp [CType.kind])
  obtain ⟨unread, spelled⟩ := @starry_deep (Seed.sow {}) unnamed 270 200 (by decide) (by decide)
  refine ⟨sow_reached .fresh, standsFor_starry 270 200, .pointer _, spelled, ?_⟩
  rw [unread]
  rintro (⟨name, other, -⟩ | ⟨first, second, other, -⟩)
  · cases other
  · cases other

end Resolve

end NativeBindings
