import NativeBindings.Proofs.Resolve.ConstantOwners

/-!
What the initializers of enum constants stand for. A node encodes an expression, with wrappers around
it wherever they may be, and just the expressions that are encoded are read. A node of another kind is
refused, unless something before it is broken.
-/
namespace NativeBindings

/-- A value with the owner of every reference looked up. -/
def Constant.owned (owners : Initializer.Owners) (enum : Label) : Constant → Constant
  | literal text => literal text
  | reference name _ => reference name ((Table.find? name owners).getD enum)
  | paren inner => paren (inner.owned owners enum)
  | unary operator operand => unary operator (operand.owned owners enum)
  | binary operator left right => binary operator (left.owned owners enum) (right.owned owners enum)

namespace Initializer

open Json Outcome

/-- A node and the expression that it encodes, whatever owns the constants in it. A list encodes what
its first item does, a wrapper what is in it. -/
inductive Encodes : Json → Constant → Prop
  | list {first : Json} {rest : List Json} {tree : Constant} (encodes : Encodes first tree) :
    Encodes (arr (first :: rest)) tree
  | wrapper {node inner : Json} {kind : String} {tree : Constant}
    (known : node.field "kind" = .ok (.str kind)) (wraps : kind ∈ wrappers)
    (held : node.need "inner" = .ok inner) (encodes : Encodes inner tree) : Encodes node tree
  | literal {node value : Json} (known : node.field "kind" = .ok (.str "IntegerLiteral"))
    (held : node.need "value" = .ok value) : Encodes node (.literal value.plain)
  | paren {node inner : Json} {tree : Constant} (known : node.field "kind" = .ok (.str "ParenExpr"))
    (held : node.need "inner" = .ok inner) (encodes : Encodes inner tree) : Encodes node (.paren tree)
  | unary {node inner operator : Json} {tree : Constant}
    (known : node.field "kind" = .ok (.str "UnaryOperator"))
    (spelled : node.need "opcode" = .ok operator) (held : node.need "inner" = .ok inner)
    (encodes : Encodes inner tree) : Encodes node (.unary operator tree)
  | binary {node operator left right : Json} {rest : List Json} {first second : Constant}
    (known : node.field "kind" = .ok (.str "BinaryOperator"))
    (held : node.need "inner" = .ok (arr (left :: right :: rest)))
    (spelled : node.need "opcode" = .ok operator) (lefts : Encodes left first)
    (rights : Encodes right second) : Encodes node (.binary operator first second)
  | reference {node target name owner : Json} (known : node.field "kind" = .ok (.str "DeclRefExpr"))
    (refers : node.need "referencedDecl" = .ok target) (named : target.need "name" = .ok name)
    (keyed : name.asKey = .ok name) : Encodes node (.reference name owner)

section
variable {owners : Owners} {enum : Label} {node : Json}

theorem evaluateWith_of_kind {kind : String} (known : node.field "kind" = .ok (.str kind)) (fuel : Nat) :
    evaluateWith owners enum (fuel + 1) node =
      if wrappers.contains kind then do
        evaluateWith owners enum fuel ((← node.field "inner").orElse (arr []))
      else if kind == "IntegerLiteral" then do
        return .literal (← node.need "value").plain
      else if kind == "ParenExpr" then do
        return .paren (← evaluateWith owners enum fuel (← node.need "inner"))
      else if kind == "UnaryOperator" then do
        let operator ← node.need "opcode"
        return .unary operator (← evaluateWith owners enum fuel (← node.need "inner"))
      else if kind == "BinaryOperator" then do
        let inner ← node.need "inner"
        let operator ← node.need "opcode"
        let left ← evaluateWith owners enum fuel (← inner.item 0)
        let right ← evaluateWith owners enum fuel (← inner.item 1)
        return .binary operator left right
      else if kind == "DeclRefExpr" then do
        let name ← (← (← node.need "referencedDecl").need "name").asKey
        return .reference name ((Table.find? name owners).getD enum)
      else
        .error (.enumExpression
          ("unknown enum value expression " ++ (str kind).shown ++ ": " ++ node.shown)) := by
  cases node with
  | obj entries =>
    rw [evaluateWith, known]
    · rfl
    all_goals simp
  | _ => cases known

end

/-! ### What is evaluated -/

/-- The nodes that the evaluation of a node goes on to, in their order. -/
def parts : Json → List Json
  | arr items => items.take 1
  | node =>
    match node.get? "kind" with
    | some (.str kind) =>
      if kind ∈ wrappers then [((node.get? "inner").getD null).orElse (arr [])]
      else if kind = "ParenExpr" ∨ kind = "UnaryOperator" then (node.get? "inner").toList
      else if kind = "BinaryOperator" then
        match node.get? "inner" with
        | some (arr (left :: right :: _)) => [left, right]
        | _ => []
      else []
    | _ => []

theorem depth_lt_of_parts {node part : Json} (member : part ∈ parts node) : part.depth < node.depth := by
  unfold parts at member
  split at member
  · exact depth_lt_of_mem (List.mem_of_mem_take member)
  split at member
  next known =>
    have inside := depth_lt_of_get? known
    split at member
    · obtain rfl := List.mem_singleton.mp member
      rw [orElse]
      split
      · cases held : node.get? "inner" with
        | none => simpa [held, depth] using inside
        | some inner => exact depth_lt_of_get? held
      · exact lt_of_eq_of_lt (by simp [depth, depthItems]) inside
    split at member
    · exact depth_lt_of_get? (Option.mem_toList.mp member)
    split at member
    · split at member
      next left right rest held =>
        refine (depth_lt_of_mem ?_).trans (depth_lt_of_get? held)
        exact List.mem_append_left rest member
      next => cases member
    · cases member
  next => cases member

/-- The nodes that are evaluated if none is refused, in their order. -/
def visited (node : Json) : List Json :=
  node :: (parts node).attach.flatMap fun part => visited part.1
termination_by node.depth
decreasing_by exact depth_lt_of_parts part.2

theorem visited_eq (node : Json) : visited node = node :: (parts node).flatMap visited := by
  rw [visited]
  simp

/-! ### What is read -/

section
variable {owners : Owners} {enum : Label} {node : Json} {fuel : Nat}

theorem holds_of_need {entry : String} {value : Json} (held : node.need entry = .ok value) :
    node.holds = true := by
  cases node with
  | obj entries =>
    cases entries with
    | nil => cases held
    | cons first rest => rfl
  | _ => cases held

theorem Encodes.holds {tree : Constant} (encodes : Encodes node tree) : node.holds = true := by
  cases encodes with
  | list => rfl
  | wrapper known wraps held => exact holds_of_need held
  | literal known held => exact holds_of_need held
  | paren known held => exact holds_of_need held
  | unary known spelled => exact holds_of_need spelled
  | binary known held => exact holds_of_need held
  | reference known refers => exact holds_of_need refers

/-- What is encoded is read. -/
theorem evaluateWith_encodes {tree : Constant} (encodes : Encodes node tree) (enough : node.depth ≤ fuel) :
    evaluateWith owners enum fuel node = .ok (tree.owned owners enum) := by
  induction fuel generalizing node tree with
  | zero => exact absurd (depth_pos node) (Nat.not_lt.mpr enough)
  | succ fuel ih =>
    have inside {part : Json} (less : part.depth < node.depth) : part.depth ≤ fuel :=
      Nat.le_of_lt_succ (less.trans_le enough)
    cases encodes with
    | list encodes => exact ih encodes (inside (depth_lt_of_mem List.mem_cons_self))
    | wrapper known wraps held encodes =>
      rw [evaluateWith_of_kind known, if_pos (List.contains_iff_mem.mpr wraps), Resolve.field_of_need held]
      change evaluateWith owners enum fuel (orElse _ _) = _
      rw [orElse, if_pos encodes.holds]
      exact ih encodes (inside (depth_lt_of_need held))
    | literal known held =>
      rw [evaluateWith_of_kind known, held]
      rfl
    | paren known held encodes =>
      rw [evaluateWith_of_kind known]
      exact bind_eq_ok.mpr ⟨_, held, bind_eq_ok.mpr ⟨_, ih encodes (inside (depth_lt_of_need held)), rfl⟩⟩
    | unary known spelled held encodes =>
      rw [evaluateWith_of_kind known]
      exact bind_eq_ok.mpr ⟨_, spelled, bind_eq_ok.mpr ⟨_, held, bind_eq_ok.mpr
        ⟨_, ih encodes (inside (depth_lt_of_need held)), rfl⟩⟩⟩
    | binary known held spelled lefts rights =>
      have within {part : Json} (less : part.depth < (arr _).depth) : part.depth ≤ fuel :=
        inside (less.trans (depth_lt_of_need held))
      have left := ih lefts (within (depth_lt_of_mem List.mem_cons_self))
      have right := ih rights (within (depth_lt_of_mem (List.mem_cons_of_mem _ List.mem_cons_self)))
      rw [evaluateWith_of_kind known]
      exact bind_eq_ok.mpr ⟨_, held, bind_eq_ok.mpr ⟨_, spelled, bind_eq_ok.mpr ⟨_, rfl, bind_eq_ok.mpr
        ⟨_, left, bind_eq_ok.mpr ⟨_, rfl, bind_eq_ok.mpr ⟨_, right, rfl⟩⟩⟩⟩⟩⟩
    | reference known refers named keyed =>
      rw [evaluateWith_of_kind known]
      exact bind_eq_ok.mpr ⟨_, refers, bind_eq_ok.mpr ⟨_, named, bind_eq_ok.mpr ⟨_, keyed, rfl⟩⟩⟩

theorem not_encodes_str {s : String} {tree : Constant} : ¬ Encodes (.str s) tree := by
  intro encodes
  cases encodes with
  | wrapper known | literal known | paren known | unary known | binary known | reference known => cases known

/-- The operands are the first two items of a list. -/
theorem operands_of_items {inner first second : Json} {one two : Constant}
    (left : inner.item 0 = .ok first) (right : inner.item 1 = .ok second) (lefts : Encodes first one)
    (rights : Encodes second two) : ∃ rest, inner = arr (first :: second :: rest) := by
  cases inner with
  | arr items =>
    match items with
    | [] => cases left
    | [_] => cases right
    | one :: two :: rest =>
      obtain rfl := Except.ok.inj left
      obtain rfl := Except.ok.inj right
      exact ⟨rest, rfl⟩
  | str s =>
    rw [item] at left
    split at left
    · obtain rfl := Except.ok.inj left
      exact absurd lefts not_encodes_str
    · cases left
  | _ => cases left

/-- What is read is encoded. -/
theorem encodes_of_evaluateWith {value : Constant}
    (evaluated : evaluateWith owners enum fuel node = .ok value) :
    ∃ tree, Encodes node tree ∧ tree.owned owners enum = value := by
  induction fuel generalizing node value with
  | zero => cases evaluated
  | succ fuel ih =>
    cases node with
    | arr items =>
      cases items with
      | nil => cases evaluated
      | cons first rest =>
        obtain ⟨tree, encodes, owned⟩ := ih evaluated
        exact ⟨tree, .list encodes, owned⟩
    | obj entries =>
      obtain ⟨kind, known⟩ : ∃ kind, (obj entries).field "kind" = .ok kind := ⟨_, rfl⟩
      cases kind with
      | str kind =>
        rw [evaluateWith_of_kind known] at evaluated
        split at evaluated
        next wraps =>
          obtain ⟨inner, held, evaluated⟩ := bind_eq_ok.mp evaluated
          obtain ⟨tree, encodes, owned⟩ := ih evaluated
          cases full : inner.holds with
          | true =>
            rw [orElse, if_pos full] at encodes
            have present : inner ≠ .null := fun none => absurd (none ▸ full) (by decide)
            exact ⟨tree, .wrapper known (List.contains_iff_mem.mp wraps)
              (Resolve.need_of_field held present) encodes, owned⟩
          | false =>
            rw [orElse, full, if_neg (by decide)] at encodes
            exact absurd encodes.holds (by decide)
        split at evaluated
        next same =>
          obtain ⟨text, held, evaluated⟩ := bind_eq_ok.mp evaluated
          obtain rfl := pure_eq_ok.mp evaluated
          exact ⟨_, .literal (eq_of_beq same ▸ known) held, rfl⟩
        split at evaluated
        next same =>
          obtain ⟨inner, held, evaluated⟩ := bind_eq_ok.mp evaluated
          obtain ⟨operand, within, evaluated⟩ := bind_eq_ok.mp evaluated
          obtain rfl := pure_eq_ok.mp evaluated
          obtain ⟨tree, encodes, rfl⟩ := ih within
          exact ⟨_, .paren (eq_of_beq same ▸ known) held encodes, rfl⟩
        split at evaluated
        next same =>
          obtain ⟨operator, spelled, evaluated⟩ := bind_eq_ok.mp evaluated
          obtain ⟨inner, held, evaluated⟩ := bind_eq_ok.mp evaluated
          obtain ⟨operand, within, evaluated⟩ := bind_eq_ok.mp evaluated
          obtain rfl := pure_eq_ok.mp evaluated
          obtain ⟨tree, encodes, rfl⟩ := ih within
          exact ⟨_, .unary (eq_of_beq same ▸ known) spelled held encodes, rfl⟩
        split at evaluated
        next same =>
          obtain ⟨inner, held, evaluated⟩ := bind_eq_ok.mp evaluated
          obtain ⟨operator, spelled, evaluated⟩ := bind_eq_ok.mp evaluated
          obtain ⟨first, one, evaluated⟩ := bind_eq_ok.mp evaluated
          obtain ⟨left, lefts, evaluated⟩ := bind_eq_ok.mp evaluated
          obtain ⟨second, two, evaluated⟩ := bind_eq_ok.mp evaluated
          obtain ⟨right, rights, evaluated⟩ := bind_eq_ok.mp evaluated
          obtain rfl := pure_eq_ok.mp evaluated
          obtain ⟨_, onLeft, rfl⟩ := ih lefts
          obtain ⟨_, onRight, rfl⟩ := ih rights
          obtain ⟨rest, rfl⟩ := operands_of_items one two onLeft onRight
          exact ⟨_, .binary (eq_of_beq same ▸ known) held spelled onLeft onRight, rfl⟩
        split at evaluated
        next same =>
          obtain ⟨target, refers, evaluated⟩ := bind_eq_ok.mp evaluated
          obtain ⟨own, named, evaluated⟩ := bind_eq_ok.mp evaluated
          obtain ⟨key, keyed, evaluated⟩ := bind_eq_ok.mp evaluated
          rw [Resolve.asKey_eq_ok keyed] at evaluated keyed
          obtain rfl := pure_eq_ok.mp evaluated
          exact ⟨.reference own .null, .reference (eq_of_beq same ▸ known) refers named keyed, rfl⟩
        · cases evaluated
      | _ =>
        rw [evaluateWith, known] at evaluated
        · cases evaluated
        all_goals simp
    | _ => cases evaluated

end

/-! ### What is refused -/

/-- The kinds that are evaluated. -/
def kinds : List String :=
  wrappers ++ ["IntegerLiteral", "ParenExpr", "UnaryOperator", "BinaryOperator", "DeclRefExpr"]

/-- A node of another kind, or of none. -/
def IsForeign (node : Json) : Prop :=
  ∃ kind, node.field "kind" = .ok kind ∧ kind.asKey = .ok kind ∧ ∀ word ∈ kinds, kind ≠ .str word

/-- A node that has what its kind needs. What a wrapper wraps may be missing. -/
inductive IsProper : Json → Prop
  | list (items : List Json) : IsProper (arr items)
  | foreign {node : Json} (foreign : IsForeign node) : IsProper node
  | wrapper {node : Json} {kind : String} (known : node.field "kind" = .ok (.str kind))
    (wraps : kind ∈ wrappers) : IsProper node
  | literal {node value : Json} (known : node.field "kind" = .ok (.str "IntegerLiteral"))
    (held : node.need "value" = .ok value) : IsProper node
  | paren {node inner : Json} (known : node.field "kind" = .ok (.str "ParenExpr"))
    (held : node.need "inner" = .ok inner) : IsProper node
  | unary {node inner operator : Json} (known : node.field "kind" = .ok (.str "UnaryOperator"))
    (spelled : node.need "opcode" = .ok operator) (held : node.need "inner" = .ok inner) : IsProper node
  | binary {node operator left right : Json} {rest : List Json}
    (known : node.field "kind" = .ok (.str "BinaryOperator"))
    (held : node.need "inner" = .ok (arr (left :: right :: rest)))
    (spelled : node.need "opcode" = .ok operator) : IsProper node
  | reference {node target name : Json} (known : node.field "kind" = .ok (.str "DeclRefExpr"))
    (refers : node.need "referencedDecl" = .ok target) (named : target.need "name" = .ok name)
    (keyed : name.asKey = .ok name) : IsProper node

/-- What the evaluation of a node makes of its parts. -/
inductive Makes (owners : Owners) (enum : Label) (node : Json) : Prop
  | refusal (reason : String)
    (evaluated : ∀ fuel, evaluateWith owners enum (fuel + 1) node = .error (.enumExpression reason))
  | leaf (value : Constant) (none : parts node = [])
    (evaluated : ∀ fuel, evaluateWith owners enum (fuel + 1) node = .ok value)
  | one (part : Json) (form : Constant → Constant) (single : parts node = [part])
    (evaluated : ∀ fuel, evaluateWith owners enum (fuel + 1) node =
      (do return form (← evaluateWith owners enum fuel part)))
  | two (left right : Json) (form : Constant → Constant → Constant) (pair : parts node = [left, right])
    (evaluated : ∀ fuel, evaluateWith owners enum (fuel + 1) node = (do
      let first ← evaluateWith owners enum fuel left
      return form first (← evaluateWith owners enum fuel right)))

theorem parts_of_kind {node : Json} {kind : String} (known : node.field "kind" = .ok (.str kind)) :
    parts node =
      if kind ∈ wrappers then [((node.get? "inner").getD null).orElse (arr [])]
      else if kind = "ParenExpr" ∨ kind = "UnaryOperator" then (node.get? "inner").toList
      else if kind = "BinaryOperator" then
        match node.get? "inner" with
        | some (arr (left :: right :: _)) => [left, right]
        | _ => []
      else [] := by
  have there := need_eq_ok.mp (Resolve.need_of_field known nofun)
  cases node with
  | obj entries => rw [parts, there]; nofun
  | _ => cases known

section
variable {owners : Owners} {enum : Label}

variable (owners enum) in
theorem evaluateWith_foreign {node : Json} (foreign : IsForeign node) :
    ∃ reason, ∀ fuel, evaluateWith owners enum (fuel + 1) node = .error (.enumExpression reason) := by
  obtain ⟨kind, known, keyed, other⟩ := foreign
  refine ⟨"unknown enum value expression " ++ kind.shown ++ ": " ++ node.shown, fun fuel => ?_⟩
  cases kind with
  | str word =>
    have apart : ∀ kind ∈ kinds, word ≠ kind := fun kind member same => other kind member (same ▸ rfl)
    simp only [kinds, wrappers, List.cons_append, List.nil_append, List.forall_mem_cons] at apart
    rw [evaluateWith_of_kind known]
    simp [wrappers, apart]
  | arr | obj => cases keyed
  | _ =>
    cases node with
    | obj entries =>
      rw [evaluateWith, known]
      · rfl
      all_goals simp
    | _ => cases known

variable (owners enum) in
theorem makes_of_proper {node : Json} (proper : IsProper node) : Makes owners enum node := by
  cases proper with
  | list items =>
    cases items with
    | nil => exact .refusal _ fun fuel => rfl
    | cons first rest => exact .one first id rfl fun fuel => (bind_pure _).symm
  | foreign foreign =>
    obtain ⟨reason, evaluated⟩ := evaluateWith_foreign owners enum foreign
    exact .refusal reason evaluated
  | wrapper known wraps =>
    refine .one _ id ((parts_of_kind known).trans (if_pos wraps)) fun fuel => ?_
    rw [evaluateWith_of_kind known, if_pos (List.contains_iff_mem.mpr wraps), field_eq known]
    exact (bind_pure _).symm
  | @literal _ value known held =>
    refine .leaf (.literal value.plain) (parts_of_kind known) fun fuel => ?_
    rw [evaluateWith_of_kind known, held]
    rfl
  | @paren _ inner known held =>
    refine .one inner .paren ((parts_of_kind known).trans ?_) fun fuel => ?_
    · rw [need_eq_ok.mp held]
      rfl
    · rw [evaluateWith_of_kind known, held]
      rfl
  | @unary _ inner operator known spelled held =>
    refine .one inner (.unary operator) ((parts_of_kind known).trans ?_) fun fuel => ?_
    · rw [need_eq_ok.mp held]
      rfl
    · rw [evaluateWith_of_kind known, spelled, held]
      rfl
  | @binary _ operator left right _ known held spelled =>
    refine .two left right (.binary operator) ((parts_of_kind known).trans ?_) fun fuel => ?_
    · rw [need_eq_ok.mp held]
      rfl
    · rw [evaluateWith_of_kind known, held, spelled]
      rfl
  | @reference _ target name known refers named keyed =>
    refine .leaf (.reference name ((Table.find? name owners).getD enum)) (parts_of_kind known) fun fuel => ?_
    rw [evaluateWith_of_kind known]
    exact bind_eq_ok.mpr ⟨_, refers, bind_eq_ok.mpr ⟨_, named, bind_eq_ok.mpr ⟨_, keyed, rfl⟩⟩⟩

variable (owners enum) in
/-- Without a broken node, there is a value or a refusal. -/
theorem settles {fuel : Nat} {node : Json} (proper : ∀ part ∈ visited node, IsProper part)
    (enough : node.depth ≤ fuel) :
    (∃ value, evaluateWith owners enum fuel node = .ok value) ∨
      ∃ reason, evaluateWith owners enum fuel node = .error (.enumExpression reason) := by
  induction fuel generalizing node with
  | zero => exact absurd (depth_pos node) (by omega)
  | succ fuel ih =>
    rw [visited_eq, List.forall_mem_cons] at proper
    have within (part : Json) (member : part ∈ parts node) :=
      ih (fun other inside => proper.2 other (List.mem_flatMap_of_mem member inside))
        (Nat.le_of_lt_succ ((depth_lt_of_parts member).trans_le enough))
    cases makes_of_proper owners enum proper.1 with
    | refusal reason evaluated => exact .inr ⟨reason, evaluated fuel⟩
    | leaf value none evaluated => exact .inl ⟨value, evaluated fuel⟩
    | one part form single evaluated =>
      rw [evaluated fuel]
      obtain ⟨value, done⟩ | ⟨reason, failed⟩ := within part (single ▸ List.mem_cons_self)
      · exact .inl ⟨form value, by rw [done]; rfl⟩
      · exact .inr ⟨reason, by rw [failed]; rfl⟩
    | two left right form pair evaluated =>
      rw [evaluated fuel]
      obtain ⟨first, done⟩ | ⟨reason, failed⟩ := within left (pair ▸ List.mem_cons_self)
      · obtain ⟨second, last⟩ | ⟨reason, failed⟩ := within right (pair ▸ by simp)
        · exact .inl ⟨form first second, by rw [done, last]; rfl⟩
        · exact .inr ⟨reason, by rw [done, failed]; rfl⟩
      · exact .inr ⟨reason, by rw [failed]; rfl⟩

theorem cut_append {α : Type} {first second before after : List α} {item : α}
    (same : first ++ second = before ++ item :: after) :
    (∃ rest, first = before ++ item :: rest) ∨
      ∃ behind, before = first ++ behind ∧ second = behind ++ item :: after := by
  obtain ⟨behind, inside, rest⟩ | ⟨others, inside, rest⟩ := List.append_eq_append_iff.mp same
  · exact .inr ⟨behind, inside, rest⟩
  · cases others with
    | nil => exact .inr ⟨[], by rw [inside, List.append_nil, List.append_nil], rest.symm⟩
    | cons other others =>
      obtain ⟨rfl, -⟩ := List.cons.inj rest
      exact .inl ⟨others, inside⟩

/-- A node of another kind is refused, if nothing that is evaluated before it is broken. -/
theorem refuses {fuel : Nat} {node bad : Json} {before after : List Json} (enough : node.depth ≤ fuel)
    (cut : visited node = before ++ bad :: after) (proper : ∀ part ∈ before, IsProper part)
    (foreign : IsForeign bad) :
    ∃ reason, evaluateWith owners enum fuel node = .error (.enumExpression reason) := by
  induction fuel generalizing node before after with
  | zero => exact absurd (depth_pos node) (by omega)
  | succ fuel ih =>
    have shallow {part : Json} (member : part ∈ parts node) : part.depth ≤ fuel :=
      Nat.le_of_lt_succ ((depth_lt_of_parts member).trans_le enough)
    rw [visited_eq] at cut
    cases before with
    | nil =>
      obtain rfl := (List.cons.inj cut).1
      obtain ⟨reason, evaluated⟩ := evaluateWith_foreign owners enum foreign
      exact ⟨reason, evaluated fuel⟩
    | cons first before =>
      obtain ⟨rfl, inside⟩ := List.cons.inj cut
      obtain ⟨own, proper⟩ := List.forall_mem_cons.mp proper
      cases makes_of_proper owners enum own with
      | refusal reason evaluated => exact ⟨reason, evaluated fuel⟩
      | leaf value none evaluated => exact absurd inside (by simp [none])
      | one part form single evaluated =>
        rw [single, List.flatMap_singleton] at inside
        obtain ⟨reason, failed⟩ := ih (shallow (single ▸ List.mem_cons_self)) inside proper
        exact ⟨reason, by rw [evaluated fuel, failed]; rfl⟩
      | two left right form pair evaluated =>
        rw [evaluated fuel]
        rw [pair, List.flatMap_cons, List.flatMap_singleton] at inside
        obtain ⟨rest, lefts⟩ | ⟨behind, rfl, rights⟩ := cut_append inside
        · obtain ⟨reason, failed⟩ := ih (shallow (pair ▸ List.mem_cons_self)) lefts proper
          exact ⟨reason, by rw [failed]; rfl⟩
        · obtain ⟨value, done⟩ | ⟨reason, failed⟩ := settles owners enum
            (fun part member => proper part (List.mem_append_left _ member))
            (shallow (pair ▸ List.mem_cons_self))
          · obtain ⟨reason, failed⟩ := ih (shallow (pair ▸ by simp)) rights
              fun part member => proper part (List.mem_append_right _ member)
            exact ⟨reason, by rw [done, failed]; rfl⟩
          · exact ⟨reason, by rw [failed]; rfl⟩

/-- What is read is what is encoded, with the owners looked up, and a node of another kind is refused
wherever it is evaluated, unless one before it is broken. -/
theorem evaluate_decodes (owners : Owners) (enum : Label) (node : Json) :
    (∀ value, evaluate owners enum node = .ok value ↔
      ∃ tree, Encodes node tree ∧ tree.owned owners enum = value) ∧
    ∀ before bad after, visited node = before ++ bad :: after → (∀ part ∈ before, IsProper part) →
      IsForeign bad → ∃ reason, evaluate owners enum node = .error (.enumExpression reason) := by
  refine ⟨fun value => ⟨encodes_of_evaluateWith, ?_⟩, fun before bad after cut proper foreign => ?_⟩
  · rintro ⟨tree, encodes, rfl⟩
    exact evaluateWith_encodes encodes (Nat.le_succ _)
  · exact refuses (Nat.le_succ _) cut proper foreign

end

/-- Some node of a kind. -/
def nodeOf (kind : String) (rest : List (String × Json)) : Json := .obj (("kind", .str kind) :: rest)

def one : Json := nodeOf "IntegerLiteral" [("value", .str "1")]

def castOne : Json := nodeOf "ImplicitCastExpr" [("inner", .arr [one])]

/-- One, with a cast, shifted by something. -/
def shift (operand : Json) : Json :=
  nodeOf "BinaryOperator" [("opcode", .str "<<"), ("inner", .arr [castOne, operand])]

def wrapped (operand : Json) : Json := nodeOf "ConstantExpr" [("inner", .arr [shift operand])]

def low : Json := nodeOf "DeclRefExpr" [("referencedDecl", .obj [("name", .str "low")])]

def call : Json := nodeOf "CallExpr" []

theorem evaluate_decodes_shift :
    evaluate [(.str "low", .str "level")] (.str "shape") (wrapped low) =
      .ok (.binary (.str "<<") (.literal "1") (.reference (.str "low") (.str "level"))) ∧
    (∃ before after, visited (wrapped call) = before ++ call :: after ∧
      (∀ part ∈ before, IsProper part) ∧ IsForeign call) ∧
    ∃ reason, evaluate [(.str "low", .str "level")] (.str "shape") (wrapped call) =
      .error (.enumExpression reason) := by
  have encodes : Encodes (wrapped low)
      (.binary (.str "<<") (.literal (Json.str "1").plain) (.reference (.str "low") .null)) :=
    .wrapper rfl (by decide) rfl (.list (.binary rfl rfl rfl
      (.wrapper rfl (by decide) rfl (.list (.literal rfl rfl))) (.reference rfl rfl rfl rfl)))
  have cut : visited (wrapped call) =
      [wrapped call, .arr [shift call], shift call, castOne, .arr [one], one] ++ call :: [] := by
    have step (node : Json) (inside : List Json) (same : parts node = inside) :
        visited node = node :: inside.flatMap visited := same ▸ visited_eq node
    rw [step (wrapped call) [.arr [shift call]] rfl, List.flatMap_singleton,
      step (.arr [shift call]) [shift call] rfl, List.flatMap_singleton,
      step (shift call) [castOne, call] rfl, List.flatMap_cons, List.flatMap_singleton,
      step castOne [.arr [one]] rfl, List.flatMap_singleton,
      step (.arr [one]) [one] rfl, List.flatMap_singleton,
      step one [] rfl, step call [] rfl]
    rfl
  have proper : ∀ part ∈ [wrapped call, .arr [shift call], shift call, castOne, .arr [one], one],
      IsProper part := by
    simp only [List.forall_mem_cons]
    exact ⟨.wrapper rfl (by decide), .list _, .binary rfl rfl rfl, .wrapper rfl (by decide), .list _,
      .literal rfl rfl, nofun⟩
  have foreign : IsForeign call := ⟨.str "CallExpr", rfl, rfl, by decide⟩
  have decodes := evaluate_decodes [(.str "low", .str "level")] (.str "shape")
  exact ⟨((decodes (wrapped low)).1 _).mpr ⟨_, encodes, rfl⟩, ⟨_, _, cut, proper, foreign⟩,
    (decodes (wrapped call)).2 _ _ _ cut proper foreign⟩

end Initializer

end NativeBindings
