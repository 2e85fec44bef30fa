import NativeBindings.Proofs.Emit.Isolation
import NativeBindings.Proofs.Resolve.ConstantOwners

/-!
References in the constants of an enum, in a module. A member and a class are spelled where they are
defined and where they are referred to by different rules; the rules agree but for the names that are
taken. A reference always stands below what it refers to.
-/
namespace NativeBindings

namespace Constant

/-- The text of a value with the references spelled in some way. -/
def spelled (operators : Operators) (spelling : Label → Label → String) : Constant → String
  | literal text => text
  | reference name owner => spelling name owner
  | paren inner => "(" ++ inner.spelled operators spelling ++ ")"
  | unary operator operand =>
    "(" ++ spell operators operator ++ " " ++ operand.spelled operators spelling ++ ")"
  | binary operator left right =>
    "((" ++ left.spelled operators spelling ++ ") " ++ spell operators operator ++ " (" ++
      right.spelled operators spelling ++ "))"

theorem text_eq_spelled (operators : Operators) (enum : Label) (value : Constant) :
    value.text operators enum = value.spelled operators fun name owner => spellReference name owner enum := by
  induction value with
  | literal | reference => rfl
  | paren inner ih => rw [text, spelled, ih]
  | unary operator operand ih => rw [text, spelled, ih]
  | binary operator left right first second => rw [text, spelled, first, second]

theorem render_eq_ok {operators : Operators} {enum : Label} {value : Constant} {rendered : Json}
    (done : value.render operators enum = .ok rendered) : rendered.plain = value.text operators enum := by
  obtain ⟨_, -, done⟩ := Outcome.bind_eq_ok.mp done
  cases value with
  | reference name owner =>
    obtain rfl := Outcome.pure_eq_ok.mp done
    change _ = spellReference name owner enum
    unfold spellReference
    split <;> rfl
  | literal | paren | unary | binary =>
    obtain rfl := Outcome.pure_eq_ok.mp done
    rfl

end Constant

namespace Emit

open Act Outcome

/-- How a constant of an enum was emitted, as seen from within an enum. -/
def emittedName (enum owner name : String) : String :=
  if owner = enum then member name else ident owner ++ "." ++ member name

theorem length_mark (marked : Bool) (name : String) :
    (if marked then name ++ "_" else name).length = name.length + marked.toNat := by
  cases marked with
  | false => rfl
  | true => exact String.length_append name "_"

/-- A reference is spelled as its constant was emitted if neither name is taken. -/
theorem spellReference_eq_iff (enum owner name : String) :
    Constant.spellReference (.str name) (.str owner) (.str enum) = emittedName enum owner name ↔
      isKeyword name = false ∧ (owner ≠ enum → isTaken owner = false) := by
  have own : member name = name ↔ isKeyword name = false := by
    have marked := length_mark (isKeyword name) name
    cases taken : isKeyword name with
    | false => simp [member, taken]
    | true =>
      rw [taken] at marked
      refine iff_of_false (fun same => ?_) nofun
      rw [member, taken] at same
      rw [same] at marked
      exact absurd marked (by simp)
  unfold Constant.spellReference emittedName
  by_cases same : owner = enum
  · have near : Constant.isForeign (.str owner) (.str enum) = false := by
      rw [same]
      simp [Constant.isForeign, bne]
    rw [near, if_neg (by decide), if_pos same, eq_comm]
    exact own.trans (by simp [same])
  · have foreign : Constant.isForeign (.str owner) (.str enum) = true := by
      have apart : (Json.str owner == .str enum) = false := by
        refine Bool.eq_false_iff.mpr fun equal => same ?_
        exact Json.str.inj ((Json.beq_str_iff _ _).mp equal)
      simp [Constant.isForeign, bne, apart, Json.isNull]
    rw [foreign, if_pos rfl, if_neg same]
    change owner ++ "." ++ name = _ ↔ _
    constructor
    · intro equal
      have lengths := congrArg String.length equal
      have first := length_mark (isTaken owner) owner
      have second := length_mark (isKeyword name) name
      simp only [String.length_append] at lengths
      rw [ident, member, first, second] at lengths
      constructor
      · cases taken : isKeyword name with
        | false => rfl
        | true =>
          rw [taken, Bool.toNat_true] at lengths
          omega
      · intro _
        cases taken : isTaken owner with
        | false => rfl
        | true =>
          rw [taken, Bool.toNat_true] at lengths
          omega
    · rintro ⟨plain, free⟩
      rw [own.mpr plain, ident, free same, if_neg (by decide)]

section
variable (options : Options)

/-- The line that begins an enum. -/
def classLine (enum : String) : Fragment :=
  put options 0 [.text ("class " ++ ident enum ++ "(_enum.IntEnum):")]

/-- The line of a constant in an enum. -/
def memberLine (member value : String) : Fragment := put options 1 [.text (member ++ " = " ++ value)]

/-- A line that defines the member for a constant. -/
def Defines (constant : Label × Constant) (line : Fragment) : Prop :=
  ∃ member value, memberOf constant.1 = .ok member ∧ line = memberLine options member value

/-- Lines that end within an enum, after the members for these constants. -/
def IsOpen (enum : String) (constants : Table Label Constant) (lines : List Fragment) : Prop :=
  ∃ earlier members, lines = earlier ++ classLine options enum :: members ∧
    List.Forall₂ (Defines options) constants members

/-- Lines among which the member for a constant of an enum is defined. -/
def HasMember (enum name : String) (lines : List Fragment) : Prop :=
  ∃ early late constants value, lines = early ++ late ∧
    IsOpen options enum (constants ++ [(.str name, value)]) early

/-- Below the class of its enum and the members before it, every constant has its member. The
constants that its value refers to are among those before, or their enums are emitted above it, and
they are spelled there as here just if their names are not taken. -/
def ReferencesResolve (graph : Graph) (made : Module) : Prop :=
  ∀ enum header fields, (.str enum, .enum header fields) ∈ graph.declarations →
    made.failed.contains (.str enum) = false →
    ∀ (front back : Table Label Constant) constant value, fields = front ++ (constant, value) :: back →
      ∃ above below member, memberOf constant = .ok member ∧
        made.fragments = above ++ memberLine options member
          (value.spelled Constant.moduleOperators fun name owner =>
            Constant.spellReference name owner (.str enum)) :: below ∧
        IsOpen options enum front above ∧
        ∀ name owner, (.str name, owner) ∈ value.references → ∃ tag, owner = .str tag ∧
          (tag = enum → Table.has (.str name) front = true) ∧
          (made.failed.contains owner = false → HasMember options tag name above) ∧
          (Constant.spellReference (.str name) owner (.str enum) = emittedName enum tag name ↔
            isKeyword name = false ∧ (tag ≠ enum → isTaken tag = false))

end

section
variable {options : Options} {enum : String} {fields front back : Table Label Constant}
  {constant : Label} {value : Constant} {rendered : Rendered}

theorem constantLine_eq_ok {name : Label} {line : Fragment}
    (done : constantLine options name (constant, value) = .ok line) :
    ∃ member, memberOf constant = .ok member ∧ line = memberLine options member
      (value.spelled Constant.moduleOperators fun own owner => Constant.spellReference own owner name) := by
  obtain ⟨member, spelled, done⟩ := bind_eq_ok.mp done
  obtain ⟨text, shown, done⟩ := bind_eq_ok.mp done
  obtain rfl := pure_eq_ok.mp done
  refine ⟨member, spelled, ?_⟩
  rw [memberLine, ← Constant.text_eq_spelled, ← Constant.render_eq_ok shown]

theorem defines_of_constantLine {name : Label} {entry : Label × Constant} {line : Fragment}
    (done : constantLine options name entry = .ok line) : Defines options entry line := by
  obtain ⟨constant, value⟩ := entry
  obtain ⟨member, spelled, rfl⟩ := constantLine_eq_ok done
  exact ⟨member, _, spelled, rfl⟩

theorem forall₂_cut {α β : Type} {R : α → β → Prop} {before after : List α} {item : α} {results : List β}
    (related : List.Forall₂ R (before ++ item :: after) results) :
    ∃ early result late, results = early ++ result :: late ∧ List.Forall₂ R before early ∧ R item result := by
  induction before generalizing results with
  | nil =>
    obtain ⟨result, late, here, -, rfl⟩ := List.forall₂_cons_left_iff.mp related
    exact ⟨[], result, late, rfl, .nil, here⟩
  | cons first rest ih =>
    obtain ⟨own, others, head, tail, rfl⟩ := List.forall₂_cons_left_iff.mp related
    obtain ⟨early, result, late, rfl, walked, here⟩ := ih tail
    exact ⟨own :: early, result, late, rfl, .cons head walked, here⟩

/-- The class of an emitted enum begins its lines. -/
theorem enumeration_eq_ok (done : enumeration options (.str enum) fields = .ok rendered) :
    ∃ values, fields.mapM (constantLine options (.str enum)) = .ok values ∧
      classLine options enum :: (if fields.isEmpty then [put options 1 ["pass"]] else values) <+:
        rendered.lines := by
  obtain ⟨ident, named, done⟩ := bind_eq_ok.mp done
  obtain rfl := Except.ok.inj named
  obtain ⟨values, listed, done⟩ := bind_eq_ok.mp done
  obtain rfl := pure_eq_ok.mp done
  refine ⟨values, listed, ?_⟩
  dsimp only
  exact (List.prefix_append _ _).trans ((List.prefix_append _ _).trans (List.prefix_append _ _))

/-- Where a constant of an emitted enum stands. -/
theorem enumeration_lines (done : enumeration options (.str enum) fields = .ok rendered)
    (cut : fields = front ++ (constant, value) :: back) :
    ∃ members line late, rendered.lines = classLine options enum :: members ++ line :: late ∧
      List.Forall₂ (Defines options) front members ∧
        constantLine options (.str enum) (constant, value) = .ok line := by
  obtain ⟨values, listed, rest, lines⟩ := enumeration_eq_ok done
  obtain ⟨members, line, late, rfl, before, here⟩ := forall₂_cut (cut ▸ mapM_eq_ok.mp listed)
  have some : fields.isEmpty = false := by
    rw [cut]
    cases front <;> rfl
  rw [some, if_neg (by decide)] at lines
  refine ⟨members, line, late ++ rest, ?_, before.imp fun _ _ => defines_of_constantLine, here⟩
  rw [← lines]
  simp

theorem hasMember_of_open {name : String} {lines : List Fragment} (within : IsOpen options enum fields lines)
    (present : Table.has (.str name) fields = true) (late : List Fragment) :
    HasMember options enum name (lines ++ late) := by
  obtain ⟨earlier, members, rfl, all⟩ := within
  obtain ⟨own, listed, same⟩ := Table.has_iff_keys.mp present
  obtain rfl := (Json.beq_str_iff own name).mp same
  obtain ⟨⟨key, value⟩, member, rfl⟩ := List.mem_map.mp listed
  obtain ⟨front, back, rfl⟩ := List.append_of_mem member
  obtain ⟨first, line, rest, rfl, before, here⟩ := forall₂_cut all
  refine ⟨earlier ++ classLine options enum :: (first ++ [line]), rest ++ late, front, value, by simp,
    earlier, first ++ [line], rfl, List.rel_append before (.cons here .nil)⟩

/-- Where an enum is emitted among some lines, so are its members. -/
theorem hasMember_of_lines {name : String} (done : enumeration options (.str enum) fields = .ok rendered)
    (present : Table.has (.str name) fields = true) (earlier late : List Fragment) :
    HasMember options enum name (earlier ++ rendered.lines ++ late) := by
  obtain ⟨values, listed, rest, lines⟩ := enumeration_eq_ok done
  have some : fields.isEmpty = false := by
    cases fields with
    | nil => cases present
    | cons => rfl
  rw [some, if_neg (by decide)] at lines
  have within : IsOpen options enum fields (earlier ++ classLine options enum :: values) :=
    ⟨earlier, values, rfl, (mapM_eq_ok.mp listed).imp fun _ _ => defines_of_constantLine⟩
  have member := hasMember_of_open within present (rest ++ late)
  rw [← lines]
  simpa using member

end

/-- What an entry adds, if it is an enum: its lines, or its name to the failures. -/
def Shows (options : Options) (failed : List Label) (entry : Label × CType) (lines : List Fragment) : Prop :=
  ∀ header fields, entry.2 = .enum header fields →
    (∃ rendered, enumeration options entry.1 fields = .ok rendered ∧ lines = rendered.lines ++ [blankLine]) ∨
      entry.1 ∈ failed

section
variable {options : Options} (patient : options.failFast = false)
include patient

theorem enum_yields {name : Label} (keyed : name.asKey = .ok name) (header : Header)
    (fields : Table Label Constant) (known : List Marshaler) :
    ∃ yield, Yields (emitEntry options name (.enum header fields)) known () yield ∧
      Shows options yield.failed (name, .enum header fields) yield.lines := by
  have unit := yields_unit patient known keyed "" fun known =>
    declaration options known name (.enum header fields)
  have same : declaration options known name (.enum header fields) = enumeration options name fields := rfl
  rw [same] at unit
  cases done : enumeration options name fields with
  | error fault =>
    rw [done] at unit
    refine ⟨_, unit.then (yields_pure ()), fun _ _ _ => .inr ?_⟩
    exact List.mem_append_left _ (List.mem_singleton.mpr rfl)
  | ok rendered =>
    have some : rendered.lines.isEmpty = false := by
      obtain ⟨ident, -, done⟩ := bind_eq_ok.mp done
      obtain ⟨values, -, done⟩ := bind_eq_ok.mp done
      obtain rfl := pure_eq_ok.mp done
      rfl
    rw [done] at unit
    let marshalers := (rendered.ident.map (marshalersOf options)).getD []
    have shown : Yields (know marshalers >>= fun _ =>
          if !rendered.lines.isEmpty then append (rendered.lines ++ [blankLine]) else pure ()) (known ++ []) ()
        (Yield.followedBy { known := marshalers } { lines := rendered.lines ++ [blankLine] }) := by
      rw [some]
      exact (yields_know _).then (yields_append _)
    refine ⟨_, unit.then shown, fun _ _ entry => .inl ⟨rendered, ?_, ?_⟩⟩
    · obtain ⟨-, rfl⟩ := CType.enum.inj entry
      exact done
    · simp [Yield.followedBy]

theorem entries_yield {entries : Table Label CType} (keyed : ∀ entry ∈ entries, entry.1.asKey = .ok entry.1)
    (known : List Marshaler) :
    ∃ yield blocks, Yields (entries.forM fun entry => emitEntry options entry.1 entry.2) known () yield ∧
      yield.lines = blocks.flatten ∧ List.Forall₂ (Shows options yield.failed) entries blocks := by
  induction entries generalizing known with
  | nil => exact ⟨{}, [], yields_pure (), rfl, .nil⟩
  | cons entry rest ih =>
    obtain ⟨name, type⟩ := entry
    have own := keyed (name, type) (by simp)
    have first : ∃ yield, Yields (emitEntry options name type) known () yield ∧
        Shows options yield.failed (name, type) yield.lines := by
      by_cases isEnum : ∃ header fields, type = .enum header fields
      · obtain ⟨header, fields, rfl⟩ := isEnum
        exact enum_yields patient own header fields known
      · obtain ⟨yield, emits, -⟩ := entry_yields patient own type known
        exact ⟨yield, emits, fun header fields same => absurd ⟨header, fields, same⟩ isEnum⟩
    obtain ⟨yield, emits, shows⟩ := first
    obtain ⟨others, blocks, walked, lines, all⟩ :=
      ih (fun other member => keyed other (by simp [member])) (known ++ yield.known)
    refine ⟨_, yield.lines :: blocks, emits.then walked, ?_, .cons ?_ (all.imp ?_)⟩
    · exact congrArg (yield.lines ++ ·) lines
    · exact fun header fields same => (shows header fields same).imp_right (List.mem_append_left _)
    · exact fun _ _ shows header fields same => (shows header fields same).imp_right (List.mem_append_right _)

/-- A module of declarations of which the references are to constants before them. -/
theorem generate_anchored {graph : Graph} (anchored : Resolve.AllAnchored graph.declarations)
    (distinct : graph.Distinct) (named : ∀ name ∈ graph.names, ∃ s, name = .str s) (start : Progress) :
    ∃ made, ((generate options graph).runOn start).1 = .ok made ∧ ReferencesResolve options graph made := by
  have keyed : ∀ entry ∈ graph.declarations, entry.1.asKey = .ok entry.1 := by
    intro entry member
    obtain ⟨s, text⟩ := named entry.1 (List.mem_map_of_mem member)
    rw [text]
    rfl
  have opens := @yields_append [] (if options.helpers then [[.text helpers]] else [])
  obtain ⟨yield, blocks, walked, lines, shows⟩ := entries_yield patient keyed ([] ++ [])
  obtain ⟨last, ended⟩ := steady_rest patient graph keyed ([] ++ [] ++ yield.known)
  obtain ⟨made, run, fragments, failures⟩ := @generate_of_yields options graph _ (opens.then (walked.then ended)) start
  refine ⟨made, run, fun enum header fields declared succeeds front back constant value cut => ?_⟩
  have unfailed {name : Label} (succeeds : made.failed.contains name = false) : name ∉ yield.failed := by
    intro member
    have reported : made.failed.contains name = true := by
      rw [failures, List.contains_iff_exists_mem_beq]
      exact ⟨name, List.mem_append_right _ (List.mem_append_left _ member), BEq.rfl⟩
    rw [reported] at succeeds
    cases succeeds
  obtain ⟨before, after, placed⟩ := List.append_of_mem declared
  obtain ⟨early, block, late, rfl, shown, here⟩ := forall₂_cut (placed ▸ shows)
  obtain ⟨rendered, done, rfl⟩ := (here header fields rfl).resolve_right (unfailed succeeds)
  obtain ⟨members, line, rest, same, first, listed⟩ := enumeration_lines done cut
  obtain ⟨member, spelled, rfl⟩ := constantLine_eq_ok listed
  let opening : List Fragment := [.text prelude] :: if options.helpers then [[.text helpers]] else []
  refine ⟨opening ++ early.flatten ++ classLine options enum :: members,
    rest ++ [blankLine] ++ late.flatten ++ last.lines, member, spelled, ?_, ⟨_, members, rfl, first⟩, ?_⟩
  · rw [fragments]
    simp only [Yield.followedBy, lines, same, opening, List.flatten_append, List.flatten_cons,
      List.append_assoc, List.cons_append, List.nil_append]
  intro name owner member
  have own := anchored before.length (.str enum) header fields (by rw [placed]; simp)
  rw [placed, List.take_left] at own
  rcases own front.length constant value (by rw [cut]; simp) (.str name) owner member with near | far
  · obtain ⟨rfl, present⟩ := near
    rw [cut, List.take_left] at present
    refine ⟨enum, rfl, fun _ => present, fun _ => ?_, spellReference_eq_iff enum enum name⟩
    have within : IsOpen options enum front (opening ++ early.flatten ++ classLine options enum :: members) :=
      ⟨opening ++ early.flatten, members, rfl, first⟩
    simpa using hasMember_of_open within present []
  · obtain ⟨header', fields', inside, present⟩ := far
    obtain ⟨tag, rfl⟩ := named owner (by
      rw [Graph.names, placed, Table.keys, List.map_append]
      exact List.mem_append_left _ (List.mem_map_of_mem inside))
    refine ⟨tag, rfl, ?_, fun emitted => ?_, spellReference_eq_iff enum tag name⟩
    · rintro rfl
      rw [Graph.Distinct, Graph.names, placed, Table.keys, List.map_append] at distinct
      have apart := (List.pairwise_append.mp distinct).2.2 _ (List.mem_map_of_mem inside) (.str tag) (by simp)
      rw [BEq.rfl] at apart
      cases apart
    · obtain ⟨some, others, rfl⟩ := List.append_of_mem inside
      obtain ⟨blocks, block, between, rfl, -, here⟩ := forall₂_cut shown
      obtain ⟨rendered', done', rfl⟩ := (here header' fields' rfl).resolve_right (unfailed emitted)
      have found := hasMember_of_lines done' present (opening ++ blocks.flatten)
        ([blankLine] ++ between.flatten ++ classLine options enum :: members)
      simpa using found

end

section
variable {σ : Type} {header : Path} {oracle : Layout.Oracle σ} {state : σ} {nodes : List Json} {graph : Graph}
  {options : Options}

/-- Every reference in an enum of a module stands below the constant that it refers to, and is spelled
as that constant just if no name in it is taken. -/
theorem generate_resolves_references
    (resolved : ((Resolve.resolve header oracle nodes).runOn { oracle := state }).1 = .ok graph)
    (grounded : Resolve.Grounded header oracle state nodes)
    (intact : Resolve.Intact header oracle state nodes nodes.length graph)
    (named : ∀ name ∈ graph.names, ∃ s, name = .str s) (patient : options.failFast = false)
    (start : Progress) :
    ∃ made, ((generate options graph).runOn start).1 = .ok made ∧ ReferencesResolve options graph made :=
  generate_anchored patient (Resolve.resolve_anchored resolved intact grounded)
    (Resolve.resolve_distinct resolved) named start

end

section
open Resolve Initializer

def referenceNode (name : String) : Json :=
  .obj [("kind", .str "DeclRefExpr"), ("referencedDecl", .obj [("name", .str name)])]

def constantNode (name : String) (inner : List Json) : Json :=
  .obj [("kind", .str "EnumConstantDecl"), ("name", .str name), ("inner", .arr inner)]

def enumNode (name : String) (inner : List Json) : Json :=
  .obj [("kind", .str "EnumDecl"), ("name", .str name), ("inner", .arr inner)]

theorem mentions_referenceNode {own : String} {name : Label} (mentions : Mentions (referenceNode own) name) :
    name = .str own := by
  cases mentions with
  | here _ refers named =>
    obtain rfl := Except.ok.inj refers
    exact (Except.ok.inj named).symm
  | inside held mentions =>
    obtain rfl := Except.ok.inj held
    cases mentions with
    | here kind => cases kind
    | inside held => cases held

theorem mentions_constantNode {own : String} {inner : List Json} {name : Label}
    (mentions : Mentions (constantNode own inner) name) : ∃ node ∈ inner, Mentions node name := by
  cases mentions with
  | here kind => exact absurd (Json.str.inj (Except.ok.inj kind)) (by decide)
  | inside held mentions =>
    obtain rfl := Except.ok.inj held
    cases mentions with
    | here kind => cases kind
    | inside held => cases held
    | item member mentions => exact ⟨_, member, mentions⟩

/-- An enum that refers to a constant of another one and to one of its own. -/
def tintNodes : List Json :=
  [enumNode "hue" [constantNode "red" []],
    enumNode "tint" [constantNode "pale" [referenceNode "red"], constantNode "deep" [referenceNode "pale"]]]

theorem declares_tintNodes {i : Nat} {node : Json} {name : Label}
    (declares : DeclaresEnum { parts := ["a.h"] } (sameSizes 8) () tintNodes i node name) :
    i = 0 ∧ node = enumNode "hue" [constantNode "red" []] ∧ name = .str "hue" ∨
      i = 1 ∧ name = .str "tint" ∧ node =
        enumNode "tint" [constantNode "pale" [referenceNode "red"], constantNode "deep" [referenceNode "pale"]] := by
  obtain ⟨adopted, named⟩ := declares.named
  have here := declares.here
  match i, here, named with
  | 0, here, named =>
    obtain rfl := Option.some.inj here
    obtain ⟨rfl, -⟩ := Prod.mk.inj (Except.ok.inj named)
    exact .inl ⟨rfl, rfl, rfl⟩
  | 1, here, named =>
    obtain rfl := Option.some.inj here
    obtain ⟨rfl, -⟩ := Prod.mk.inj (Except.ok.inj named)
    exact .inr ⟨rfl, rfl, rfl⟩
  | i + 2, here, _ => cases here

theorem grounded_tintNodes : Grounded { parts := ["a.h"] } (sameSizes 8) () tintNodes := by
  have hue : DeclaresEnum { parts := ["a.h"] } (sameSizes 8) () tintNodes 0
      (enumNode "hue" [constantNode "red" []]) (.str "hue") :=
    ⟨rfl, rfl, ⟨false, _, rfl, by decide +kernel⟩, ⟨false, rfl⟩, rfl⟩
  intro i node name declares
  rcases declares_tintNodes declares with ⟨rfl, rfl, rfl⟩ | ⟨rfl, rfl, rfl⟩
  · refine ⟨List.pairwise_singleton .., fun early member late cut _ constant mentions => ?_⟩
    match early, cut with
    | [], cut =>
      obtain ⟨rfl, -⟩ := List.cons.inj cut
      obtain ⟨node, member, -⟩ := mentions_constantNode mentions
      cases member
    | [_], cut => cases cut
  · refine ⟨by decide, fun early member late cut _ constant mentions => ?_⟩
    match early, cut with
    | [], cut =>
      obtain ⟨rfl, -⟩ := List.cons.inj cut
      obtain ⟨node, member, mentions⟩ := mentions_constantNode mentions
      obtain rfl := List.mem_singleton.mp member
      obtain rfl := mentions_referenceNode mentions
      exact .inr ⟨0, _, _, by omega, hue, List.mem_singleton.mpr rfl⟩
    | [first], cut =>
      obtain ⟨same, rest⟩ := List.cons.inj cut
      obtain ⟨rfl, -⟩ := List.cons.inj rest
      obtain ⟨node, member, mentions⟩ := mentions_constantNode mentions
      obtain rfl := List.mem_singleton.mp member
      obtain rfl := mentions_referenceNode mentions
      rw [← same]
      exact .inl (List.mem_singleton.mpr rfl)
    | [_, _], cut => cases cut

theorem texts_tint : ((graphOf 8 tintNodes).names.all fun name => name matches .str _) = true := by
  decide +kernel

theorem generate_resolves_references_tint :
    ∃ made, ((generate {} (graphOf 8 tintNodes)).runOn {}).1 = .ok made ∧
      ReferencesResolve {} (graphOf 8 tintNodes) made := by
  have intact : Intact { parts := ["a.h"] } (sameSizes 8) () tintNodes tintNodes.length (graphOf 8 tintNodes) := by
    intro j node name _ declares
    rcases declares_tintNodes declares with ⟨rfl, -, rfl⟩ | ⟨rfl, rfl, -⟩
    · exact ⟨by decide +kernel, fun k _ _ before => absurd before (by omega)⟩
    · refine ⟨by decide +kernel, fun k other earlier before declares => ?_⟩
      rcases declares_tintNodes declares with ⟨-, -, rfl⟩ | ⟨rfl, -⟩
      · decide
      · exact absurd before (by omega)
  have named : ∀ name ∈ (graphOf 8 tintNodes).names, ∃ s, name = .str s := by
    intro name member
    have text := List.all_eq_true.mp texts_tint name member
    cases name with
    | str s => exact ⟨s, rfl⟩
    | _ => cases text
  exact generate_resolves_references (resolve_eq_graphOf (by decide +kernel)) grounded_tintNodes intact named rfl {}

/-- A keyword of the module as a constant, with a line of its own and one that refers to it. -/
theorem generate_reference_misspelled :
    let nodes := [enumNode "tint" [constantNode "lambda" [], constantNode "deep" [referenceNode "lambda"]]]
    ((resolve { parts := ["a.h"] } (sameSizes 8) nodes).runOn { oracle := () }).1 = .ok (graphOf 8 nodes) ∧
      (((generate {} (graphOf 8 nodes)).runOn {}).1.toOption.map fun made => (made.fragments.drop 142).take 3) =
        some [classLine {} "tint", memberLine {} "lambda_" "0", memberLine {} "deep" "lambda"] :=
  ⟨resolve_eq_graphOf (by decide +kernel), by decide +kernel⟩

end

end Emit

end NativeBindings
