import NativeBindings.Proofs.Resolve.LaterWins
import NativeBindings.Proofs.SpelledTypes

/-!
Pointer spellings that a typedef was declared from. Such a spelling is read as a reference to a declared
pointer if its base is a declared name that stands for itself. The bases of declared pointers are compared
by the names of what they became, so a base that is a synonym of the language or a pointer spelling is not
found again.
-/
namespace NativeBindings

namespace CType

/-- What a pointer points to or a synonym of the language stands for. -/
def aim : CType → Option CType
  | synonym _ target true => some target
  | pointer _ base _ => base
  | _ => none

variable {type : CType}

theorem use_eq (plain : type.isTransparent = false) :
    type.use = synonym { name := type.name, size := type.size } type false := by
  cases type with
  | synonym _ _ transparent =>
    obtain rfl : transparent = false := plain
    rfl
  | _ => rfl

theorem name_use (plain : type.isTransparent = false) : type.use.name = type.name := by
  rw [use_eq plain]
  rfl

theorem aim_transparent (transparent : type.isTransparent = true) : type.aim = some type.use := by
  cases type with
  | synonym _ _ own =>
    obtain rfl : own = true := transparent
    rfl
  | _ => cases transparent

theorem aim_withHeader (new : Header) (type : CType) : (type.withHeader new).aim = type.aim := by
  cases type with
  | synonym _ _ transparent => cases transparent <;> rfl
  | _ => rfl

@[simp] theorem aim_numbered (number : Nat) (type : CType) : (type.numbered number).aim = type.aim := by
  unfold numbered
  split
  · rfl
  · apply aim_withHeader

end CType

namespace Graph

variable {graph : Graph} {base : Label} {isConst : Bool} {type : CType}

theorem isPointerTo_iff : isPointerTo base isConst type = true ↔ ∃ header target,
    type = .pointer header (some target) isConst ∧ header.name.isNull = false ∧
      (target.name == base) = true := by
  constructor
  · intro holds
    unfold isPointerTo at holds
    split at holds
    next header target const =>
      simp only [Bool.and_eq_true, Bool.not_eq_true', beq_iff_eq] at holds
      obtain ⟨⟨named, called⟩, rfl⟩ := holds
      exact ⟨header, target, rfl, named, called⟩
    · cases holds
  · rintro ⟨header, target, rfl, named, called⟩
    simp [isPointerTo, named, called]

end Graph

namespace Spelling

/-- The spelling of an array ends in a bracket. -/
theorem parse_array_last {text element : String} {length : Nat}
    (parsed : parse text = .ok (.array element length)) :
    (Text.stripped text).toList.getLast? = some ']' := by
  cases array : array? [] (Text.trim text.toList) with
  | some found =>
    rw [Text.stripped, String.toList_ofList]
    exact array?_last array
  | none =>
    have plain : ∀ base isConst, parse text ≠ .ok (.pointer base isConst) := by
      intro base isConst pointer
      cases parsed.symm.trans pointer
    rcases parse_eq array plain with named | same
    · cases parsed.symm.trans named
    · rw [parse, array, same] at parsed
      cases parsed

namespace Name

variable (name : Name)

theorem text_not_mem {c : Char} (mark : c ∈ marks) : c ∉ name.text.toList := by
  rw [text, String.toList_ofList]
  exact name.chars_not_mem mark

theorem normal_text : normal name.text = name.text := by
  have untagged := ({ name with tag := none } : Name).normalChars_spelling
  rw [normal, text, String.toList_ofList]
  exact congrArg String.ofList untagged

theorem last_text : name.text.toList.getLast? ≠ some ']' := by
  intro last
  exact name.text_not_mem (by decide) (List.mem_of_getLast? last)

theorem not_isComposite : Resolve.isComposite name.text = false := by
  have star : '*' ∉ name.text.toList := name.text_not_mem (by decide)
  simp [Resolve.isComposite, star, name.last_text]

end Name

/-- The base of a pointer is a name without its tag, or ends in a star. -/
theorem Pointer.base_eq {pointer : Pointer} {base : String} {isConst : Bool}
    (parsed : parse (String.ofList pointer.spelling) = .ok (.pointer base isConst)) :
    (∃ name, pointer = .toName name isConst ∧ base = name.text) ∨
      (∃ target, pointer = .toPointer target) ∧ base.toList.getLast? = some '*' := by
  cases pointer with
  | toName name own =>
    left
    rw [Pointer.parse_spelling, Pointer.spelling] at parsed
    have shape := Except.ok.inj parsed
    cases own with
    | false =>
      obtain ⟨rfl, rfl⟩ := Shape.pointer.inj (name.parseSingle_pointer.symm.trans shape)
      exact ⟨name, rfl, rfl⟩
    | true =>
      rw [if_pos rfl, List.append_assoc, name.parseSingle_const] at shape
      split at shape
      · cases shape
      · obtain ⟨rfl, rfl⟩ := Shape.pointer.inj shape
        exact ⟨name, rfl, rfl⟩
  | toPointer target =>
    right
    rw [Pointer.parse_spelling, Pointer.spelling, target.parseSingle_star] at parsed
    obtain ⟨rfl, -⟩ := Shape.pointer.inj (Except.ok.inj parsed)
    obtain ⟨front, ends⟩ := target.untagged.ends
    exact ⟨⟨target, rfl⟩, by simp [ends]⟩

end Spelling

namespace Resolve

open Json Act Outcome

/-- Whether a type that goes by a text stands for what is declared under it, and for no earlier
declaration if the text is one of those that are declared once. The name of an array is its spelling. -/
def Traced (single : String → Prop) (graph : Graph) (type : CType) : Prop :=
  ∀ base, type.name = .str base → base.toList.getLast? ≠ some ']' →
    ∃ entry, graph.find? (.str base) = some entry ∧ entry.isTransparent = false ∧
      (single base → type = entry ∨ type = entry.use)

/-- Whether declarations go by their names and all that they aim at can be traced. -/
structure Traceable (single : String → Prop) (graph : Graph) : Prop where
  distinct : graph.Distinct
  own : ∀ name type, (name, type) ∈ graph.declarations → type.name = name
  text : ∃ entry, graph.find? (.str Seed.cstring) = some entry ∧ entry.isTransparent = false
  aims : ∀ name type, (name, type) ∈ graph.declarations → ∀ target ∈ type.aim, Traced single graph target

/-- An event declares a name, if it does, for the first time. -/
def Event.IsFirst (event : Event) (name : Label) (graph : Graph) : Prop :=
  ∀ own type, event.entry? = some (own, type) → (own == name) = true → graph.has name = false

section
variable {single : String → Prop} {graph : Graph} {name : Label} {type target : CType} {text base : String}

theorem Traceable.own_text (traceable : Traceable single graph)
    (found : graph.find? (.str base) = some type) : type.name = .str base := by
  obtain ⟨own, same, member⟩ := Table.mem_of_find? found
  obtain rfl := (beq_str_iff own base).mp same
  exact traceable.own _ _ member

theorem Traceable.use (traceable : Traceable single graph) (member : (name, type) ∈ graph.declarations) :
    Traced single graph type.use := by
  cases transparent : type.isTransparent with
  | true => exact traceable.aims name type member _ (CType.aim_transparent transparent)
  | false =>
    intro base called _
    rw [CType.name_use transparent, traceable.own name type member] at called
    subst called
    exact ⟨type, Table.find?_of_mem traceable.distinct member, transparent, fun _ => .inr rfl⟩

theorem typeOf_traced (traceable : Traceable single graph) (found : typeOf graph text = .ok type) :
    Traced single graph type := by
  rw [typeOf, typeOfWith, if_neg (by decide)] at found
  split at found
  · cases found
  next element length parsed =>
    obtain ⟨item, -, found⟩ := bind_eq_ok.mp found
    obtain ⟨size, -, found⟩ := bind_eq_ok.mp found
    obtain rfl := pure_eq_ok.mp found
    intro base called last
    obtain rfl := str.inj called
    exact absurd (Spelling.parse_array_last parsed) last
  next =>
    intro base called _
    obtain ⟨entry, declared, plain⟩ := traceable.text
    have same : graph.find (.str Seed.cstring) = .ok entry := by
      simp [Graph.find, asKey, declared, bind, Except.bind, pure, Except.pure]
    obtain rfl := Except.ok.inj (same.symm.trans found)
    rw [traceable.own_text declared] at called
    obtain rfl := str.inj called
    exact ⟨entry, declared, plain, fun _ => .inl rfl⟩
  · split at found
    next declared same =>
      obtain ⟨own, member⟩ := Graph.findPointer_eq_some same
      obtain rfl := Except.ok.inj found
      exact traceable.use member
    next =>
      obtain ⟨target, -, found⟩ := bind_eq_ok.mp found
      obtain rfl := pure_eq_ok.mp found
      intro base called
      cases called
  · obtain ⟨node, declared, rfl⟩ := map_eq_ok.mp found
    obtain ⟨own, member⟩ := Graph.find_eq_ok declared
    exact traceable.use member

theorem pointeeOf_traced (traceable : Traceable single graph)
    (found : pointeeOf graph base = .ok (some target)) : Traced single graph target := by
  unfold pointeeOf pointeeBy at found
  split at found
  · obtain ⟨type, read, same⟩ := map_eq_ok.mp found
    obtain rfl := Option.some.inj same
    exact typeOf_traced traceable read
  · dsimp only at found
    split at found
    · obtain ⟨type, used, same⟩ := map_eq_ok.mp found
      obtain rfl := Option.some.inj same
      obtain ⟨node, declared, rfl⟩ := map_eq_ok.mp used
      obtain ⟨own, member⟩ := Graph.find_eq_ok declared
      exact traceable.use member
    · cases found

/-- A type remains traced when a name is declared, unless the name should be declared once. -/
theorem Traced.enter (traced : Traced single graph target) (plain : type.isTransparent = false)
    (first : ∀ base, single base → (name == .str base) = true → graph.has (.str base) = false) :
    Traced single (graph.enter (name, type)) target := by
  intro base called last
  obtain ⟨entry, declared, opaque_, stands⟩ := traced base called last
  cases same : name == .str base with
  | false =>
    rw [Graph.find?_enter_of_ne same]
    exact ⟨entry, declared, opaque_, stands⟩
  | true =>
    rw [Graph.find?_enter_of_same same]
    refine ⟨_, rfl, by simpa using plain, fun once => ?_⟩
    have absent := first base once same
    rw [Graph.has, Table.has] at absent
    rw [Graph.find?] at declared
    rw [declared] at absent
    cases absent

theorem Traceable.enter (traceable : Traceable single graph) (declarable : Declarable name type)
    (aims : ∀ target ∈ type.aim, Traced single graph target)
    (first : ∀ base, single base → (name == .str base) = true → graph.has (.str base) = false) :
    Traceable single (graph.enter (name, type)) := by
  have entries {own : Label} {node : CType} (member : (own, node) ∈ (graph.enter (name, type)).declarations) :
      (own, node) ∈ graph.declarations ∨ own = name ∧ node = type.numbered graph.issued := by
    rw [declarations_enter] at member
    rcases List.mem_append.mp member with old | new
    · exact .inl (List.mem_of_mem_filter old)
    · exact .inr (Prod.mk.inj (List.mem_singleton.mp new))
  refine ⟨traceable.distinct.enter (name, type), ?_, ?_, ?_⟩
  · intro own node member
    rcases entries member with old | ⟨rfl, rfl⟩
    · exact traceable.own own node old
    · rw [CType.name_numbered, declarable.own]
  · obtain ⟨entry, declared, opaque_⟩ := traceable.text
    cases same : name == .str Seed.cstring with
    | false => exact ⟨entry, by rw [Graph.find?_enter_of_ne same, declared], opaque_⟩
    | true => exact ⟨_, Graph.find?_enter_of_same same type, by simpa using declarable.plain⟩
  · intro own node member target aimed
    rcases entries member with old | ⟨-, rfl⟩
    · exact (traceable.aims own node old target aimed).enter declarable.plain first
    · rw [CType.aim_numbered] at aimed
      exact (aims target aimed).enter declarable.plain first

end

section
variable {σ : Type} {oracle : Layout.Oracle σ} {nodes : List Json} {next following : Option Json}
  {node : Json} {graph : Graph} {name : Label} {type : CType} {single : String → Prop}

theorem RecordBuilds.declarable {layout own : Label}
    (builds : RecordBuilds oracle node name layout graph own type) :
    Declarable own type ∧ type.aim = none := by
  induction builds with
  | own => exact ⟨⟨rfl, rfl, nofun⟩, rfl⟩
  | nested _ _ _ ih => exact ih

theorem Builds.declarable (builds : Builds oracle following node graph name type) :
    Declarable name type := by
  cases builds with
  | @enum _ _ nodes _ start after _ _ _ _ evaluated =>
    have made : Gives (fun type _ => Declarable name type) (Resolve.enum name nodes) start :=
      (gives_any _ _).then fun _ _ _ => gives_pure ⟨rfl, rfl, nofun⟩
    exact made.of_run evaluated
  | record _ _ _ _ builds => exact builds.declarable.1
  | synonym => exact declarable_aliasOf _ _
  | pointer => exact ⟨rfl, rfl, nofun⟩
  | callback _ _ _ found => exact callback_declarable found
  | function _ _ found => exact signature_declarable found

/-- What a node declares as a pointer points to what a base denotes. -/
theorem Builds.aim (builds : Builds oracle following node graph name type) :
    ∀ target ∈ type.aim, ∃ base, pointeeOf graph base = .ok (some target) := by
  cases builds with
  | @enum _ _ nodes _ start after _ _ _ _ evaluated =>
    have made : Gives (fun type _ => type.aim = none) (Resolve.enum name nodes) start :=
      (gives_any _ _).then fun _ _ _ => gives_pure rfl
    simp [made.of_run evaluated]
  | record _ _ _ _ builds => simp [builds.declarable.2]
  | synonym => simp [Registry.aliasOf, CType.aim]
  | pointer _ _ _ _ found =>
    intro target aimed
    obtain rfl : _ = some target := aimed
    exact ⟨_, found⟩
  | callback _ _ _ found =>
    obtain ⟨result, parameters, rfl⟩ := callback_eq_ok found
    simp [CType.aim]
  | function _ _ found =>
    obtain ⟨result, parameters, rfl⟩ := signature_eq_ok found
    simp [CType.aim]

theorem Traceable.congr {before after : Graph} (declarations : after.declarations = before.declarations)
    (traceable : Traceable single before) : Traceable single after := by
  obtain ⟨_, _, _, _⟩ := before
  obtain ⟨_, _, _, _⟩ := after
  obtain rfl := declarations
  exact ⟨traceable.distinct, traceable.own, traceable.text, traceable.aims⟩

theorem Desk.Step.traceable {before after : Desk} {event : Event} (step : Desk.Step before event after)
    (fit : FitsIn oracle nodes next before.registry.graph event)
    (first : ∀ base, single base → event.IsFirst (.str base) before.registry.graph)
    (traceable : Traceable single before.registry.graph) : Traceable single after.registry.graph := by
  cases step with
  | declare registry name type =>
    obtain ⟨node, -, following, -, builds⟩ := fit
    refine traceable.enter (Builds.declarable builds) (fun target aimed => ?_) fun base once =>
      first base once _ _ rfl
    obtain ⟨base, found⟩ := Builds.aim builds target aimed
    exact pointeeOf_traced traceable found
  | wake registry due rest =>
    exact Traceable.enter traceable (declarable_aliasOf _ _) (by simp [Registry.aliasOf, CType.aim])
      fun base once => first base once _ _ rfl
  | defer => exact traceable
  | mark declarations => exact traceable.congr declarations

/-- Fit events of which some names are declared by no more than one. -/
def FitsOnce (oracle : Layout.Oracle σ) (nodes : List Json) (next : Option Json) (single : String → Prop)
    (graph : Graph) (event : Event) : Prop :=
  FitsIn oracle nodes next graph event ∧ ∀ base, single base → event.IsFirst (.str base) graph

theorem Desk.Runs.traceable {before after : Desk} {events : List Event}
    (run : Desk.Runs (FitsOnce oracle nodes next single) before events after)
    (start : Traceable single before.registry.graph) : Traceable single after.registry.graph :=
  run.keeps (P := fun desk => Traceable single desk.registry.graph)
    (fun _ step fit traceable => step.traceable fit.1 fit.2 traceable) start

theorem sow_traceable : Traceable single (Seed.sow {}) := by
  have named : ((Seed.sow {}).declarations.all fun entry => decide (entry.2.name = entry.1)) = true := by
    decide +kernel
  have aimed : ((Seed.sow {}).declarations.all fun entry => entry.2.aim.all fun target =>
      decide ((Seed.sow {}).find? target.name = some target) && !target.isTransparent) = true := by
    decide +kernel
  have text : ((Seed.sow {}).find? (.str Seed.cstring)).any (fun entry => !entry.isTransparent) = true := by
    decide +kernel
  refine ⟨(sow_leads Graph.sound_empty).distinct List.Pairwise.nil, ?_, ?_, ?_⟩
  · intro name type member
    exact of_decide_eq_true (List.all_eq_true.mp named _ member)
  · obtain ⟨entry, declared, plain⟩ := (Option.any_eq_true _ _).mp text
    exact ⟨entry, declared, by simpa using plain⟩
  · intro name type member target aims base called _
    have known := (Option.all_eq_true _ _).mp (List.all_eq_true.mp aimed _ member) target aims
    rw [Bool.and_eq_true, decide_eq_true_eq, called] at known
    exact ⟨target, known.1, by simpa using known.2, fun _ => .inl rfl⟩

/-- A declaration stays where it is while its name is not declared again, and what stands before it stood
there when it was made. -/
theorem Desk.Runs.stands {fits : Graph → Event → Prop} {before after : Desk} {number : Nat}
    {later : List Event} (run : Desk.Runs fits before (.declare name type number :: later) after)
    (kept : ∀ event ∈ later, ∀ own other, event.entry? = some (own, other) → (own == name) = false) :
    ∃ front back, after.registry.graph.declarations = front ++ (name, type.numbered number) :: back ∧
      front ⊆ before.registry.graph.declarations := by
  cases run with
  | @cons _ between _ _ _ step _ rest =>
  refine rest.keeps (P := fun desk => ∃ front back,
    desk.registry.graph.declarations = front ++ (name, type.numbered number) :: back ∧
      front ⊆ before.registry.graph.declarations) ?_ ?_
  · rintro desk event last member step - ⟨front, back, cut, old⟩
    have enters {registry : Registry} {own : Label} {other : CType}
        (cut : registry.graph.declarations = front ++ (name, type.numbered number) :: back)
        (apart : (own == name) = false) : ∃ front back,
          (registry.graph.enter (own, other)).declarations = front ++ (name, type.numbered number) :: back ∧
            front ⊆ before.registry.graph.declarations := by
      have differs : (name == own) = false := by rw [BEq.comm, apart]
      rw [declarations_enter, cut, Table.erase_append_cons differs, List.append_assoc, List.cons_append]
      exact ⟨_, _, rfl, fun _ inside => old (List.mem_of_mem_filter inside)⟩
    cases step with
    | declare registry own other => exact enters cut (kept _ member _ _ rfl)
    | wake registry due rest => exact enters cut (kept _ member _ _ rfl)
    | defer => exact ⟨front, back, cut, old⟩
    | mark declarations => exact ⟨front, back, declarations.trans cut, old⟩
  · cases step with
    | declare registry =>
      exact ⟨Table.erase name registry.graph.declarations, [], declarations_enter _ _ _,
        List.filter_subset_self _⟩

theorem Desk.Runs.keeps_entry {fits : Graph → Event → Prop} {before after : Desk} {events : List Event}
    (run : Desk.Runs fits before events after)
    (kept : ∀ event ∈ events, ∀ own other, event.entry? = some (own, other) → (own == name) = false) :
    after.registry.graph.find? name = before.registry.graph.find? name := by
  refine run.keeps (P := fun desk => desk.registry.graph.find? name = before.registry.graph.find? name)
    (fun {desk event last} member step _ same => ?_) rfl
  cases step with
  | declare registry own other => exact (Graph.find?_enter_of_ne (kept _ member _ _ rfl) _).trans same
  | wake registry due rest => exact (Graph.find?_enter_of_ne (kept _ member _ _ rfl) _).trans same
  | defer => exact same
  | mark declarations => exact (congrArg (Table.find? name) declarations).trans same

end

section
variable {graph : Graph} {text base : String} {isConst : Bool}
  (parsed : Spelling.parse text = .ok (.pointer base isConst))
include parsed

theorem typeOf_declared_pointer {declared : CType} (found : graph.findPointer (.str base) isConst = some declared) :
    typeOf graph text = .ok declared.use := by
  rw [typeOf, typeOfWith, if_neg (by decide), parsed]
  dsimp only
  rw [found]

theorem typeOf_new_pointer (absent : graph.findPointer (.str base) isConst = none) :
    typeOf graph text = do
      let target ← pointeeBy (typeOfWith graph text.length 3) graph base
      return .pointer { name := .null, size := CType.pointerSize } target isConst := by
  rw [typeOf, typeOfWith, if_neg (by decide), parsed]
  dsimp only
  rewrite [absent]
  rfl

end

/-- A spelling is read as a reference to a declared pointer to a target. -/
def RefersTo (graph : Graph) (text : String) (target : CType) (isConst : Bool) : Prop :=
  ∃ own header, header.name.isNull = false ∧
    (own, .pointer header (some target) isConst) ∈ graph.declarations ∧
      typeOf graph text = .ok (CType.pointer header (some target) isConst).use

theorem RefersTo.named {graph : Graph} {text : String} {target type : CType} {isConst : Bool}
    (refers : RefersTo graph text target isConst) (read : typeOf graph text = .ok type) :
    type.name.isNull = false := by
  obtain ⟨own, header, given, -, same⟩ := refers
  obtain rfl := Except.ok.inj (same.symm.trans read)
  exact given

/-- Whether a base is declared and no synonym of the language. -/
def IsDeclared (graph : Graph) (base : String) : Prop :=
  ∃ entry, graph.find? (.str base) = some entry ∧ entry.isTransparent = false

/-- From a desk on a typedef is declared as a pointer to what a spelling points to. Neither its name nor that
of the pointee is declared again. -/
structure PointsOn {σ : Type} (oracle : Layout.Oracle σ) (nodes : List Json) (next : Option Json)
    (pointer : Spelling.Pointer) (base : String) (isConst : Bool) (name : Label) (target : CType)
    (start : Desk) (number : Nat) (later : List Event) (now : Desk) : Prop where
  parsed : Spelling.parse (String.ofList pointer.spelling) = .ok (.pointer base isConst)
  known : pointeeOf start.registry.graph base = .ok (some target)
  named : name.isNull = false
  apart : (name == .str base) = false
  run : Desk.Runs (FitsIn oracle nodes next) start
    (.declare name (.pointer { name, size := CType.pointerSize } (some target) isConst) number :: later) now
  kept : ∀ event ∈ later, ∀ own type, event.entry? = some (own, type) →
    (own == name) = false ∧ (own == .str base) = false

section
variable {σ : Type} {oracle : Layout.Oracle σ} {nodes : List Json} {next : Option Json}
  {pointer : Spelling.Pointer} {base : String} {isConst : Bool} {name : Label} {target : CType}
  {start now : Desk} {number : Nat} {later : List Event}

/-- A known name that is no synonym of the language denotes a use of its declaration. -/
theorem pointeeOf_declared {graph : Graph} {entry : CType} (word : Spelling.Name)
    (declared : graph.find? (.str word.text) = some entry) :
    pointeeOf graph word.text = .ok (some entry.use) := by
  have present : graph.has (.str word.text) = true := by
    rw [Graph.has, Table.has]
    rw [Graph.find?] at declared
    rw [declared]
    rfl
  rw [pointeeOf, pointeeBy, word.not_isComposite, if_neg (by simp), word.normal_text]
  dsimp only
  rw [if_pos present, Graph.use_text, declared]
  rfl

/-- The first declared pointer with a base is the one that was declared from the spelling, or one that was
declared before. -/
theorem PointsOn.findPointer
    (points : PointsOn oracle nodes next pointer base isConst name target start number later now)
    (called : target.name = .str base) :
    ∃ own header found, header.name.isNull = false ∧
      now.registry.graph.findPointer (.str base) isConst = some (.pointer header (some found) isConst) ∧
      (own, .pointer header (some found) isConst) ∈ now.registry.graph.declarations ∧
      found.name = .str base ∧
      (found = target ∨ (own, .pointer header (some found) isConst) ∈ start.registry.graph.declarations) := by
  obtain ⟨front, back, cut, old⟩ := points.run.stands fun event member own type entry =>
    (points.kept event member own type entry).1
  obtain ⟨header, same, given⟩ : ∃ header : Header,
      (CType.pointer { name, size := CType.pointerSize } (some target) isConst).numbered number =
        .pointer header (some target) isConst ∧ header.name = name := ⟨_, rfl, rfl⟩
  rw [same] at cut
  have own : Graph.isPointerTo (.str base) isConst (.pointer header (some target) isConst) = true := by
    refine Graph.isPointerTo_iff.mpr ⟨header, target, rfl, ?_, ?_⟩
    · rw [given, points.named]
    · rw [called, BEq.rfl]
  have first : now.registry.graph.findPointer (.str base) isConst =
      ((Table.values front).find? (Graph.isPointerTo (.str base) isConst)).or
        (some (.pointer header (some target) isConst)) := by
    have cut' : Table.values now.registry.graph.declarations =
        Table.values front ++ .pointer header (some target) isConst :: Table.values back := by
      simp [Table.values, cut]
    rw [Graph.findPointer, cut', List.find?_append, List.find?_cons_of_pos own]
  cases earlier : (Table.values front).find? (Graph.isPointerTo (.str base) isConst) with
  | none =>
    rw [earlier, Option.none_or] at first
    have member : (name, .pointer header (some target) isConst) ∈ now.registry.graph.declarations := by
      simp [cut]
    exact ⟨name, header, target, by rw [given, points.named], first, member, called, .inl rfl⟩
  | some type =>
    rw [earlier, Option.some_or] at first
    obtain ⟨header, found, rfl, given, same⟩ := Graph.isPointerTo_iff.mp (List.find?_some earlier)
    obtain ⟨⟨own, _⟩, inside, rfl⟩ := List.mem_map.mp (List.mem_of_find?_eq_some earlier)
    have member : (own, .pointer header (some found) isConst) ∈ now.registry.graph.declarations := by
      rw [cut]
      exact List.mem_append_left _ inside
    exact ⟨own, header, found, given, first, member, (beq_str_iff _ _).mp same, .inr (old inside)⟩

/-- A pointer spelling that is spelled again refers to a declared pointer if its base is a declared name and
no synonym of the language, and to the same target if the base was declared once. Any other such spelling
is read as a pointer without a name, or not at all. -/
theorem pointer_spelled_again {state : σ} {early : List Event}
    (points : PointsOn oracle nodes next pointer base isConst name target start number later now)
    (before : Desk.Runs (FitsIn oracle nodes next) { registry := (opening state).registry } early start)
    (starless : '*' ∈ base.toList → now.registry.graph.has (.str base) = false) :
    (IsDeclared start.registry.graph base →
      ∃ found, RefersTo now.registry.graph (String.ofList pointer.spelling) found isConst ∧
        found.name = target.name ∧
          (Desk.Runs (FitsOnce oracle nodes next (· = base)) { registry := (opening state).registry } early
            start → found = target ∨ found.use = target)) ∧
      (¬ IsDeclared start.registry.graph base →
        ∀ type, typeOf now.registry.graph (String.ofList pointer.spelling) = .ok type → type.name = .null) := by
  have atStart : Traceable (fun _ => False) start.registry.graph :=
    Desk.Runs.traceable (before.mono fun _ _ fit => ⟨fit, fun _ => False.elim⟩) sow_traceable
  have atNow : Traceable (fun _ => False) now.registry.graph :=
    Desk.Runs.traceable (points.run.mono fun _ _ fit => ⟨fit, fun _ => False.elim⟩) atStart
  have entry : now.registry.graph.find? (.str base) = start.registry.graph.find? (.str base) := by
    refine points.run.keeps_entry fun event member own type declares => ?_
    rcases List.mem_cons.mp member with rfl | member
    · obtain ⟨rfl, -⟩ := Prod.mk.inj (Option.some.inj declares)
      exact points.apart
    · exact (points.kept event member own type declares).2
  constructor
  · rintro ⟨declaration, declared, plain⟩
    rcases Spelling.Pointer.base_eq points.parsed with ⟨word, -, rfl⟩ | ⟨-, last⟩
    · have denotes : target = declaration.use :=
        Option.some.inj (Except.ok.inj (points.known.symm.trans (pointeeOf_declared word declared)))
      have called : target.name = .str word.text := by
        rw [denotes, CType.name_use plain, atStart.own_text declared]
      obtain ⟨own, header, found, given, first, member, named, older⟩ := points.findPointer called
      refine ⟨found, ⟨own, header, given, member, ?_⟩, named.trans called.symm, fun once => ?_⟩
      · exact typeOf_declared_pointer points.parsed first
      · rcases older with same | old
        · exact .inl same
        · -- An older pointer is to the same declaration, as there is no other of the name.
          have aims := (once.traceable sow_traceable).aims own _ old found rfl
          obtain ⟨present, there, -, stands⟩ := aims _ named (word.last_text)
          obtain rfl := Option.some.inj (declared.symm.trans there)
          rw [denotes]
          exact (stands rfl).symm.imp id fun same => by rw [same]
    · have present : now.registry.graph.has (.str base) = true := by
        rw [Graph.has, Table.has, ← Graph.find?, entry, declared]
        rfl
      rw [starless (List.mem_of_getLast? last)] at present
      cases present
  · intro other type found
    cases first : now.registry.graph.findPointer (.str base) isConst with
    | some pointed =>
      rw [typeOf_declared_pointer points.parsed first] at found
      obtain rfl := Except.ok.inj found
      obtain ⟨header, aim, rfl, -, called⟩ := Graph.isPointerTo_iff.mp (List.find?_some first)
      obtain ⟨own, member⟩ := Graph.findPointer_eq_some first
      have last : base.toList.getLast? ≠ some ']' := by
        rcases Spelling.Pointer.base_eq points.parsed with ⟨word, -, rfl⟩ | ⟨-, last⟩
        · exact word.last_text
        · simp [last]
      obtain ⟨declaration, declared, plain, -⟩ :=
        atNow.aims own _ member aim rfl base ((beq_str_iff _ _).mp called) last
      exact absurd ⟨declaration, entry ▸ declared, plain⟩ other
    | none =>
      rw [typeOf_new_pointer points.parsed first] at found
      obtain ⟨aim, -, found⟩ := bind_eq_ok.mp found
      obtain rfl := pure_eq_ok.mp found
      rfl

/-- A word, spelled without a tag. -/
def wordName (word : String) (isWord : Spelling.isWord word.toList = true)
    (free : word.toList ∉ Spelling.keptWords) : Spelling.Name :=
  { tag := none, first := { chars := word.toList, isWord, free }, rest := [] }

theorem pointer_spelled_again_ticks :
    let pointer := Spelling.Pointer.toName (wordName "int32_t" (by decide +kernel) (by decide)) false
    let start : Desk := { registry := (opening ()).registry }
    ∃ target number now, PointsOn (answering outerAnswers) [typedefNode "ticks" "int32_t *"] none pointer
        "int32_t" false (.str "ticks") target start number [] now ∧
      Desk.Runs (FitsIn (answering outerAnswers) [typedefNode "ticks" "int32_t *"] none) start [] start ∧
      ('*' ∈ "int32_t".toList → now.registry.graph.has (.str "int32_t") = false) ∧
      ∃ found, RefersTo now.registry.graph "int32_t *" found false ∧
        found.name = .str "int32_t" ∧ (found = target ∨ found.use = target) := by
  intro pointer start
  have known : (start.registry.graph.find? (.str "int32_t")).any (fun entry => !entry.isTransparent) = true := by
    decide +kernel
  obtain ⟨entry, declared, plain⟩ := (Option.any_eq_true _ _).mp known
  have called : (wordName "int32_t" (by decide +kernel) (by decide)).text = "int32_t" := by decide +kernel
  have spelled : String.ofList pointer.spelling = "int32_t *" := by decide +kernel
  have parsed : Spelling.parse (String.ofList pointer.spelling) = .ok (.pointer "int32_t" false) := by
    rw [spelled]
    decide +kernel
  have found : pointeeOf start.registry.graph "int32_t" = .ok (some entry.use) := by
    rw [← called] at declared ⊢
    exact pointeeOf_declared _ declared
  have builds : Builds (answering outerAnswers) none (typedefNode "ticks" "int32_t *") start.registry.graph
      (.str "ticks") (.pointer { name := .str "ticks", size := CType.pointerSize } (some entry.use) false) :=
    .pointer rfl rfl rfl (spelled ▸ parsed) found
  have points : PointsOn (answering outerAnswers) [typedefNode "ticks" "int32_t *"] none pointer "int32_t" false
      (.str "ticks") entry.use start start.registry.graph.issued []
      (start.enter (.str "ticks")
        (.pointer { name := .str "ticks", size := CType.pointerSize } (some entry.use) false)) := by
    refine ⟨parsed, found, rfl, by decide, ?_, by simp⟩
    exact .cons (.declare _ _ _) ⟨_, List.mem_singleton_self _, none, by simp, builds⟩ (.nil _)
  have starless : '*' ∉ "int32_t".toList := by decide
  have reads := pointer_spelled_again points (.nil _) fun star => absurd star starless
  obtain ⟨aim, refers, named, same⟩ := reads.1 ⟨entry, declared, by simpa using plain⟩
  have traceable : Traceable (fun _ => False) (Seed.sow {}) := sow_traceable
  have own : entry.name = .str "int32_t" := traceable.own_text declared
  refine ⟨entry.use, _, _, points, .nil _, fun star => absurd star starless, aim, spelled ▸ refers, ?_,
    same (.nil _)⟩
  rw [named, CType.name_use (by simpa using plain), own]

/-- Neither a pointer to a synonym of the language nor a pointer to a pointer is found again. -/
theorem pointer_spelled_anew :
    ∃ graph, ((resolve { parts := ["a.h"] } (answering outerAnswers) [typedefNode "ticks" "int *",
        typedefNode "rows" "float **"]).runOn { oracle := () }).1 = .ok graph ∧
      (∃ header target, graph.find? (.str "ticks") = some (.pointer header (some target) false) ∧
        header.name.isNull = false ∧ ¬ RefersTo graph "int *" target false) ∧
      (∃ header target, graph.find? (.str "rows") = some (.pointer header (some target) false) ∧
        header.name.isNull = false ∧ ¬ RefersTo graph "float **" target false) := by
  have fine : ((resolve { parts := ["a.h"] } (answering outerAnswers) [typedefNode "ticks" "int *",
      typedefNode "rows" "float **"]).runOn { oracle := () }).1.toOption.any (fun graph =>
        (graph.find? (.str "ticks")).any (Graph.isPointerTo (.str "int32_t") false) &&
          (graph.find? (.str "rows")).any (Graph.isPointerTo .null false) &&
          (typeOf graph "int *").toOption.any (·.name.isNull) &&
          (typeOf graph "float **").toOption.any (·.name.isNull)) = true := by
    decide +kernel
  obtain ⟨graph, resolved, holds⟩ := (Option.any_eq_true _ _).mp fine
  simp only [Bool.and_eq_true] at holds
  obtain ⟨⟨⟨ticks, rows⟩, toInt⟩, toFloat⟩ := holds
  have pointed {name base : Label} (declared : (graph.find? name).any (Graph.isPointerTo base false) = true)
      {text : String} (unnamed : (typeOf graph text).toOption.any (·.name.isNull) = true) :
      ∃ header target, graph.find? name = some (.pointer header (some target) false) ∧
        header.name.isNull = false ∧ ¬ RefersTo graph text target false := by
    obtain ⟨type, found, pointer⟩ := (Option.any_eq_true _ _).mp declared
    obtain ⟨header, target, rfl, given, -⟩ := Graph.isPointerTo_iff.mp pointer
    refine ⟨header, target, found, given, fun refers => ?_⟩
    obtain ⟨type, read, null⟩ := (Option.any_eq_true _ _).mp unnamed
    rw [refers.named (toOption_eq_some.mp read)] at null
    cases null
  exact ⟨graph, toOption_eq_some.mp resolved, pointed ticks toInt, pointed rows toFloat⟩

end

end Resolve

end NativeBindings
