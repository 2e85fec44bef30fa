import Mathlib.Data.List.Nodup
import NativeBindings.Proofs.Emit.Callables
import NativeBindings.Proofs.Emit.NameForms

/-!
The arguments of a callable. A record that is given as a dictionary is put into memory wherever a
pointer ends in it, over however many levels, though native code takes the memory for what the first
level points at.
-/
namespace NativeBindings

namespace CType

/-- How many pointers stand between a type and what it ends in. -/
def levels : CType → Nat
  | synonym _ target _ => target.levels
  | pointer _ (some base) _ => base.levels + 1
  | _ => 0

theorem levels_unaliased (type : CType) : type.unaliased.levels = type.levels := by
  induction type using CType.unaliased.induct with
  | case1 header target transparent ih => exact ih
  | case2 type other => rw [CType.unaliased.eq_2 type other]

/-- Whether a type is a pointer to a record itself, aliases apart. -/
def PointsAt (type record : CType) : Prop :=
  ∃ header base isConst, type.unaliased = .pointer header (some base) isConst ∧ base.unaliased = record

/-- Without a pointer on the way, a type ends where its aliases do. -/
theorem pointee_of_level (type : CType) (none : type.levels = 0) : type.pointee = type.unaliased := by
  induction type using CType.pointee.induct with
  | case1 header target transparent ih => exact ih none
  | case2 header base isConst ih => cases none
  | case3 type other pointer => rw [CType.pointee.eq_3 type other pointer, CType.unaliased.eq_2 type other]

/-- The first level of a type that has one. -/
theorem unaliased_of_levels (type : CType) {level : Nat} (has : type.levels = level + 1) :
    ∃ header base isConst, type.unaliased = .pointer header (some base) isConst ∧
      base.levels = level ∧ base.pointee = type.pointee := by
  induction type using CType.unaliased.induct with
  | case1 header target transparent ih => exact ih has
  | case2 type other =>
    rw [CType.unaliased.eq_2 type other]
    cases type with
    | synonym header target transparent => exact (other header target transparent rfl).elim
    | pointer header base isConst =>
      cases base with
      | none => cases has
      | some base => exact ⟨header, base, isConst, rfl, Nat.succ.inj has, rfl⟩
    | _ => cases has

end CType

namespace Emit

open Outcome

section
variable {options : Options} {known : List Marshaler} {index : Nat} {parameter : Parameter CType}
  {made : Argument}

/-- An argument that is passed on as it is given. -/
def unprepared (index : Nat) (parameter : Parameter CType) : Except Fault Argument := do
  let passed ← argumentName index parameter.name
  return { name := passed.plain, hint := ← hint parameter.type, passed }

/-- The name of what is passed on in the place of an argument. -/
def Argument.temporary (argument : Argument) : String := "_" ++ argument.name

/-- The lines that turn an argument into the address of a function of this type. -/
def addressSteps (made : Argument) (type : String) : List (List Piece) :=
  [[.text (made.temporary ++ " = _callback_address(" ++ type ++ ", " ++ made.name ++ ")")]]

/-- Whether an argument of this type is prepared. -/
def prepares (options : Options) (type : CType) : Bool :=
  match type.unaliased with
  | .callback _ _ _ _ => true
  | .pointer _ _ _ =>
    match type.pointee with
    | .record header _ => options.writers && !header.name.isNull
    | _ => false
  | _ => false

/-- Whether an argument is put into memory as the record with this header. -/
def Stores (options : Options) (made : Argument) (header : Header) : Prop :=
  ∃ target size, identText header.name = .ok target ∧ Amount.written header.size = .ok size ∧
    made.steps = recordSteps options made.name target size

/-- What an argument passes on: what it is given, or what it makes of it. -/
inductive Passes (options : Options) (type : CType) (made : Argument) : Prop
  | given (plain : prepares options type = false) (idle : made.steps = [])
      (passed : made.passed.plain = made.name)
  | address (prepared : prepares options type = true) (text : String)
      (steps : made.steps = addressSteps made text) (passed : made.passed.plain = made.temporary)
  | record (prepared : prepares options type = true) (header : Header) (fields : List (Field CType))
      (behind : type.pointee = .record header fields) (stores : Stores options made header)
      (passed : made.passed.plain = made.temporary)

theorem unprepared_eq_ok : unprepared index parameter = .ok made ↔
    ∃ passed hinted, argumentName index parameter.name = .ok passed ∧ hint parameter.type = .ok hinted ∧
      made = { name := passed.plain, hint := hinted, passed } := by
  unfold unprepared
  simp only [bind_eq_ok, pure_eq_ok]
  constructor
  · rintro ⟨passed, named, hinted, known, rfl⟩
    exact ⟨passed, hinted, named, known, rfl⟩
  · rintro ⟨passed, hinted, named, known, rfl⟩
    exact ⟨passed, named, hinted, known, rfl⟩

/-- What becomes of an argument that crosses as a pointer. -/
def prepare (options : Options) (known : List Marshaler) (type : CType) (simple : Argument) :
    Except Fault Argument :=
  match type.unaliased with
  | .callback _ _ result parameters => do
    let text ← prototype result parameters
    return { simple with passed := .str simple.temporary, steps := addressSteps simple text }
  | _ =>
    match type.pointee with
    | .record header _ =>
      if header.name.isNull || !options.writers then return simple else do
      let _ ← marshaler known .writing header.name
      let target ← identText header.name
      let size ← Amount.written header.size
      return { simple with
        hint := .str (simple.hint.plain ++ " | " ++ target)
        passed := .str simple.temporary
        steps := recordSteps options simple.name target size }
    | _ => return simple

theorem argument_eq : argument options known index parameter =
    unprepared index parameter >>= fun simple => carrierOf parameter.type >>= fun carrier =>
      if carrier ≠ .pointer then return simple else prepare options known parameter.type simple := by
  unfold argument unprepared
  cases argumentName index parameter.name with
  | error fault => rfl
  | ok passed =>
    cases hint parameter.type with
    | error fault => rfl
    | ok hinted =>
      cases carrierOf parameter.type with
      | error fault => rfl
      | ok carrier =>
        by_cases plain : carrier ≠ .pointer
        · exact (if_pos plain).trans (if_pos plain).symm
        · refine (if_neg plain).trans (Eq.trans ?_ (if_neg plain).symm)
          unfold prepare
          rfl

/-- What crosses as a pointer is an opaque one, a pointer or a pointer to a function. -/
theorem crossing_cases {type : CType} (crossing : carrierOf type = .ok .pointer) :
    (∃ header, type.unaliased = .builtin header .pointer) ∨
      (∃ header base isConst, type.unaliased = .pointer header base isConst) ∨
      ∃ header own result parameters, type.unaliased = .callback header own result parameters := by
  unfold carrierOf at crossing
  split at crossing
  next header carrier same =>
    obtain rfl := Except.ok.inj crossing
    exact .inl ⟨header, same⟩
  next => cases Except.ok.inj crossing
  next header base isConst same => exact .inr (.inl ⟨header, base, isConst, same⟩)
  next header own result parameters same => exact .inr (.inr ⟨header, own, result, parameters, same⟩)
  next => cases crossing

/-- What is prepared: pointers to functions, and pointers that end in a named record. -/
theorem prepares_iff {type : CType} : prepares options type = true ↔
    (∃ header own result parameters, type.unaliased = .callback header own result parameters) ∨
      (∃ header base isConst, type.unaliased = .pointer header base isConst) ∧
        ∃ header fields, type.pointee = .record header fields ∧ options.writers = true ∧
          header.name.isNull = false := by
  unfold prepares
  cases same : type.unaliased with
  | pointer own base isConst =>
    cases behind : type.pointee with
    | record header fields => simp
    | _ => simp
  | _ => simp

/-- An argument that is not prepared stays as it is. -/
theorem prepare_idle {type : CType} (crossing : carrierOf type = .ok .pointer)
    (plain : prepares options type = false) (simple : Argument) :
    prepare options known type simple = .ok simple := by
  have pointee := type.pointee_unaliased
  unfold prepare
  obtain ⟨header, same⟩ | pointer | callback := crossing_cases crossing
  · rw [same] at pointee ⊢
    rw [← pointee]
    rfl
  · obtain ⟨own, base, isConst, same⟩ := pointer
    rw [same]
    dsimp only
    split
    next header fields behind =>
      refine if_pos ?_
      by_contra named
      rw [Bool.or_eq_true, not_or, Bool.not_eq_true, Bool.not_eq_true', Bool.not_eq_false] at named
      have prepared : prepares options type = true := prepares_iff.mpr
        (.inr ⟨⟨own, base, isConst, same⟩, header, fields, behind, named.2, named.1⟩)
      exact Bool.false_ne_true (plain.symm.trans prepared)
    next => rfl
  · exact absurd (prepares_iff.mpr (.inl callback)) (by rw [plain]; decide)

theorem prepare_passes {type : CType} (crossing : carrierOf type = .ok .pointer) {simple : Argument}
    (idle : simple.steps = []) (passed : simple.passed.plain = simple.name)
    (done : prepare options known type simple = .ok made) :
    made.name = simple.name ∧ Passes options type made := by
  cases prepared : prepares options type with
  | false =>
    rw [prepare_idle crossing prepared] at done
    obtain rfl := Except.ok.inj done
    exact ⟨rfl, .given prepared idle passed⟩
  | true =>
    unfold prepare at done
    obtain ⟨header, own, result, parameters, same⟩ | ⟨⟨own, base, isConst, same⟩, record⟩ :=
      prepares_iff.mp prepared
    · rw [same] at done
      obtain ⟨text, -, done⟩ := bind_eq_ok.mp done
      obtain rfl := pure_eq_ok.mp done
      exact ⟨rfl, .address prepared text rfl rfl⟩
    · obtain ⟨header, fields, behind, writers, named⟩ := record
      rw [same, behind] at done
      dsimp only at done
      rw [if_neg (by rw [named, writers]; decide)] at done
      obtain ⟨_, -, done⟩ := bind_eq_ok.mp done
      obtain ⟨target, identified, done⟩ := bind_eq_ok.mp done
      obtain ⟨size, sized, done⟩ := bind_eq_ok.mp done
      obtain rfl := pure_eq_ok.mp done
      exact ⟨rfl, .record prepared header fields behind ⟨target, size, identified, sized, rfl⟩ rfl⟩

theorem crosses_of_prepares {type : CType} (prepared : prepares options type = true) :
    carrierOf type = .ok .pointer := by
  obtain ⟨header, own, result, parameters, same⟩ | ⟨⟨own, base, isConst, same⟩, -⟩ :=
    prepares_iff.mp prepared
  · rw [carrierOf, same]
  · rw [carrierOf, same]

/-- An argument is named for its parameter, and passes on what it is given or what it makes of it. -/
theorem argument_passes (done : argument options known index parameter = .ok made) :
    ∃ simple, unprepared index parameter = .ok simple ∧ made.name = simple.name ∧
      Passes options parameter.type made := by
  rw [argument_eq] at done
  obtain ⟨simple, plain, done⟩ := bind_eq_ok.mp done
  obtain ⟨carrier, crossing, done⟩ := bind_eq_ok.mp done
  obtain ⟨passed, hinted, -, -, rfl⟩ := unprepared_eq_ok.mp plain
  refine ⟨_, plain, ?_⟩
  split at done
  next other =>
    obtain rfl := pure_eq_ok.mp done
    refine ⟨rfl, .given (Bool.eq_false_iff.mpr fun prepared => other ?_) rfl rfl⟩
    exact Except.ok.inj (crossing.symm.trans (crosses_of_prepares prepared))
  next pointer =>
    rw [not_not] at pointer
    subst pointer
    exact prepare_passes crossing rfl rfl done

theorem steps_unprepared {simple : Argument} (plain : unprepared index parameter = .ok simple) :
    simple.steps = [] := by
  obtain ⟨passed, hinted, -, -, rfl⟩ := unprepared_eq_ok.mp plain
  rfl

/-- An argument has lines of its own just if it is prepared. -/
theorem Passes.prepared_iff {type : CType} (passes : Passes options type made) :
    prepares options type = true ↔ made.steps ≠ [] := by
  cases passes with
  | given plain idle => simp [plain, idle]
  | address prepared text steps => simp [prepared, steps, addressSteps]
  | record prepared header fields behind stores =>
    obtain ⟨target, size, -, -, steps⟩ := stores
    simp [prepared, steps, recordSteps]

/-- Whether an argument is put into memory only for the record that its type points at, and passed on
as it is where there are more levels than one. -/
def Direct (options : Options) (known : List Marshaler) (index : Nat) (parameter : Parameter CType) :
    Prop :=
  (∀ made target size, argument options known index parameter = .ok made →
      made.steps = recordSteps options made.name target size →
      ∃ header fields, parameter.type.PointsAt (.record header fields) ∧ Stores options made header) ∧
    (2 ≤ parameter.type.levels →
      argument options known index parameter = unprepared index parameter)

/-- Where there is more than one level, only a named record at the end is prepared for. -/
theorem prepares_deep {type : CType} (deep : 2 ≤ type.levels) : prepares options type = true ↔
    ∃ header fields, type.pointee = .record header fields ∧ options.writers = true ∧
      header.name.isNull = false := by
  obtain ⟨level, levels⟩ := Nat.exists_eq_add_of_le' deep
  obtain ⟨own, base, isConst, same, -⟩ := type.unaliased_of_levels levels
  rw [prepares_iff, same]
  constructor
  · rintro (⟨_, _, _, _, callback⟩ | ⟨-, record⟩)
    · cases callback
    · exact record
  · exact fun record => .inr ⟨⟨own, some base, isConst, rfl⟩, record⟩

/-- An argument is prepared for the first level of its type, unless there are more and the last one ends
in a named record. -/
theorem argument_direct_iff : Direct options known index parameter ↔
    ¬ (2 ≤ parameter.type.levels ∧ Succeeds (unprepared index parameter) ∧
      ∃ header fields, parameter.type.pointee = .record header fields ∧ options.writers = true ∧
        header.name.isNull = false) := by
  constructor
  · rintro ⟨-, unchanged⟩ ⟨deep, ⟨simple, plain⟩, record⟩
    have done := (unchanged deep).trans plain
    obtain ⟨_, -, -, passes⟩ := argument_passes done
    exact passes.prepared_iff.mp ((prepares_deep deep).mpr record) (steps_unprepared plain)
  · intro shallow
    refine ⟨fun made target size done stored => ?_, fun deep => ?_⟩
    · obtain ⟨simple, plain, -, passes⟩ := argument_passes done
      cases passes with
      | given _ idle => exact absurd (idle.symm.trans stored) (by simp [recordSteps])
      | address _ text steps => exact absurd (steps.symm.trans stored) (by simp [addressSteps, recordSteps])
      | record prepared header fields behind stores =>
        refine ⟨header, fields, ?_, stores⟩
        have flat : ¬ 2 ≤ parameter.type.levels := fun deep =>
          shallow ⟨deep, ⟨simple, plain⟩, (prepares_deep deep).mp prepared⟩
        cases levels : parameter.type.levels with
        | zero =>
          have ends := (parameter.type.pointee_of_level levels).symm.trans behind
          obtain ⟨_, _, _, _, same⟩ | ⟨⟨_, _, _, same⟩, -⟩ := prepares_iff.mp prepared
          all_goals cases ends.symm.trans same
        | succ level =>
          obtain ⟨own, base, isConst, same, none, ends⟩ := parameter.type.unaliased_of_levels levels
          obtain rfl : level = 0 := by omega
          exact ⟨own, base, isConst, same, (base.pointee_of_level none).symm.trans (ends.trans behind)⟩
    · rw [argument_eq]
      cases plain : unprepared index parameter with
      | error fault => rfl
      | ok simple =>
        have idle : prepares options parameter.type = false :=
          Bool.eq_false_iff.mpr fun prepared =>
            shallow ⟨deep, ⟨simple, plain⟩, (prepares_deep deep).mp prepared⟩
        obtain ⟨level, levels⟩ := Nat.exists_eq_add_of_le' deep
        obtain ⟨own, base, isConst, same, -⟩ := parameter.type.unaliased_of_levels levels
        have crossing : carrierOf parameter.type = .ok .pointer := by rw [carrierOf, same]
        rw [crossing]
        change (if Carrier.pointer ≠ .pointer then .ok simple
          else prepare options known parameter.type simple) = .ok simple
        rw [if_neg (not_not_intro rfl), prepare_idle crossing idle]

end

def functionNode (name spelling : String) (parameters : List (Label × String)) : Json :=
  .obj [("kind", .str "FunctionDecl"), ("name", .str name), ("type", .obj [("qualType", .str spelling)]),
    ("inner", .arr (parameters.map fun parameter => .obj [("kind", .str "ParmVarDecl"),
      ("name", parameter.1), ("type", .obj [("qualType", .str parameter.2)])]))]

/-- A record, and a function that takes a pointer to a pointer to it. -/
def trackNodes : List Json :=
  [recordNode (.str "point") [fieldNode "x" "int"],
    functionNode "track" "int (struct point **)" [(.str "at", "struct point **")]]

/-- Where native code expects the address of a pointer, it gets the record. -/
theorem not_direct_track :
    let graph := graphOf 4 trackNodes
    let known := ((generate {} graph).runOn {}).2.known
    ∃ parameter ∈ (functionsOf graph.declarations).flatMap Function.parameters,
      parameter.type.levels = 2 ∧ ¬ Direct {} known 0 parameter := by
  intro graph known
  have stored : ∃ parameter ∈ (functionsOf graph.declarations).flatMap Function.parameters,
      parameter.type.levels = 2 ∧
        (argument {} known 0 parameter).map Argument.steps = .ok (recordSteps {} "at" "point" "4") := by
    decide +kernel
  obtain ⟨parameter, member, deep, stored⟩ := stored
  refine ⟨parameter, member, deep, fun direct => ?_⟩
  rw [direct.2 deep.ge] at stored
  obtain ⟨made, plain, steps⟩ := map_eq_ok.mp stored
  cases steps.symm.trans (steps_unprepared plain)

end Emit

end NativeBindings
