import NativeBindings.Proofs.Resolve.Orderly
import NativeBindings.Resolve.Typedef

/-!
What is found in a graph. The types that spellings and type nodes name come down to declared nodes, and
so do those of variants, parameters and results.
-/
namespace NativeBindings.Resolve

open Json Outcome

/-- Types that are found in a graph: its nodes, uses of them, unnamed pointers and arrays. -/
inductive Found (graph : Graph) : CType → Prop
  | node {name : Label} {type : CType} (member : (name, type) ∈ graph.declarations) : Found graph type
  | use {name : Label} {type : CType} (member : (name, type) ∈ graph.declarations) :
    Found graph type.use
  | pointer {base : Option CType} (inside : ∀ target, base = some target → Found graph target)
    (isConst : Bool) : Found graph (.pointer { name := .null, size := CType.pointerSize } base isConst)
  | array {item : CType} {size length : Amount} (inside : Found graph item) (name : Label)
    (sized : Amount.times item.size length = .ok size) : Found graph (.array { name, size } item length)

/-- A type as it is declared under a name: it goes by the name, and is neither a synonym of the language nor
an array. -/
structure Declarable (name : Label) (type : CType) : Prop where
  own : type.name = name
  plain : type.isTransparent = false
  single : ∀ header item length, type ≠ .array header item length

theorem declarable_aliasOf (name : Label) (target : CType) :
    Declarable name (Registry.aliasOf name target) :=
  ⟨rfl, rfl, nofun⟩

variable {graph : Graph} {type : CType}

theorem found_use {name : Label} (found : graph.use name = .ok type) : Found graph type := by
  obtain ⟨node, declared, rfl⟩ := map_eq_ok.mp found
  obtain ⟨own, member⟩ := Graph.find_eq_ok declared
  exact .use member

theorem pointeeBy_found {inner : String → Except Fault CType}
    (inside : ∀ spelling found, inner spelling = .ok found → Found graph found) {base : String}
    {target : Option CType} (found : pointeeBy inner graph base = .ok target) :
    ∀ node, target = some node → Found graph node := by
  rintro node rfl
  unfold pointeeBy at found
  split at found
  · obtain ⟨value, computed, same⟩ := map_eq_ok.mp found
    obtain rfl := Option.some.inj same
    exact inside base value computed
  · dsimp only at found
    split at found
    · obtain ⟨value, computed, same⟩ := map_eq_ok.mp found
      obtain rfl := Option.some.inj same
      exact found_use computed
    · cases found

theorem typeOfWith_found {fuel depth : Nat} {spelling : String}
    (found : typeOfWith graph fuel depth spelling = .ok type) : Found graph type := by
  induction fuel generalizing depth spelling type with
  | zero => cases found
  | succ fuel ih =>
    rw [typeOfWith] at found
    split at found
    · cases found
    split at found
    · cases found
    · obtain ⟨item, computed, found⟩ := bind_eq_ok.mp found
      obtain ⟨size, sized, found⟩ := bind_eq_ok.mp found
      obtain rfl := pure_eq_ok.mp found
      exact .array (ih computed) _ sized
    · obtain ⟨own, member⟩ := Graph.find_eq_ok found
      exact .node member
    · split at found
      next declared same =>
        obtain ⟨own, member⟩ := Graph.findPointer_eq_some same
        obtain rfl := Except.ok.inj found
        exact .use member
      next =>
        obtain ⟨target, computed, found⟩ := bind_eq_ok.mp found
        obtain rfl := pure_eq_ok.mp found
        exact .pointer (pointeeBy_found (fun _ _ => ih) computed) _
    · exact found_use found

theorem typeOf_found {spelling : String} (found : typeOf graph spelling = .ok type) : Found graph type :=
  typeOfWith_found found

theorem pointeeOf_found {base : String} {target : Option CType}
    (found : pointeeOf graph base = .ok target) : ∀ node, target = some node → Found graph node :=
  pointeeBy_found (fun _ _ => typeOf_found) found

theorem spelledTypeAt_found {depth : Nat} {node : Json} (found : spelledTypeAt graph depth node = .ok type) :
    Found graph type := by
  obtain ⟨spelling, -, found⟩ := bind_eq_ok.mp found
  obtain ⟨text, -, found⟩ := bind_eq_ok.mp found
  exact typeOfWith_found found

theorem spelledType_found {node : Json} (found : spelledType graph node = .ok type) : Found graph type :=
  @spelledTypeAt_found _ _ 0 _ found

theorem nodeTypeWith_found {fuel depth : Nat} {node : Json}
    (found : nodeTypeWith graph fuel depth node = .ok type) : Found graph type := by
  induction fuel generalizing depth node type with
  | zero => cases found
  | succ fuel ih =>
    rw [nodeTypeWith] at found
    split at found
    · cases found
    obtain ⟨kind, -, found⟩ := bind_eq_ok.mp found
    split at found
    · obtain ⟨spelling, -, found⟩ := bind_eq_ok.mp found
      obtain ⟨declared, computed, found⟩ := bind_eq_ok.mp found
      obtain ⟨own, member⟩ := Graph.find_eq_ok computed
      split at found
      · obtain rfl := pure_eq_ok.mp found
        exact .use member
      · obtain rfl := pure_eq_ok.mp found
        exact .node member
    split at found
    · obtain ⟨declaration, -, found⟩ := bind_eq_ok.mp found
      obtain ⟨name, -, found⟩ := bind_eq_ok.mp found
      exact found_use found
    split at found
    · exact spelledTypeAt_found found
    split at found
    · obtain ⟨declaration, -, found⟩ := bind_eq_ok.mp found
      obtain ⟨name, -, found⟩ := bind_eq_ok.mp found
      exact found_use found
    obtain ⟨wraps, -, found⟩ := bind_eq_ok.mp found
    split at found
    · obtain ⟨inner, -, found⟩ := bind_eq_ok.mp found
      obtain ⟨first, -, found⟩ := bind_eq_ok.mp found
      exact ih found
    · cases found

theorem nodeType_found {node : Json} (found : nodeType graph node = .ok type) : Found graph type :=
  nodeTypeWith_found found

theorem variants_found {nodes : List Json} {made : List (Field CType)}
    (walked : variants graph nodes = .ok made) :
    ∀ variant ∈ made, variant.size = variant.type.size ∧ Found graph variant.type := by
  induction nodes generalizing made with
  | nil =>
    obtain rfl := pure_eq_ok.mp walked
    simp
  | cons node rest ih =>
    obtain ⟨mute, -, walked⟩ := bind_eq_ok.mp walked
    split at walked
    · exact ih walked
    · obtain ⟨name, -, walked⟩ := bind_eq_ok.mp walked
      obtain ⟨kind, -, walked⟩ := bind_eq_ok.mp walked
      split at walked
      · cases walked
      · obtain ⟨type, found, walked⟩ := bind_eq_ok.mp walked
        obtain ⟨others, inside, walked⟩ := bind_eq_ok.mp walked
        obtain rfl := pure_eq_ok.mp walked
        intro variant member
        rcases List.mem_cons.mp member with rfl | member
        · exact ⟨rfl, spelledType_found found⟩
        · exact ih inside variant member

theorem prototypeParameters_found {nodes : List Json} {made : List (Parameter CType)}
    (walked : prototypeParameters graph nodes = .ok made) :
    ∀ parameter ∈ made, Found graph parameter.type := by
  induction nodes generalizing made with
  | nil =>
    obtain rfl := pure_eq_ok.mp walked
    simp
  | cons node rest ih =>
    obtain ⟨name, -, walked⟩ := bind_eq_ok.mp walked
    obtain ⟨type, found, walked⟩ := bind_eq_ok.mp walked
    obtain ⟨others, inside, walked⟩ := bind_eq_ok.mp walked
    obtain rfl := pure_eq_ok.mp walked
    intro parameter member
    rcases List.mem_cons.mp member with rfl | member
    · exact nodeType_found found
    · exact ih inside parameter member

theorem functionParameters_found {nodes : List Json} {made : List (Parameter CType)}
    (walked : functionParameters graph nodes = .ok made) :
    ∀ parameter ∈ made, Found graph parameter.type := by
  induction nodes generalizing made with
  | nil =>
    obtain rfl := pure_eq_ok.mp walked
    simp
  | cons node rest ih =>
    obtain ⟨kind, -, walked⟩ := bind_eq_ok.mp walked
    split at walked
    · exact ih walked
    · obtain ⟨name, -, walked⟩ := bind_eq_ok.mp walked
      obtain ⟨type, found, walked⟩ := bind_eq_ok.mp walked
      obtain ⟨others, inside, walked⟩ := bind_eq_ok.mp walked
      obtain rfl := pure_eq_ok.mp walked
      intro parameter member
      rcases List.mem_cons.mp member with rfl | member
      · exact spelledType_found found
      · exact ih inside parameter member

theorem callback_found {name : Label} {prototype : Json} (made : callback graph name prototype = .ok type) :
    ∃ result parameters, type = .callback { name, size := CType.pointerSize }
        { name, size := CType.pointerSize } result parameters ∧ Found graph result ∧
      ∀ parameter ∈ parameters, Found graph parameter.type := by
  obtain ⟨inner, -, made⟩ := bind_eq_ok.mp made
  dsimp only at made
  split at made
  · cases made
  · obtain ⟨first, -, made⟩ := bind_eq_ok.mp made
    obtain ⟨result, found, made⟩ := bind_eq_ok.mp made
    obtain ⟨items, -, made⟩ := bind_eq_ok.mp made
    obtain ⟨parameters, walked, made⟩ := bind_eq_ok.mp made
    obtain rfl := pure_eq_ok.mp made
    exact ⟨result, parameters, rfl, nodeType_found found, prototypeParameters_found walked⟩

theorem callback_declarable {name : Label} {prototype : Json}
    (made : callback graph name prototype = .ok type) : Declarable name type := by
  obtain ⟨result, parameters, rfl, -⟩ := callback_found made
  exact ⟨rfl, rfl, nofun⟩

theorem signature_found {name : Label} {node : Json} (made : signature graph name node = .ok type) :
    ∃ result parameters, type = .signature { name, size := CType.pointerSize } result parameters ∧
      Found graph result ∧ ∀ parameter ∈ parameters, Found graph parameter.type := by
  obtain ⟨spelled, -, made⟩ := bind_eq_ok.mp made
  obtain ⟨spelling, -, made⟩ := bind_eq_ok.mp made
  obtain ⟨result, found, made⟩ := bind_eq_ok.mp made
  obtain ⟨inner, -, made⟩ := bind_eq_ok.mp made
  obtain ⟨items, -, made⟩ := bind_eq_ok.mp made
  obtain ⟨parameters, walked, made⟩ := bind_eq_ok.mp made
  obtain rfl := pure_eq_ok.mp made
  exact ⟨result, parameters, rfl, typeOf_found found, functionParameters_found walked⟩

theorem signature_declarable {name : Label} {node : Json} (made : signature graph name node = .ok type) :
    Declarable name type := by
  obtain ⟨result, parameters, rfl, -⟩ := signature_found made
  exact ⟨rfl, rfl, nofun⟩

/-- In an orderly graph all that is found is made of declared nodes. -/
theorem Found.covers (orderly : Orderly graph.declarations) (found : Found graph type) :
    Covers graph.declarations type := by
  induction found with
  | node member => exact .node member
  | use member => exact Graph.covers_use orderly member
  | @pointer base inside isConst ih =>
    cases base with
    | none => exact .handle isConst
    | some target => exact .pointer (ih target rfl) isConst
  | array inside name sized ih => exact .array ih ..

end NativeBindings.Resolve
