import NativeBindings.Json.Depth
import NativeBindings.Json.Key
import NativeBindings.Json.Order
import NativeBindings.Text.Affix

/-!
Reading the nodes of a syntax tree. A node is an object; what is missing reads as null where a
default makes sense, and as a fault where it does not.
-/
namespace NativeBindings.Json

def fieldOr (name : String) (node other : Json) : Except Fault Json :=
  match node with
  | obj entries => .ok ((Table.find? name entries).getD other)
  | _ => .error (.noAttribute node.className "get")

/-- An entry of a node, null if missing. -/
def field (name : String) (node : Json) : Except Fault Json := node.fieldOr name null

/-- An entry that has to be there. -/
def need (name : String) : Json → Except Fault Json
  | obj entries =>
    match Table.find? name entries with
    | some value => .ok value
    | none => .error (.missingKey (Text.quoted name))
  | arr _ => .error (.mismatch "list indices must be integers or slices, not str")
  | str _ => .error (.mismatch "string indices must be integers, not \x27str\x27")
  | node => .error (.mismatch (Text.quoted node.className ++ " object is not subscriptable"))

/-- Whether a word is in a value: a name of an object, an item of a list, a part of a text. -/
def contains (word : String) : Json → Except Fault Bool
  | obj entries => .ok (Table.has word entries)
  | arr items => .ok (items.any fun
      | str s => s == word
      | _ => false)
  | str s => .ok (Text.within word.toList s.toList)
  | node => .error (.mismatch
      ("argument of type " ++ Text.quoted node.className ++ " is not iterable"))

def item (i : Nat) : Json → Except Fault Json
  | arr items =>
    match items[i]? with
    | some value => .ok value
    | none => .error (.index "list index out of range")
  | str s =>
    match s.toList[i]? with
    | some c => .ok (str (String.ofList [c]))
    | none => .error (.index "string index out of range")
  | obj _ => .error (.missingKey (toString i))
  | node => .error (.mismatch (Text.quoted node.className ++ " object is not subscriptable"))

/-- The items of a list, the names of an object, the characters of a text. -/
def items : Json → Except Fault (List Json)
  | arr items => .ok items
  | obj entries => .ok (entries.map fun (name, _) => str name)
  | str s => .ok (s.toList.map fun c => str (String.ofList [c]))
  | node => .error (.mismatch (Text.quoted node.className ++ " object is not iterable"))

/-- The items of a value that is walked by index. -/
def sequence : Json → Except Fault (List Json)
  | arr items => .ok items
  | str s => .ok (s.toList.map fun c => str (String.ofList [c]))
  | obj [] => .ok []
  | obj _ => .error (.missingKey "0")
  | node => .error (.mismatch
      ("object of type " ++ Text.quoted node.className ++ " has no len()"))

/-- The text of a node that is used as one; `use` is what is asked of it. -/
def asText (use : String) : Json → Except Fault String
  | str s => .ok s
  | node => .error (.noAttribute node.className use)

def isKind (kind : String) : Json → Bool
  | str s => s == kind
  | _ => false

theorem need_eq_ok {node value : Json} {entry : String} :
    node.need entry = .ok value ↔ node.get? entry = some value := by
  cases node with
  | obj entries =>
    rw [need, get?]
    cases Table.find? entry entries <;> simp
  | _ => exact iff_of_false nofun nofun

theorem field_eq {node value : Json} {entry other : String} (found : node.field other = .ok value) :
    node.field entry = .ok ((node.get? entry).getD null) := by
  cases node with
  | obj entries => rfl
  | _ => cases found

theorem depth_lt_of_get? {node value : Json} {entry : String} (found : node.get? entry = some value) :
    value.depth < node.depth := by
  cases node with
  | obj entries =>
    obtain ⟨own, -, member⟩ := Table.mem_of_find? found
    rw [depth]
    exact Nat.lt_succ_of_le (depth_le_depthEntries member)
  | _ => cases found

theorem depth_lt_of_need {node value : Json} {entry : String} (held : node.need entry = .ok value) :
    value.depth < node.depth := depth_lt_of_get? (need_eq_ok.mp held)

theorem depth_lt_of_mem {node : Json} {items : List Json} (member : node ∈ items) :
    node.depth < (arr items).depth := by
  rw [depth]
  exact Nat.lt_succ_of_le (depth_le_depthItems member)

theorem depth_pos (node : Json) : 0 < node.depth := by
  cases node <;> simp [depth]

theorem depth_le_of_item {node value : Json} {i : Nat} (held : node.item i = .ok value) :
    value.depth ≤ node.depth := by
  cases node with
  | arr items =>
    rw [item] at held
    split at held
    next found =>
      obtain rfl := Except.ok.inj held
      exact Nat.le_of_lt (depth_lt_of_mem (List.mem_of_getElem? found))
    next => cases held
  | str s =>
    rw [item] at held
    split at held
    next =>
      obtain rfl := Except.ok.inj held
      exact Nat.le_refl _
    next => cases held
  | _ => cases held

end NativeBindings.Json
