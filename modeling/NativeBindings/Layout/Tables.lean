import NativeBindings.Json.Key
import NativeBindings.Layout.Query

/-!
An oracle that looks its answers up, and notes the questions in the order in which they came.
-/
namespace NativeBindings.Layout

/-- Known sizes by type and known offsets and sizes of members by type and member, each in a tree of
objects, and what is answered where nothing is known. -/
structure Tables where
  sizes : Json := .null
  offsets : Json := .null
  fieldSizes : Json := .null
  otherSize : Option Amount := none
  otherOffset : Option Amount := none
  otherFieldSize : Option Amount := none

namespace Tables

/-- What a tree holds under labels in turn. Nothing is looked up below what is missing. -/
def find? (tree : Json) : List Label → Except Fault (Option Amount)
  | [] => .ok (if tree.isNull then none else some tree)
  | label :: rest =>
    match tree with
    | .null => .ok none
    | .obj entries => do
      match ← label.asKey with
      | .str name => find? ((Table.find? name entries).getD .null) rest
      | _ => return none
    | other => .error (.noAttribute other.className "get")

/-- What a tree holds under labels, or else another answer. The labels are texts where there is
none. -/
def answerFrom (tree : Json) (other : Option Amount) (what : String) (labels : List Label) :
    Except Fault Amount := do
  match (← find? tree labels).or other with
  | some n => return n
  | none => .error (.layout ("no " ++ what ++ " for " ++ ".".intercalate (← Json.texts labels)))

def answer (tables : Tables) : Query → Except Fault Amount
  | .sizeOf type => answerFrom tables.sizes tables.otherSize "sizeof" [type]
  | .offsetOf type field => answerFrom tables.offsets tables.otherOffset "offsetof" [type, field]
  | .fieldSizeOf type field =>
    answerFrom tables.fieldSizes tables.otherFieldSize "fieldsizeof" [type, field]

def oracle (tables : Tables) : Oracle (List Query) := fun query asked =>
  (tables.answer query, [], asked ++ [query])

end Tables

end NativeBindings.Layout
