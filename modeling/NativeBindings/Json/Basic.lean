import NativeBindings.Table
import NativeBindings.Text.Binary64

/-!
JSON trees. The entries of an object keep their order.
-/
namespace NativeBindings

inductive Json where
  | null
  | bool (b : Bool)
  | int (n : Int)
  | real (x : Text.Binary64)
  | str (s : String)
  | arr (items : List Json)
  | obj (entries : List (String × Json))
  deriving Repr, Inhabited

namespace Json

/-- The value of a name in an object; `none` in every other tree. -/
def get? (name : String) : Json → Option Json
  | obj entries => Table.find? name entries
  | _ => none

def isNull : Json → Bool
  | null => true
  | _ => false

/-- Null, zero and whatever is empty do not hold. -/
def holds : Json → Bool
  | null => false
  | bool b => b
  | int n => n != 0
  | real (.finite _ mantissa _) => mantissa != 0
  | real _ => true
  | str s => s != ""
  | arr items => !items.isEmpty
  | obj entries => !entries.isEmpty

/-- A value that holds, or else another one. -/
def orElse (node other : Json) : Json := if node.holds then node else other

/-- The class of a value, as faults name it. -/
def className : Json → String
  | null => "NoneType"
  | bool _ => "bool"
  | int _ => "int"
  | real _ => "float"
  | str _ => "str"
  | arr _ => "list"
  | obj _ => "dict"

/-- The integer that a value counts as; a truth value is one too. -/
def integer? : Json → Option Int
  | int n => some n
  | bool b => some (if b then 1 else 0)
  | _ => none

mutual

def same : Json → Json → Bool
  | null, null => true
  | bool a, bool b => a == b
  | int a, int b => a == b
  | real a, real b => a = b
  | str a, str b => a == b
  | arr as, arr bs => sameItems as bs
  | obj as, obj bs => sameEntries as bs
  | _, _ => false

def sameItems : List Json → List Json → Bool
  | [], [] => true
  | a :: as, b :: bs => same a b && sameItems as bs
  | _, _ => false

def sameEntries : List (String × Json) → List (String × Json) → Bool
  | [], [] => true
  | (name, a) :: as, (other, b) :: bs => name == other && same a b && sameEntries as bs
  | _, _ => false

end

mutual

theorem same_iff (a b : Json) : same a b = true ↔ a = b := by
  cases a <;> cases b <;> simp [same, sameItems_iff, sameEntries_iff]

theorem sameItems_iff (as bs : List Json) : sameItems as bs = true ↔ as = bs := by
  match as, bs with
  | [], [] => simp [sameItems]
  | [], _ :: _ => simp [sameItems]
  | _ :: _, [] => simp [sameItems]
  | a :: as, b :: bs => simp [sameItems, same_iff a b, sameItems_iff as bs]

theorem sameEntries_iff (as bs : List (String × Json)) : sameEntries as bs = true ↔ as = bs := by
  match as, bs with
  | [], [] => simp [sameEntries]
  | [], _ :: _ => simp [sameEntries]
  | _ :: _, [] => simp [sameEntries]
  | (_, a) :: as, (_, b) :: bs => simp [sameEntries, same_iff a b, sameEntries_iff as bs]

end

instance : DecidableEq Json := fun a b => decidable_of_iff _ (same_iff a b)

mutual

/-- A tree with the numbers that its truth values count as. -/
def counted : Json → Json
  | bool b => int (if b then 1 else 0)
  | arr items => arr (countedItems items)
  | obj entries => obj (countedEntries entries)
  | value => value

def countedItems : List Json → List Json
  | [] => []
  | item :: rest => counted item :: countedItems rest

def countedEntries : List (String × Json) → List (String × Json)
  | [] => []
  | (name, item) :: rest => (name, counted item) :: countedEntries rest

end

/-- Values are equal where truth values count as numbers; so they are as keys of tables. -/
instance : BEq Json := ⟨fun a b => decide (a.counted = b.counted)⟩

theorem beq_iff (a b : Json) : (a == b) = true ↔ a.counted = b.counted := decide_eq_true_iff

instance : EquivBEq Json where
  rfl := (beq_iff _ _).2 rfl
  symm h := (beq_iff _ _).2 ((beq_iff _ _).1 h).symm
  trans h g := (beq_iff _ _).2 (((beq_iff _ _).1 h).trans ((beq_iff _ _).1 g))

/-- A text equals only itself. -/
theorem beq_str_iff (value : Json) (s : String) : (value == str s) = true ↔ value = str s := by
  rw [beq_iff]
  cases value <;> simp [counted]

end Json

end NativeBindings
