import NativeBindings.Json.Basic

/-!
The depth of JSON trees, which bounds how far one can go down in them.
-/
namespace NativeBindings.Json

mutual

def depth : Json → Nat
  | arr items => depthItems items + 1
  | obj entries => depthEntries entries + 1
  | _ => 1

def depthItems : List Json → Nat
  | [] => 0
  | item :: rest => max (depth item) (depthItems rest)

def depthEntries : List (String × Json) → Nat
  | [] => 0
  | (_, item) :: rest => max (depth item) (depthEntries rest)

end

theorem depth_le_depthEntries {key : String} {value : Json} {entries : List (String × Json)}
    (member : (key, value) ∈ entries) : value.depth ≤ depthEntries entries := by
  induction entries with
  | nil => cases member
  | cons entry rest ih =>
    obtain ⟨other, first⟩ := entry
    rw [depthEntries]
    rcases List.mem_cons.mp member with same | member
    · obtain ⟨-, rfl⟩ := Prod.mk.inj same
      exact Nat.le_max_left ..
    · exact Nat.le_trans (ih member) (Nat.le_max_right ..)

theorem depth_le_depthItems {node : Json} {nodes : List Json} (member : node ∈ nodes) :
    node.depth ≤ depthItems nodes := by
  induction nodes with
  | nil => cases member
  | cons first rest ih =>
    rw [depthItems]
    rcases List.mem_cons.mp member with rfl | member
    · exact Nat.le_max_left ..
    · exact Nat.le_trans (ih member) (Nat.le_max_right ..)

end NativeBindings.Json
