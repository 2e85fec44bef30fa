/-!
Sets of characters given by closed ranges of code points.
-/
namespace NativeBindings.Text

abbrev Ranges := List (Nat × Nat)

def Ranges.has (table : Ranges) (c : Char) : Bool :=
  table.any fun (first, last) => first ≤ c.toNat && c.toNat ≤ last

end NativeBindings.Text
