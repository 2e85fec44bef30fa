import NativeBindings.Numeral

/-!
Sizes and offsets. The compiler gives integers; whatever else stands in their place goes through
the same operations, as far as they have a meaning for it.
-/
namespace NativeBindings

/-- A size or an offset: an integer, or another value in its place. -/
abbrev Amount := Json

namespace Amount

open Json

def isSequence : Amount → Bool
  | str _ | arr _ => true
  | _ => false

def unsupported {α : Type} (sign : String) (a b : Amount) : Except Fault α :=
  .error (.mismatch ("unsupported operand type(s) for " ++ sign ++ ": " ++
    Text.quoted a.className ++ " and " ++ Text.quoted b.className))

/-- A text or a list, a number of times over. -/
def repeated (sequence count : Amount) : Except Fault Amount :=
  match count.integer?, sequence with
  | some n, str s => .ok (str (String.join (List.replicate n.toNat s)))
  | some n, arr items => .ok (arr (List.replicate n.toNat items).flatten)
  | _, _ => .error (.mismatch
      ("can't multiply sequence by non-int of type " ++ Text.quoted count.className))

/-- The product; `sign` is how a fault names it. -/
def product (sign : String) (a b : Amount) : Except Fault Amount :=
  match a.integer?, b.integer? with
  | some m, some n => .ok (int (m * n))
  | _, _ =>
    if isSequence a then repeated a b
    else if isSequence b then repeated b a
    else unsupported sign a b

def times (a b : Amount) : Except Fault Amount := product "*" a b

def successor (a : Amount) : Except Fault Amount :=
  match a.integer?, isSequence a with
  | some n, _ => .ok (int (n + 1))
  | none, true =>
    let kind := a.className
    .error (.mismatch ("can only concatenate " ++ kind ++ " (not \"int\") to " ++ kind))
  | none, false => unsupported "+" a (int 1)

def written : Amount → Except Fault String
  | int n => Numeral.write n
  | value => .ok value.plain

theorem times_int (m n : Int) : times (int m) (int n) = .ok (int (m * n)) := rfl

end Amount

end NativeBindings
