/-!
Binary floating-point numbers of 64 bits: reading a decimal (to nearest, ties to even), cutting off
the fraction, and the shortest decimal that reads back.
-/
namespace NativeBindings.Text

/-- Finite values are `mantissa · 2 ^ exponent`, with a sign. -/
inductive Binary64 where
  | finite (negative : Bool) (mantissa : Nat) (exponent : Int)
  | infinite (negative : Bool)
  | nan
  deriving DecidableEq, Repr

namespace Binary64

/-- The integer nearest to `n / d`, ties to even. -/
def roundDiv (n d : Nat) : Nat :=
  let q := n / d
  let r := n % d
  if 2 * r < d then q
  else if d < 2 * r then q + 1
  else if q % 2 = 0 then q else q + 1

/-- The fraction `n / d` divided by a power of two. -/
def scaled (n d : Nat) (exponent : Int) : Nat × Nat :=
  if 0 ≤ exponent then (n, d * Nat.pow 2 exponent.toNat) else (n * Nat.pow 2 (-exponent).toNat, d)

/-- The value nearest to the fraction `n / d`. -/
def ofFraction (negative : Bool) (n d : Nat) : Binary64 :=
  if n = 0 then .finite negative 0 0
  else
    let guess : Int := (Nat.log2 n : Int) - (Nat.log2 d : Int) - 52
    let start := max guess (-1074)
    let (n₀, d₀) := scaled n d start
    let low := if start > -1074 && n₀ / d₀ < Nat.pow 2 52 then start - 1 else start
    let (n₁, d₁) := scaled n d low
    let m := roundDiv n₁ d₁
    let (m, e) := if m = Nat.pow 2 53 then (Nat.pow 2 52, low + 1) else (m, low)
    if e > 971 then .infinite negative else .finite negative m e

/-- The value nearest to `digits · 10 ^ exponent`. Far outside the range no power is computed. -/
def ofDecimal (negative : Bool) (digits : Nat) (exponent : Int) : Binary64 :=
  let size : Int := (Nat.log2 digits : Int) / 3 + 1
  if digits = 0 then .finite negative 0 0
  else if exponent > 400 then .infinite negative
  else if exponent + size < -400 then .finite negative 0 0
  else if 0 ≤ exponent then ofFraction negative (digits * Nat.pow 10 exponent.toNat) 1
  else ofFraction negative digits (Nat.pow 10 (-exponent).toNat)

def truncate? : Binary64 → Option Int
  | .finite negative mantissa exponent =>
    let n : Nat :=
      if 0 ≤ exponent then mantissa * Nat.pow 2 exponent.toNat
      else mantissa / Nat.pow 2 (-exponent).toNat
    some (if negative then -(n : Int) else n)
  | _ => none

/-- The decimal digits of a number, the first one first. -/
def digitsOf (n : Nat) : List Char := Nat.toDigits 10 n

/-- The exponent of the first digit of `n / d` in decimal: `10 ^ e ≤ n / d < 10 ^ (e + 1)`. -/
def leadingExponent (n d : Nat) : Int :=
  if d ≤ n then ((Nat.toDigits 10 (n / d)).length : Int) - 1
  else -((Nat.toDigits 10 ((d + n - 1) / n - 1)).length : Int)

/-- The two decimals of `count` digits around `n / d`, the nearer one first, as digits and the
exponent of the last one. -/
def around (n d count : Nat) : List (Nat × Int) :=
  let last := leadingExponent n d - (count : Int) + 1
  let (n, d) :=
    if 0 ≤ last then (n, d * Nat.pow 10 last.toNat) else (n * Nat.pow 10 (-last).toNat, d)
  let low := n / d
  let near := roundDiv n d
  [(near, last), (if near = low then low + 1 else low, last)]

/-- The fewest digits that read back, tried from one to seventeen. -/
def shortest (mantissa : Nat) (exponent : Int) : Nat × Int :=
  let (n, d) : Nat × Nat :=
    if 0 ≤ exponent then (mantissa * Nat.pow 2 exponent.toNat, 1)
    else (mantissa, Nat.pow 2 (-exponent).toNat)
  let candidates := (List.range 17).flatMap fun i => around n d (i + 1)
  let value := ofFraction false n d
  (candidates.find? fun (digits, last) => ofDecimal false digits last == value).getD (n, 0)

/-- Positional from `1e-4` up to below `1e16`, else with an exponent of at least two digits. -/
def text : Binary64 → String
  | .nan => "nan"
  | .infinite negative => if negative then "-inf" else "inf"
  | .finite negative mantissa exponent =>
    let sign := if negative then "-" else ""
    if mantissa = 0 then sign ++ "0.0"
    else
      let (number, last) := shortest mantissa exponent
      let all := digitsOf number
      let kept := (all.reverse.dropWhile (· == '0')).reverse
      let point : Int := (all.length : Int) + last
      let body : List Char :=
        if -4 < point && point ≤ 16 then
          if point ≤ 0 then
            "0.".toList ++ List.replicate (-point).toNat '0' ++ kept
          else if kept.length ≤ point.toNat then
            kept ++ List.replicate (point.toNat - kept.length) '0' ++ ".0".toList
          else kept.take point.toNat ++ '.' :: kept.drop point.toNat
        else
          let shown := kept.take 1 ++ (if kept.length > 1 then '.' :: kept.drop 1 else [])
          let power := digitsOf (point - 1).natAbs
          let padded := if power.length < 2 then '0' :: power else power
          shown ++ 'e' :: (if point - 1 < 0 then '-' else '+') :: padded
      sign ++ String.ofList body

end Binary64

end NativeBindings.Text
