/-!
Decoding UTF-8 with replacement: each maximal part of a sequence that cannot be completed becomes
one U+FFFD.
-/
namespace NativeBindings.Text.Utf8

def replacement : Char := Char.ofNat 0xFFFD

/-- What a first byte asks for: the continuation bytes that follow, the range of the first of
them, and the value so far. -/
def lead? (b : Nat) : Option (Nat × Nat × Nat × Nat) :=
  if 0xC2 ≤ b && b ≤ 0xDF then some (1, 0x80, 0xBF, b % 0x20)
  else if b = 0xE0 then some (2, 0xA0, 0xBF, 0)
  else if b = 0xED then some (2, 0x80, 0x9F, b % 0x10)
  else if 0xE1 ≤ b && b ≤ 0xEF then some (2, 0x80, 0xBF, b % 0x10)
  else if b = 0xF0 then some (3, 0x90, 0xBF, 0)
  else if 0xF1 ≤ b && b ≤ 0xF3 then some (3, 0x80, 0xBF, b % 8)
  else if b = 0xF4 then some (3, 0x80, 0x8F, 4)
  else none

/-- What is pending: continuation bytes to come, the range of the next one, and the value. -/
abbrev Pending := Option (Nat × Nat × Nat × Nat)

/-- A byte that starts a character. -/
def first (b : Nat) : List Char × Pending :=
  if b < 0x80 then ([Char.ofNat b], none)
  else
    match lead? b with
    | some pending => ([], some pending)
    | none => ([replacement], none)

/-- One byte: the characters that it ends, and what is then pending. -/
def step (pending : Pending) (b : Nat) : List Char × Pending :=
  match pending with
  | none => first b
  | some (count, low, high, value) =>
    if low ≤ b && b ≤ high then
      let value := value * 64 + b % 64
      if count ≤ 1 then ([Char.ofNat value], none) else ([], some (count - 1, 0x80, 0xBF, value))
    else
      let (chars, next) := first b
      (replacement :: chars, next)

def decodeFrom (pending : Pending) : List Nat → List Char
  | [] => if pending.isSome then [replacement] else []
  | b :: rest =>
    let (chars, next) := step pending b
    chars ++ decodeFrom next rest

def decode (bytes : List Nat) : String := String.ofList (decodeFrom none bytes)

end NativeBindings.Text.Utf8
