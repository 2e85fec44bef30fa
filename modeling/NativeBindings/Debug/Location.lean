import NativeBindings.Json.Basic

/-!
Places of members. A place is a constant, or an expression that adds one to the address of the
record; no other expression is a fixed offset.
-/
namespace NativeBindings.Debug

/-- The operation that adds a constant. -/
def addConstant : Int := 0x23

/-- The part of a place that is the offset, if it is fixed. -/
def fixedPart : Json → Option Json
  | .arr [first, second] =>
    if first == .int addConstant && second.integer?.isSome then some second else none
  | .arr [only] => if only.integer?.isSome then some only else none
  | .arr _ => none
  | place => if place.integer?.isSome then some place else none

/-- The offset that a place gives, if it is fixed. -/
def fixedOffset (place : Json) : Option Int := (fixedPart place).bind Json.integer?

end NativeBindings.Debug
