import NativeBindings.Ast.Node

/-!
Places of nodes in the source. What a macro wrote counts where the macro was used.
-/
namespace NativeBindings.Location

open Json

/-- A byte offset, or a line and a column. -/
abbrev Position := List Json

/-- The location of a macro's use, or the location itself. -/
def expansion (location : Json) : Except Fault Json := do
  if ← location.contains "expansionLoc" then location.need "expansionLoc" else return location

/-- The position of a location: the byte offset if it has one. -/
def position (location : Json) : Except Fault (Option Position) := do
  if !location.holds then return none
  let used ← expansion location
  if ← used.contains "offset" then
    return some [← used.need "offset"]
  if !(← used.contains "line") then return none
  if !(← used.contains "col") then return none
  return some [← used.need "line", ← used.need "col"]

/-- Whether a declaration begins at or before a node. So it is if the node is spelled inside it, as
the braces of `typedef enum { … } Name;` are. -/
def encloses (outer inner : Json) : Except Fault Bool := do
  if !outer.holds then return false
  let range := (← outer.field "range").orElse (obj [])
  let start ← position (← range.field "begin")
  let place ← position (← inner.field "loc")
  match start, place with
  | some a, some b => if a.length = b.length then itemsAtOrBefore a b else return false
  | _, _ => return false

end NativeBindings.Location
