/-!
The text of a module, with the places marked where a marshaler is defined and where one is used.
-/
namespace NativeBindings.Emit

inductive Direction where
  | reading
  | writing
  deriving DecidableEq, Repr

/-- A function that reads a type from memory or writes it there. -/
structure Marshaler where
  direction : Direction
  ident : String
  deriving DecidableEq, Repr

def Direction.start : Direction → String
  | reading => "read_"
  | writing => "write_"

def Marshaler.text (marshaler : Marshaler) : String := marshaler.direction.start ++ marshaler.ident

inductive Piece where
  | text (s : String)
  | define (marshaler : Marshaler)
  | use (marshaler : Marshaler)
  deriving DecidableEq, Repr

instance : Coe String Piece := ⟨Piece.text⟩

def Piece.shown : Piece → String
  | text s => s
  | define marshaler | use marshaler => marshaler.text

/-- A part of a module that is appended as a whole: mostly a line. -/
abbrev Fragment := List Piece

namespace Fragment

def text (fragment : Fragment) : String := String.join (fragment.map Piece.shown)

/-- The marshalers that a fragment defines. -/
def defined (fragment : Fragment) : List Marshaler :=
  fragment.filterMap fun
    | .define marshaler => some marshaler
    | _ => none

/-- The marshalers that a fragment uses. -/
def used (fragment : Fragment) : List Marshaler :=
  fragment.filterMap fun
    | .use marshaler => some marshaler
    | _ => none

end Fragment

def line (width : Int) (level : Nat) (pieces : List Piece) : Fragment :=
  .text (String.ofList (List.replicate (width.toNat * level) ' ')) :: pieces ++ [.text "\n"]

/-- The empty line. -/
def blankLine : Fragment := [.text "\n"]

end NativeBindings.Emit
