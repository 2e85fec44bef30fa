import NativeBindings.Json.Key
import NativeBindings.Text.Utf8

/-!
Debug information: entries that describe types and members. Entries refer to each other by their
index, so links may run in circles.
-/
namespace NativeBindings.Debug

/-- A name as bytes of the debug information, or as text. -/
inductive Name where
  | bytes (bytes : List Nat)
  | text (s : String)
  deriving DecidableEq, Repr

def Name.shown : Name → String
  | .bytes codes => Text.Utf8.decode codes
  | .text s => s

/-- What the type of an entry refers to: nothing, an entry, or an entry that is not there. -/
inductive Link where
  | nothing
  | entry (n : Nat)
  | lost (id : Json)
  deriving DecidableEq, Repr

/-- An entry: its tag, its name, the values of its other attributes, the link to its type and its
children. -/
structure Entry where
  tag : String
  name : Option Name := none
  attributes : Table String Json := []
  type : Link := .nothing
  children : List Nat := []

/-- All entries, and those that each unit lists. -/
structure Info where
  entries : List Entry
  units : List (List Nat) := []

namespace Entry

def nameText (entry : Entry) : Option String := entry.name.map Name.shown

def nameShown (entry : Entry) : String :=
  match entry.nameText with
  | some name => Text.quoted name
  | none => Json.null.plain

def has (entry : Entry) (key : String) : Bool := Table.has key entry.attributes

/-- The value of an attribute, if the entry has the attribute. -/
def value? (entry : Entry) (key : String) : Option Json := Table.find? key entry.attributes

end Entry

namespace Info

def entry? (info : Info) (i : Nat) : Option Entry := info.entries[i]?

/-- The entry of another entry's type. A link to what is not there is a fault once it is followed. -/
def typeOf (info : Info) (entry : Entry) : Except Fault (Option Entry) :=
  match entry.type with
  | .nothing => .ok none
  | .entry n => .ok (info.entry? n)
  | .lost id => do
    let id ← id.asKey
    .error (.missingKey id.shown)

def childrenOf (info : Info) (entry : Entry) : List Entry := entry.children.filterMap info.entry?

end Info

end NativeBindings.Debug
