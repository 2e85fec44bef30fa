import NativeBindings.CType
import NativeBindings.Fault
import NativeBindings.Table

/-!
The graph of the types of one header: declarations in order, and the names that were declared as
pointers. The order is the order in which a module declares them.
-/
namespace NativeBindings

structure Graph where
  declarations : Table Label CType := []
  pointers : List Label := []
  callbacks : List Label := []
  issued : Nat := 0
  deriving Repr

namespace Graph

def find? (graph : Graph) (name : Label) : Option CType := Table.find? name graph.declarations

def has (graph : Graph) (name : Label) : Bool := Table.has name graph.declarations

def names (graph : Graph) : List Label := Table.keys graph.declarations

/-- Sets the entry of a name, in its place if the name is declared. The node gets a serial number
if it has none. -/
def assign (graph : Graph) (name : Label) (type : CType) : Graph :=
  { graph with
    declarations := Table.insert name (type.numbered graph.issued) graph.declarations
    issued := graph.issued + 1 }

def remove (graph : Graph) (name : Label) : Graph :=
  { graph with declarations := Table.erase name graph.declarations }

def find (graph : Graph) (name : Label) : Except Fault CType := do
  match graph.find? (← name.asKey) with
  | some type => return type
  | none => .error (.unknownName name)

def use (graph : Graph) (name : Label) : Except Fault CType := (graph.find name).map CType.use

/-- Whether a node is the named pointer to a base, with the same constness. -/
def isPointerTo (base : Label) (isConst : Bool) : CType → Bool
  | .pointer header (some target) const =>
    !header.name.isNull && target.name == base && const == isConst
  | _ => false

/-- The first named pointer to a base. -/
def findPointer (graph : Graph) (base : Label) (isConst : Bool) : Option CType :=
  (Table.values graph.declarations).find? (isPointerTo base isConst)

def addPointer (graph : Graph) (name : Label) : Graph :=
  { graph with pointers := graph.pointers.insert name }

def addCallback (graph : Graph) (name : Label) : Graph :=
  { graph with
    pointers := graph.pointers.insert name
    callbacks := graph.callbacks.insert name }

end Graph

end NativeBindings
