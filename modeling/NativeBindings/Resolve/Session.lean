import NativeBindings.Ast.Initializer
import NativeBindings.Ast.Origin
import NativeBindings.Layout.Query
import NativeBindings.Noted
import NativeBindings.Resolve.Lookup
import NativeBindings.Resolve.Registry

/-!
The state of a resolution, and its basic acts: noting, asking the oracle, declaring. What waits for
a name is declared right after it.
-/
namespace NativeBindings.Resolve

/-- Declarations, the owners of enum constants, the includer of the current file, the state of the
oracle and the journal. -/
structure Session (σ : Type) where
  registry : Registry := {}
  owners : Initializer.Owners := []
  includer : Origin.Includer := .null
  oracle : σ
  journal : Journal := []

abbrev Resolving (σ : Type) := Act (Session σ)

instance (σ : Type) : Noting (Session σ) where
  tell told session := { session with journal := session.journal ++ told }

section
variable {σ : Type}

def graph : Resolving σ Graph := return (← get).registry.graph

def ask (oracle : Layout.Oracle σ) (query : Layout.Query) : Resolving σ Amount :=
  Act.ofRun fun session =>
    let (answer, told, after) := oracle query session.oracle
    (answer, { session with oracle := after, journal := session.journal ++ told })

/-- Declares a name that can be a key. Gives the declared node. -/
def declare (name : Label) (type : CType) : Resolving σ CType := do
  let name ← name.asKey
  modifyGet fun session =>
    let (registry, told) := session.registry.declare name type
    (session.registry.numbered type, { session with registry, journal := session.journal ++ told })

/-- Declares a name, then what waits for it, with fuel for the waiting lists that this uses up. -/
def registerWith : Nat → Label → CType → Resolving σ CType
  | 0, name, type => declare name type
  | fuel + 1, name, type => do
    let item ← declare name type
    let waiters ← modifyGet fun session =>
      let (waiters, registry) := session.registry.release name
      (waiters, { session with registry })
    waiters.forM fun waiter => do
      note (Journal.debug ("Resolved lazy alias " ++ waiter.plain ++ " -> " ++ name.plain))
      let _ ← registerWith fuel waiter (Registry.aliasOf waiter item)
    return item

/-- Declares a name, then what waits for it. Gives the declared node. -/
def register (name : Label) (type : CType) : Resolving σ CType := do
  registerWith ((← get).registry.waiters + 1) name type

def changeGraph (change : Graph → Graph) : Resolving σ Unit :=
  modify fun session =>
    let registry := session.registry
    { session with registry := { registry with graph := change registry.graph } }

def isSkipped (header : Path) (node : Json) : Resolving σ Bool := do
  let known := (← graph).has
  let (skipped, told) ←
    Act.zoom Session.includer (fun session includer => { session with includer })
      (Origin.skips header known node)
  note told
  return skipped

end

end NativeBindings.Resolve
