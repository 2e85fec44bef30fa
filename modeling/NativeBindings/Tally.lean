import NativeBindings.Noted

/-!
Counts of a run, and the operations that are under way.
-/
namespace NativeBindings

structure Tally where
  declarations : Int := 0
  queries : Int := 0
  fragments : Int := 0
  failures : Int := 0
  /-- The operations under way, the outermost first. -/
  stack : List String := []
  deriving DecidableEq, Repr

namespace Tally

def context (tally : Tally) : String :=
  let joined := "/".intercalate tally.stack
  if joined == "" then "idle" else joined

def start (tally : Tally) (operation : String) : Tally :=
  { tally with stack := tally.stack ++ [operation] }

def stop (tally : Tally) : Tally := { tally with stack := tally.stack.dropLast }

def begun (tally : Tally) : Journal := Journal.debug ("[" ++ tally.context ++ "] begin")

def done (tally : Tally) : Journal :=
  Journal.debug ("[" ++ tally.context ++ "] done in " ++ elapsed)

def failed (operation reason : String) : Journal :=
  Journal.error ("Operation " ++ operation ++ " failed after " ++ elapsed ++ ": " ++ reason)

def summary (tally : Tally) : Journal :=
  Journal.info ("Bindings generated: " ++ toString tally.declarations ++ " declarations, " ++
    toString tally.queries ++ " layout queries, " ++ toString tally.fragments ++ " fragments, " ++
    toString tally.failures ++ " failed symbols in " ++ elapsed)

end Tally

/-- A state with a tally. -/
class Tallied (σ : Type) where
  tally : σ → Tally
  put : Tally → σ → σ

section
variable {σ : Type} [Tallied σ]

def tally : Act σ Tally := return Tallied.tally (← get)

def changeTally (change : Tally → Tally) : Act σ Unit :=
  modify fun state => Tallied.put (change (Tallied.tally state)) state

/-- An operation, noted when it begins and when it ends. -/
def operation {α : Type} [Noting σ] (name : String) (act : Act σ α) : Act σ α := do
  changeTally (Tally.start · name)
  note (← tally).begun
  match ← Act.outcome act with
  | .ok value =>
    note (← tally).done
    changeTally Tally.stop
    return value
  | .error fault =>
    note (Tally.failed name fault.message)
    changeTally Tally.stop
    throw fault

end

end NativeBindings
