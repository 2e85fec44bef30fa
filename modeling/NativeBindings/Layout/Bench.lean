import NativeBindings.Debug.Index
import NativeBindings.Layout.Cache
import NativeBindings.Toolchain

/-!
Asking the compiler. An answer that the cache has is given without asking; a new one is kept.
-/
namespace NativeBindings.Layout

/-- The compiler and its surroundings, the cache, the number of questions asked, and the layouts
that were read from debug information. -/
structure Bench where
  shop : Workshop
  cache : Cache := {}
  asked : Nat := 0
  layouts : Option Debug.Index := none

instance : Noting Bench where
  tell told bench := { bench with shop := Noting.tell told bench.shop }

def inWorkshop {α : Type} (act : Act Workshop α) : Act Bench α :=
  Act.zoom Bench.shop (fun bench shop => { bench with shop }) act

def inWorld {α : Type} (act : Act World α) : Act Bench α := inWorkshop (Workshop.inWorld act)

/-- How the compiler is asked. -/
inductive Backend where
  | probe
  | debug
  deriving DecidableEq, Repr

/-- An answer from the cache, or a fresh one that is then kept. A null counts as no answer. -/
def cached (header : String) (fresh : Query → Act Bench Amount) (query : Query) :
    Act Bench Amount := do
  let place ← slot header query
  match (← get).cache.find place with
  | .null =>
    let n ← fresh query
    modify fun bench => { bench with cache := bench.cache.put place n }
    return n
  | n => return n

end NativeBindings.Layout
