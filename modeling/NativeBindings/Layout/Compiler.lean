import NativeBindings.Layout.DebugInfo
import NativeBindings.Layout.Probe

/-!
The compiler as an oracle.
-/
namespace NativeBindings.Layout

def freshBy : Backend → Path → Query → Act Bench Amount
  | .probe => Probe.fresh
  | .debug => DebugInfo.fresh

/-- Sees that a header has a place, which probes need from the start. -/
def prepare (backend : Backend) (header : Path) : Act World Unit := do
  if backend = .probe then
    let _ ← (← get).absolute header

/-- The answer to a question about a header, which is known by its path as it was given. -/
def answerBy (backend : Backend) (header : String) (query : Query) : Act Bench Amount :=
  cached header (freshBy backend (Path.ofText header)) query

/-- The notes of an act apart from those before it. -/
def apart {α : Type} (act : Act Bench α) (bench : Bench) : Except Fault α × Journal × Bench :=
  let earlier := bench.shop.world.journal
  let withJournal := fun (bench : Bench) (journal : Journal) =>
    { bench with shop := { bench.shop with world := { bench.shop.world with journal } } }
  let (outcome, changed) := act.runOn (withJournal bench [])
  (outcome, changed.shop.world.journal, withJournal changed earlier)

def compilerOracle (backend : Backend) (header : String) : Oracle Bench := fun query bench =>
  apart (answerBy backend header query) bench

end NativeBindings.Layout
