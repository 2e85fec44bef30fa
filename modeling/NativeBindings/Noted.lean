import NativeBindings.Act
import NativeBindings.Journal

/-!
Acts that tell what they do.
-/
namespace NativeBindings

/-- A state that holds a journal. -/
class Noting (σ : Type) where
  tell : Journal → σ → σ

section
variable {σ : Type} [Noting σ]

def note (journal : Journal) : Act σ Unit := modify (Noting.tell journal)

/-- A stage, with notes of its start and of its end. A fault is noted and goes on. -/
def timed {α : Type} (stage : String) (act : Act σ α) : Act σ α :=
  Act.ofRun fun state =>
    let started := Noting.tell (Journal.debug (stage ++ ": started")) state
    match act.runOn started with
    | (.ok value, changed) =>
      (.ok value, Noting.tell (Journal.debug (stage ++ ": finished in " ++ elapsed)) changed)
    | (.error fault, changed) =>
      let text := stage ++ ": " ++ fault.title ++ " after " ++ elapsed ++ ": " ++ fault.message
      (.error fault, Noting.tell (Journal.error text) changed)

end

end NativeBindings
