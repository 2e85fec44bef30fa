import NativeBindings.Journal
import NativeBindings.Json.Key

/-!
Units of work that fail alone. The symbol of a failed unit is recorded, which takes one that can be
a key; the fault goes on only where the first failure is to end the work.
-/
namespace NativeBindings

/-- The symbols that failed. -/
abbrev Failures := List Label

def failureText (symbol : Label) (context reason : String) : String :=
  "Generation failed for \"" ++ symbol.plain ++ "\"" ++
    (if context == "" then "" else " (" ++ context ++ ")") ++ ": " ++ reason

/-- The outcome of a unit: its result, if it has one, or what ends the work; the failed symbols
after it, and what is told. A failure is of a kind that tells its reason and that faults are of. -/
def tryUnit {ε α : Type} (reason : ε → String) (ofFault : Fault → ε) (failFast : Bool)
    (failed : Failures) (symbol : Label) (context : String) :
    Except ε α → Except ε (Option α) × Failures × Journal
  | .ok value => (.ok (some value), failed, [])
  | .error failure =>
    let warning := Journal.warning (failureText symbol context (reason failure))
    match symbol.asKey with
    | .error fault => (.error (ofFault fault), failed, warning)
    | .ok symbol =>
      if failFast then (.error failure, failed.insert symbol, warning)
      else
        (.ok none, failed.insert symbol,
          warning ++ Journal.debug "fail_fast is off, skipping symbol")

end NativeBindings
