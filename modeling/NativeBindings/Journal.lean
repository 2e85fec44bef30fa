/-!
What a run tells about itself.
-/
namespace NativeBindings

inductive Level where
  | debug | info | warning | error
  deriving DecidableEq, Repr

structure Entry where
  level : Level
  text : String
  deriving DecidableEq, Repr

abbrev Journal := List Entry

def Level.title : Level → String
  | debug => "DEBUG"
  | info => "INFO"
  | warning => "WARNING"
  | error => "ERROR"

namespace Journal

def debug (text : String) : Journal := [{ level := .debug, text }]

def info (text : String) : Journal := [{ level := .info, text }]

def warning (text : String) : Journal := [{ level := .warning, text }]

def error (text : String) : Journal := [{ level := .error, text }]

end Journal

/-- A duration in seconds. Runs are not timed. -/
def elapsed : String := "0.000s"

end NativeBindings
