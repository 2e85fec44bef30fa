import NativeBindings.Text.Integer
import NativeBindings.Text.LowerCase
import NativeBindings.World

/-!
Settings of the tools, which the environment may override.
-/
namespace NativeBindings

structure ToolSettings where
  compiler : String := "clang"
  language : String := "c++"
  timeout : Int := 0
  cacheDirectory : String := ".cache"
  persistent : Bool := true
  deriving DecidableEq, Repr

namespace ToolSettings

def start : String := "BINDGEN_"

/-- The words that say yes. -/
def yes : List String := ["true", "1", "yes", "on"]

def textOf (world : World) (key other : String) : String :=
  (world.value? (start ++ key)).getD other

def flagOf (world : World) (key : String) (other : Bool) : Bool :=
  match world.value? (start ++ key) with
  | some raw => yes.contains (Text.lowerCase (Text.stripped raw))
  | none => other

def integerOf (world : World) (key : String) (other : Int) : Int × Journal :=
  match world.value? (start ++ key) with
  | some raw =>
    match Text.readInteger raw.toList with
    | .ok n => (n, [])
    | .error _ =>
      (other, Journal.warning
        ("Ignoring " ++ start ++ key ++ "=" ++ Text.quoted raw ++ ": not an integer"))
  | none => (other, [])

def ofWorld (world : World) : ToolSettings × Journal :=
  let other : ToolSettings := {}
  let (timeout, told) := integerOf world "CLANG_TIMEOUT_S" other.timeout
  ({ compiler := textOf world "CLANG_BINARY" other.compiler
     language := textOf world "CLANG_LANGUAGE" other.language
     timeout
     cacheDirectory := textOf world "CACHE_DIR" other.cacheDirectory
     persistent := flagOf world "ENABLE_PERSISTENT_CACHE" other.persistent }, told)

def read : Act World ToolSettings := do
  let (settings, told) := ofWorld (← get)
  note told
  return settings

end ToolSettings

/-- The path that the cache files of a header start with, in a directory beside it. -/
def cachePathOf (header : Path) : Act World Path := do
  let settings ← ToolSettings.read
  let directory := header.parent.join (Path.ofText settings.cacheDirectory)
  World.makeDirectory directory
  return directory.join (Path.ofText (header.stem ++ "_layout"))

end NativeBindings
