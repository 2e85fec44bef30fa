/-!
What a generated module is to hold.
-/
namespace NativeBindings.Emit

/-- The path of the library beside the module, as an expression of the module. -/
def defaultLibrary : String := "str(_Path(__file__).parent / \"mylib\")"

/-- Lines that define the path of the library with the suffix of the platform, from an expression
for the path without it; and the name of the variable. -/
def suffixedLibrary (path : String) : List String × String :=
  (["_LIB_SUFFIX = \x7b\"darwin\": \"dylib\", \"win32\": \"dll\"\x7d.get(_sys.platform, \"so\")\n",
    "_LIB_PATH = " ++ path ++ " + \".\" + _LIB_SUFFIX\n"], "_LIB_PATH")

structure Options where
  indentWidth : Int := 4
  readers : Bool := true
  writers : Bool := true
  helpers : Bool := true
  signatureTypes : Bool := false
  wrappers : Bool := true
  symbols : Bool := true
  recordSizes : Bool := false
  allocators : Bool := true
  failFast : Bool := false
  library : String := defaultLibrary
  libraryCode : String → List String × String := suffixedLibrary

end NativeBindings.Emit
