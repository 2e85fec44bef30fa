import NativeBindings.Layout.Bench

/-!
Asking with a small program for each question, which prints one number.
-/
namespace NativeBindings.Layout.Probe

def expression : Query → String
  | .sizeOf type => "sizeof(" ++ type.plain ++ ")"
  | .offsetOf type field =>
    "(size_t)&(reinterpret_cast<" ++ type.plain ++ "*>(0)->" ++ field.plain ++ ")"
  | .fieldSizeOf type field =>
    "sizeof(reinterpret_cast<" ++ type.plain ++ "*>(0)->" ++ field.plain ++ ")"

def announcement : Query → String
  | .sizeOf type => "Querying sizeof \"" ++ type.plain ++ "\""
  | .offsetOf type field =>
    "Querying offsetof \"" ++ type.plain ++ "\".\"" ++ field.plain ++ "\""
  | .fieldSizeOf type field =>
    "Querying sizeof \"" ++ type.plain ++ "\".\"" ++ field.plain ++ "\""

def program (header expression : String) : String :=
  "#include \"" ++ header ++ "\"\n#include <stdio.h>\n\nint main() \x7b\n" ++
    "    printf(\"[ %lu ]\", (unsigned long)(" ++ expression ++ "));\n    return 0;\n\x7d\n"

/-- Whether a fault means that the program printed something else than a number in a list. -/
def isUnexpected : Fault → Bool
  | .index _ | .mismatch _ | .value _ => true
  | _ => false

/-- The first item of what the program printed. -/
def answerIn (output expression : String) : Except Fault Int :=
  let unexpected : Fault :=
    .layout ("unexpected probe output " ++ Text.quoted output ++ " for " ++ expression)
  let found : Except Fault Int :=
    match Json.read output with
    | .ok printed => (printed.item 0).bind integerValue
    | .error (.malformed _) => .error unexpected
    | .error (.beyond fault) => .error fault
  found.mapError fun fault => if isUnexpected fault then unexpected else fault

def fresh (header : Path) (query : Query) : Act Bench Amount := do
  note (Journal.info (announcement query))
  let place ← (← get).shop.world.absolute header
  modify fun bench => { bench with asked := bench.asked + 1 }
  let output ← inWorkshop (Workshop.compileAndRun (program place.text (expression query)))
  return .int (← answerIn output (expression query))

end NativeBindings.Layout.Probe
