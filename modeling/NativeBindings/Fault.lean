import NativeBindings.Label
import NativeBindings.Text.Quoted

/-!
What can go wrong, with the class and the message of each fault. A resolution fault ends the run;
a generation fault concerns one symbol; a layout fault means that the compiler gave no answer. The
others come from values of the wrong shape and from files.
-/
namespace NativeBindings

inductive FileProblem where
  | missing
  | exists
  | notDirectory
  | isDirectory
  | longName
  deriving DecidableEq, Repr

inductive Fault where
  | unknownName (name : Label)
  | enumExpression (reason : String)
  | mixedCounter (enum member : Label)
  | memberShape (reason : String)
  | pendingAliases (pairs : List (Label × Label))
  | resolution (reason : String)
  | generation (reason : String)
  | unmappable (reason : String)
  | layout (reason : String)
  | compiler (reason : String)
  | missingKey (key : String)
  | value (reason : String)
  | overflow (reason : String)
  | noAttribute (owner name : String)
  | index (reason : String)
  | mismatch (reason : String)
  | file (problem : FileProblem) (path : String)
  | pattern (reason : String)
  | recursion (reason : String)
  deriving DecidableEq, Repr

namespace FileProblem

def title : FileProblem → String
  | missing => "FileNotFoundError"
  | .exists => "FileExistsError"
  | notDirectory => "NotADirectoryError"
  | isDirectory => "IsADirectoryError"
  | longName => "OSError"

def reason : FileProblem → String
  | missing => "[Errno 2] No such file or directory"
  | .exists => "[Errno 17] File exists"
  | notDirectory => "[Errno 20] Not a directory"
  | isDirectory => "[Errno 21] Is a directory"
  | longName => "[Errno 36] File name too long"

end FileProblem

namespace Fault

/-- The fault of going down without end; `aim` tells what for. -/
def endless (aim : String) : Fault := recursion ("maximum recursion depth exceeded" ++ aim)

/-- The class that messages name. -/
def title : Fault → String
  | unknownName _ => "DeclarationNotFoundError"
  | enumExpression _ => "UnknownEnumExpressionError"
  | mixedCounter _ _ => "MixedEnumCounterError"
  | memberShape _ => "UnknownMemberShapeError"
  | pendingAliases _ => "UnresolvedLazyAliasError"
  | resolution _ => "ResolutionError"
  | generation _ => "GenerationError"
  | unmappable _ => "UnmappableTypeError"
  | layout _ => "LayoutQueryError"
  | compiler _ => "ClangError"
  | missingKey _ => "KeyError"
  | value _ => "ValueError"
  | overflow _ => "OverflowError"
  | noAttribute _ _ => "AttributeError"
  | index _ => "IndexError"
  | mismatch _ => "TypeError"
  | file problem _ => problem.title
  | pattern _ => "error"
  | recursion _ => "RecursionError"

def message : Fault → String
  | unknownName name => "declaration not found \"" ++ name.plain ++ "\""
  | enumExpression reason => reason
  | mixedCounter enum member =>
    "enum \"" ++ enum.plain ++ "\" has implicit member \"" ++ member.plain ++
      "\" after a non-literal value"
  | memberShape reason => reason
  | pendingAliases pairs =>
    "unresolved lazy aliases: " ++
      ", ".intercalate (pairs.map fun (name, tag) => name.plain ++ " -> " ++ tag.plain)
  | resolution reason => reason
  | generation reason => reason
  | unmappable reason => reason
  | layout reason => reason
  | compiler reason => reason
  | missingKey key => key
  | value reason => reason
  | overflow reason => reason
  | noAttribute owner name => Text.quoted owner ++ " object has no attribute " ++ Text.quoted name
  | index reason => reason
  | mismatch reason => reason
  | file problem path => problem.reason ++ ": " ++ Text.quoted path
  | pattern reason => reason
  | recursion reason => reason

/-- Whether a fault belongs to the task itself, so that a run reports it and ends in order. -/
def isExpected : Fault → Bool
  | unknownName _ | enumExpression _ | mixedCounter _ _ | memberShape _ | pendingAliases _
  | resolution _ | generation _ | unmappable _ | layout _ | compiler _ => true
  | _ => false

/-- Whether a fault tells that the compiler gave no answer. -/
def isLayout : Fault → Bool
  | layout _ | compiler _ => true
  | _ => false

end Fault

end NativeBindings
