/-!
Words that no module and no declaration of one may be called.
-/
namespace NativeBindings

/-- The keywords of the language that modules are written in. -/
def keywords : List String :=
  ["False", "None", "True", "and", "as", "assert", "async", "await", "break", "class",
    "continue", "def", "del", "elif", "else", "except", "finally", "for", "from", "global",
    "if", "import", "in", "is", "lambda", "nonlocal", "not", "or", "pass", "raise", "return",
    "try", "while", "with", "yield"]

def isKeyword (word : String) : Bool := keywords.contains word

end NativeBindings
