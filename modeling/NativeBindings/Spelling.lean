import NativeBindings.Numeral
import NativeBindings.Text.Affix
import NativeBindings.Text.WordChar

/-!
Spellings of qualified types, as a C compiler prints them. A spelling is an array, the text type
`const char *`, a pointer or a name, tried in this order.
-/
namespace NativeBindings.Spelling

open Text

/-- Tags and qualifiers before a name. -/
def leading : List (List Char) :=
  ["struct ".toList, "union ".toList, "enum ".toList, "const ".toList, "volatile ".toList]

/-- Qualifiers after a name. -/
def trailing : List (List Char) := [" const".toList, " volatile".toList]

def dropLeading (name word : List Char) : List Char :=
  match afterStart? word name with
  | some rest => trimLeft rest
  | none => name

def dropTrailing (name word : List Char) : List Char :=
  match beforeEnd? word name with
  | some rest => trimRight rest
  | none => name

/-- Every word once, in the order of the two lists. -/
def dropOnce (name : List Char) : List Char :=
  trailing.foldl dropTrailing (leading.foldl dropLeading name)

/-- Rounds until one changes nothing. Each other round shortens the name, so the length of the name
is fuel enough. -/
def dropAll : Nat → List Char → List Char
  | 0, name => name
  | fuel + 1, name => if dropOnce name = name then name else dropAll fuel (dropOnce name)

/-- A name without tags, qualifiers and the blanks around them. -/
def normalChars (s : List Char) : List Char := dropAll (trim s).length (trim s)

def normal (s : String) : String := String.ofList (normalChars s.toList)

/-- What a spelling says. The base of a pointer may be a pointer spelling. -/
inductive Shape where
  | array (element : String) (length : Nat)
  | cstring
  | pointer (base : String) (isConst : Bool)
  | name (name : String)
  deriving DecidableEq, Repr

/-- The digits of one dimension in brackets, and what follows it. -/
def dimension? : List Char → Option (List Char × List Char)
  | '[' :: rest =>
    match rest.takeWhile isDecimal, rest.dropWhile isDecimal with
    | [], _ => none
    | digits, ']' :: after => some (digits, after)
    | _, _ => none
  | _ => none

/-- Whether a text is a row of dimensions. `inside` counts the digits since the last bracket. -/
def isDimensions : (inside : Option Nat) → List Char → Bool
  | none, [] => true
  | none, c :: rest => c == '[' && isDimensions (some 0) rest
  | some _, [] => false
  | some n, c :: rest =>
    if isDecimal c then isDimensions (some (n + 1)) rest
    else c == ']' && n != 0 && isDimensions none rest

/-- The shortest element on one line that only blanks and dimensions follow, its further dimensions,
and the digits of the first one. `before` holds what was passed, the last character first. -/
def array? (before : List Char) : List Char → Option (List Char × List Char)
  | [] => none
  | c :: rest =>
    if c = '\n' then none
    else
      match dimension? (trimLeft rest) with
      | some (digits, after) =>
        if isDimensions none after then some (trim (c :: before).reverse ++ after, digits)
        else array? (c :: before) rest
      | none => array? (c :: before) rest

/-- The length that digits write, if they are not too many. -/
def lengthOf (digits : List Char) : Except Fault Nat :=
  (Numeral.read (String.ofList digits)).map Int.toNat

def tags : List (List Char) := ["struct".toList, "union".toList, "enum".toList]

/-- The blanks and the rest after a tag. -/
def afterTag? (s : List Char) : Option (List Char × List Char) := do
  let rest ← tags.findSome? fun tag => afterStart? tag s
  let gap := rest.takeWhile isBlank
  if gap.isEmpty then none else some (gap, rest.dropWhile isBlank)

def isWord (s : List Char) : Bool := !s.isEmpty && s.all isWordChar

/-- The word in `const word *`, a tag before it left out. -/
def constPointer? (s : List Char) : Option (List Char) := do
  let body ← afterStart? "const ".toList s
  let body ← beforeEnd? " *".toList body
  if isWord body then some body
  else
    let (_, word) ← afterTag? body
    if isWord word then some word else none

/-- A text on one line without the blanks after it. -/
def lineBase? (body : List Char) : Option (List Char) :=
  let base := trimRight body
  if base.isEmpty || base.contains '\n' then none else some base

/-- What stands before the star of a pointer, a tag left out. Of a tag alone the blanks after the
first are left, unless they are line ends. -/
def pointee? (body : List Char) : Option (List Char) :=
  match afterTag? body with
  | some (gap, []) =>
    if (gap.drop 1).any (· != '\n') then some [] else lineBase? body
  | some (_, rest) => lineBase? rest
  | none => lineBase? body

/-- The last star, if only `const` follows it, and what precedes it. -/
def beforeStar? (s : List Char) : Option (List Char) :=
  let after := (s.reverse.takeWhile (· != '*')).reverse
  if trimLeft after = [] || trimLeft after = "const".toList then
    match s.reverse.dropWhile (· != '*') with
    | [] => none
    | _ :: before => some before.reverse
  else none

def pointer? (s : List Char) : Option Shape := do
  let body ← beforeStar? s
  let found ← pointee? body
  let base := trim found
  if !base.contains '*' && "const ".toList.isPrefixOf base then
    some (.pointer (String.ofList (normalChars base)) true)
  else some (.pointer (String.ofList base) false)

/-- The shape of a spelling that is no array. -/
def parseSingle (spelling : List Char) : Shape :=
  if spelling = "const char *".toList then .cstring
  else
    match constPointer? spelling with
    | some word => .pointer (String.ofList word) true
    | none => (pointer? spelling).getD (.name (String.ofList (normalChars spelling)))

/-- The shape of a spelling. The length of an array may have too many digits. -/
def parse (s : String) : Except Fault Shape :=
  let spelling := trim s.toList
  match array? [] spelling with
  | some (element, digits) => (lengthOf digits).map (.array (String.ofList element))
  | none => .ok (parseSingle spelling)

end NativeBindings.Spelling
