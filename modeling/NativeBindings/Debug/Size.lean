import NativeBindings.CType
import NativeBindings.Debug.Entry

/-!
Sizes of types. Typedefs, qualifiers and enumerations without a size of their own take that of the
type they name; at most 32 such links are followed.
-/
namespace NativeBindings.Debug

def maxLinks : Nat := 32

/-- Tags that name another type. -/
def transparentTags : List String :=
  ["DW_TAG_typedef", "DW_TAG_const_type", "DW_TAG_volatile_type", "DW_TAG_restrict_type",
    "DW_TAG_atomic_type"]

def pointerTags : List String :=
  ["DW_TAG_pointer_type", "DW_TAG_reference_type", "DW_TAG_rvalue_reference_type"]

def recordTags : List String :=
  ["DW_TAG_structure_type", "DW_TAG_union_type", "DW_TAG_class_type"]

def Entry.isTransparent (entry : Entry) : Bool := transparentTags.contains entry.tag

def Entry.isRecord (entry : Entry) : Bool := recordTags.contains entry.tag

def tooDeep {α : Type} (entry : Entry) : Except Fault α :=
  .error (.layout ("type chain too deep at " ++ entry.nameShown))

/-- The length of one dimension; none if it is flexible. -/
def dimension (entry : Entry) : Except Fault (Option Amount) :=
  match entry.value? "count", entry.value? "upper_bound" with
  | some n, _ => .ok (some n)
  | none, some n => (Amount.successor n).map some
  | none, none => .ok none

/-- The product of the dimensions after a factor; zero as soon as one is flexible. -/
def arrayLengthFrom (factor : Amount) : List Entry → Except Fault Amount
  | [] => .ok factor
  | entry :: rest =>
    if entry.tag != "DW_TAG_subrange_type" then arrayLengthFrom factor rest
    else do
      match ← dimension entry with
      | some n => arrayLengthFrom (← Amount.product "*=" factor n) rest
      | none => return .int 0

def arrayLength (info : Info) (entry : Entry) : Except Fault Amount :=
  arrayLengthFrom (.int 1) (info.childrenOf entry)

/-- The size of a type with so many links left. -/
def byteSizeWith (info : Info) : Nat → Option Entry → Except Fault Amount
  | _, none => .error (.layout "cannot size an unknown (void) type")
  | 0, some entry => tooDeep entry
  | left + 1, some entry =>
    match entry.value? "byte_size" with
    | some n => .ok n
    | none =>
      if entry.isTransparent || entry.tag == "DW_TAG_enumeration_type" then
        info.typeOf entry >>= byteSizeWith info left
      else if pointerTags.contains entry.tag then .ok CType.pointerSize
      else if entry.tag == "DW_TAG_array_type" then do
        let item ← byteSizeWith info left (← info.typeOf entry)
        Amount.times item (← arrayLength info entry)
      else .error (.layout ("no byte size for " ++ entry.tag ++ " " ++ entry.nameShown))

def byteSize (info : Info) (entry : Option Entry) : Except Fault Amount :=
  byteSizeWith info (maxLinks + 1) entry

/-- The type under typedefs and qualifiers, with so many links left. -/
def strippedWith (info : Info) : Nat → Option Entry → Except Fault (Option Entry)
  | _, none => .ok none
  | left, some entry =>
    if !entry.isTransparent then .ok (some entry)
    else
      match left with
      | 0 => tooDeep entry
      | left + 1 => info.typeOf entry >>= strippedWith info left

def stripped (info : Info) (entry : Option Entry) : Except Fault (Option Entry) :=
  strippedWith info maxLinks entry

end NativeBindings.Debug
