import NativeBindings.Resolve.Session

/-!
Structs and unions. Named records inside a record become declarations of their own, the members of
unnamed ones belong to the enclosing record, and an unnamed union before a field is the type of
that field. Offsets and sizes come from the oracle.
-/
namespace NativeBindings.Resolve

open Json

def recordKinds : List String := ["RecordDecl", "CXXRecordDecl"]

/-- Whether a member is a comment or an attribute. -/
def isSkippable (node : Json) : Except Fault Bool := do
  let kind ← (← node.fieldOr "kind" (str "")).asText "endswith"
  return kind == "FullComment" || "Attr".toList.isSuffixOf kind.toList

/-- Whether a member stands for nothing of its own. -/
def isMute (node : Json) : Except Fault Bool := do
  return (← isSkippable node) || (← node.field "kind").isKind "IndirectFieldDecl"

/-- Whether a member is the field that an unnamed record before it is the type of. -/
def isNaming (following record : Json) : Except Fault Bool := do
  match following with
  | null => return false
  | _ =>
    if !(← following.field "kind").isKind "FieldDecl" then return false
    if !(← following.field "name").holds then return false
    if (← following.field "isImplicit").holds then return false
    Location.encloses following record

/-- The children of a node, none if there is no list of them. -/
def children (node : Json) : Except Fault Json := return (← node.field "inner").orElse (arr [])

/-- The variants of a union, all of them at its start. -/
def variants (graph : Graph) : List Json → Except Fault (List (Field CType))
  | [] => return []
  | node :: rest => do
    if ← isSkippable node then variants graph rest
    else
      let name ← node.field "name"
      if !(← node.field "kind").isKind "FieldDecl" || !name.holds then
        .error (.memberShape ("unsupported union variant " ++ node.shown))
      else
        let type ← spelledType graph node
        let others ← variants graph rest
        return { name, offset := .int 0, size := type.size, type } :: others

section
variable {σ : Type} (oracle : Layout.Oracle σ)

def member (layout : Label) (node : Json) : Resolving σ (Field CType) := do
  let name ← node.need "name"
  let type ← spelledType (← graph) node
  let offset ← ask oracle (.offsetOf layout name)
  return { name, offset, size := type.size, type }

/-- The field whose type is an unnamed union. -/
def namedUnion (layout name : Label) (node : Json) : Resolving σ (Field CType) := do
  let tag ← node.field "tagUsed"
  if !tag.isKind "union" then
    throw (.memberShape ("anonymous " ++ tag.plain ++ " field \"" ++ name.plain ++ "\" in \"" ++
      layout.plain ++ "\""))
  let inside ← variants (← graph) (← (← children node).items)
  let offset ← ask oracle (.offsetOf layout name)
  let size ← ask oracle (.fieldSizeOf layout name)
  return { name, offset, size, type := .union { name := .null, size } inside }

/-- The members of an unnamed record; `inside` gives those of a record within it. -/
def unnamedMembers (layout : Label) (inside : Json → Resolving σ (List (Field CType))) :
    List Json → Resolving σ (List (Field CType))
  | [] => return []
  | node :: rest => do
    let kind ← node.field "kind"
    if ← isMute node then unnamedMembers layout inside rest
    else
      let named := (← node.field "name").holds
      if (← kind.isAmong recordKinds) && !named then
        return (← inside node) ++ (← unnamedMembers layout inside rest)
      else if !kind.isKind "FieldDecl" then
        throw (.memberShape ("unsupported anonymous member " ++ node.shown))
      else if !named then unnamedMembers layout inside rest
      else
        let field ← member oracle layout node
        return field :: (← unnamedMembers layout inside rest)

/-- The members of an unnamed record and of the unnamed records within it. -/
def flattenWith (layout : Label) : Nat → Json → Resolving σ (List (Field CType))
  | 0, node => throw (.memberShape ("unsupported anonymous member " ++ node.shown))
  | fuel + 1, node => do
    unnamedMembers oracle layout (flattenWith layout fuel) (← (← children node).items)

def flatten (layout : Label) (node : Json) : Resolving σ (List (Field CType)) :=
  flattenWith oracle layout (node.depth + 1) node

/-- The fields of a record; `nested` declares a named record within it under a name and a layout
name. -/
def members (nested : Json → Label → Label → Resolving σ CType) (name layout : Label) :
    List Json → Resolving σ (List (Field CType))
  | [] => return []
  | node :: rest => do
    let kind ← node.field "kind"
    if ← isMute node then members nested name layout rest
    else if ← kind.isAmong recordKinds then
      let own ← node.field "name"
      if own.holds then
        if !(← node.field "inner").isNull then
          let _ ← nested node own (.str (layout.plain ++ "::" ++ own.plain))
        members nested name layout rest
      else
        match rest with
        | following :: after =>
          if ← isNaming following node then
            let field ← namedUnion oracle layout (← following.need "name") node
            return field :: (← members nested name layout after)
          else
            return (← flatten oracle layout node) ++
              (← members nested name layout (following :: after))
        | [] => flatten oracle layout node
    else if !kind.isKind "FieldDecl" then
      throw (.memberShape ("unknown member kind " ++ kind.shown ++ " in \"" ++ name.plain ++ "\""))
    else if !(← node.field "name").holds then
      if (← node.field "isImplicit").holds then members nested name layout rest
      else throw (.memberShape ("unnamed member in \"" ++ name.plain ++ "\": " ++ node.shown))
    else
      let field ← member oracle layout node
      return field :: (← members nested name layout rest)

/-- Declares a record, after the named records within it. -/
def recordWith : Nat → Json → Label → Label → Resolving σ CType
  | 0, node, _, _ => throw (.memberShape ("record too deep: " ++ node.shown))
  | fuel + 1, node, name, layout => do
    let size ← ask oracle (.sizeOf layout)
    let fields ← members oracle (recordWith fuel) name layout (← (← children node).sequence)
    register name (.record { name, size } fields)

/-- Declares the record of a node. The layout name is the one that the oracle knows. -/
def record (node : Json) (name layout : Label) : Resolving σ CType :=
  recordWith oracle (node.depth + 1) node name layout

end

end NativeBindings.Resolve
