import NativeBindings.Debug.Members
import NativeBindings.Journal

/-!
The layouts of the named types of a program.
-/
namespace NativeBindings.Debug

/-- Tags of types that may have a name. -/
def namedTags : List String :=
  ["DW_TAG_base_type", "DW_TAG_class_type", "DW_TAG_enumeration_type", "DW_TAG_structure_type",
    "DW_TAG_typedef", "DW_TAG_union_type"]

abbrev Index := Table String TypeLayout

/-- The name of an entry that defines a type. -/
def definedName (entry : Entry) : Option String :=
  if !namedTags.contains entry.tag || entry.has "declaration" then none else entry.nameText

/-- Adds an entry, unless its name is there. A type without a layout is left out. -/
def addEntry (info : Info) (index : Index) (entry : Entry) : Except Fault (Index × Journal) :=
  match definedName entry with
  | none => .ok (index, [])
  | some name =>
    if Table.has name index then .ok (index, [])
    else
      match layout info entry with
      | .ok found => .ok (Table.insert name found index, [])
      | .error fault =>
        if fault.isLayout then
          .ok (index, Journal.debug ("Skipping " ++ name ++ ": " ++ fault.message))
        else .error fault

/-- Adds entries in order. The first of a name counts. -/
def addEntries (info : Info) (index : Index) (told : Journal) :
    List Entry → Except Fault Index × Journal
  | [] => (.ok index, told)
  | entry :: rest =>
    match addEntry info index entry with
    | .ok (next, more) => addEntries info next (told ++ more) rest
    | .error fault => (.error fault, told)

/-- The index of all units. -/
def index (info : Info) : Except Fault Index × Journal :=
  addEntries info [] [] (info.units.flatten.filterMap info.entry?)

end NativeBindings.Debug
