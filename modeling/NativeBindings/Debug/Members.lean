import NativeBindings.Debug.Location
import NativeBindings.Debug.Size

/-!
Members of records at their absolute offsets. The members of an unnamed record count as members of
the record around it; bit-fields have no offset and are left out.
-/
namespace NativeBindings.Debug

abbrev Members := Table String (Int × Amount)

/-- The offset of a member in its record; a member without a place is at the start. -/
def memberOffset (record member : Entry) : Except Fault Int :=
  match Table.find? "data_member_location" member.attributes with
  | none => .ok 0
  | some place =>
    match fixedOffset place with
    | some n => .ok n
    | none => .error (.layout ("member " ++ member.nameShown ++ " of " ++ record.nameShown ++
        " has no constant offset: " ++ place.shown))

/-- The members among the children of a record, onto those before. `inside` gives the members of a
record within it. -/
def membersFrom (info : Info) (inside : Entry → Int → Except Fault Members) (record : Entry)
    (base : Int) (done : Members) : List Entry → Except Fault Members
  | [] => .ok done
  | child :: rest =>
    if child.tag != "DW_TAG_member" then membersFrom info inside record base done rest
    else do
      let type ← info.typeOf child
      let offset ← memberOffset record child
      match child.nameText with
      | none =>
        match ← stripped info type with
        | some inner =>
          if inner.isRecord then
            let more ← inside inner (base + offset)
            membersFrom info inside record base (Table.insertAll done more) rest
          else membersFrom info inside record base done rest
        | none => membersFrom info inside record base done rest
      | some name =>
        if child.has "bit_size" then membersFrom info inside record base done rest
        else
          let size ← byteSize info type
          membersFrom info inside record base (Table.insert name (base + offset, size) done) rest

/-- The members of a record from a base offset on, with fuel for the records within it. -/
def membersWith (info : Info) : Nat → Entry → Int → Except Fault Members
  | 0, _, _ => .error (.endless "")
  | fuel + 1, record, base =>
    membersFrom info (membersWith info fuel) record base [] (info.childrenOf record)

/-- The members of a record. A chain of records longer than there are entries never ends. -/
def members (info : Info) (record : Entry) (base : Int) : Except Fault Members :=
  membersWith info (info.entries.length + 1) record base

structure TypeLayout where
  size : Amount
  members : Members := []

def layout (info : Info) (entry : Entry) : Except Fault TypeLayout := do
  let size ← byteSize info (some entry)
  match ← stripped info (some entry) with
  | some record =>
    if record.isRecord then return { size, members := ← members info record 0 }
    else return { size }
  | none => return { size }

end NativeBindings.Debug
