import NativeBindings.Layout.Bench

/-!
Asking the debug information of one object. It is compiled at the first question, and the layouts
of all named types are read from it.
-/
namespace NativeBindings.Layout.DebugInfo

/-- The program that has the types of a header. -/
def program (header : String) : String := "#include \"" ++ header ++ "\"\n"

def load (header : Path) : Act Bench Debug.Index :=
  timed "DwarfLayoutOracle._load_layouts" do
    let place ← (← get).shop.world.absolute header
    let object ← inWorkshop (Workshop.compileObject (program place.text) "layout_probe")
    match (← get).shop.world.debug with
    | none => throw (.layout ("probe object " ++ object.text ++ " carries no DWARF info"))
    | some info =>
      let (found, told) := Debug.index info
      note told
      let index ← found
      let count := index.length
      note (Journal.info s!"Indexed {count} types from DWARF info")
      return index

/-- The layouts, loaded if they are not yet. -/
def layouts (header : Path) : Act Bench Debug.Index := do
  match (← get).layouts with
  | some index => return index
  | none =>
    let index ← load header
    modify fun bench => { bench with layouts := some index }
    return index

/-- The part of a name after its last double colon. -/
def lastName : List Char → List Char → List Char
  | done, [] => done.reverse
  | _, ':' :: ':' :: rest => lastName [] rest
  | done, c :: rest => lastName (c :: done) rest

/-- The names to look for: the name itself, its last word and its last part. -/
def candidates (type : String) : Except Fault (List String) :=
  match (Text.words type.toList).getLast? with
  | none => .error (.index "list index out of range")
  | some word => .ok [type, String.ofList word, String.ofList (lastName [] type.toList)]

def layoutOf (header : Path) (type : String) : Act Bench Debug.TypeLayout := do
  let index ← layouts header
  modify fun bench => { bench with asked := bench.asked + 1 }
  match (← candidates type).findSome? fun name => Table.find? name index with
  | some layout => return layout
  | none => throw (.layout ("type \"" ++ type ++ "\" not found in DWARF info"))

/-- The offset and the size of a member; a null is no member. -/
def memberOf (header : Path) (type : String) (field : Label) : Act Bench (Int × Amount) := do
  let members := (← layoutOf header type).members
  let found := match field with
    | .str name => Table.find? name members
    | _ => none
  match found with
  | some place => return place
  | none => throw (.layout ("field \"" ++ field.plain ++ "\" not found in \"" ++ type ++ "\""))

def fresh (header : Path) : Query → Act Bench Amount
  | .sizeOf type => return (← layoutOf header type.plain).size
  | .offsetOf type field => return .int (← memberOf header type.plain field).1
  | .fieldSizeOf type field => return (← memberOf header type.plain field).2

end NativeBindings.Layout.DebugInfo
