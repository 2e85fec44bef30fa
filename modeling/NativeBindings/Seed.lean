import NativeBindings.Graph

/-!
The declarations that every graph starts with: the primitive types, the synonyms of the language
and the usual platform names.
-/
namespace NativeBindings.Seed

def cstring : String := "CString"

def opaquePointer : String := "opaque_pointer"

def primitives : List (String × Int × Carrier) :=
  [("int8_t", 1, .int8), ("int16_t", 2, .int16), ("int32_t", 4, .int32), ("int64_t", 8, .int64),
    ("uint8_t", 1, .uint8), ("uint16_t", 2, .uint16), ("uint32_t", 4, .uint32),
    ("uint64_t", 8, .uint64), ("size_t", 8, .uint64), ("ssize_t", 8, .int64), ("void", 0, .void),
    (cstring, CType.pointerBytes, .cstring), ("float", 4, .float), ("double", 8, .double),
    (opaquePointer, CType.pointerBytes, .pointer)]

/-- Synonyms of the language, which no module declares. -/
def transparent : List (String × String) :=
  [("char", "int8_t"), ("signed char", "int8_t"), ("unsigned char", "uint8_t"),
    ("short", "int16_t"), ("unsigned short", "uint16_t"), ("int", "int32_t"),
    ("unsigned int", "uint32_t"), ("long", "int64_t"), ("unsigned long", "uint64_t"),
    ("long long", "int64_t"), ("unsigned long long", "uint64_t"), ("bool", "uint8_t"),
    ("_Bool", "uint8_t")]

/-- Names of the platform, which a module declares. -/
def platform : List (String × String) :=
  [("u_int8_t", "uint8_t"), ("u_int16_t", "uint16_t"), ("u_int32_t", "uint32_t"),
    ("u_int64_t", "uint64_t"), ("__int8_t", "int8_t"), ("__int16_t", "int16_t"),
    ("__int32_t", "int32_t"), ("__int64_t", "int64_t"), ("__uint8_t", "uint8_t"),
    ("__uint16_t", "uint16_t"), ("__uint32_t", "uint32_t"), ("__uint64_t", "uint64_t"),
    ("intptr_t", "int64_t"), ("uintptr_t", "uint64_t")]

/-- The names of all of them. -/
def names : List String :=
  primitives.map (·.1) ++ transparent.map (·.1) ++ platform.map (·.1)

def addPrimitive (graph : Graph) (name : String) (size : Int) (carrier : Carrier) : Graph :=
  graph.assign (.str name) (.builtin { name := .str name, size := .int size } carrier)

def addSynonym (isTransparent : Bool) (graph : Graph) (name target : String) : Graph :=
  match graph.find? (.str target) with
  | some type =>
    graph.assign (.str name) (.synonym { name := .str name, size := type.size } type isTransparent)
  | none => graph

/-- A graph with every seed set anew. -/
def sow (graph : Graph) : Graph :=
  let built := primitives.foldl
    (fun g (name, size, carrier) => addPrimitive g name size carrier) graph
  let spoken := transparent.foldl (fun g (name, target) => addSynonym true g name target) built
  platform.foldl (fun g (name, target) => addSynonym false g name target) spoken

end NativeBindings.Seed
