import NativeBindings.Layout.Cache
import NativeBindings.Proofs.Json.RoundTrip
import NativeBindings.Proofs.World

/-!
A cache over two runs. What one run saves, the next one loads: every slot holds the same answer.
-/
namespace NativeBindings.Layout.Cache

open Act Outcome World Json

section
variable {entries : List (String × Int)} {table : Table String Amount}

/-- A table of integers, each under a key of its own. -/
def Integral (table : Table String Amount) : Prop :=
  ∃ entries, (Table.keys entries).Nodup ∧ table = ofIntegers entries

theorem keys_ofIntegers (entries : List (String × Int)) :
    Table.keys (ofIntegers entries) = Table.keys entries := by
  rw [Table.keys, ofIntegers, List.map_map]
  rfl

theorem insert_ofIntegers (key : String) (n : Int) (entries : List (String × Int)) :
    Table.insert key (.int n) (ofIntegers entries) = ofIntegers (Table.insert key n entries) := by
  induction entries with
  | nil => rfl
  | cons entry rest ih =>
    obtain ⟨other, m⟩ := entry
    change Table.insert key (.int n) ((other, .int m) :: ofIntegers rest) = _
    rw [Table.insert, Table.insert]
    split
    · rfl
    · rw [ih]
      rfl

theorem Integral.insert (integral : Integral table) (key : String) (n : Int) :
    Integral (Table.insert key (.int n) table) := by
  obtain ⟨entries, apart, rfl⟩ := integral
  exact ⟨Table.insert key n entries, Table.nodup_insert apart, insert_ofIntegers key n entries⟩

theorem integral_nil : Integral [] := ⟨[], List.nodup_nil, rfl⟩

/-- Whatever is read from a table becomes integers. -/
theorem integers_eq_ok {read : List (String × Json)} (coerced : integers read = .ok table) :
    ∃ entries, table = ofIntegers entries ∧ Table.keys entries = Table.keys read := by
  induction read generalizing table with
  | nil =>
    obtain rfl := pure_eq_ok.mp coerced
    exact ⟨[], rfl, rfl⟩
  | cons entry rest ih =>
    obtain ⟨key, value⟩ := entry
    obtain ⟨n, -, coerced⟩ := bind_eq_ok.mp coerced
    obtain ⟨others, inside, coerced⟩ := bind_eq_ok.mp coerced
    obtain rfl := pure_eq_ok.mp coerced
    obtain ⟨entries, rfl, keys⟩ := ih inside
    exact ⟨(key, n) :: entries, rfl, congrArg (key :: ·) keys⟩

theorem integers_ofIntegers (entries : List (String × Int)) :
    integers (ofIntegers entries) = .ok (ofIntegers entries) := by
  induction entries with
  | nil => rfl
  | cons entry rest ih =>
    refine bind_eq_ok.mpr ⟨entry.2, rfl, ?_⟩
    exact bind_eq_ok.mpr ⟨ofIntegers rest, ih, rfl⟩

end

section
variable {world : World}

theorem load_looks (path : Path) (table : String) : Looks (load path table) := by
  refine (looks_lift _).then fun file => looks_get_then fun world other alike => ?_
  have exists_same : other.exists? file = world.exists? file := by
    rw [exists?, exists?, World.lookup, World.lookup, alike.files, alike.here]
  rw [exists_same, alike.files, alike.here]
  refine ⟨rfl, (looks_lift _).then fun found => ?_⟩
  split
  · exact (looks_note _).then fun _ => looks_pure _
  dsimp only
  split
  · exact looks_throw _
  · exact (looks_note _).then fun _ => looks_pure _
  · exact (looks_note _).then fun _ => looks_lift _
  · exact (looks_note _).then fun _ => looks_pure _

theorem openAt_looks (place : Option Path) : Looks (openAt place) := by
  cases place with
  | none => exact looks_pure _
  | some path =>
    exact (load_looks path "sizeof").then fun _ => (load_looks path "offsetof").then fun _ => looks_pure _

/-- A table that is loaded holds integers, whatever its file holds. -/
theorem load_integral (path : Path) (table : String) (world : World) :
    Ends (fun found _ => Integral found) (fun _ _ => True) (load path table) world := by
  refine ends_bind.mpr ((ends_lift _).mpr ⟨fun file _ => ?_, fun _ _ => trivial⟩)
  refine ends_bind.mpr (ends_get.mpr ?_)
  refine ends_bind.mpr ((ends_lift _).mpr ⟨fun found _ => ?_, fun _ _ => trivial⟩)
  split
  · exact integral_nil
  dsimp only
  split
  · trivial
  · exact integral_nil
  next entries read =>
    refine ends_bind.mpr ((ends_modify _).mpr ((ends_lift _).mpr ⟨fun found coerced => ?_, fun _ _ => trivial⟩))
    obtain ⟨ints, rfl, keys⟩ := integers_eq_ok coerced
    refine ⟨ints, ?_, rfl⟩
    rw [keys]
    split at read
    · exact read_nodup read
    · cases read
  · exact integral_nil

/-- The file of a table leads to what was written of the table. -/
def Saved (world : World) (path : Path) (name : String) (table : Table String Amount) : Prop :=
  ∃ file text, tablePath path name = .ok file ∧ Files.Leads world.files world.here file (.text text) ∧
    written (parts 0 "" (.obj table)) = (text, .ok ())

/-- A table that was written is loaded with its entries in order. -/
theorem load_saved {path : Path} {name : String} {entries : List (String × Int)}
    (apart : (Table.keys entries).Nodup) (saved : Saved world path name (ofIntegers entries)) :
    Ends (fun found _ => found = ofIntegers (inOrder entries)) (fun _ _ => False) (load path name)
      world := by
  obtain ⟨file, text, named, leads, done⟩ := saved
  have there : world.exists? file = .ok true := by
    refine bind_eq_ok.mpr ⟨some (.text text), ?_, rfl⟩
    rw [World.lookup, Files.lookup_of_leads leads]
    rfl
  rw [load, named, lift_ok_bind]
  refine ends_bind.mpr (ends_get.mpr ?_)
  rw [there, lift_ok_bind, Files.read_of_leads leads]
  dsimp only
  rw [read_written apart done]
  refine ends_bind.mpr ((ends_modify _).mpr ?_)
  rw [integers_ofIntegers]
  rfl

/-- The order of the entries does not matter to what is found. -/
theorem find?_inOrder {entries : List (String × Int)} (apart : (Table.keys entries).Nodup)
    (key : String) :
    Table.find? key (ofIntegers (inOrder entries)) = Table.find? key (ofIntegers entries) := by
  have same := (inOrder_perm entries).map fun entry => (entry.1, Json.int entry.2)
  have apart' : (Table.keys (ofIntegers entries)).Nodup := by rwa [keys_ofIntegers]
  have ordered : (Table.keys (ofIntegers (inOrder entries))).Nodup :=
    (same.map Prod.fst).nodup_iff.mpr apart'
  apply Option.ext
  intro value
  rw [Table.find?_eq_some_iff ordered, Table.find?_eq_some_iff apart']
  exact same.mem_iff

/-- Two caches that answer alike. -/
def Answers (cache other : Cache) : Prop := ∀ slot, other.find slot = cache.find slot

/-- Opening the cache now finds what a cache holds. -/
def Reopens (world : World) (path : Path) (cache : Cache) : Prop :=
  Ends (fun found _ => found.modified = false ∧ found.path = some path ∧ Answers cache found)
    (fun _ _ => False) (openAt (some path)) world

theorem Saved.quiet {after : World} {path : Path} {name : String} {table : Table String Amount}
    (saved : Saved world path name table) (quiet : Quiet world after) :
    Saved after path name table := by
  rw [quiet]
  exact saved

theorem reopens_saved {cache : Cache} {path : Path} (sizes : Integral cache.sizes)
    (offsets : Integral cache.offsets) (savedSizes : Saved world path "sizeof" cache.sizes)
    (savedOffsets : Saved world path "offsetof" cache.offsets) : Reopens world path cache := by
  obtain ⟨sizeEntries, apart, sizesEq⟩ := sizes
  obtain ⟨offsetEntries, apart', offsetsEq⟩ := offsets
  rw [sizesEq] at savedSizes
  rw [offsetsEq] at savedOffsets
  have first := (load_looks path "sizeof").ends (load_saved apart savedSizes)
  refine ends_bind.mpr (first.mono (fun found middle loaded => ?_) fun _ _ wrong => wrong.1)
  obtain ⟨rfl, quiet⟩ := loaded
  have second := load_saved apart' (savedOffsets.quiet quiet)
  refine ends_bind.mpr (second.mono (fun found after loaded => ?_) fun _ _ wrong => wrong)
  subst loaded
  refine ⟨rfl, rfl, fun slot => ?_⟩
  cases slot with
  | size key => rw [find, find, sizesEq, find?_inOrder apart]
  | offset key => rw [find, find, offsetsEq, find?_inOrder apart']

/-- The name of the file of a table. -/
def fileName (path : Path) (table : String) : String := path.name ++ "_" ++ table ++ ".json"

theorem tablePath_eq_ok {path file : Path} {table : String} (named : tablePath path table = .ok file) :
    file = path.withName (fileName path table) := by
  unfold tablePath at named
  split at named
  · cases named
  · exact (Except.ok.inj named).symm

theorem length_fileName (path : Path) (table : String) :
    (fileName path table).length = path.name.length + table.length + 6 := by
  have dash : "_".length = 1 := rfl
  have suffix : ".json".length = 5 := rfl
  rw [fileName, String.length_append, String.length_append, String.length_append, dash, suffix]
  omega

theorem fileName_not_up (path : Path) (table : String) : fileName path table ≠ ".." := by
  intro same
  have length := length_fileName path table
  have dots : "..".length = 2 := rfl
  rw [same, dots] at length
  omega

theorem fileName_apart (path : Path) : fileName path "sizeof" ≠ fileName path "offsetof" := by
  intro same
  have length := length_fileName path "sizeof"
  have sizeof : "sizeof".length = 6 := rfl
  have offsetof : "offsetof".length = 8 := rfl
  rw [same, length_fileName, sizeof, offsetof] at length
  omega

/-- How directories are made and files are written. It may fail at any time and leave any text in a
file, but what it says it wrote is written. -/
structure Writer where
  makeDirectories : Path → Act World Unit
  write : Path → String → Act World Unit
  made : ∀ path world, Ends (fun _ => Rewrites world) (fun _ => Rewrites world)
    (makeDirectories path) world
  wrote : ∀ path s world, Ends
    (fun _ after => Rewrites world after ∧ world.files.write world.here path s = .ok after.files)
    (fun _ => Rewrites world) (write path s) world

/-- The writer that fails only where the files do not allow it. -/
def Writer.plain : Writer where
  makeDirectories := World.makeDirectories
  write := World.write
  made := makeDirectories_ends
  wrote := write_ends

def writeTableBy (writer : Writer) (file : Path) (table : Table String Amount) : Act World Unit := do
  let (text, ending) := Json.written (Json.parts 0 "" (.obj table))
  writer.write file text
  ending

def writeTablesBy (writer : Writer) (cache : Cache) (path : Path) : Act World Unit := do
  writer.makeDirectories path.parent
  writeTableBy writer (← tablePath path "sizeof") cache.sizes
  writeTableBy writer (← tablePath path "offsetof") cache.offsets

/-- Saving where writing may fail. -/
def saveBy (writer : Writer) (cache : Cache) : Act World Cache := do
  match cache.path with
  | none => return cache
  | some path =>
    if !cache.modified then return cache
    match ← Act.outcome (writeTablesBy writer cache path) with
    | .ok _ =>
      let sizes := cache.sizes.length
      let offsets := cache.offsets.length
      note (Journal.info ("Saved layout cache to " ++ path.text ++
        s!" ({sizes} sizes, {offsets} offsets)"))
      return { cache with modified := false }
    | .error (.file problem place) =>
      let reason := (Fault.file problem place).message
      note (Journal.error ("Failed to save layout cache to " ++ path.text ++ ": " ++ reason))
      return cache
    | .error fault => throw fault

theorem saveBy_plain (cache : Cache) : saveBy .plain cache = save cache := rfl

variable (writer : Writer)

theorem writeTableBy_ends (file : Path) (table : Table String Amount) (world : World) :
    Ends (fun _ after => Rewrites world after ∧ ∃ text,
        world.files.write world.here file text = .ok after.files ∧
          written (parts 0 "" (.obj table)) = (text, .ok ()))
      (fun _ => Rewrites world) (writeTableBy writer file table) world := by
  unfold writeTableBy
  cases done : written (parts 0 "" (.obj table)) with
  | mk text ending =>
    refine ends_bind.mpr ((writer.wrote file text world).mono (fun _ after wrote => ?_) fun _ _ kept => kept)
    refine (ends_lift _).mpr ⟨fun _ ended => ⟨wrote.1, text, wrote.2, ?_⟩, fun _ _ => wrote.1⟩
    rw [ended]

/-- Both tables are in their files after they were written. -/
theorem writeTablesBy_ends (cache : Cache) (path : Path) (world : World) :
    Ends (fun _ after => Rewrites world after ∧ Saved after path "sizeof" cache.sizes ∧
        Saved after path "offsetof" cache.offsets)
      (fun _ => Rewrites world) (writeTablesBy writer cache path) world := by
  refine ends_bind.mpr ((writer.made _ world).mono (fun _ start made => ?_) fun _ _ kept => kept)
  refine ends_bind.mpr ((ends_lift _).mpr ⟨fun sizeFile namedSizes => ?_, fun _ _ => made⟩)
  refine ends_bind.mpr ((writeTableBy_ends writer sizeFile cache.sizes start).mono
    (fun _ middle wroteSizes => ?_) fun _ _ kept => made.trans kept)
  obtain ⟨first, sizeText, sizeWrite, sizeDone⟩ := wroteSizes
  refine ends_bind.mpr ((ends_lift _).mpr
    ⟨fun offsetFile namedOffsets => ?_, fun _ _ => made.trans first⟩)
  refine (writeTableBy_ends writer offsetFile cache.offsets middle).mono
    (fun _ after wroteOffsets => ?_) fun _ _ kept => (made.trans first).trans kept
  obtain ⟨second, offsetText, offsetWrite, offsetDone⟩ := wroteOffsets
  have here : middle.here = start.here := first.here
  have here' : after.here = start.here := second.here.trans here
  rw [here] at offsetWrite
  have sizes := (Files.write_keeps sizeWrite).2
  have offsets := (Files.write_keeps offsetWrite).2
  refine ⟨(made.trans first).trans second, ⟨sizeFile, sizeText, namedSizes, ?_, sizeDone⟩,
    ⟨offsetFile, offsetText, namedOffsets, ?_, offsetDone⟩⟩
  · -- The second file is another one than the first.
    rw [here']
    rw [tablePath_eq_ok namedSizes] at sizes ⊢
    rw [tablePath_eq_ok namedOffsets] at offsetWrite
    exact sizes.apart (fileName_not_up path _) (fileName_not_up path _) (fileName_apart path) offsetWrite
  · rw [here']
    exact offsets

/-- A cache whose tables hold integers, and which opens again as it is unless something in it is new. -/
structure Settled (world : World) (path : Path) (cache : Cache) : Prop where
  located : cache.path = some path
  sizes : Integral cache.sizes
  offsets : Integral cache.offsets
  reopens : cache.modified = false → Reopens world path cache

theorem Reopens.alike {other : World} {path : Path} {cache : Cache} (reopens : Reopens world path cache)
    (alike : Alike world other) : Reopens other path cache := by
  have same := (openAt_looks (some path) world other alike).1
  rw [Reopens, ends_iff] at reopens ⊢
  rwa [same]

theorem Settled.alike {other : World} {path : Path} {cache : Cache} (settled : Settled world path cache)
    (alike : Alike world other) : Settled other path cache :=
  ⟨settled.located, settled.sizes, settled.offsets,
    fun unmodified => (settled.reopens unmodified).alike alike⟩

theorem openAt_loads (path : Path) (world : World) :
    Ends (fun cache _ => cache.path = some path ∧ cache.modified = false ∧ Integral cache.sizes ∧
        Integral cache.offsets)
      (fun _ _ => True) (openAt (some path)) world := by
  refine ends_bind.mpr ((load_integral path _ world).mono (fun _ middle sizes => ?_) fun _ _ _ => trivial)
  refine ends_bind.mpr ((load_integral path _ middle).mono (fun _ after offsets => ?_) fun _ _ _ => trivial)
  exact ⟨rfl, rfl, sizes, offsets⟩

theorem openAt_settled (path : Path) (world : World) :
    Ends (fun cache after => Quiet world after ∧ cache.modified = false ∧ Settled after path cache)
      (fun _ _ => True) (openAt (some path)) world := by
  have looks := openAt_looks (some path)
  have quiet := (looks world world (Alike.refl world)).2
  have loads := (ends_iff.mp (openAt_loads path world)).1
  refine ends_iff.mpr ⟨fun cache opened => ?_, fun _ _ => trivial⟩
  obtain ⟨located, unmodified, sizes, offsets⟩ := loads cache opened
  refine ⟨quiet, unmodified, located, sizes, offsets, fun _ => ?_⟩
  -- What is opened again is looked at in the same files.
  have same := (looks world _ quiet.alike).1.trans opened
  refine ends_iff.mpr ⟨fun found again => ?_, fun fault again => ?_⟩
  · obtain rfl := Except.ok.inj (same.symm.trans again)
    exact ⟨unmodified, located, fun _ => rfl⟩
  · cases same.symm.trans again

theorem saveBy_unmodified {cache : Cache} (unmodified : cache.modified = false) (world : World) :
    (saveBy writer cache).runOn world = (.ok cache, world) := by
  unfold saveBy
  split
  · rfl
  · rw [unmodified]
    rfl

theorem save_unmodified {cache : Cache} (unmodified : cache.modified = false) (world : World) :
    (save cache).runOn world = (.ok cache, world) :=
  saveBy_unmodified .plain unmodified world

theorem saveBy_settled {cache : Cache} {path : Path} {world : World} (settled : Settled world path cache) :
    Ends (fun saved after => Rewrites world after ∧ Settled after path saved ∧ Answers cache saved)
      (fun _ _ => True) (saveBy writer cache) world := by
  cases unsaved : cache.modified with
  | false =>
    have kept := saveBy_unmodified writer unsaved world
    refine ends_iff.mpr ⟨fun saved ran => ?_, fun _ _ => trivial⟩
    rw [kept] at ran ⊢
    obtain rfl := Except.ok.inj ran
    exact ⟨Rewrites.refl world, settled, fun _ => rfl⟩
  | true =>
    unfold saveBy
    rw [settled.located, unsaved]
    refine ends_bind.mpr (ends_outcome.mpr ((writeTablesBy_ends writer cache path world).mono
      (fun _ after wrote => ?_) fun fault after kept => ?_))
    · refine ends_bind.mpr ((ends_modify _).mpr ?_)
      have noted (told : Journal) : Rewrites world (Noting.tell told after) :=
        wrote.1.trans (Quiet.rewrites rfl)
      refine ⟨noted _, ⟨rfl, settled.sizes, settled.offsets, fun _ => ?_⟩, fun slot => ?_⟩
      · exact reopens_saved settled.sizes settled.offsets (wrote.2.1.quiet rfl) (wrote.2.2.quiet rfl)
      · cases slot <;> rfl
    · cases fault with
      | file problem place =>
        refine ends_bind.mpr ((ends_modify _).mpr ?_)
        have noted (told : Journal) : Rewrites world (Noting.tell told after) :=
          kept.trans (Quiet.rewrites rfl)
        refine ⟨noted _, ⟨settled.located, settled.sizes, settled.offsets, fun unmodified => ?_⟩,
          fun _ => rfl⟩
        rw [unsaved] at unmodified
        cases unmodified
      | _ => trivial

theorem save_settled {cache : Cache} {path : Path} {world : World} (settled : Settled world path cache) :
    Ends (fun saved after => Rewrites world after ∧ Settled after path saved ∧ Answers cache saved)
      (fun _ _ => True) (save cache) world :=
  saveBy_settled .plain settled

end

end NativeBindings.Layout.Cache
