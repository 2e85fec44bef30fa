import NativeBindings.Proofs.Layout.Retention
import NativeBindings.Proofs.WarmRun

/-!
A run that fails, in the dump of the syntax tree, at a question, in the resolution or in the module. It
leaves every text as it was but its cache, and the cache has all that was loaded and all that was
answered, so that a later run does not ask again.
-/
namespace NativeBindings.Pipeline

open Act Resolve Layout Layout.Cache World

/-- The turns of a run from here on: those of the resolution of the dump, if it comes to one. -/
def Turned (settings : Settings) (bench : Bench) (done : List Turn) : Prop :=
  match (inWorkshop (Workshop.dump settings.header.text)).runOn bench with
  | (.ok nodes, dumped) =>
    let oracle := compilerOracle (backendOf settings) settings.header.text
    let after := ((Resolve.resolve settings.header oracle nodes).runOn { oracle := dumped }).2
    History { oracle, state := dumped } done after.oracle ∧ after.graph = replay {} done
  | (.error _, _) => done = []

/-- The bench as the resolution finds it, with the notes of its beginning. -/
def outset (plant : Plant) : Bench :=
  Noting.tell (Journal.debug "BindingsGenerator.resolve: started" ++ (plant.tally.start "resolve").begun)
    plant.bench

/-- Whether a question is answered in a run that begins with a plant. -/
def Answered (settings : Settings) (entered : Plant) (query : Query) (n : Amount) : Prop :=
  ∃ done, Turned settings (outset entered) done ∧ .asked query (.ok n) ∈ done

/-- Where a run has come to, however it ends: the cache has what it is to have, and it was either saved, or
nothing was written yet. -/
structure Left (settings : Settings) (start : World) (path : Path) (begun : Bench) (plant : Plant) :
    Prop where
  edits : Edits (tableFiles path) start plant.bench.shop.world
  settled : Settled plant.bench.shop.world path plant.bench.cache
  holds : ∀ done, Turned settings begun done →
    Holds settings.header.text begun.cache done plant.bench.cache
  due : plant.bench.cache.modified = false ∨ Alike start plant.bench.shop.world

/-- Where a run whose cache could have been written from the start has come to. -/
def Leaves (settings : Settings) (start : World) (path : Path) (begun : Bench) (plant : Plant) : Prop :=
  Writable start path plant.bench.cache → Left settings start path begun plant

section
variable {settings : Settings} {start : World} {path : Path} {begun : Bench} {plant last : Plant}

theorem tell_tell (first second : Journal) (bench : Bench) :
    Noting.tell second (Noting.tell first bench) = Noting.tell (first ++ second) bench := by
  simp only [Noting.tell, List.append_assoc]

theorem turned_exists (settings : Settings) (bench : Bench) : ∃ done, Turned settings bench done := by
  unfold Turned
  split
  next nodes dumped _ => exact resolve_history _ settings.header nodes { oracle := dumped }
  · exact ⟨[], rfl⟩

theorem Left.alike (left : Left settings start path begun plant)
    (alike : Alike plant.bench.shop.world last.bench.shop.world)
    (kept : last.bench.cache = plant.bench.cache) : Left settings start path begun last where
  edits := left.edits.trans (edits_of_files alike.files alike.here)
  settled := kept ▸ left.settled.alike alike
  holds := kept ▸ left.holds
  due := by
    rw [kept]
    exact left.due.imp id fun same => ⟨alike.files.trans same.files, alike.here.trans same.here,
      alike.environment.trans same.environment⟩

theorem Leaves.alike (leaves : Leaves settings start path begun plant)
    (alike : Alike plant.bench.shop.world last.bench.shop.world)
    (kept : last.bench.cache = plant.bench.cache) : Leaves settings start path begun last :=
  fun writable => (leaves (kept ▸ writable)).alike alike kept

theorem Leaves.noted (leaves : Leaves settings start path begun plant) (told : Journal)
    (same : last.bench = Noting.tell told plant.bench) : Leaves settings start path begun last := by
  have kept : last.bench.cache = (Noting.tell told plant.bench).cache := by rw [same]
  refine leaves.alike ?_ kept
  rw [same]
  exact ⟨rfl, rfl, rfl⟩

/-! ### The resolution -/

theorem traced_holds
    (whole : backendOf settings = .debug → ∀ info, start.debug = some info → info.Whole)
    (cold : Cold start path begun) :
    let traces (after : Bench) := Cold start path after ∧
      ∀ done, Turned settings begun done → Holds settings.header.text begun.cache done after.cache
    Ends (fun _ after => traces after) (fun _ after => traces after) (traced settings) begun := by
  intro traces
  have dumps : Ends (fun _ after => after.cache = begun.cache ∧ Cold start path after)
      (fun _ after => after.cache = begun.cache ∧ Cold start path after)
      (inWorkshop (Workshop.dump settings.header.text)) begun := by
    refine ends_zoom.mpr ((Workshop.dump_ends _ _).mono (fun _ shop dumped => ⟨rfl, ?_⟩)
      fun _ shop stays => ⟨rfl, ?_⟩)
    · exact ⟨cold.toStands.worked dumped.1, cold.settled⟩
    · exact ⟨cold.toStands.worked stays, cold.settled⟩
  unfold traces Turned traced
  unfold Ends at dumps ⊢
  rw [runOn_bind]
  generalize (inWorkshop (Workshop.dump settings.header.text)).runOn begun = ended at dumps ⊢
  obtain ⟨outcome, bench⟩ := ended
  obtain ⟨kept, cold⟩ : bench.cache = begun.cache ∧ Cold start path bench := by
    cases outcome <;> exact dumps
  cases outcome with
  | error fault =>
    refine ⟨cold, ?_⟩
    rintro done rfl
    exact ⟨fun place _ => by rw [kept], fun _ _ asked => absurd asked List.not_mem_nil⟩
  | ok nodes =>
    have resolved := resolve_history (compilerOracle (backendOf settings) settings.header.text)
      settings.header nodes { oracle := bench }
    dsimp only
    unfold resolveNodes
    rw [runOn_ofRun]
    dsimp only
    generalize (Resolve.resolve settings.header (compilerOracle (backendOf settings) settings.header.text)
      nodes).runOn { oracle := bench } = ended at resolved ⊢
    obtain ⟨outcome, session⟩ := ended
    have after : Cold start path (Noting.tell session.journal session.oracle) ∧ ∀ done,
        History { oracle := compilerOracle (backendOf settings) settings.header.text, state := bench } done
          session.oracle ∧ session.graph = replay {} done →
            Holds settings.header.text begun.cache done session.oracle.cache := by
      obtain ⟨done, history, -⟩ := resolved
      refine ⟨(history_holds whole history rfl cold).1.noted _, fun done turned => ?_⟩
      exact kept ▸ (history_holds whole turned.1 rfl cold).2
    cases outcome <;> exact after

/-- What is written of a cache are its tables. -/
theorem writable_of_tables {cache other : Layout.Cache} (sizes : other.sizes = cache.sizes)
    (offsets : other.offsets = cache.offsets) (writable : Writable start path other) :
    Writable start path cache := by
  have same : writeTables cache path = writeTables other path := by
    unfold writeTables
    rw [sizes, offsets]
  unfold Writable
  rw [same]
  exact writable

theorem saveCache_tables (plant : Plant) :
    Ends (fun _ after => after.bench.cache.sizes = plant.bench.cache.sizes ∧
        after.bench.cache.offsets = plant.bench.cache.offsets)
      (fun _ after => after.bench.cache = plant.bench.cache) saveCache plant := by
  refine ends_bind.mpr (ends_get.mpr (ends_bind.mpr (ends_inWorld.mpr ?_)))
  refine ((save_tables plant.bench.cache _).mono (fun saved after same => ?_) fun _ _ _ => rfl)
  exact (ends_modify _).mpr same

theorem saveCache_saves (left : Left settings start path begun plant)
    (writable : Writable start path plant.bench.cache) :
    Ends (fun _ after => after.bench.cache.modified = false ∧ Left settings start path begun after)
      (fun _ _ => False) saveCache plant := by
  obtain unmodified | alike := left.due
  · refine (saveCache_unmodified unmodified).mono (fun _ after same => ?_) fun _ _ wrong => wrong
    exact same ▸ ⟨unmodified, left⟩
  · refine ends_bind.mpr (ends_get.mpr (ends_bind.mpr (ends_inWorld.mpr ?_)))
    refine (save_writes left.settled (writable.alike alike)).mono (fun saved after done => ?_)
      fun _ _ wrong => wrong
    obtain ⟨unmodified, settled, answers, edits⟩ := done
    refine (ends_modify _).mpr ⟨unmodified, left.edits.trans edits, settled, fun done turned => ?_,
      .inl unmodified⟩
    exact (left.holds done turned).mono fun place _ => answers place

/-- The save after the resolution goes well where the cache can be written. -/
theorem saveCache_leaves (left : Left settings start path begun plant) :
    Ends (fun _ => Leaves settings start path begun) (fun _ => Leaves settings start path begun)
      saveCache plant := by
  by_cases writable : Writable start path plant.bench.cache
  · exact (saveCache_saves left writable).mono (fun _ _ saved _ => saved.2)
      fun _ _ wrong => wrong.elim
  · refine (saveCache_tables plant).mono (fun _ after same other => ?_) fun _ after same other => ?_
    · exact absurd (writable_of_tables same.1 same.2 other) writable
    · exact absurd (same ▸ other) writable

theorem resolve_leaves
    (whole : backendOf settings = .debug → ∀ info, start.debug = some info → info.Whole)
    (cold : Cold start path plant.bench) :
    Ends (fun _ => Leaves settings start path (outset plant))
      (fun _ => Leaves settings start path (outset plant)) (resolve settings) plant := by
  refine ends_timed_from (ends_bind.mpr (ends_operation_from fun first entered => ?_))
  have begins : first.bench = outset plant := by
    rw [entered]
    exact tell_tell _ _ plant.bench
  have cold' : Cold start path first.bench := by
    rw [begins]
    exact cold.noted _
  have left {after : Bench} {last : Plant} {told : Journal} (same : last.bench = Noting.tell told after)
      (traced : Cold start path after ∧ ∀ done, Turned settings first.bench done →
        Holds settings.header.text first.bench.cache done after.cache) :
      Left settings start path (outset plant) last := by
    have stays := (traced.1.noted told).stays
    rw [← same] at stays
    rw [← begins]
    refine ⟨edits_of_files stays.files stays.here, ?_, ?_, .inr stays.toAlike⟩
    · rw [same]
      exact (traced.1.noted told).settled.alike (traced.1.noted told).stays.toAlike
    · rw [same]
      exact traced.2
  refine ends_zoom.mpr ((traced_holds whole cold').mono (fun graph after traced => ?_)
    fun fault after traced => ?_)
  · intro last told' same
    refine ends_bind.mpr ((saveCache_leaves (left same traced)).mono (fun _ saved leaves => ?_)
      fun _ _ leaves ended => ?_)
    · refine ends_bind.mpr (ends_get.mpr (ends_bind.mpr ((ends_modify _).mpr fun ended => ?_)))
      exact leaves.noted ended rfl
    · exact leaves.noted ended rfl
  · intro last told' same ended
    exact Leaves.noted (fun _ => left same traced) ended rfl

/-! ### The rest of a run -/

theorem emit_noted (options : Emit.Options) (graph : Graph) (plant : Plant) :
    Ends (fun _ after => ∃ told, after.bench = Noting.tell told plant.bench)
      (fun _ after => ∃ told, after.bench = Noting.tell told plant.bench) (emit options graph) plant := by
  unfold emit
  rw [ends_ofRun]
  dsimp only
  cases (Emit.generate options graph).runOn {} with
  | mk outcome progress => cases outcome <;> exact ⟨_, rfl⟩

theorem generate_leaves (options : Emit.Options)
    (whole : backendOf settings = .debug → ∀ info, start.debug = some info → info.Whole)
    (cold : Cold start path plant.bench) :
    Ends (fun _ => Leaves settings start path (outset plant))
      (fun _ => Leaves settings start path (outset plant)) (generate settings options) plant := by
  refine ends_bind.mpr ((resolve_leaves whole cold).mono (fun graph resolved leaves => ?_)
    fun _ _ leaves => leaves)
  refine ends_bind.mpr (ends_operation fun first told entered => ?_)
  have leaves := leaves.noted told entered
  refine (emit_noted options graph first).mono (fun made emitted done => ?_)
    fun _ emitted done last told' same => ?_
  · obtain ⟨told', kept⟩ := done
    intro last told'' same
    refine ends_bind.mpr ((ends_modify _).mpr (ends_bind.mpr (ends_bind.mpr (ends_get.mpr ?_))))
    refine (ends_pure _).mpr (ends_bind.mpr ((ends_modify _).mpr ?_))
    exact ((leaves.noted told' kept).noted told'' same).noted _ rfl
  · obtain ⟨told'', kept⟩ := done
    exact (leaves.noted told'' kept).noted told' same

/-- Leaving saves what there is to save. -/
theorem leave_saves (left : Left settings start path begun plant)
    (writable : Writable start path plant.bench.cache) :
    Ends (fun _ after => after.bench.cache.modified = false ∧ Left settings start path begun after)
      (fun _ _ => False) leave plant := by
  refine ends_bind.mpr ((saveCache_saves left writable).mono (fun _ saved done => ?_)
    fun _ _ wrong => wrong)
  refine ends_bind.mpr (ends_get.mpr (ends_bind.mpr ((ends_modify _).mpr ?_)))
  refine ends_zoom.mpr (ends_zoom.mpr (ends_bind.mpr (ends_get.mpr ?_)))
  dsimp only
  split
  · exact ⟨done.1, done.2.alike ⟨rfl, rfl, rfl⟩ rfl⟩
  · exact ⟨done.1, done.2.alike ⟨rfl, rfl, rfl⟩ rfl⟩

end

section
variable {settings : Settings} {world start : World} {path : Path} {entered ran : Plant}

/-- An act that may make directories, and leaves every text as it was. -/
structure Furnishes {α : Type} (act : Act World α) : Prop where
  edits : ∀ paths world, Ends (fun _ => Edits paths world) (fun _ _ => True) act world

theorem furnishes_pure {α : Type} (value : α) : Furnishes (pure value) :=
  ⟨fun _ world => Edits.refl world⟩

theorem furnishes_lift {α : Type} (outcome : Except Fault α) : Furnishes (liftM outcome) :=
  ⟨fun _ world => (ends_lift _).mpr ⟨fun _ _ => Edits.refl world, fun _ _ => trivial⟩⟩

theorem Furnishes.then {α β : Type} {act : Act World β} {next : β → Act World α}
    (first : Furnishes act) (rest : ∀ value, Furnishes (next value)) : Furnishes (act >>= next) := by
  refine ⟨fun paths world => ends_bind.mpr ((first.edits paths world).mono (fun value middle before => ?_)
    fun _ _ _ => trivial)⟩
  exact ((rest value).edits paths middle).mono (fun _ _ after => before.trans after) fun _ _ _ => trivial

theorem read_furnishes : Furnishes ToolSettings.read :=
  ⟨fun _ world => (read_quiet world).mono
    (fun _ _ quiet => edits_of_files quiet.alike.files quiet.alike.here) fun _ _ _ => trivial⟩

theorem makeDirectory_furnishes (path : Path) : Furnishes (World.makeDirectory path) :=
  ⟨fun _ world => (makeDirectory_edits path world).mono (fun _ _ edits => edits) fun _ _ _ => trivial⟩

theorem cachePathOf_furnishes (header : Path) : Furnishes (cachePathOf header) :=
  read_furnishes.then fun _ => (makeDirectory_furnishes _).then fun _ => furnishes_pure _

theorem cachePath_furnishes (settings : Settings) : Furnishes (cachePath settings) := by
  refine read_furnishes.then fun tools => ?_
  split
  · exact (furnishes_lift _).then fun _ => furnishes_pure _
  · split
    · exact (cachePathOf_furnishes _).then fun _ => furnishes_pure _
    · exact furnishes_pure _

theorem enter_edits (entering : (enter settings).runOn world = (.ok entered, start)) (paths : List Path) :
    Edits paths world start := by
  have walk : Ends (fun _ => Edits paths world) (fun _ _ => True) (enter settings) world := by
    rw [enter_eq]
    refine ends_bind.mpr (((cachePath_furnishes settings).edits paths world).mono
      (fun place middle found => ?_) fun _ _ _ => trivial)
    have opens := (openAt_looks place middle middle (Alike.refl middle)).2
    refine ends_bind.mpr (ends_iff.mpr ⟨fun cache _ => ?_, fun _ _ => trivial⟩)
    refine ends_bind.mpr ((fit_quiet settings _).mono (fun toolchain last quiet => ?_) fun _ _ _ => trivial)
    have same := opens.trans quiet
    exact found.trans (edits_of_files same.alike.files same.alike.here)
  exact walk.of_run entering

/-- What comes of an act that fails between entering and leaving. -/
theorem within_fails {α : Type} {act : Act Plant α} {fault : Fault} {plant : Plant}
    (entering : (enter settings).runOn world = (.ok entered, start))
    (acting : act.runOn entered = (.error fault, ran)) (leaving : leave.runOn ran = (.ok (), plant)) :
    (within settings act).runOn world = (.ok (.error fault, plant), plant.bench.shop.world) := by
  unfold within
  rw [runOn_bind, entering]
  dsimp only
  rw [acting]
  dsimp only
  rw [leaving]
  rfl

theorem cold_of_entered (entry : Entered world path entered start) : Cold start path entered.bench := by
  refine ⟨⟨?_, fun index there => ?_⟩, entry.settled⟩
  · rw [entry.current]
    exact World.Stays.refl start
  · rw [entry.unread] at there
    cases there

/-- A run that fails, whatever was to be done with its module, changes no text but the tables of its cache.
These have all that was loaded and all that was answered, so that nothing of it is asked again. -/
theorem failed_run_retains {β : Type} (settings : Settings) (options : Emit.Options)
    (rest : Emit.Module → Act Plant β) {fault : Fault}
    (located : ((cachePath settings).runOn world).1 = .ok (some path))
    (entering : (enter settings).runOn world = (.ok entered, start))
    (failing : (generate settings options).runOn entered = (.error fault, ran))
    (writable : Writable start path ran.bench.cache)
    (whole : backendOf settings = .debug → ∀ info, world.debug = some info → info.Whole) :
    ∃ plant after,
      (within settings (generate settings options >>= rest)).runOn world =
        (.ok (.error fault, plant), after) ∧
      Files.SameTexts
        (fun place => ∃ file ∈ tableFiles path, after.files.placeOf after.here file = .ok place)
        world.files after.files ∧
      ∀ later, Alike after later → ∃ found opened,
        (Cache.openAt (some path)).runOn later = (.ok found, opened) ∧
        (∀ place, entered.bench.cache.find place ≠ .null →
          found.find place = entered.bench.cache.find place) ∧
        ∀ query n, Answered settings entered query n →
          (∃ place, slot settings.header.text query = .ok place ∧ found.find place = n) ∧
          Spared (backendOf settings) settings.header.text found query n := by
  obtain ⟨entry, -⟩ := (enter_ends settings located).of_run entering
  have debug : start.debug = world.debug := by rw [entry.rewrites.2]
  have left : Left settings start path (outset entered) ran := by
    have leaves := generate_leaves options (debug ▸ whole) (cold_of_entered entry)
    unfold Ends at leaves
    rw [failing] at leaves
    exact leaves writable
  obtain ⟨_, plant, leaving, unmodified, ended⟩ := (leave_saves left writable).run
  have acting : (generate settings options >>= rest).runOn entered = (.error fault, ran) := by
    rw [runOn_bind, failing]
  refine ⟨plant, _, within_fails entering acting leaving,
    ((enter_edits entering _).trans ended.edits).texts, fun later alike => ?_⟩
  have reopens := (ended.settled.reopens unmodified).alike alike
  obtain ⟨found, opened, opens, -, -, answers⟩ := reopens.run
  have holds {done : List Turn} (turned : Turned settings (outset entered) done) :
      Holds settings.header.text entered.bench.cache done found :=
    (ended.holds done turned).mono fun place _ => answers place
  refine ⟨found, opened, opens, ?_, ?_⟩
  · obtain ⟨done, turned⟩ := turned_exists settings (outset entered)
    exact (holds turned).loaded
  · rintro query n ⟨done, turned, asked⟩
    exact ⟨((holds turned).answered query n asked).2, (holds turned).spared asked⟩

end

/-- The syntax tree of a header with a record of two numbers, of which the debug information knows one. -/
def pairDump : String :=
  "\x7b\"inner\": [\x7b\"kind\": \"RecordDecl\", \"name\": \"point\", \"inner\": [" ++
    "\x7b\"kind\": \"FieldDecl\", \"name\": \"x\", \"type\": \x7b\"qualType\": \"int\"\x7d\x7d, " ++
    "\x7b\"kind\": \"FieldDecl\", \"name\": \"y\", \"type\": \x7b\"qualType\": \"int\"\x7d\x7d]\x7d]\x7d"

def pairWorld : World := { pointWorld with replies := [.output pairDump, .output ""] }

theorem pairWorld_located :
    ((cachePath pointSettings).runOn pairWorld).1 = .ok (some { parts := ["layout"] }) := by
  decide +kernel

theorem pairWorld_fails :
    (match (enter pointSettings).runOn pairWorld with
      | (.ok entered, start) =>
        match (generate pointSettings {}).runOn entered with
        | (.error _, ran) => ((writeTables ran.bench.cache { parts := ["layout"] }).runOn start).1.isOk
        | _ => false
      | _ => false) = true := by
  decide +kernel

theorem failed_run_retains_pair :
    ∃ entered start fault ran, (enter pointSettings).runOn pairWorld = (.ok entered, start) ∧
      (generate pointSettings {}).runOn entered = (.error fault, ran) ∧
      Writable start { parts := ["layout"] } ran.bench.cache ∧
      ∃ plant after, (within pointSettings (generate pointSettings {} >>= fun made =>
          write pointSettings made none)).runOn pairWorld = (.ok (.error fault, plant), after) ∧
        ∀ query n, Answered pointSettings entered query n → ∃ found opened,
          (Cache.openAt (some { parts := ["layout"] })).runOn after = (.ok found, opened) ∧
          Spared .debug "point.h" found query n := by
  have fails := pairWorld_fails
  split at fails
  next entered start entering =>
    split at fails
    next fault ran failing =>
      have writable : Writable start { parts := ["layout"] } ran.bench.cache := by
        unfold Writable
        cases written : ((writeTables ran.bench.cache { parts := ["layout"] }).runOn start).1 with
        | ok value => exact ⟨value, rfl⟩
        | error fault =>
          rw [written] at fails
          cases fails
      obtain ⟨plant, after, run, -, kept⟩ := failed_run_retains pointSettings {}
        (fun made => write pointSettings made none) pairWorld_located entering failing writable
        fun _ info there => by obtain rfl := Option.some.inj there; exact pointInfo_whole
      refine ⟨entered, start, fault, ran, entering, failing, writable, plant, after, run, ?_⟩
      intro query n answered
      obtain ⟨found, opened, opens, -, answers⟩ := kept after (Alike.refl after)
      exact ⟨found, opened, opens, (answers query n answered).2⟩
    next => cases fails
  next => cases fails

/-- The module is to be where the cache has its sizes. -/
def clashSettings : Settings :=
  { pointSettings with output := .value { parts := ["layout_sizeof.json"] } }

theorem clashSettings_output :
    (match (within clashSettings (generate clashSettings {} >>= fun made =>
        write clashSettings made none)).runOn pairWorld with
      | (.ok (.error (.layout _), _), after) =>
        after.files.node? ["layout_sizeof.json"] == some (.text "\x7b\n  \"point.h::point\": 4\n\x7d")
      | _ => false) = true := by
  decide +kernel

/-- A run that fails writes the file of its module, if this is a file of its cache. -/
theorem failed_run_writes_output :
    clashSettings.output = .value { parts := ["layout_sizeof.json"] } ∧
    pairWorld.files.node? ["layout_sizeof.json"] = none ∧
    ∃ reason plant after, (within clashSettings (generate clashSettings {} >>= fun made =>
        write clashSettings made none)).runOn pairWorld = (.ok (.error (.layout reason), plant), after) ∧
      after.files.node? ["layout_sizeof.json"] = some (.text "\x7b\n  \"point.h::point\": 4\n\x7d") := by
  have written := clashSettings_output
  split at written
  next reason plant after run => exact ⟨rfl, rfl, reason, plant, after, run, by simpa using written⟩
  next => cases written

end NativeBindings.Pipeline
