import NativeBindings.Pipeline
import NativeBindings.Proofs.Emit.StraightModule
import NativeBindings.Proofs.Layout.Warmth

/-!
A second run over the same syntax tree. The cache that the first run leaves answers every question, so
the compiler only dumps the tree, and the module is the same.
-/
namespace NativeBindings

open Act Files World

section
variable {world later : World}

theorem ToolSettings.ofWorld_alike (same : later.environment = world.environment) :
    ofWorld later = ofWorld world := by
  have value (name : String) : later.value? name = world.value? name := by
    rw [value?, value?, same]
  simp only [ofWorld, integerOf, textOf, flagOf, value]

/-- A command gives what is first among the replies. -/
theorem World.run_output {command : List String} {stdin : Option String} {timeout : Option Seconds}
    {output : String} (world : World) (first : world.replies.head? = some (.output output)) :
    Ends (fun again after => again = output ∧ after.calls = world.calls ++
        [({ command, stdin, timeout } : Call)]) (fun _ _ => False) (run command stdin timeout) world := by
  refine ends_bind.mpr ((ends_modify _).mpr (ends_bind.mpr (ends_get.mpr (ends_bind.mpr ?_))))
  have noted (told : Journal) : (Noting.tell told world).replies = world.replies := rfl
  refine (ends_set _).mpr ?_
  dsimp only
  rw [noted, first]
  exact ⟨rfl, rfl⟩

theorem World.run_replied (command : List String) (stdin : Option String) (timeout : Option Seconds)
    (world : World) :
    Ends (fun output _ => world.replies.head? = some (.output output)) (fun _ _ => True)
      (run command stdin timeout) world := by
  refine ends_bind.mpr ((ends_modify _).mpr (ends_bind.mpr (ends_get.mpr (ends_bind.mpr ?_))))
  have noted (told : Journal) : (Noting.tell told world).replies = world.replies := rfl
  refine (ends_set _).mpr ?_
  dsimp only
  rw [noted]
  split
  next output first => exact first
  all_goals trivial

/-- The top-level nodes of a dump. -/
def Workshop.nodesOf (header output : String) : Except Fault (List Json) :=
  match Json.read output with
  | .ok root => root.field "inner" >>= fun inner => (inner.orElse (.arr [])).items
  | .error (.beyond fault) => .error fault
  | .error (.malformed reason) =>
    .error (.compiler ("clang produced invalid AST JSON for " ++ header ++ ": " ++ reason))

/-- The command that dumps the syntax tree of a header. -/
def Workshop.dumping (toolchain : Toolchain) (header : String) : List String :=
  [toolchain.compiler, "-Xclang", "-ast-dump=json", "-fsyntax-only"] ++ toolchain.includeArguments ++
    [header]

theorem Workshop.dump_eq (header : String) :
    dump header = get >>= fun shop => note (Journal.info ("Dumping AST for \"" ++ header ++ "\"")) >>=
      fun _ => run (dumping shop.toolchain header) none >>= fun output =>
        liftM (nodesOf header output) := by
  unfold dump
  refine bind_congr fun shop => bind_congr fun _ => bind_congr fun output => ?_
  unfold nodesOf
  cases Json.read output with
  | ok root =>
    dsimp only
    cases root.field "inner" with
    | ok inner => rfl
    | error fault => rfl
  | error problem =>
    cases problem with
    | malformed reason => rfl
    | beyond fault => rfl

/-- A dump of a syntax tree, and the same dump later on. -/
theorem Workshop.dump_ends (header : String) (shop : Workshop) :
    Ends (fun nodes after => World.Stays shop.world after.world ∧
        ∀ other : Workshop, other.world.replies.head? = shop.world.replies.head? →
          Ends (fun again later => again = nodes ∧ ∃ call, "-ast-dump=json" ∈ call.command ∧
              later.world.calls = other.world.calls ++ [call])
            (fun _ _ => False) (dump header) other)
      (fun _ after => World.Stays shop.world after.world) (dump header) shop := by
  have begun (told : Journal) : World.Stays shop.world (Noting.tell told shop.world) :=
    (World.Stays.refl shop.world).noted told
  rw [dump_eq]
  refine ends_bind.mpr (ends_get.mpr (ends_bind.mpr ((ends_modify _).mpr ?_)))
  refine ends_bind.mpr (ends_bind.mpr (ends_get.mpr (ends_zoom.mpr ?_)))
  refine ((World.run_stays _ _ _ _).and (World.run_replied _ _ _ _)).mono
    (fun output after ran => ?_) fun _ _ failed => (begun _).trans failed.1
  obtain ⟨stays, first⟩ := ran
  refine (ends_lift _).mpr ⟨fun nodes found => ⟨?_, fun other same => ?_⟩, fun _ _ => ?_⟩
  · exact (begun _).trans stays
  · have reply (told : Journal) : (Noting.tell told other.world).replies.head? = some (.output output) :=
      same.trans first
    refine ends_bind.mpr (ends_get.mpr (ends_bind.mpr ((ends_modify _).mpr ?_)))
    refine ends_bind.mpr (ends_bind.mpr (ends_get.mpr (ends_zoom.mpr ?_)))
    refine (World.run_output _ (reply _)).mono (fun again later ran => ?_) fun _ _ wrong => wrong
    obtain ⟨rfl, calls⟩ := ran
    rw [found]
    exact ⟨rfl, _, by simp [dumping], calls⟩
  · exact (begun _).trans stays

end

namespace Pipeline

/-- An act that may make directories, and finds them there when it is done again. -/
structure Repeats {α : Type} (act : Act World α) : Prop where
  again : ∀ world, Ends (fun value middle => Rewrites world middle ∧
      ∀ later, Keeps middle.files later.files → later.here = world.here →
        later.environment = world.environment →
        Ends (fun again after => again = value ∧ Quiet later after) (fun _ _ => False) act later)
    (fun _ _ => True) act world

section
variable {α β : Type}

theorem repeats_pure (value : α) : Repeats (pure value) :=
  ⟨fun world => ⟨Rewrites.refl world, fun _ _ _ _ => ⟨rfl, rfl⟩⟩⟩

theorem repeats_note (journal : Journal) : Repeats (note journal) :=
  ⟨fun _ => ⟨Quiet.rewrites rfl, fun _ _ _ _ => ⟨rfl, rfl⟩⟩⟩

theorem repeats_lift (outcome : Except Fault α) : Repeats (liftM outcome) := by
  cases outcome with
  | ok value => exact repeats_pure value
  | error fault => exact ⟨fun _ => trivial⟩

theorem Repeats.then {act : Act World β} {next : β → Act World α} (first : Repeats act)
    (rest : ∀ value, Repeats (next value)) : Repeats (act >>= next) := by
  refine ⟨fun world => ?_⟩
  refine ends_bind.mpr ((first.again world).mono (fun value middle done => ?_) fun _ _ _ => trivial)
  refine ((rest value).again middle).mono (fun result after more => ?_) fun _ _ _ => trivial
  refine ⟨done.1.trans more.1, fun later keeps here environment => ?_⟩
  refine ends_bind.mpr ((done.2 later (more.1.1.trans keeps) here environment).mono
    (fun again later' same => ?_) fun _ _ wrong => wrong)
  obtain ⟨rfl, quiet⟩ := same
  have files : later'.files = later.files := by rw [quiet]
  have here' : later'.here = middle.here := by rw [quiet, done.1.2]; exact here
  have environment' : later'.environment = middle.environment := by rw [quiet, done.1.2]; exact environment
  refine (more.2 later' (files ▸ keeps) here' environment').mono (fun _ _ same => ?_) fun _ _ wrong => wrong
  exact ⟨same.1, quiet.trans same.2⟩

theorem read_repeats : Repeats ToolSettings.read := by
  refine ⟨fun world => ⟨Quiet.rewrites rfl, fun later _ _ environment => ⟨?_, rfl⟩⟩⟩
  exact congrArg Prod.fst (ToolSettings.ofWorld_alike environment)

theorem make_repeats (includes : List Path) (compiler language : String) (timeout : Option Seconds) :
    Repeats (Toolchain.make includes compiler language timeout) :=
  read_repeats.then fun _ => repeats_pure _

theorem prepare_repeats (backend : Layout.Backend) (header : Path) :
    Repeats (Layout.prepare backend header) := by
  refine ⟨fun world => ?_⟩
  unfold Layout.prepare
  split
  · refine ends_bind.mpr (ends_get.mpr (ends_bind.mpr ((ends_lift _).mpr
      ⟨fun place known => ⟨Rewrites.refl world, fun later _ here _ => ?_⟩, fun _ _ => trivial⟩)))
    have same : later.absolute header = .ok place := by
      rw [World.absolute, here]
      exact known
    refine ends_bind.mpr (ends_get.mpr ?_)
    rw [same]
    exact ⟨rfl, rfl⟩
  · exact (repeats_pure _).again world

theorem makeDirectory_repeats (path : Path) : Repeats (World.makeDirectory path) := by
  refine ⟨fun world => ?_⟩
  refine (makeDirectory_ends path world).mono (fun _ middle made => ?_) fun _ _ _ => trivial
  obtain ⟨rewrites, fine, leads⟩ := made
  refine ⟨rewrites, fun later keeps here _ => ?_⟩
  have there := makeDirectory_there fine (here ▸ leads.kept keeps)
  unfold Ends
  rw [there]
  exact ⟨rfl, rfl⟩

end

theorem cachePathOf_repeats (header : Path) : Repeats (cachePathOf header) :=
  read_repeats.then fun _ => (makeDirectory_repeats _).then fun _ => repeats_pure _

theorem cachePath_repeats (settings : Settings) : Repeats (cachePath settings) := by
  refine read_repeats.then fun tools => ?_
  split
  · exact (repeats_lift _).then fun _ => repeats_pure _
  · split
    · exact (cachePathOf_repeats _).then fun _ => repeats_pure _
    · exact repeats_pure _

/-- The compiler and what it needs to know of its surroundings. -/
def fit (settings : Settings) : Act World Toolchain := do
  let includes ← (settings.includes.mapM Operand.asPath : Except Fault (List Path))
  let toolchain ← Toolchain.make includes "" "" none
  Layout.prepare (backendOf settings) settings.header
  note (Journal.debug ("Using " ++ settings.backend ++ " layout backend"))
  return toolchain

theorem fit_repeats (settings : Settings) : Repeats (fit settings) :=
  (repeats_lift _).then fun _ => (make_repeats _ _ _ _).then fun _ =>
    (prepare_repeats _ _).then fun _ => (repeats_note _).then fun _ => repeats_pure _

theorem read_quiet (world : World) :
    Ends (fun _ after => Quiet world after) (fun _ _ => True) ToolSettings.read world := rfl

theorem prepare_quiet (backend : Layout.Backend) (header : Path) (world : World) :
    Ends (fun _ after => Quiet world after) (fun _ _ => True) (Layout.prepare backend header) world := by
  unfold Layout.prepare
  split
  · exact ends_bind.mpr (ends_get.mpr (ends_bind.mpr ((ends_lift _).mpr
      ⟨fun _ _ => rfl, fun _ _ => trivial⟩)))
  · exact rfl

theorem fit_quiet (settings : Settings) (world : World) :
    Ends (fun _ after => Quiet world after) (fun _ _ => True) (fit settings) world := by
  refine ends_bind.mpr ((ends_lift _).mpr ⟨fun includes _ => ?_, fun _ _ => trivial⟩)
  refine ends_bind.mpr (ends_bind.mpr ((read_quiet world).mono (fun tools middle quiet => ?_)
    fun _ _ _ => trivial))
  refine ends_bind.mpr ((prepare_quiet _ _ middle).mono (fun _ after more => ?_) fun _ _ _ => trivial)
  exact quiet.trans (more.trans rfl)

theorem enter_eq (settings : Settings) :
    enter settings = cachePath settings >>= fun place => Layout.Cache.openAt place >>= fun cache =>
      fit settings >>= fun toolchain => get >>= fun world =>
        pure { bench := { shop := { world, toolchain }, cache } } := by
  simp only [enter, fit, bind_assoc, pure_bind]

/-- A plant that has just been entered. Its cache was opened and holds nothing new. -/
structure Entered (world : World) (path : Path) (plant : Plant) (start : World) : Prop where
  rewrites : Rewrites world start
  current : plant.bench.shop.world = start
  unread : plant.bench.layouts = none
  settled : Layout.Cache.Settled start path plant.bench.cache

/-- A plant that is to start where another run has ended. -/
structure Ready (later : World) (cache : Layout.Cache) (plant : Plant) (start : World) : Prop where
  current : plant.bench.shop.world = start
  quiet : Quiet later start
  unmodified : plant.bench.cache.modified = false
  answers : Layout.Cache.Answers cache plant.bench.cache

theorem enter_ends (settings : Settings) {world : World} {path : Path}
    (located : ((cachePath settings).runOn world).1 = .ok (some path)) :
    Ends (fun plant start => Entered world path plant start ∧
        ∀ later cache, Keeps start.files later.files → later.here = world.here →
          later.environment = world.environment → Layout.Cache.Reopens later path cache →
          Ends (Ready later cache) (fun _ _ => False) (enter settings) later)
      (fun _ _ => True) (enter settings) world := by
  have placed := ends_iff.mp ((cachePath_repeats settings).again world)
  rw [enter_eq]
  refine ends_bind.mpr (ends_iff.mpr ⟨fun place found => ?_, fun _ _ => trivial⟩)
  obtain ⟨rewrites, place_again⟩ := placed.1 place found
  obtain rfl := Except.ok.inj (found.symm.trans located)
  generalize ((cachePath settings).runOn world).2 = middle at rewrites place_again ⊢
  refine ends_bind.mpr ((Layout.Cache.openAt_settled path middle).mono
    (fun cache opened loaded => ?_) fun _ _ _ => trivial)
  obtain ⟨quiet, unmodified, settled⟩ := loaded
  refine ends_bind.mpr ((((fit_repeats settings).again opened).and (fit_quiet settings opened)).mono
    (fun toolchain start fitted => ?_) fun _ _ _ => trivial)
  obtain ⟨⟨more, fit_again⟩, quiet'⟩ := fitted
  refine ends_bind.mpr (ends_get.mpr ?_)
  refine ⟨⟨(rewrites.trans quiet.rewrites).trans more, rfl, rfl, settled.alike quiet'.alike⟩,
    fun later cache keeps here environment reopens => ?_⟩
  have place_later := place_again later ((quiet.rewrites.trans more).1.trans keeps) here environment
  refine ends_bind.mpr (place_later.mono (fun again first same => ?_) fun _ _ wrong => wrong)
  obtain ⟨rfl, first_quiet⟩ := same
  have opens := (Layout.Cache.openAt_looks (some path)).ends (reopens.alike first_quiet.alike)
  refine ends_bind.mpr (opens.mono (fun found second loaded => ?_) fun _ _ wrong => wrong.1)
  obtain ⟨⟨unmodified', -, answers⟩, second_quiet⟩ := loaded
  have before : Quiet later second := first_quiet.trans second_quiet
  have files : second.files = later.files := by rw [before]
  have here' : second.here = opened.here := by
    rw [before, (rewrites.trans quiet.rewrites).here]
    exact here
  have environment' : second.environment = opened.environment := by
    rw [before, (rewrites.trans quiet.rewrites).environment]
    exact environment
  refine ends_bind.mpr ((fit_again second (files ▸ keeps) here' environment').mono
    (fun _ third same => ?_) fun _ _ wrong => wrong)
  exact ends_bind.mpr (ends_get.mpr ⟨rfl, before.trans same.2, unmodified', answers⟩)

/-- Where a first run stands after its resolution, which ended with a cache: the files hold what is
saved of the cache. -/
structure Closing (start : World) (path : Path) (cache : Layout.Cache) (plant : Plant) : Prop where
  keeps : Keeps start.files plant.bench.shop.world.files
  here : plant.bench.shop.world.here = start.here
  environment : plant.bench.shop.world.environment = start.environment
  settled : Layout.Cache.Settled plant.bench.shop.world path plant.bench.cache
  answers : Layout.Cache.Answers cache plant.bench.cache

/-- A second run that only dumped the syntax tree on the way. -/
def Dumps (bench after : Layout.Bench) : Prop :=
  after.cache = bench.cache ∧ ∃ call, "-ast-dump=json" ∈ call.command ∧
    after.shop.world.calls = bench.shop.world.calls ++ [call]

theorem Dumps.noted {bench after last : Layout.Bench} (dumps : Dumps bench after) (told : Journal)
    (same : last = Noting.tell told after) : Dumps bench last := by
  rw [same]
  exact dumps

/-- The resolution of a dump. -/
def traced (settings : Settings) : Act Layout.Bench Graph := do
  let nodes ← Layout.inWorkshop (Workshop.dump settings.header.text)
  resolveNodes settings nodes

section
variable {start : World} {path : Path} {cache : Layout.Cache} {plant : Plant}

theorem ends_inWorld {α : Type} {act : Act World α} {good : α → Plant → Prop}
    {bad : Fault → Plant → Prop} :
    Ends good bad (inWorld act) plant ↔
      Ends (fun value world => good value
          { plant with bench := { plant.bench with shop := { plant.bench.shop with world } } })
        (fun fault world => bad fault
          { plant with bench := { plant.bench with shop := { plant.bench.shop with world } } })
        act plant.bench.shop.world := by
  unfold inWorld inBench Layout.inWorld Layout.inWorkshop Workshop.inWorld
  exact ends_zoom.trans (ends_zoom.trans ends_zoom)

theorem saveCache_closing (closing : Closing start path cache plant) :
    Ends (fun _ => Closing start path cache) (fun _ _ => True) saveCache plant := by
  refine ends_bind.mpr (ends_get.mpr (ends_bind.mpr (ends_inWorld.mpr ?_)))
  refine (Layout.Cache.save_settled closing.settled).mono (fun saved after done => ?_) fun _ _ _ => trivial
  obtain ⟨rewrites, settled, answers⟩ := done
  refine (ends_modify _).mpr ⟨closing.keeps.trans rewrites.1, rewrites.here.trans closing.here,
    rewrites.environment.trans closing.environment, settled, fun slot => ?_⟩
  exact (answers slot).trans (closing.answers slot)

theorem Closing.alike (closing : Closing start path cache plant) {last : Plant}
    (alike : Alike plant.bench.shop.world last.bench.shop.world)
    (kept : last.bench.cache = plant.bench.cache) : Closing start path cache last := by
  refine ⟨?_, alike.here.trans closing.here, alike.environment.trans closing.environment, ?_, ?_⟩
  · rw [alike.files]
    exact closing.keeps
  · rw [kept]
    exact closing.settled.alike alike
  · rw [kept]
    exact closing.answers

theorem Closing.noted (closing : Closing start path cache plant) {last : Plant} (told : Journal)
    (same : last.bench = Noting.tell told plant.bench) : Closing start path cache last := by
  have kept : last.bench.cache = (Noting.tell told plant.bench).cache := by rw [same]
  refine closing.alike ?_ kept
  rw [same]
  exact ⟨rfl, rfl, rfl⟩

theorem closing_of_cold {bench : Layout.Bench} (cold : Layout.Cold start path bench) (told : Journal)
    (same : plant.bench = Noting.tell told bench) : Closing start path bench.cache plant := by
  have noted := cold.noted told
  rw [← same] at noted
  have stays := noted.stays
  refine ⟨?_, stays.here, stays.environment, noted.settled.alike stays.toAlike, ?_⟩
  · rw [stays.files]
    exact Keeps.refl _
  · rw [same]
    exact fun _ => rfl

theorem saveCache_unmodified (unmodified : plant.bench.cache.modified = false) :
    Ends (fun _ after => after = plant) (fun _ _ => False) saveCache plant := by
  have saved := Layout.Cache.save_unmodified unmodified plant.bench.shop.world
  refine ends_bind.mpr (ends_get.mpr (ends_bind.mpr (ends_inWorld.mpr ?_)))
  unfold Ends
  rw [saved]
  rfl

/-- An operation does what is done in it; beside that it counts and notes. -/
theorem ends_operation_from {α : Type} {name : String} {act : Act Plant α} {good : α → Plant → Prop}
    {bad : Fault → Plant → Prop}
    (steps : ∀ first, first.bench = Noting.tell (plant.tally.start name).begun plant.bench →
      Ends (fun value after => ∀ last told, last.bench = Noting.tell told after.bench → good value last)
        (fun fault after => ∀ last told, last.bench = Noting.tell told after.bench → bad fault last)
        act first) :
    Ends good bad (operation name act) plant := by
  refine ends_bind.mpr ((ends_modify _).mpr (ends_bind.mpr (ends_bind.mpr (ends_get.mpr ?_))))
  refine (ends_pure _).mpr (ends_bind.mpr ((ends_modify _).mpr (ends_bind.mpr (ends_outcome.mpr ?_))))
  refine (steps _ rfl).mono (fun value after done => ?_) fun fault after done => ?_
  · refine ends_bind.mpr (ends_bind.mpr (ends_get.mpr ((ends_pure _).mpr ?_)))
    refine ends_bind.mpr ((ends_modify _).mpr (ends_bind.mpr ((ends_modify _).mpr ?_)))
    exact done _ _ rfl
  · refine ends_bind.mpr ((ends_modify _).mpr (ends_bind.mpr ((ends_modify _).mpr ?_)))
    exact done _ _ rfl

theorem ends_operation {α : Type} {name : String} {act : Act Plant α} {good : α → Plant → Prop}
    {bad : Fault → Plant → Prop}
    (steps : ∀ first told, first.bench = Noting.tell told plant.bench →
      Ends (fun value after => ∀ last told, last.bench = Noting.tell told after.bench → good value last)
        (fun fault after => ∀ last told, last.bench = Noting.tell told after.bench → bad fault last)
        act first) :
    Ends good bad (operation name act) plant :=
  ends_operation_from fun first same => steps first _ same

/-- A second bench that asked nothing on the way. -/
def Idles (bench after : Layout.Bench) : Prop :=
  after.cache = bench.cache ∧ after.shop.world.calls = bench.shop.world.calls

theorem resolveNodes_ends {settings : Settings} {bench : Layout.Bench}
    (whole : backendOf settings = .debug → ∀ info, start.debug = some info → info.Whole)
    (cold : Layout.Cold start path bench) (nodes : List Json) :
    Ends (fun graph after => Layout.Cold start path after ∧
        ∀ warm : Layout.Bench, Layout.Cache.Answers after.cache warm.cache →
          Ends (fun again later => again.straight = graph.straight ∧ Idles warm later)
            (fun _ _ => False) (resolveNodes settings nodes) warm)
      (fun _ _ => True) (resolveNodes settings nodes) bench := by
  unfold resolveNodes
  rw [ends_ofRun]
  dsimp only
  cases run : (Resolve.resolve settings.header
      (Layout.compilerOracle (backendOf settings) settings.header.text) nodes).runOn
        { oracle := bench } with
  | mk outcome session =>
    cases outcome with
    | error fault => trivial
    | ok graph =>
      have ended : Layout.Cold start path session.oracle :=
        (Layout.resolve_warm whole cold run fun _ _ => rfl).1
      refine ⟨ended.noted _, fun warm answers => ?_⟩
      have again := (Layout.resolve_warm whole cold run fun slot _ => answers slot).2
      obtain ⟨graph', session', run', same, oracle⟩ := again.run
      rw [ends_ofRun, run']
      refine ⟨same, ?_⟩
      rw [← oracle]
      exact ⟨rfl, rfl⟩

theorem traced_ends {settings : Settings} {bench : Layout.Bench}
    (whole : backendOf settings = .debug → ∀ info, start.debug = some info → info.Whole)
    (cold : Layout.Cold start path bench) :
    Ends (fun graph after => Layout.Cold start path after ∧
        ∀ warm : Layout.Bench, Layout.Cache.Answers after.cache warm.cache →
          warm.shop.world.replies.head? = bench.shop.world.replies.head? →
          Ends (fun again later => again.straight = graph.straight ∧ Dumps warm later)
            (fun _ _ => False) (traced settings) warm)
      (fun _ _ => True) (traced settings) bench := by
  refine ends_bind.mpr (ends_zoom.mpr ?_)
  refine (Workshop.dump_ends _ _).mono (fun nodes shop dumped => ?_) fun _ _ _ => trivial
  obtain ⟨stays, dump_again⟩ := dumped
  have cold' : Layout.Cold start path { bench with shop } := ⟨cold.toStands.worked stays, cold.settled⟩
  refine (resolveNodes_ends whole cold' nodes).mono (fun graph after resolved => ?_) fun _ _ _ => trivial
  refine ⟨resolved.1, fun warm answers replies => ?_⟩
  refine ends_bind.mpr (ends_zoom.mpr ?_)
  refine (dump_again warm.shop replies).mono (fun again shop' dumped => ?_) fun _ _ wrong => wrong
  obtain ⟨rfl, call, dumping, calls⟩ := dumped
  refine (resolved.2 { warm with shop := shop' } answers).mono (fun _ later idle => ?_)
    fun _ _ wrong => wrong
  exact ⟨idle.1, idle.2.1, call, dumping, idle.2.2.trans calls⟩

theorem resolve_ends {settings : Settings}
    (whole : backendOf settings = .debug → ∀ info, start.debug = some info → info.Whole)
    (cold : Layout.Cold start path plant.bench) :
    Ends (fun graph after => ∃ cache, Closing start path cache after ∧
        ∀ warm : Plant, warm.bench.cache.modified = false →
          Layout.Cache.Answers cache warm.bench.cache →
          warm.bench.shop.world.replies.head? = plant.bench.shop.world.replies.head? →
          Ends (fun again later => again.straight = graph.straight ∧ Dumps warm.bench later.bench)
            (fun _ _ => False) (resolve settings) warm)
      (fun _ _ => True) (resolve settings) plant := by
  refine ends_timed fun begun => ends_bind.mpr (ends_operation fun first told entered => ?_)
  have cold' : Layout.Cold start path first.bench := by
    rw [entered]
    exact (cold.noted begun).noted told
  refine ends_zoom.mpr ((traced_ends whole cold').mono (fun graph after resolved => ?_)
    fun _ _ _ _ _ _ _ => trivial)
  intro last told' same
  have closing := closing_of_cold resolved.1 told' same
  refine ends_bind.mpr ((saveCache_closing closing).mono (fun _ saved closed => ?_) fun _ _ _ _ => trivial)
  refine ends_bind.mpr (ends_get.mpr (ends_bind.mpr ((ends_modify _).mpr fun ended => ?_)))
  refine ⟨after.cache, closed.noted ended rfl, fun warm unmodified answers replies => ?_⟩
  refine ends_timed fun begun' => ends_bind.mpr (ends_operation fun first' told' entered' => ?_)
  have kept : first'.bench.cache = warm.bench.cache := by
    rw [entered']
    rfl
  have replies' : first'.bench.shop.world.replies.head? = first.bench.shop.world.replies.head? := by
    rw [entered, entered']
    exact replies
  have again := resolved.2 first'.bench (kept ▸ answers) replies'
  refine ends_zoom.mpr (again.mono (fun again later traced => ?_) fun _ _ wrong => wrong.elim)
  intro last' _ same'
  have dumps : Dumps warm.bench last'.bench := by
    have traced := traced.2
    rw [entered'] at traced
    rw [same']
    exact traced
  have unmodified' : last'.bench.cache.modified = false := by rw [dumps.1, unmodified]
  refine ends_bind.mpr ((saveCache_unmodified unmodified').mono (fun _ _ kept => ?_)
    fun _ _ wrong => wrong.elim)
  subst kept
  refine ends_bind.mpr (ends_get.mpr (ends_bind.mpr ((ends_modify _).mpr fun ended' => ?_)))
  exact ⟨traced.1, dumps⟩

theorem emit_ends (options : Emit.Options) (graph : Graph) (plant : Plant) :
    Ends (fun made after => (∃ told, after.bench = Noting.tell told plant.bench) ∧
        ∀ again : Graph, again.straight = graph.straight → ∀ warm : Plant,
          Ends (fun made' after' => made' = made ∧ ∃ told, after'.bench = Noting.tell told warm.bench)
            (fun _ _ => False) (emit options again) warm)
      (fun _ _ => True) (emit options graph) plant := by
  unfold emit
  rw [ends_ofRun]
  dsimp only
  cases run : (Emit.generate options graph).runOn {} with
  | mk outcome progress =>
    cases outcome with
    | error fault => trivial
    | ok made =>
      refine ⟨⟨_, rfl⟩, fun again same warm => ?_⟩
      have emitted : (Emit.generate options again).runOn {} = (.ok made, progress) := by
        rw [← Emit.generate_straight, same, Emit.generate_straight, run]
      rw [ends_ofRun, emitted]
      exact ⟨rfl, _, rfl⟩

theorem generate_ends {settings : Settings} (options : Emit.Options)
    (whole : backendOf settings = .debug → ∀ info, start.debug = some info → info.Whole)
    (cold : Layout.Cold start path plant.bench) :
    Ends (fun made after => ∃ cache, Closing start path cache after ∧
        ∀ warm : Plant, warm.bench.cache.modified = false →
          Layout.Cache.Answers cache warm.bench.cache →
          warm.bench.shop.world.replies.head? = plant.bench.shop.world.replies.head? →
          Ends (fun again later => again = made ∧ Dumps warm.bench later.bench)
            (fun _ _ => False) (generate settings options) warm)
      (fun _ _ => True) (generate settings options) plant := by
  refine ends_bind.mpr ((resolve_ends whole cold).mono (fun graph resolved closing => ?_) fun _ _ _ => trivial)
  obtain ⟨cache, closing, resolve_again⟩ := closing
  refine ends_bind.mpr (ends_operation fun first told entered => ?_)
  refine (emit_ends options graph first).mono (fun made emitted done => ?_) fun _ _ _ _ _ _ => trivial
  obtain ⟨⟨told', kept⟩, emit_again⟩ := done
  intro last told'' same
  refine ends_bind.mpr ((ends_modify _).mpr (ends_bind.mpr (ends_bind.mpr (ends_get.mpr ?_))))
  refine (ends_pure _).mpr (ends_bind.mpr ((ends_modify _).mpr ?_))
  have noted := ((closing.noted told entered).noted told' kept).noted told'' same
  refine ⟨cache, noted.noted _ rfl, fun warm unmodified answers replies => ?_⟩
  have resolving := resolve_again warm unmodified answers replies
  refine ends_bind.mpr (resolving.mono (fun graph' resolved' again => ?_) fun _ _ wrong => wrong)
  obtain ⟨alike, dumps⟩ := again
  refine ends_bind.mpr (ends_operation fun first' begun' entered' => ?_)
  refine (emit_again graph' alike first').mono (fun made' emitted' done => ?_)
    fun _ _ wrong => wrong.elim
  obtain ⟨rfl, told', kept'⟩ := done
  intro last' ended' same'
  refine ends_bind.mpr ((ends_modify _).mpr (ends_bind.mpr (ends_bind.mpr (ends_get.mpr ?_))))
  refine (ends_pure _).mpr (ends_bind.mpr ((ends_modify _).mpr ⟨rfl, ?_⟩))
  exact (((dumps.noted begun' entered').noted told' kept').noted ended' same').noted _ rfl

theorem leave_closing (closing : Closing start path cache plant) :
    Ends (fun _ => Closing start path cache) (fun _ _ => True) leave plant := by
  refine ends_bind.mpr ((saveCache_closing closing).mono (fun _ saved closed => ?_) fun _ _ _ => trivial)
  refine ends_bind.mpr (ends_get.mpr (ends_bind.mpr ((ends_modify _).mpr ?_)))
  refine ends_zoom.mpr (ends_zoom.mpr (ends_bind.mpr (ends_get.mpr ?_)))
  dsimp only
  split
  · exact closed.alike ⟨rfl, rfl, rfl⟩ rfl
  · exact closed.alike ⟨rfl, rfl, rfl⟩ rfl

theorem leave_unmodified (unmodified : plant.bench.cache.modified = false) :
    Ends (fun _ after => Idles plant.bench after.bench) (fun _ _ => False) leave plant := by
  refine ends_bind.mpr ((saveCache_unmodified unmodified).mono (fun _ saved same => ?_) fun _ _ wrong => wrong)
  subst same
  refine ends_bind.mpr (ends_get.mpr (ends_bind.mpr ((ends_modify _).mpr ?_)))
  refine ends_zoom.mpr (ends_zoom.mpr (ends_bind.mpr (ends_get.mpr ?_)))
  dsimp only
  split
  · exact ⟨rfl, rfl⟩
  · exact ⟨rfl, rfl⟩

theorem within_eq_ok {α : Type} {settings : Settings} {act : Act Plant α} {world after : World}
    {value : α} {plant : Plant} :
    (within settings act).runOn world = (.ok (.ok value, plant), after) ↔
      ∃ entered start ran, (enter settings).runOn world = (.ok entered, start) ∧
        act.runOn entered = (.ok value, ran) ∧ leave.runOn ran = (.ok (), plant) ∧
        after = plant.bench.shop.world := by
  unfold within
  rw [runOn_bind]
  cases run : (enter settings).runOn world with
  | mk outcome start =>
    cases outcome with
    | error fault => simp
    | ok entered =>
      cases ran : act.runOn entered with
      | mk done worked =>
        cases left : leave.runOn worked with
        | mk ending last =>
          dsimp only
          rw [ran]
          dsimp only
          rw [left]
          constructor
          · intro whole
            cases ending with
            | error fault => cases whole
            | ok _ =>
              obtain ⟨same, rfl⟩ := Prod.mk.inj whole
              obtain ⟨rfl, rfl⟩ := Prod.mk.inj (Except.ok.inj same)
              exact ⟨entered, start, worked, rfl, ran, left, rfl⟩
          · rintro ⟨_, _, _, ⟨⟩, ran', left', rfl⟩
            obtain ⟨rfl, rfl⟩ := Prod.mk.inj (ran.symm.trans ran')
            obtain ⟨rfl, rfl⟩ := Prod.mk.inj (left.symm.trans left')
            rfl

/-- A run over a syntax tree, and a second run over the same one where the first has left its files.
The cache has a place, and nothing new was left unsaved. The second run gives the same module and asks
the compiler for nothing but the dump, whatever else the compiler would answer and the debug
information would say by then. -/
theorem generate_warm (settings : Settings) (options : Emit.Options) {world after later : World}
    {made : Emit.Module} {plant : Plant} {path : Path}
    (cold : (within settings (generate settings options)).runOn world = (.ok (.ok made, plant), after))
    (located : ((cachePath settings).runOn world).1 = .ok (some path))
    (saved : plant.bench.cache.modified = false)
    (whole : backendOf settings = .debug → ∀ info, world.debug = some info → info.Whole)
    (files : later.files = after.files) (here : later.here = world.here)
    (environment : later.environment = world.environment)
    (tree : later.replies.head? = world.replies.head?) :
    ∃ plant' after', (within settings (generate settings options)).runOn later =
        (.ok (.ok made, plant'), after') ∧
      ∃ call, "-ast-dump=json" ∈ call.command ∧ after'.calls = later.calls ++ [call] := by
  obtain ⟨entered, start, ran, entering, generating, leaving, rfl⟩ := within_eq_ok.mp cold
  obtain ⟨entry, enter_again⟩ := (enter_ends settings located).of_run entering
  have debug : start.debug = world.debug := by rw [entry.rewrites.2]
  have replies : entered.bench.shop.world.replies = world.replies := by
    rw [entry.current, entry.rewrites.2]
  have bench : Layout.Cold start path entered.bench := by
    refine ⟨⟨?_, fun index there => ?_⟩, entry.settled⟩
    · rw [entry.current]
      exact World.Stays.refl start
    · rw [entry.unread] at there
      cases there
  obtain ⟨cache, closing, generate_again⟩ :=
    (generate_ends options (debug ▸ whole) bench).of_run generating
  have closed := (leave_closing closing).of_run leaving
  have alike : Alike plant.bench.shop.world later :=
    ⟨files, here.trans (closed.here.trans entry.rewrites.here).symm,
      environment.trans (closed.environment.trans entry.rewrites.environment).symm⟩
  have reopens := (closed.settled.reopens saved).alike alike
  have keeps : Keeps start.files later.files := by
    rw [files]
    exact closed.keeps
  -- The second run goes the same way from here on.
  obtain ⟨entered', start', entering', ready⟩ :=
    (enter_again later plant.bench.cache keeps here environment reopens).run
  have current : Quiet later entered'.bench.shop.world := by
    rw [ready.current]
    exact ready.quiet
  have answers : Layout.Cache.Answers cache entered'.bench.cache :=
    fun slot => (ready.answers slot).trans (closed.answers slot)
  have first : entered'.bench.shop.world.replies.head? = entered.bench.shop.world.replies.head? := by
    rw [current, replies]
    exact tree
  obtain ⟨again, ran', generating', rfl, kept, call, dumps, calls⟩ :=
    (generate_again entered' ready.unmodified answers first).run
  have unmodified : ran'.bench.cache.modified = false := by rw [kept, ready.unmodified]
  obtain ⟨_, plant', leaving', idle⟩ := (leave_unmodified unmodified).run
  refine ⟨plant', plant'.bench.shop.world,
    within_eq_ok.mpr ⟨entered', start', ran', entering', generating', leaving', rfl⟩, call, dumps, ?_⟩
  rw [idle.2, calls, current]

end

/-- The syntax tree of a header with a record of one number. -/
def pointDump : String :=
  "\x7b\"inner\": [\x7b\"kind\": \"RecordDecl\", \"name\": \"point\", \"inner\": [\x7b\"kind\": \"FieldDecl\", " ++
    "\"name\": \"x\", \"type\": \x7b\"qualType\": \"int\"\x7d\x7d]\x7d]\x7d"

/-- The debug information of the same record. -/
def pointInfo : Debug.Info where
  entries := [
    { tag := "DW_TAG_structure_type", name := some (.text "point"),
      attributes := [("byte_size", .int 4)], children := [1] },
    { tag := "DW_TAG_member", name := some (.text "x"),
      attributes := [("data_member_location", .int 0)], type := .entry 2 },
    { tag := "DW_TAG_base_type", name := some (.text "int"), attributes := [("byte_size", .int 4)] }]
  units := [[0, 2]]

def pointSettings : Settings where
  header := { parts := ["point.h"] }
  output := .value { parts := ["point.py"] }
  cache := some (.value { parts := ["layout"] })
  backend := "dwarf"

def pointWorld : World where
  scratch := { root := "/", parts := ["tmp"] }
  replies := [.output pointDump, .output ""]
  debug := some pointInfo

theorem pointInfo_whole : pointInfo.Whole := by
  intro entry member key _ value found
  simp only [pointInfo, List.mem_cons, List.not_mem_nil, or_false] at member
  rcases member with rfl | rfl | rfl
  all_goals
    obtain ⟨own, -, member⟩ := Table.mem_of_find? found
    simp only [List.mem_singleton, Prod.mk.injEq] at member
    exact ⟨_, member.2⟩

theorem generate_pointWorld :
    (match (within pointSettings (generate pointSettings {})).runOn pointWorld with
      | (.ok (.ok _, plant), _) => plant.bench.cache.modified == false
      | _ => false) = true := by
  decide +kernel

theorem generate_warm_point :
    ∃ made plant after,
      (within pointSettings (generate pointSettings {})).runOn pointWorld =
        (.ok (.ok made, plant), after) ∧
      plant.bench.cache.modified = false ∧ pointInfo.Whole ∧
      let later : World :=
        { pointWorld with files := after.files, replies := [.output pointDump], debug := none }
      ∃ plant' after', (within pointSettings (generate pointSettings {})).runOn later =
          (.ok (.ok made, plant'), after') ∧
        ∃ call, "-ast-dump=json" ∈ call.command ∧ after'.calls = [call] := by
  have succeeds := generate_pointWorld
  have located : ((cachePath pointSettings).runOn pointWorld).1 = .ok (some { parts := ["layout"] }) := by
    decide +kernel
  split at succeeds
  next made plant after cold =>
    refine ⟨made, plant, after, cold, by simpa using succeeds, pointInfo_whole, ?_⟩
    exact generate_warm pointSettings {} cold located (by simpa using succeeds)
      (fun _ info there => by obtain rfl := Option.some.inj there; exact pointInfo_whole) rfl rfl rfl rfl
  next => cases succeeds

end Pipeline

end NativeBindings
