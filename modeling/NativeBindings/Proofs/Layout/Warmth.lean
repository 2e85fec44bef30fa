import NativeBindings.Proofs.Debug.Whole
import NativeBindings.Proofs.Layout.Persistence
import NativeBindings.Proofs.Layout.Transparency
import NativeBindings.Proofs.Resolve.Chronicle
import NativeBindings.Proofs.Resolve.Mirror

/-!
A resolution with the answers of an earlier one. Where the cache holds every answer that the compiler
gave then, the compiler is not asked again, and the graph is the same.
-/
namespace NativeBindings

open Act

namespace World

/-- The surroundings are the same, and so is the debug information. -/
structure Stays (world after : World) : Prop extends Alike world after where
  debug : after.debug = world.debug

variable {world middle after : World}

theorem Stays.refl (world : World) : Stays world world := ⟨Alike.refl world, rfl⟩

theorem Stays.trans (first : Stays world middle) (second : Stays middle after) : Stays world after where
  files := second.files.trans first.files
  here := second.here.trans first.here
  environment := second.environment.trans first.environment
  debug := second.debug.trans first.debug

theorem Stays.noted (stays : Stays world after) (told : Journal) :
    Stays world (Noting.tell told after) :=
  ⟨⟨stays.files, stays.here, stays.environment⟩, stays.debug⟩

/-- A command may do anything outside, and nothing to the files. -/
theorem run_stays (command : List String) (stdin : Option String) (timeout : Option Seconds)
    (world : World) :
    Ends (fun _ => Stays world) (fun _ => Stays world) (run command stdin timeout) world := by
  refine ends_bind.mpr ((ends_modify _).mpr (ends_bind.mpr (ends_get.mpr (ends_bind.mpr ?_))))
  refine (ends_set _).mpr ?_
  dsimp only
  split
  all_goals exact ⟨⟨rfl, rfl, rfl⟩, rfl⟩

end World

namespace Workshop

/-- However an act in a workshop ends, its surroundings stay. -/
abbrev Remains {α : Type} (act : Act Workshop α) (shop : Workshop) : Prop :=
  Ends (fun _ after => World.Stays shop.world after.world) (fun _ after => World.Stays shop.world after.world)
    act shop

theorem run_stays (command : List String) (stdin : Option String) (shop : Workshop) :
    Remains (run command stdin) shop :=
  ends_bind.mpr (ends_get.mpr (ends_zoom.mpr (World.run_stays command stdin _ shop.world)))

theorem work_stays (shop : Workshop) : Remains work shop := by
  refine ends_bind.mpr (ends_get.mpr ?_)
  dsimp only
  split
  · exact World.Stays.refl _
  · exact (World.Stays.refl shop.world).noted _

theorem compileAndRun_stays (code : String) (shop : Workshop) : Remains (compileAndRun code) shop := by
  refine ends_bind.mpr ((work_stays shop).mono (fun place first begun => ?_) fun _ _ stays => stays)
  refine ends_bind.mpr (ends_get.mpr (ends_bind.mpr ?_))
  refine (run_stays _ _ first).mono (fun _ second compiled => ?_) fun _ _ failed => begun.trans failed
  exact (run_stays _ _ second).mono (fun _ _ ran => (begun.trans compiled).trans ran)
    fun _ _ failed => (begun.trans compiled).trans failed

theorem compileObject_stays (code name : String) (shop : Workshop) :
    Remains (compileObject code name) shop := by
  refine ends_bind.mpr ((work_stays shop).mono (fun place first begun => ?_) fun _ _ stays => stays)
  refine ends_bind.mpr (ends_get.mpr (ends_bind.mpr ?_))
  exact (run_stays _ _ first).mono (fun _ _ compiled => begun.trans compiled)
    fun _ _ failed => begun.trans failed

end Workshop

namespace Layout

open Debug

/-- A bench in the surroundings of a world. Whatever it has read there has integers for sizes. -/
structure Stands (world : World) (bench : Bench) : Prop where
  stays : World.Stays world bench.shop.world
  layouts : ∀ index, bench.layouts = some index → WholeIndex index

section
variable {world : World} {bench : Bench}

theorem Stands.noted (stands : Stands world bench) (told : Journal) :
    Stands world (Noting.tell told bench) :=
  ⟨stands.stays.noted told, stands.layouts⟩

theorem Stands.worked (stands : Stands world bench) {shop : Workshop}
    (stays : World.Stays bench.shop.world shop.world) : Stands world { bench with shop } :=
  ⟨stands.stays.trans stays, stands.layouts⟩

theorem probe_stands (header : Path) (query : Query) (stands : Stands world bench) :
    Ends (fun n after => IsWhole n ∧ Stands world after) (fun _ after => Stands world after)
      (Probe.fresh header query) bench := by
  have noted := stands.noted (Journal.info (Probe.announcement query))
  refine ends_bind.mpr ((ends_modify _).mpr (ends_bind.mpr (ends_get.mpr ?_)))
  refine ends_bind.mpr ((ends_lift _).mpr ⟨fun place _ => ?_, fun _ _ => noted⟩)
  refine ends_bind.mpr ((ends_modify _).mpr (ends_bind.mpr (ends_zoom.mpr ?_)))
  refine (Workshop.compileAndRun_stays _ _).mono (fun output shop stays => ?_) fun _ shop stays => ?_
  · refine ends_bind.mpr ((ends_lift _).mpr ⟨fun n _ => ?_, fun _ _ => ?_⟩)
    · exact ⟨⟨n, rfl⟩, noted.stays.trans stays, stands.layouts⟩
    · exact ⟨noted.stays.trans stays, stands.layouts⟩
  · exact ⟨noted.stays.trans stays, stands.layouts⟩

namespace DebugInfo

theorem load_stands (header : Path) (whole : ∀ info, world.debug = some info → info.Whole)
    (stands : Stands world bench) :
    Ends (fun index after => WholeIndex index ∧ Stands world after) (fun _ after => Stands world after)
      (load header) bench := by
  refine ends_timed fun begun => ?_
  have start := stands.noted begun
  refine ends_bind.mpr (ends_get.mpr ?_)
  refine ends_bind.mpr ((ends_lift _).mpr ⟨fun place _ => ?_, fun _ _ ended => start.noted ended⟩)
  refine ends_bind.mpr (ends_zoom.mpr ?_)
  refine (Workshop.compileObject_stays _ _ _).mono (fun object shop stays => ?_)
    fun _ shop stays ended => (start.worked stays).noted ended
  have compiled := start.worked stays
  refine ends_bind.mpr (ends_get.mpr ?_)
  dsimp only
  split
  · exact fun ended => compiled.noted ended
  next info there =>
    have same : world.debug = some info := compiled.stays.debug.symm.trans there
    refine ends_bind.mpr ((ends_modify _).mpr ?_)
    refine ends_bind.mpr ((ends_lift _).mpr
      ⟨fun index built => ?_, fun _ _ ended => (compiled.noted _).noted ended⟩)
    refine ends_bind.mpr ((ends_modify _).mpr fun ended => ?_)
    exact ⟨index_whole (whole info same) built, ((compiled.noted _).noted _).noted ended⟩

theorem layouts_stands (header : Path) (whole : ∀ info, world.debug = some info → info.Whole)
    (stands : Stands world bench) :
    Ends (fun index after => WholeIndex index ∧ Stands world after) (fun _ after => Stands world after)
      (layouts header) bench := by
  refine ends_bind.mpr (ends_get.mpr ?_)
  split
  next index there => exact ⟨stands.layouts index there, stands⟩
  next =>
    refine ends_bind.mpr ((load_stands header whole stands).mono (fun index after loaded => ?_)
      fun _ _ stands => stands)
    refine ends_bind.mpr ((ends_modify _).mpr ⟨loaded.1, loaded.2.stays, fun other same => ?_⟩)
    obtain rfl := Option.some.inj same
    exact loaded.1

theorem layoutOf_stands (header : Path) (type : String)
    (whole : ∀ info, world.debug = some info → info.Whole) (stands : Stands world bench) :
    Ends (fun layout after => layout.Whole ∧ Stands world after) (fun _ after => Stands world after)
      (layoutOf header type) bench := by
  refine ends_bind.mpr ((layouts_stands header whole stands).mono (fun index after loaded => ?_)
    fun _ _ stands => stands)
  have counted : Stands world { after with asked := after.asked + 1 } := ⟨loaded.2.stays, loaded.2.layouts⟩
  refine ends_bind.mpr ((ends_modify _).mpr ?_)
  refine ends_bind.mpr ((ends_lift _).mpr ⟨fun names _ => ?_, fun _ _ => counted⟩)
  split
  next layout found =>
    obtain ⟨name, -, found⟩ := List.exists_of_findSome?_eq_some found
    exact ⟨Table.forall_find? loaded.1 found, counted⟩
  · exact counted

theorem memberOf_stands (header : Path) (type : String) (field : Label)
    (whole : ∀ info, world.debug = some info → info.Whole) (stands : Stands world bench) :
    Ends (fun place after => WholePlace place ∧ Stands world after) (fun _ after => Stands world after)
      (memberOf header type field) bench := by
  refine ends_bind.mpr ((layoutOf_stands header type whole stands).mono (fun layout after found => ?_)
    fun _ _ stands => stands)
  dsimp only
  split
  next place member =>
    refine ⟨?_, found.2⟩
    split at member
    · exact Table.forall_find? found.1.2 member
    · cases member
  · exact found.2

theorem fresh_stands (header : Path) (query : Query)
    (whole : ∀ info, world.debug = some info → info.Whole) (stands : Stands world bench) :
    Ends (fun n after => IsWhole n ∧ Stands world after) (fun _ after => Stands world after)
      (fresh header query) bench := by
  cases query with
  | sizeOf type =>
    exact ends_bind.mpr ((layoutOf_stands header _ whole stands).mono
      (fun layout after found => ⟨found.1.1, found.2⟩) fun _ _ stands => stands)
  | offsetOf type field =>
    exact ends_bind.mpr ((memberOf_stands header _ field whole stands).mono
      (fun place after found => ⟨⟨place.1, rfl⟩, found.2⟩) fun _ _ stands => stands)
  | fieldSizeOf type field =>
    exact ends_bind.mpr ((memberOf_stands header _ field whole stands).mono
      (fun place after found => ⟨found.1, found.2⟩) fun _ _ stands => stands)

end DebugInfo

/-- The compiler answers with integers, from debug information as far as that holds integers. -/
theorem freshBy_stands {backend : Backend} (header : Path) (query : Query)
    (whole : backend = .debug → ∀ info, world.debug = some info → info.Whole)
    (stands : Stands world bench) :
    Ends (fun n after => IsWhole n ∧ Stands world after) (fun _ after => Stands world after)
      (freshBy backend header query) bench := by
  cases backend with
  | probe => exact probe_stands header query stands
  | debug => exact DebugInfo.fresh_stands header query (whole rfl) stands

/-- A bench that has asked the compiler. Its cache opens again as it is unless something in it is new. -/
structure Cold (world : World) (path : Path) (bench : Bench) : Prop extends Stands world bench where
  settled : Cache.Settled world path bench.cache

variable {path : Path} {cache : Cache} {backend : Backend} {header : String} {query : Query}

theorem Cache.Settled.put (settled : Cache.Settled world path cache) (place : Slot) {n : Amount}
    (whole : IsWhole n) : Cache.Settled world path (cache.put place n) := by
  obtain ⟨k, rfl⟩ := whole
  unfold Cache.put
  split
  · exact settled
  · cases place with
    | size key => exact ⟨settled.located, settled.sizes.insert key k, settled.offsets, nofun⟩
    | offset key => exact ⟨settled.located, settled.sizes, settled.offsets.insert key k, nofun⟩

/-- An answer is put only where nothing was. -/
theorem answerBy_keeps {place : Slot} (known : bench.cache.find place ≠ .null) :
    ((answerBy backend header query).runOn bench).2.cache.find place = bench.cache.find place := by
  cases slotted : slot header query with
  | error fault =>
    have failed : (answerBy backend header query).runOn bench = (.error fault, bench) := by
      rw [answerBy, cached, slotted]
      rfl
    rw [failed]
  | ok own =>
    by_cases missing : bench.cache.find own = .null
    · have spared : ((freshBy backend (Path.ofText header) query).runOn bench).2.cache = bench.cache :=
        (freshBy_spares backend (Path.ofText header) query bench).after
      have apart : own ≠ place := by
        rintro rfl
        exact known missing
      rw [answerBy_missing slotted missing]
      revert spared
      obtain ⟨outcome, after⟩ := (freshBy backend (Path.ofText header) query).runOn bench
      intro spared
      dsimp only at spared
      cases outcome with
      | ok n =>
        dsimp only
        rw [spared, Cache.find_put missing, if_neg apart]
      | error fault => exact congrArg (fun cache => Cache.find cache place) spared
    · rw [answerBy_known slotted missing]

/-- What the cache has for a question after it was answered. -/
theorem answerBy_cold (whole : backend = .debug → ∀ info, world.debug = some info → info.Whole)
    (cold : Cold world path bench) :
    Ends (fun n after => Cold world path after ∧ n ≠ .null ∧
        ∃ place, slot header query = .ok place ∧ after.cache.find place = n)
      (fun _ after => Cold world path after) (answerBy backend header query) bench := by
  cases slotted : slot header query with
  | error fault =>
    rw [answerBy, cached, slotted]
    exact cold
  | ok place =>
    by_cases missing : bench.cache.find place = .null
    · have spares := freshBy_spares backend (Path.ofText header) query bench
      have stands := freshBy_stands (Path.ofText header) query whole cold.toStands
      rw [answerBy_of_slot slotted]
      refine ends_bind.mpr (ends_get.mpr ?_)
      rw [missing]
      refine ends_bind.mpr ((stands.and spares).mono (fun n after fresh => ?_)
        fun _ after failed => ⟨failed.1, failed.2 ▸ cold.settled⟩)
      obtain ⟨⟨⟨k, rfl⟩, stands⟩, spared⟩ := fresh
      refine ends_bind.mpr ((ends_modify _).mpr ?_)
      have settled := cold.settled.put place ⟨k, rfl⟩
      rw [← spared] at settled missing
      refine ⟨⟨⟨stands.stays, stands.layouts⟩, settled⟩, by rintro ⟨⟩, place, rfl, ?_⟩
      exact (Cache.find_put missing _ place).trans (if_pos rfl)
    · have known : (answerBy backend header query).runOn bench = _ := answerBy_known slotted missing
      unfold Ends
      rw [known]
      exact ⟨cold, missing, place, rfl, rfl⟩

end

section
variable {world : World} {path : Path} {backend : Backend} {header : String}

theorem Cold.noted {bench : Bench} (cold : Cold world path bench) (told : Journal) :
    Cold world path (Noting.tell told bench) :=
  ⟨cold.toStands.noted told, cold.settled⟩

/-- A first resolution, which asks the compiler, and a second one with a cache that answers all that
the first one keeps. -/
def warming (world : World) (path : Path) (warm : Bench) : Resolve.Mirror Bench Bench where
  tuned bench other := Cold world path bench ∧ other = warm
  waits := Eq
  fine bench := ∀ place, bench.cache.find place ≠ .null →
    warm.cache.find place = bench.cache.find place
  clear _ _ := True
  place _ := True
  strict := False

/-- A bench with other notes. -/
def withJournal (bench : Bench) (journal : Journal) : Bench :=
  { bench with shop := { bench.shop with world := { bench.shop.world with journal } } }

theorem Cold.withJournal {bench : Bench} (cold : Cold world path bench) (journal : Journal) :
    Cold world path (withJournal bench journal) := by
  have stays := cold.stays
  exact ⟨⟨⟨⟨stays.files, stays.here, stays.environment⟩, stays.debug⟩, cold.layouts⟩, cold.settled⟩

theorem ask_runOn (query : Query) (session : Resolve.Session Bench) :
    ∃ told, (Resolve.ask (compilerOracle backend header) query).runOn session =
      (((answerBy backend header query).runOn (withJournal session.oracle [])).1,
        { session with
          oracle := withJournal ((answerBy backend header query).runOn (withJournal session.oracle [])).2
            session.oracle.shop.world.journal
          journal := session.journal ++ told }) :=
  ⟨_, rfl⟩

theorem ask_warming (whole : backend = .debug → ∀ info, world.debug = some info → info.Whole)
    (warm : Bench) (query : Query) :
    (warming world path warm).Mirrors id (Resolve.ask (compilerOracle backend header) query)
      (Resolve.ask (compilerOracle backend header) query) := by
  intro session good
  obtain ⟨told, asked⟩ := @ask_runOn backend header query session
  have keeps : ∀ place, session.oracle.cache.find place ≠ .null →
      ((answerBy backend header query).runOn (withJournal session.oracle [])).2.cache.find place =
        session.oracle.cache.find place := fun _ known => answerBy_keeps known
  have answers (cold : Cold world path session.oracle) :=
    ends_iff.mp (@answerBy_cold _ _ _ _ header query whole (cold.withJournal []))
  rw [asked] at good ⊢
  generalize (answerBy backend header query).runOn (withJournal session.oracle []) = ended
    at good keeps answers ⊢
  obtain ⟨outcome, after⟩ := ended
  have fine : ∀ place, after.cache.find place ≠ .null → warm.cache.find place = after.cache.find place :=
    good.1
  refine ⟨⟨fun place known => ?_, trivial⟩, fun session' like => ?_⟩
  · have same := keeps place known
    exact (fine place (same.symm ▸ known)).trans same
  · obtain ⟨cold, warmed⟩ := like.oracle
    obtain ⟨told', again⟩ := @ask_runOn backend header query session'
    cases outcome with
    | error fault => exact False.elim
    | ok n =>
      obtain ⟨cold', present, place, slotted, found⟩ := (answers cold).1 n rfl
      have known : warm.cache.find place = n := (fine place (found.symm ▸ present)).trans found
      have answered : (answerBy backend header query).runOn (withJournal session'.oracle []) =
          (.ok n, withJournal session'.oracle []) := by
        subst known
        rw [warmed]
        exact answerBy_known slotted present
      rw [again, answered]
      exact ⟨rfl, like.graph, like.waiting, like.owners, like.includer, trivial,
        cold'.withJournal _, warmed⟩

theorem warming_faithful (whole : backend = .debug → ∀ info, world.debug = some info → info.Whole)
    (warm : Bench) :
    (warming world path warm).Faithful (compilerOracle backend header)
      (compilerOracle backend header) := Resolve.Mirror.Steady.faithful {
  ask := ask_warming whole warm
  declare _ _ _ _ _ := trivial
  release _ _ _ _ _ := ⟨trivial, by rintro _ rfl; exact ⟨rfl, rfl⟩⟩
  defer _ _ _ _ _ _ := ⟨trivial, by rintro _ rfl; exact ⟨rfl, rfl⟩⟩ }

/-- A resolution that asked the compiler, and the same one with a cache that holds what it asked. -/
theorem resolve_warm (whole : backend = .debug → ∀ info, world.debug = some info → info.Whole)
    {place : Path} {nodes : List Json} {bench warm : Bench} {graph : Graph}
    {session : Resolve.Session Bench} (cold : Cold world path bench)
    (run : (Resolve.resolve place (compilerOracle backend header) nodes).runOn { oracle := bench } =
      (.ok graph, session))
    (kept : ∀ slot, session.oracle.cache.find slot ≠ .null →
      warm.cache.find slot = session.oracle.cache.find slot) :
    Cold world path session.oracle ∧
      Ends (fun again after => again.straight = graph.straight ∧ after.oracle = warm)
        (fun _ _ => False) (Resolve.resolve place (compilerOracle backend header) nodes)
        { oracle := warm } := by
  have some_bench : Nonempty Bench := ⟨bench⟩
  have faithful : (warming world path warm).Faithful (compilerOracle backend header)
    (compilerOracle backend header) := warming_faithful whole warm
  have resolved : ((Resolve.resolve place (compilerOracle backend header) nodes).runOn
      { oracle := bench }).1 = .ok graph := by rw [run]
  obtain ⟨last, passed, made, nothing⟩ := Resolve.resolve_eq_ok resolved
  obtain ⟨told, ended⟩ := Resolve.conclude_done place (List.isEmpty_iff.mpr nothing)
  -- The first resolution ends with what the nodes leave.
  have oracle : session.oracle = last.oracle := by
    obtain ⟨more, whole_run⟩ := @Resolve.resolve_told Bench place (compilerOracle backend header) nodes bench
    rw [run, runOn_bind, passed] at whole_run
    dsimp only at whole_run
    rw [ended] at whole_run
    exact congrArg (fun ending => ending.2.oracle) whole_run
  have walk := Resolve.Mirror.topNodes_mirrors faithful place false
    (fun node (_ : node ∈ nodes) _ _ => trivial)
    (fun node _ => Resolve.Mirror.waits_any (fun _ _ => trivial) node) (Resolve.opening bench)
  rw [passed] at walk
  have good : (warming world path warm).Good last := ⟨fun slot known => by
    rw [← oracle] at known ⊢
    exact kept slot known, trivial⟩
  have like : (warming world path warm).Like (Resolve.opening bench) (Resolve.opening warm) :=
    ⟨rfl, rfl, rfl, rfl, trivial, cold, rfl⟩
  have alike := (walk good).2 (Resolve.opening warm) like
  obtain ⟨told', again⟩ := @Resolve.resolve_told Bench place (compilerOracle backend header) nodes warm
  rw [runOn_bind] at again
  generalize (Resolve.topNodes place (compilerOracle backend header) false nodes).runOn
    (Resolve.opening warm) = ending at alike again
  obtain ⟨outcome, last'⟩ := ending
  cases outcome with
  | error fault => exact alike.elim
  | ok done =>
    obtain ⟨-, later⟩ := alike
    have waits : last.registry.waiting = last'.registry.waiting := later.waiting
    rw [nothing] at waits
    obtain ⟨told'', ended'⟩ := Resolve.conclude_done place (List.isEmpty_iff.mpr waits.symm)
    dsimp only at again
    rw [ended'] at again
    refine ⟨oracle ▸ later.oracle.1, ?_⟩
    unfold Ends
    rw [again]
    exact ⟨made ▸ later.graph.symm, later.oracle.2⟩

end

end Layout

end NativeBindings
