import NativeBindings.Proofs.Layout.Warmth
import NativeBindings.Proofs.Resolve.History

/-!
What the cache holds in the course of a resolution: all that was in it before, and every answer that was
given since, whether or not the resolution succeeds. Who starts with such a cache is not asked again.
-/
namespace NativeBindings.Layout

open Act Resolve

namespace Cache

open World

/-- The files of the tables beside a path. -/
def tableFiles (path : Path) : List Path :=
  [path.withName (fileName path "sizeof"), path.withName (fileName path "offsetof")]

/-- Whether the tables of a cache could be written beside a path in these surroundings. -/
def Writable (world : World) (path : Path) (cache : Cache) : Prop :=
  Outcome.Succeeds ((writeTables cache path).runOn world).1

section
variable {world : World} {path : Path} {cache : Cache}

theorem writeTable_regards (file : Path) (table : Table String Amount) :
    Regards (writeTable file table) :=
  (write_regards _ _).then fun _ => (looks_lift _).regards

theorem writeTables_regards (cache : Cache) (path : Path) : Regards (writeTables cache path) :=
  (makeDirectories_regards _).then fun _ => (looks_lift _).regards.then fun _ =>
    (writeTable_regards _ _).then fun _ => (looks_lift _).regards.then fun _ => writeTable_regards _ _

theorem Writable.alike {other : World} (writable : Writable world path cache) (alike : Alike world other) :
    Writable other path cache := by
  unfold Writable
  rw [(writeTables_regards cache path world other alike).1]
  exact writable

theorem writeTable_edits {paths : List Path} {file : Path} (among : file ∈ paths)
    (table : Table String Amount) (world : World) :
    Ends (fun _ => Edits paths world) (fun _ _ => True) (writeTable file table) world := by
  refine (writeTableBy_ends .plain file table world).mono (fun _ after wrote => ?_) fun _ _ _ => trivial
  obtain ⟨rewrites, text, written, -⟩ := wrote
  exact write_edits among rewrites.here written

theorem writeTables_edits (cache : Cache) (path : Path) (world : World) :
    Ends (fun _ => Edits (tableFiles path) world) (fun _ _ => True) (writeTables cache path) world := by
  have directories := @makeDirectories_edits (tableFiles path) path.parent world
  refine ends_bind.mpr (directories.mono (fun _ start made => ?_) fun _ _ _ => trivial)
  refine ends_bind.mpr ((ends_lift _).mpr ⟨fun sizes named => ?_, fun _ _ => trivial⟩)
  have first : sizes ∈ tableFiles path := by simp [tablePath_eq_ok named, tableFiles]
  refine ends_bind.mpr ((writeTable_edits first _ start).mono (fun _ middle wrote => ?_) fun _ _ _ => trivial)
  refine ends_bind.mpr ((ends_lift _).mpr ⟨fun offsets named' => ?_, fun _ _ => trivial⟩)
  have second : offsets ∈ tableFiles path := by simp [tablePath_eq_ok named', tableFiles]
  exact (writeTable_edits second _ middle).mono (fun _ _ last => (made.trans wrote).trans last)
    fun _ _ _ => trivial

/-- A cache that can be written is saved. -/
theorem save_writes (settled : Settled world path cache) (writable : Writable world path cache) :
    Ends (fun saved after => saved.modified = false ∧ Settled after path saved ∧ Answers cache saved ∧
        Edits (tableFiles path) world after)
      (fun _ _ => False) (save cache) world := by
  have fine : Ends (fun saved after => saved.modified = false ∧ Edits (tableFiles path) world after)
      (fun _ _ => False) (save cache) world := by
    unfold save
    rw [settled.located]
    dsimp only
    split
    next unmodified => exact ⟨by simpa using unmodified, Edits.refl world⟩
    next =>
      obtain ⟨value, done⟩ := writable
      have edits := (ends_iff.mp (writeTables_edits cache path world)).1 value done
      refine ends_bind.mpr (ends_outcome.mpr (ends_iff.mpr ⟨fun _ _ => ?_, fun fault failed => ?_⟩))
      · exact ends_bind.mpr ((ends_modify _).mpr ⟨rfl, edits.trans (edits_of_files rfl rfl)⟩)
      · cases done.symm.trans failed
  refine (fine.and (save_settled settled)).mono (fun saved after ended => ?_) fun _ _ wrong => wrong.1
  obtain ⟨⟨unmodified, edits⟩, -, settled, answers⟩ := ended
  exact ⟨unmodified, settled, answers, edits⟩

/-- A save changes nothing in the tables. -/
theorem save_tables (cache : Cache) (world : World) :
    Ends (fun saved _ => saved.sizes = cache.sizes ∧ saved.offsets = cache.offsets) (fun _ _ => True)
      (save cache) world := by
  unfold save
  split
  · exact ⟨rfl, rfl⟩
  · split
    · exact ⟨rfl, rfl⟩
    · refine ends_bind_any (fun outcome after => ?_) fun _ _ => trivial
      split
      · exact ends_bind.mpr ((ends_modify _).mpr ⟨rfl, rfl⟩)
      · exact ends_bind.mpr ((ends_modify _).mpr ⟨rfl, rfl⟩)
      · trivial

end

end Cache

/-- Whether a cache has what was in another one, and the answers to the questions of some turns. -/
structure Holds (header : String) (before : Cache) (done : List Turn) (cache : Cache) : Prop where
  loaded : ∀ place, before.find place ≠ .null → cache.find place = before.find place
  answered : ∀ query n, .asked query (.ok n) ∈ done →
    n ≠ .null ∧ ∃ place, slot header query = .ok place ∧ cache.find place = n

/-- Whether a question is answered without the compiler at any time of a resolution that starts with a
cache. -/
def Spared (backend : Backend) (header : String) (cache : Cache) (query : Query) (n : Amount) : Prop :=
  ∀ (bench : Bench) (graph : Graph) (turns : List Turn) (now : Bench), bench.cache = cache →
    History { oracle := compilerOracle backend header, state := bench, graph } turns now →
      (answerBy backend header query).runOn now = (.ok n, now)

section
variable {world : World} {path : Path} {backend : Backend} {header : String} {bench : Bench}
  {cache other : Cache} {done : List Turn}

/-- The oracle is the compiler, with the notes on the way taken out. -/
theorem compilerOracle_eq (backend : Backend) (header : String) (query : Query) (bench : Bench) :
    ∃ told, compilerOracle backend header query bench =
      (((answerBy backend header query).runOn (withJournal bench [])).1, told,
        withJournal ((answerBy backend header query).runOn (withJournal bench [])).2
          bench.shop.world.journal) := ⟨_, rfl⟩

theorem compilerOracle_keeps (query : Query) {place : Slot} (known : bench.cache.find place ≠ .null) :
    (compilerOracle backend header query bench).2.2.cache.find place = bench.cache.find place := by
  obtain ⟨told, same⟩ := compilerOracle_eq backend header query bench
  rw [same]
  exact @answerBy_keeps (withJournal bench []) backend header query place known

theorem compilerOracle_cold (whole : backend = .debug → ∀ info, world.debug = some info → info.Whole)
    (cold : Cold world path bench) (query : Query) :
    Cold world path (compilerOracle backend header query bench).2.2 ∧
      ∀ n, (compilerOracle backend header query bench).1 = .ok n → n ≠ .null ∧
        ∃ place, slot header query = .ok place ∧
          (compilerOracle backend header query bench).2.2.cache.find place = n := by
  obtain ⟨told, same⟩ := compilerOracle_eq backend header query bench
  have answers := @answerBy_cold _ _ _ _ header query whole (cold.withJournal [])
  have after := (answers.mono (fun _ _ done => done.1) fun _ _ cold => cold).after
  rw [same]
  exact ⟨after.withJournal _, fun n answered => (ends_iff.mp answers).1 n answered |>.2⟩

theorem Holds.mono (holds : Holds header cache done other) {later : Cache}
    (keeps : ∀ place, other.find place ≠ .null → later.find place = other.find place) :
    Holds header cache done later where
  loaded place known := by
    have same := holds.loaded place known
    exact (keeps place (same.symm ▸ known)).trans same
  answered query n asked := by
    obtain ⟨present, place, slotted, found⟩ := holds.answered query n asked
    exact ⟨present, place, slotted, (keeps place (found.symm ▸ present)).trans found⟩

theorem Holds.concat (holds : Holds header cache done other) {turn : Turn}
    (answered : ∀ query n, turn = .asked query (.ok n) →
      n ≠ .null ∧ ∃ place, slot header query = .ok place ∧ other.find place = n) :
    Holds header cache (done ++ [turn]) other where
  loaded := holds.loaded
  answered query n asked := by
    obtain before | here := List.mem_append.mp asked
    · exact holds.answered query n before
    · exact answered query n (List.mem_singleton.mp here).symm

variable {outset : Outset Bench} {now : Bench}

/-- An answer in the cache stays there. -/
theorem history_keeps (history : History outset done now)
    (compiler : outset.oracle = compilerOracle backend header) {place : Slot}
    (known : outset.state.cache.find place ≠ .null) :
    now.cache.find place = outset.state.cache.find place := by
  induction history with
  | nil => rfl
  | asked past query ih =>
    rw [compiler]
    exact (compilerOracle_keeps query (ih.symm ▸ known)).trans ih
  | sown _ _ _ ih => exact ih
  | declared _ _ _ ih => exact ih
  | marked _ _ _ ih => exact ih

/-- In every state of a resolution the cache has all that was answered until then. -/
theorem history_holds (whole : backend = .debug → ∀ info, world.debug = some info → info.Whole)
    (history : History outset done now) (compiler : outset.oracle = compilerOracle backend header)
    (cold : Cold world path outset.state) :
    Cold world path now ∧ Holds header outset.state.cache done now.cache := by
  induction history with
  | nil => exact ⟨cold, fun _ _ => rfl, fun _ _ asked => absurd asked List.not_mem_nil⟩
  | asked past query ih =>
    obtain ⟨cold, holds⟩ := ih
    obtain ⟨cold', answered⟩ := @compilerOracle_cold _ _ _ header _ whole cold query
    rw [compiler]
    refine ⟨cold', (holds.mono fun place known => compilerOracle_keeps query known).concat ?_⟩
    intro asked n same
    obtain ⟨rfl, told⟩ := Turn.asked.inj same
    exact answered n told
  | sown past keyed justified ih => exact ⟨ih.1, ih.2.concat nofun⟩
  | declared past keyed justified ih => exact ⟨ih.1, ih.2.concat nofun⟩
  | marked past pointers callbacks ih => exact ⟨ih.1, ih.2.concat nofun⟩

theorem Holds.spared (holds : Holds header cache done other) {query : Query} {n : Amount}
    (asked : .asked query (.ok n) ∈ done) : Spared backend header other query n := by
  obtain ⟨present, place, slotted, found⟩ := holds.answered query n asked
  rintro bench graph turns now rfl history
  have kept := history_keeps history rfl (found.symm ▸ present : bench.cache.find place ≠ .null)
  have same : now.cache.find place = n := kept.trans found
  rw [answerBy_known slotted (same.symm ▸ present), same]

end

end NativeBindings.Layout
