import NativeBindings.Proofs.Act
import NativeBindings.Proofs.Files
import NativeBindings.World

/-!
What acts leave of their surroundings. Some rewrite files and keep all directories; others only look
around, and end alike wherever things look alike.
-/
namespace NativeBindings

open Outcome

namespace World

open Act Files

/-- Nothing but files changed, and directories are kept. Notes do not count. -/
def Rewrites (world after : World) : Prop :=
  Keeps world.files after.files ∧
    after = { world with files := after.files, journal := after.journal }

variable {world middle after : World} {path : Path}

theorem Rewrites.refl (world : World) : Rewrites world world := ⟨Keeps.refl _, rfl⟩

theorem Rewrites.trans (first : Rewrites world middle) (second : Rewrites middle after) :
    Rewrites world after := by
  refine ⟨first.1.trans second.1, ?_⟩
  rw [second.2, first.2]

theorem Rewrites.environment (rewrites : Rewrites world after) :
    after.environment = world.environment := by
  rw [rewrites.2]

theorem Rewrites.here (rewrites : Rewrites world after) : after.here = world.here := by
  rw [rewrites.2]

theorem write_ends (path : Path) (s : String) (world : World) :
    Ends (fun _ after => Rewrites world after ∧ world.files.write world.here path s = .ok after.files)
      (fun _ => Rewrites world) (write path s) world := by
  refine ends_bind.mpr ((ends_lift _).mpr ⟨fun _ _ => ?_, fun _ _ => Rewrites.refl world⟩)
  refine ends_bind.mpr (ends_get.mpr ?_)
  cases written : world.files.write world.here path s with
  | error problem => exact Rewrites.refl world
  | ok files => exact ⟨⟨(write_keeps written).1, rfl⟩, rfl⟩

theorem isDirectory_iff : world.isDirectory path = .ok true ↔
    Leads world.files world.here path .directory := by
  constructor
  · intro isDirectory
    obtain ⟨found, looked, same⟩ := bind_eq_ok.mp isDirectory
    have there : found = some .directory := eq_of_beq (pure_eq_ok.mp same)
    subst there
    unfold lookup Files.lookup at looked
    cases placed : world.files.placeOf world.here path with
    | ok place =>
      rw [placed] at looked
      exact ⟨place, placed, Except.ok.inj looked⟩
    | error problem =>
      rw [placed] at looked
      cases problem <;> cases looked
  · intro leads
    have looked : world.lookup path = .ok (some .directory) := by
      rw [lookup, lookup_of_leads leads]
      rfl
    exact bind_eq_ok.mpr ⟨_, looked, rfl⟩

theorem makeDirectory_ends (path : Path) (world : World) :
    Ends (fun _ after => Rewrites world after ∧ nameable path = .ok () ∧
        Leads after.files world.here path .directory)
      (fun _ => Rewrites world) (makeDirectory path) world := by
  refine ends_bind.mpr ((ends_lift _).mpr ⟨fun _ fine => ?_, fun _ _ => Rewrites.refl world⟩)
  refine ends_bind.mpr (ends_get.mpr ?_)
  cases made : world.files.makeDirectory world.here path with
  | ok files =>
    have kept := makeDirectory_keeps made
    exact ⟨⟨kept.1, rfl⟩, fine, kept.2⟩
  | error problem =>
    refine ends_bind.mpr ((ends_lift _).mpr
      ⟨fun found isDirectory => ?_, fun _ _ => Rewrites.refl world⟩)
    split
    · exact Rewrites.refl world
    next there =>
      obtain ⟨-, rfl⟩ : problem ≠ .missing ∧ found = true := by simpa using there
      exact ⟨Rewrites.refl world, fine, isDirectory_iff.mp isDirectory⟩

/-- A directory that is there is not made again. -/
theorem makeDirectory_there (fine : nameable path = .ok ())
    (leads : Leads world.files world.here path .directory) :
    (makeDirectory path).runOn world = (.ok (), world) := by
  have taken : world.files.makeDirectory world.here path = .error .exists := by
    obtain ⟨place, found, there⟩ := leads
    rw [Files.makeDirectory, found]
    simp only [bind, Except.bind, there]
  have kept : Ends (fun _ after => after = world) (fun _ _ => False) (makeDirectory path) world := by
    refine ends_bind.mpr ((ends_lift _).mpr ⟨fun _ _ => ?_, fun _ wrong => nomatch fine.symm.trans wrong⟩)
    refine ends_bind.mpr (ends_get.mpr ?_)
    rw [taken]
    have isDirectory := isDirectory_iff.mpr leads
    refine ends_bind.mpr ((ends_lift _).mpr ⟨fun found looked => ?_, fun _ wrong => ?_⟩)
    · obtain rfl := Except.ok.inj (isDirectory.symm.trans looked)
      rfl
    · cases isDirectory.symm.trans wrong
  obtain ⟨value, after, run, rfl⟩ := kept.run
  exact run

/-- What making one directory keeps, making all that are missing keeps. -/
theorem makeDirectoriesWith_keeps {P : World → World → Prop} (refl : ∀ world, P world world)
    (trans : ∀ {world middle after}, P world middle → P middle after → P world after)
    (step : ∀ path world, Ends (fun _ => P world) (fun _ => P world) (makeDirectory path) world)
    (fuel : Nat) (path : Path) (world : World) :
    Ends (fun _ => P world) (fun _ => P world) (makeDirectoriesWith fuel path) world := by
  induction fuel generalizing path world with
  | zero => exact step path world
  | succ fuel ih =>
    refine ends_bind.mpr (ends_get.mpr ?_)
    split
    · dsimp only
      split
      · exact refl world
      · refine ends_bind.mpr ((ih path.parent world).mono (fun _ middle first => ?_) fun _ _ failed => failed)
        exact (step path middle).mono (fun _ _ last => trans first last) fun _ _ last => trans first last
    · exact step path world

theorem makeDirectories_ends (path : Path) (world : World) :
    Ends (fun _ => Rewrites world) (fun _ => Rewrites world) (makeDirectories path) world := by
  have step (path : Path) (world : World) :
      Ends (fun _ => Rewrites world) (fun _ => Rewrites world) (makeDirectory path) world :=
    (makeDirectory_ends path world).mono (fun _ _ made => made.1) fun _ _ failed => failed
  refine ends_bind.mpr ((ends_lift _).mpr ⟨fun _ _ => ?_, fun _ _ => Rewrites.refl world⟩)
  exact makeDirectoriesWith_keeps Rewrites.refl Rewrites.trans step path.parts.length path world

/-- Directories are kept, and so are texts but those at some paths. -/
structure Edits (paths : List Path) (world after : World) : Prop where
  keeps : Keeps world.files after.files
  here : after.here = world.here
  texts : SameTexts (fun place => ∃ path ∈ paths, after.files.placeOf after.here path = .ok place)
    world.files after.files

section
variable {paths : List Path}

theorem edits_of_files (files : after.files = world.files) (here : after.here = world.here) :
    Edits paths world after := by
  refine ⟨?_, here, ?_⟩
  · rw [files]
    exact Keeps.refl _
  · rw [files]
    exact SameTexts.refl _

theorem Edits.refl (world : World) : Edits paths world world := edits_of_files rfl rfl

theorem Edits.trans (first : Edits paths world middle) (second : Edits paths middle after) :
    Edits paths world after := by
  refine ⟨first.keeps.trans second.keeps, second.here.trans first.here, (first.texts.mono ?_).trans second.texts⟩
  rintro place ⟨path, among, found⟩
  rw [← second.here] at found
  exact ⟨path, among, placeOf_kept second.keeps found⟩

theorem write_edits {s : String} (among : path ∈ paths) (here : after.here = world.here)
    (written : world.files.write world.here path s = .ok after.files) : Edits paths world after := by
  have keeps := (write_keeps written).1
  refine ⟨keeps, here, (write_texts written).mono fun place found => ⟨path, among, ?_⟩⟩
  rw [← here] at found
  exact placeOf_kept keeps found

theorem makeDirectory_edits (path : Path) (world : World) :
    Ends (fun _ => Edits paths world) (fun _ => Edits paths world) (makeDirectory path) world := by
  refine ends_bind.mpr ((ends_lift _).mpr ⟨fun _ fine => ?_, fun _ _ => Edits.refl world⟩)
  refine ends_bind.mpr (ends_get.mpr ?_)
  cases made : world.files.makeDirectory world.here path with
  | ok files => exact ⟨(makeDirectory_keeps made).1, rfl, makeDirectory_texts made⟩
  | error problem =>
    refine ends_bind.mpr ((ends_lift _).mpr ⟨fun found isDirectory => ?_, fun _ _ => Edits.refl world⟩)
    split
    · exact Edits.refl world
    · exact Edits.refl world

theorem makeDirectories_edits (path : Path) (world : World) :
    Ends (fun _ => Edits paths world) (fun _ => Edits paths world) (makeDirectories path) world :=
  ends_bind.mpr ((ends_lift _).mpr ⟨fun _ _ =>
    makeDirectoriesWith_keeps Edits.refl Edits.trans makeDirectory_edits path.parts.length path world,
    fun _ _ => Edits.refl world⟩)

end

/-- Whatever an act can look at is the same. -/
structure Alike (world other : World) : Prop where
  files : other.files = world.files
  here : other.here = world.here
  environment : other.environment = world.environment

/-- Nothing but notes was added. -/
def Quiet (world after : World) : Prop := after = { world with journal := after.journal }

/-- An act that only looks: it changes nothing, and it ends alike wherever things look alike. -/
def Looks {α : Type} (act : Act World α) : Prop :=
  ∀ world other, Alike world other →
    (act.runOn other).1 = (act.runOn world).1 ∧ Quiet world (act.runOn world).2

section
variable {α β : Type} {other other' : World}

theorem Alike.refl (world : World) : Alike world world := ⟨rfl, rfl, rfl⟩

theorem Alike.quiet (alike : Alike world other) (first : Quiet world after)
    (second : Quiet other other') : Alike after other' := by
  rw [first, second]
  exact ⟨alike.files, alike.here, alike.environment⟩

theorem Quiet.alike (quiet : Quiet world after) : Alike world after := by
  rw [quiet]
  exact ⟨rfl, rfl, rfl⟩

theorem Quiet.trans (first : Quiet world middle) (second : Quiet middle after) : Quiet world after := by
  rw [Quiet, second, first]

theorem Quiet.rewrites (quiet : Quiet world after) : Rewrites world after := by
  have files : after.files = world.files := by rw [quiet]
  refine ⟨?_, ?_⟩
  · rw [files]
    exact Keeps.refl _
  · rw [files]
    exact quiet

theorem looks_pure (value : α) : Looks (pure value) := fun _ _ _ => ⟨rfl, rfl⟩

theorem looks_throw (fault : Fault) : Looks (throw fault : Act World α) := fun _ _ _ => ⟨rfl, rfl⟩

theorem looks_note (journal : Journal) : Looks (note journal) := fun _ _ _ => ⟨rfl, rfl⟩

theorem looks_lift (outcome : Except Fault α) : Looks (liftM outcome) := by
  cases outcome with
  | ok value => exact looks_pure value
  | error fault => exact looks_throw fault

theorem Looks.then {act : Act World β} {next : β → Act World α} (first : Looks act)
    (rest : ∀ value, Looks (next value)) : Looks (act >>= next) := by
  intro world other alike
  obtain ⟨same, quiet⟩ := first world other alike
  have quiet' := (first other other (Alike.refl other)).2
  rw [runOn_bind, runOn_bind]
  generalize act.runOn world = ended at same quiet ⊢
  generalize act.runOn other = ended' at same quiet' ⊢
  obtain ⟨outcome, middle⟩ := ended
  obtain ⟨outcome', middle'⟩ := ended'
  obtain rfl : outcome' = outcome := same
  cases outcome' with
  | error fault => exact ⟨rfl, quiet⟩
  | ok value =>
    have later := rest value middle middle' (alike.quiet quiet quiet')
    exact ⟨later.1, quiet.trans later.2⟩

theorem looks_get_then {next : World → Act World α}
    (rest : ∀ world other, Alike world other → next other = next world ∧ Looks (next world)) :
    Looks (get >>= next) := by
  intro world other alike
  obtain ⟨same, looks⟩ := rest world other alike
  change ((next other).runOn other).1 = _ ∧ Quiet world ((next world).runOn world).2
  rw [same]
  exact looks world other alike

/-- An act that goes by what it can look at: where that is the same, it ends alike and leaves it the
same. -/
def Regards (act : Act World α) : Prop :=
  ∀ world other, Alike world other →
    (act.runOn other).1 = (act.runOn world).1 ∧ Alike (act.runOn world).2 (act.runOn other).2

theorem Looks.regards {act : Act World α} (looks : Looks act) : Regards act := by
  intro world other alike
  obtain ⟨same, quiet⟩ := looks world other alike
  exact ⟨same, alike.quiet quiet (looks other other (Alike.refl other)).2⟩

theorem Regards.then {act : Act World β} {next : β → Act World α} (first : Regards act)
    (rest : ∀ value, Regards (next value)) : Regards (act >>= next) := by
  intro world other alike
  obtain ⟨same, alike⟩ := first world other alike
  rw [runOn_bind, runOn_bind]
  generalize act.runOn world = ended at same alike ⊢
  generalize act.runOn other = ended' at same alike ⊢
  obtain ⟨outcome, middle⟩ := ended
  obtain ⟨outcome', middle'⟩ := ended'
  obtain rfl : outcome' = outcome := same
  cases outcome' with
  | error fault => exact ⟨rfl, alike⟩
  | ok value => exact rest value middle middle' alike

theorem regards_get_then {next : World → Act World α}
    (rest : ∀ world other, Alike world other →
      ((next other).runOn other).1 = ((next world).runOn world).1 ∧
        Alike ((next world).runOn world).2 ((next other).runOn other).2) :
    Regards (get >>= next) := rest

theorem write_regards (path : Path) (s : String) : Regards (write path s) := by
  refine (looks_lift _).regards.then fun _ => regards_get_then fun world other alike => ?_
  rw [alike.files, alike.here]
  cases world.files.write world.here path s with
  | ok files => exact ⟨rfl, rfl, rfl, alike.environment⟩
  | error problem => exact ⟨rfl, alike⟩

theorem makeDirectory_regards (path : Path) : Regards (makeDirectory path) := by
  refine (looks_lift _).regards.then fun _ => regards_get_then fun world other alike => ?_
  rw [alike.files, alike.here]
  cases world.files.makeDirectory world.here path with
  | ok files => exact ⟨rfl, rfl, rfl, alike.environment⟩
  | error problem =>
    have same : other.isDirectory path = world.isDirectory path := by
      rw [isDirectory, isDirectory, World.lookup, World.lookup, alike.files, alike.here]
    dsimp only
    rw [same]
    refine ((looks_lift _).then fun found => ?_).regards world other alike
    split
    · exact looks_throw _
    · exact looks_pure _

theorem makeDirectoriesWith_regards (fuel : Nat) (path : Path) :
    Regards (makeDirectoriesWith fuel path) := by
  induction fuel generalizing path with
  | zero => exact makeDirectory_regards path
  | succ fuel ih =>
    refine regards_get_then fun world other alike => ?_
    rw [alike.files, alike.here]
    split
    · dsimp only
      split
      · exact (looks_throw _).regards world other alike
      · exact ((ih _).then fun _ => makeDirectory_regards path) world other alike
    · exact makeDirectory_regards path world other alike

theorem makeDirectories_regards (path : Path) : Regards (makeDirectories path) :=
  (looks_lift _).regards.then fun _ => makeDirectoriesWith_regards _ path

theorem Looks.ends {good : α → World → Prop} {bad : Fault → World → Prop} {act : Act World α}
    (looks : Looks act) (ends : Ends good bad act world) :
    Ends (fun value after => good value after ∧ Quiet world after)
      (fun fault after => bad fault after ∧ Quiet world after) act world := by
  have quiet := (looks world world (Alike.refl world)).2
  rw [ends_iff] at ends ⊢
  exact ⟨fun value run => ⟨ends.1 value run, quiet⟩, fun fault run => ⟨ends.2 fault run, quiet⟩⟩

/-- An act that looked once finds the same again. -/
theorem Looks.again {act : Act World α} {value : α} (looks : Looks act) (alike : Alike world other)
    (run : act.runOn world = (.ok value, after)) :
    ∃ later, act.runOn other = (.ok value, later) ∧ Quiet other later := by
  have same := (looks world other alike).1
  rw [run] at same
  refine ⟨(act.runOn other).2, ?_, (looks other other (Alike.refl other)).2⟩
  exact Prod.ext same rfl

end

end World

end NativeBindings
