import NativeBindings.Files
import NativeBindings.Proofs.Outcome

/-!
What a file system keeps. Directories stay when something is written, so a path that leads somewhere
leads there later too, and what was written last is what is read.
-/
namespace NativeBindings

open Outcome

namespace Files

/-- Every directory is still there. -/
def Keeps (files later : Files) : Prop :=
  ∀ place, files.node? place = some .directory → later.node? place = some .directory

/-- What a path leads to. -/
def Leads (files : Files) (here : Place) (path : Path) (node : FileNode) : Prop :=
  ∃ place, files.placeOf here path = .ok place ∧ files.node? place = some node

variable {files later last : Files} {here start place other : Place} {path : Path} {node : FileNode}

theorem Keeps.refl (files : Files) : Keeps files files := fun _ there => there

theorem Keeps.trans (first : Keeps files later) (second : Keeps later last) : Keeps files last :=
  fun place there => second place (first place there)

theorem walk_kept (keeps : Keeps files later) {parts : List String}
    (walked : files.walk start parts = .ok place) : later.walk start parts = .ok place := by
  induction parts generalizing start with
  | nil => exact walked
  | cons part rest ih =>
    rw [walk] at walked ⊢
    split at walked
    · cases walked
    · cases walked
    next there =>
      rw [keeps start there]
      dsimp only
      split at walked
      · cases walked
      next short =>
        rw [if_neg short]
        exact ih walked

theorem placeOf_kept (keeps : Keeps files later) (found : files.placeOf here path = .ok place) :
    later.placeOf here path = .ok place := by
  unfold placeOf at found ⊢
  split at found
  · cases found
  next short =>
    rw [if_neg short]
    exact walk_kept keeps found

theorem Leads.kept (leads : Leads files here path .directory) (keeps : Keeps files later) :
    Leads later here path .directory := by
  obtain ⟨place, found, there⟩ := leads
  exact ⟨place, placeOf_kept keeps found, keeps place there⟩

theorem node?_insert (below : place ≠ []) (node : FileNode) (files : Files) :
    Files.node? (Table.insert place node files) other =
      if place = other then some node else files.node? other := by
  unfold node?
  cases other with
  | nil => rw [if_neg below]; rfl
  | cons part rest => exact Table.find?_insert place (part :: rest) node files

theorem not_root (free : files.node? place ≠ some .directory) : place ≠ [] := by
  rintro rfl
  exact free rfl

theorem keeps_insert (free : files.node? place ≠ some .directory) (node : FileNode) :
    Keeps files (Table.insert place node files) := by
  intro other there
  have apart : place ≠ other := by
    rintro rfl
    exact free there
  rw [node?_insert (not_root free), if_neg apart, there]

/-- What is written is put where the path leads, and no directory is there. -/
theorem write_eq_ok {s : String} (written : files.write here path s = .ok later) :
    ∃ place, files.placeOf here path = .ok place ∧ files.node? place ≠ some .directory ∧
      later = Table.insert place (.text s) files := by
  obtain ⟨place, found, written⟩ := bind_eq_ok.mp written
  refine ⟨place, found, ?_⟩
  split at written
  · cases written
  next text there =>
    exact ⟨by rw [there]; nofun, (pure_eq_ok.mp written).symm⟩
  next missing =>
    refine ⟨by rw [missing]; nofun, ?_⟩
    split at written
    · exact (pure_eq_ok.mp written).symm
    · cases written
    · cases written

theorem makeDirectory_eq_ok (made : files.makeDirectory here path = .ok later) :
    ∃ place, files.placeOf here path = .ok place ∧ files.node? place = none ∧
      later = Table.insert place .directory files := by
  obtain ⟨place, found, made⟩ := bind_eq_ok.mp made
  split at made
  · cases made
  next missing => exact ⟨place, found, missing, (pure_eq_ok.mp made).symm⟩

theorem leads_insert (found : files.placeOf here path = .ok place)
    (free : files.node? place ≠ some .directory) (node : FileNode) :
    Leads (Table.insert place node files) here path node := by
  refine ⟨place, placeOf_kept (keeps_insert free node) found, ?_⟩
  rw [node?_insert (not_root free), if_pos rfl]

theorem write_keeps {s : String} (written : files.write here path s = .ok later) :
    Keeps files later ∧ Leads later here path (.text s) := by
  obtain ⟨place, found, free, rfl⟩ := write_eq_ok written
  exact ⟨keeps_insert free _, leads_insert found free _⟩

theorem makeDirectory_keeps (made : files.makeDirectory here path = .ok later) :
    Keeps files later ∧ Leads later here path .directory := by
  obtain ⟨place, found, missing, rfl⟩ := makeDirectory_eq_ok made
  have free : files.node? place ≠ some .directory := by
    rw [missing]
    nofun
  exact ⟨keeps_insert free _, leads_insert found free _⟩

/-- The texts are the same everywhere but at some places. -/
def SameTexts (changed : Place → Prop) (files later : Files) : Prop :=
  ∀ place, ¬ changed place → ∀ s, later.node? place = some (.text s) ↔ files.node? place = some (.text s)

section
variable {changed more : Place → Prop}

theorem SameTexts.refl (files : Files) : SameTexts changed files files := fun _ _ _ => Iff.rfl

theorem SameTexts.trans (first : SameTexts changed files later) (second : SameTexts changed later last) :
    SameTexts changed files last :=
  fun place spared s => (second place spared s).trans (first place spared s)

theorem SameTexts.mono (same : SameTexts changed files later) (wider : ∀ place, changed place → more place) :
    SameTexts more files later :=
  fun place spared => same place fun among => spared (wider place among)

theorem write_texts {s : String} (written : files.write here path s = .ok later) :
    SameTexts (fun place => files.placeOf here path = .ok place) files later := by
  obtain ⟨place, found, free, rfl⟩ := write_eq_ok written
  intro other spared text
  have apart : place ≠ other := by
    rintro rfl
    exact spared found
  rw [node?_insert (not_root free), if_neg apart]

/-- Where a directory is made, there was no text. -/
theorem makeDirectory_texts (made : files.makeDirectory here path = .ok later) :
    SameTexts changed files later := by
  obtain ⟨place, -, missing, rfl⟩ := makeDirectory_eq_ok made
  have free : files.node? place ≠ some .directory := by
    rw [missing]
    nofun
  intro other _ text
  rw [node?_insert (not_root free)]
  split
  next here =>
    subst here
    simp [missing]
  next => rfl

end

theorem read_of_leads {s : String} (leads : Leads files here path (.text s)) :
    files.read here path = .ok s := by
  obtain ⟨place, found, there⟩ := leads
  refine bind_eq_ok.mpr ⟨place, found, ?_⟩
  rw [there]
  rfl

theorem lookup_of_leads (leads : Leads files here path node) :
    files.lookup here path = .ok (some node) := by
  obtain ⟨place, found, there⟩ := leads
  rw [lookup, found]
  exact congrArg Except.ok there

theorem walk_append {parts more : List String} :
    files.walk start (parts ++ more) = files.walk start parts >>= fun middle => files.walk middle more := by
  induction parts generalizing start with
  | nil => rfl
  | cons part rest ih =>
    rw [List.cons_append, walk, walk]
    split
    · rfl
    · rfl
    split
    · rfl
    · exact ih

/-- The place of a path that ends in a name. -/
theorem placeOf_withName {name : String} (up : name ≠ "..")
    (found : files.placeOf here (path.withName name) = .ok place) :
    ∃ above, files.walk (if path.isAbsolute then [] else here) path.parts.dropLast = .ok above ∧
      place = above ++ [name] := by
  unfold placeOf at found
  split at found
  · cases found
  obtain ⟨above, walked, last⟩ := bind_eq_ok.mp (walk_append.symm.trans found)
  refine ⟨above, walked, ?_⟩
  rw [walk] at last
  split at last
  · cases last
  · cases last
  split at last
  · cases last
  rw [if_neg (by simpa using up), walk] at last
  exact (Except.ok.inj last).symm

/-- Writing to one of two names in a directory leaves the other one. -/
theorem Leads.apart {name other : String} {s : String} (up : name ≠ "..") (up' : other ≠ "..")
    (apart : name ≠ other) (leads : Leads files here (path.withName name) node)
    (written : files.write here (path.withName other) s = .ok later) :
    Leads later here (path.withName name) node := by
  obtain ⟨place, found, there⟩ := leads
  obtain ⟨place', found', free, rfl⟩ := write_eq_ok written
  obtain ⟨above, walked, rfl⟩ := placeOf_withName up found
  obtain ⟨above', walked', rfl⟩ := placeOf_withName up' found'
  obtain rfl := Except.ok.inj (walked.symm.trans walked')
  have elsewhere : above ++ [other] ≠ above ++ [name] := by
    intro same
    exact apart (List.cons.inj (List.append_cancel_left same)).1.symm
  refine ⟨above ++ [name], placeOf_kept (keeps_insert free _) found, ?_⟩
  rw [node?_insert (not_root free), if_neg elsewhere, there]

end Files

end NativeBindings
