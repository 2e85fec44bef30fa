import NativeBindings.Ast.Origin
import NativeBindings.Proofs.Act

/-!
Locations that leave out their file where it is that of the location before. Whatever is asked about the
nodes of a header, the answers are those for the nodes that name the file of every location.
-/
namespace NativeBindings

namespace Json

variable {name key : String} {change : Json → Json} {node value : Json}

/-- A node without an entry. -/
def without (name : String) : Json → Json
  | obj entries => obj (Table.erase name entries)
  | node => node

/-- A node with an entry changed, if it has the entry. -/
def update (name : String) (change : Json → Json) : Json → Json
  | obj entries =>
    match Table.find? name entries with
    | some value => obj (Table.insert name (change value) entries)
    | none => obj entries
  | node => node

theorem get?_without_self (name : String) (node : Json) : (node.without name).get? name = none := by
  cases node with
  | obj entries => exact Table.find?_erase_self name entries
  | _ => rfl

theorem get?_without_of_ne (apart : name ≠ key) (node : Json) :
    (node.without name).get? key = node.get? key := by
  cases node with
  | obj entries => exact Table.find?_erase_of_ne (by simpa using apart) entries
  | _ => rfl

theorem update_object (name : String) (change : Json → Json) (entries : List (String × Json)) :
    ∃ rest, (obj entries).update name change = obj rest := by
  unfold update
  dsimp only
  split <;> exact ⟨_, rfl⟩

theorem get?_update_self (found : node.get? name = some value) :
    (node.update name change).get? name = some (change value) := by
  cases node with
  | obj entries =>
    rw [get?] at found
    rw [update, found]
    exact Table.find?_insert_self name _ entries
  | _ => cases found

theorem get?_update_of_ne (apart : name ≠ key) (node : Json) :
    (node.update name change).get? key = node.get? key := by
  cases node with
  | obj entries =>
    rw [update]
    split
    · exact Table.find?_insert_of_ne (by simpa using apart) _ entries
    · rfl
  | _ => rfl

theorem field_update_of_ne (apart : name ≠ key) (node : Json) :
    (node.update name change).field key = node.field key := by
  cases node with
  | obj entries =>
    obtain ⟨rest, same⟩ := update_object name change entries
    have looked := @get?_update_of_ne name key change apart (obj entries)
    rw [same] at looked ⊢
    exact congrArg (fun found : Option Json => Except.ok (found.getD null)) looked
  | _ => rfl

theorem object_of_get? (found : node.get? key = some value) : ∃ entries, node = obj entries := by
  cases node with
  | obj entries => exact ⟨entries, rfl⟩
  | _ => cases found

theorem field_of_get? (found : node.get? key = some value) (name : String) :
    node.field name = .ok ((node.get? name).getD null) := by
  obtain ⟨entries, rfl⟩ := object_of_get? found
  rfl

theorem holds_of_get? (found : node.get? key = some value) : node.holds = true := by
  obtain ⟨entries, rfl⟩ := object_of_get? found
  cases entries with
  | nil => cases found
  | cons entry rest => rfl

end Json

namespace Origin

open Json Act

/-- The part of a location that counts: where a macro was used, if it is one that a macro wrote. -/
def used (location : Json) : Json := (location.get? "expansionLoc").getD location

/-- What a location names: its file, and the file that this one was included from, if there is one. -/
structure Names (location : Json) (file : String) (source : Option String) : Prop where
  file : (used location).get? "file" = some (.str file)
  source : match source with
    | none => (used location).get? "includedFrom" = none
    | some other => ∃ inclusion, (used location).get? "includedFrom" = some inclusion ∧
      inclusion.get? "file" = some (.str other)

/-- What a location leaves out. -/
inductive Omission where
  | nothing
  | file
  | fileAndSource
  deriving DecidableEq

/-- What is left of the part that counts. -/
def Omission.cut : Omission → Json → Json
  | nothing, place => place
  | file, place => place.without "file"
  | fileAndSource, place => (place.without "file").without "includedFrom"

/-- A location without what is left out of it. -/
def Omission.from (omission : Omission) (location : Json) : Json :=
  match location.get? "expansionLoc" with
  | some _ => location.update "expansionLoc" omission.cut
  | none => omission.cut location

/-- A node with what its place and its start leave out. -/
def thinned (place start : Omission) (node : Json) : Json :=
  (node.update "loc" place.from).update "range" (Json.update "begin" start.from)

/-- What is asked about a node: whether its file was included by another file than the header, or whether
it is left out where some names are known. -/
inductive Question where
  | foreign
  | skipped (known : Label → Bool)

def answer (header : Path) (node : Json) : Question → Act Includer (Bool × Journal)
  | .foreign => do return (← entersForeign header node, [])
  | .skipped known => skips header known node

/-- The answers to questions about nodes, in order. A fault is an answer too. -/
def answers (header : Path) (includer : Includer) :
    List (Json × Question) → List (Except Fault (Bool × Journal))
  | [] => []
  | (node, question) :: rest =>
    let (told, next) := (answer header node question).runOn includer
    told :: answers header next rest

/-- A node and what is asked about it. -/
structure Visit where
  node : Json
  questions : List Question
  asked : questions ≠ []

def Visit.rows (visit : Visit) : List (Json × Question) :=
  visit.questions.map fun question => (visit.node, question)

/-- Visits where every place and every start names its file, and the same visits where some leave it out
that have the file of the location before. Where a file was included from depends on the file alone. -/
inductive Thins (source : String → Option String) : Option String → List Visit → List Visit → Prop
  | nil (last : Option String) : Thins source last [] []
  | cons {last : Option String} {visit : Visit} {rest others : List Visit} {place range start : Json}
    {file next : String} {left omitted : Omission}
    (placed : visit.node.get? "loc" = some place) (named : Names place file (source file))
    (ranged : visit.node.get? "range" = some range) (begun : range.get? "begin" = some start)
    (goes : Names start next (source next)) (repeats : left ≠ .nothing → last = some file)
    (stays : omitted ≠ .nothing → next = file) (thins : Thins source (some next) rest others) :
    Thins source last (visit :: rest)
      ({ visit with node := thinned left omitted visit.node } :: others)

/-! ### What a location tells -/

def shown (source : Option String) : Includer := source.elim .null .str

section
variable {location : Json} {file : String} {source : Option String} {change : Json → Json}

theorem expansion_object (entries : List (String × Json)) :
    Location.expansion (.obj entries) = .ok (used (.obj entries)) := by
  cases found : Table.find? "expansionLoc" entries with
  | none =>
    simp [Location.expansion, used, contains, get?, Table.has, found, bind, Except.bind, pure, Except.pure]
  | some place => simp [Location.expansion, used, contains, need, get?, Table.has, found, bind, Except.bind]

/-- How a location is read that holds something. -/
theorem fileOf_eq {place inclusion named includer : Json} (holds : location.holds = true)
    (reads : Location.expansion location = .ok place) (included : place.field "includedFrom" = .ok inclusion)
    (names : place.field "file" = .ok named)
    (source : (if inclusion.holds then inclusion.field "file" else .ok .null) = .ok includer) :
    fileOf location = .ok (named, includer) := by
  cases inside : inclusion.holds with
  | true =>
    rw [if_pos inside] at source
    simp [Origin.fileOf, holds, reads, included, names, inside, source, bind, Except.bind, pure, Except.pure]
  | false =>
    rw [if_neg (by simp [inside])] at source
    obtain rfl := Except.ok.inj source
    simp [Origin.fileOf, holds, reads, included, names, inside, bind, Except.bind, pure, Except.pure]

theorem Names.object (names : Names location file source) : ∃ entries, location = .obj entries := by
  have found := names.file
  unfold used at found
  cases expanded : location.get? "expansionLoc" with
  | some place => exact object_of_get? expanded
  | none =>
    rw [expanded] at found
    exact object_of_get? found

/-- Where the place of a location was included from, whatever else is left out of it. -/
theorem Names.inclusion (names : Names location file source) {place : Json}
    (same : place.get? "includedFrom" = (used location).get? "includedFrom") :
    ((if ((place.get? "includedFrom").getD .null).holds then
      ((place.get? "includedFrom").getD .null).field "file" else .ok .null) : Except Fault Json) =
      .ok (shown source) := by
  have told := names.source
  rw [same]
  cases source with
  | none =>
    dsimp only at told
    rw [told]
    rfl
  | some other =>
    obtain ⟨inclusion, found, file⟩ := told
    rw [found, Option.getD_some, if_pos (holds_of_get? file), field_of_get? file, file]
    rfl

theorem Names.fileOf (names : Names location file source) :
    fileOf location = .ok (.str file, shown source) := by
  obtain ⟨entries, rfl⟩ := names.object
  have holds : (Json.obj entries).holds = true := by
    cases entries with
    | nil => cases names.file
    | cons => rfl
  refine fileOf_eq holds (expansion_object entries) (field_of_get? names.file _) ?_ (names.inclusion rfl)
  rw [field_of_get? names.file, names.file]
  rfl

theorem get?_cut {name : String} (file : "file" ≠ name) (source : "includedFrom" ≠ name) (omission : Omission)
    (place : Json) : (omission.cut place).get? name = place.get? name := by
  cases omission with
  | nothing => rfl
  | file => exact get?_without_of_ne file place
  | fileAndSource => exact (get?_without_of_ne source _).trans (get?_without_of_ne file place)

/-- What is left out is left out of the part that counts. -/
theorem used_from (omission : Omission) (location : Json) :
    used (omission.from location) = omission.cut (used location) := by
  unfold Omission.from used
  cases found : location.get? "expansionLoc" with
  | none =>
    dsimp only
    rw [get?_cut (by decide) (by decide), found]
    rfl
  | some place =>
    dsimp only
    rw [get?_update_self found]
    rfl

theorem Names.kept (names : Names location file source) :
    Names (Omission.nothing.from location) file source := by
  have same : used (Omission.nothing.from location) = used location := used_from .nothing location
  refine ⟨same ▸ names.file, ?_⟩
  rw [same]
  exact names.source

theorem cut_object (omission : Omission) (entries : List (String × Json)) :
    ∃ rest, omission.cut (.obj entries) = .obj rest := by
  cases omission <;> exact ⟨_, rfl⟩

theorem from_object (omission : Omission) (entries : List (String × Json)) :
    ∃ rest, omission.from (.obj entries) = .obj rest := by
  unfold Omission.from
  cases (Json.obj entries).get? "expansionLoc" with
  | none => exact cut_object omission entries
  | some place => exact update_object _ _ entries

/-- Where the file is left out, the place where it was included from is as before or left out too. -/
theorem cut_hides {omission : Omission} (hides : omission ≠ .nothing) (place : Json) :
    (omission.cut place).get? "file" = none ∧
      ((omission.cut place).get? "includedFrom" = place.get? "includedFrom" ∨
        (omission.cut place).get? "includedFrom" = none) := by
  cases omission with
  | nothing => exact absurd rfl hides
  | file => exact ⟨get?_without_self _ _, .inl (get?_without_of_ne (by decide) _)⟩
  | fileAndSource =>
    exact ⟨(get?_without_of_ne (by decide) _).trans (get?_without_self _ _), .inr (get?_without_self _ _)⟩

/-- A location that leaves out its file reads as one without a file. -/
theorem Names.hidden (names : Names location file source) {omission : Omission}
    (hides : omission ≠ .nothing) :
    ∃ includer, Origin.fileOf (omission.from location) = .ok (.null, includer) := by
  obtain ⟨entries, rfl⟩ := names.object
  obtain ⟨rest, left⟩ := from_object omission entries
  obtain ⟨whole, own⟩ := object_of_get? names.file
  obtain ⟨inside, object⟩ : ∃ inside, used (.obj rest) = .obj inside := by
    rw [← left, used_from, own]
    exact cut_object omission whole
  have hidden := cut_hides hides (used (.obj entries))
  rw [← used_from, left] at hidden
  rw [left]
  have reads (name : String) :
      (used (.obj rest)).field name = .ok (((used (.obj rest)).get? name).getD .null) := by
    rw [object]
    rfl
  by_cases holds : (Json.obj rest).holds = true
  · have file : (used (.obj rest)).field "file" = .ok .null := by rw [reads, hidden.1, Option.getD_none]
    obtain same | none := hidden.2
    · exact ⟨shown source, fileOf_eq holds (expansion_object rest) (reads _) file (names.inclusion same)⟩
    · refine ⟨.null, fileOf_eq holds (expansion_object rest) (reads _) file ?_⟩
      rw [none]
      rfl
  · exact ⟨.null, by simp [Origin.fileOf, holds, pure, Except.pure]⟩

/-- What a location makes of the includer; nothing if it has no file. -/
def Tells (location : Json) (told : Option Includer) : Prop :=
  ∀ includer, (Origin.track location).runOn includer = (.ok (), told.getD includer)

theorem Names.tells (names : Names location file source) : Tells location (some (shown source)) := by
  intro includer
  rw [Origin.track, names.fileOf]
  rfl

theorem Names.from_tells (names : Names location file source) (omission : Omission) :
    Tells (omission.from location) (if omission = .nothing then some (shown source) else none) := by
  split
  next whole =>
    subst whole
    exact names.kept.tells
  next hides =>
    intro includer
    obtain ⟨other, read⟩ := names.hidden hides
    rw [Origin.track, read]
    rfl

end

/-! ### What a node tells -/

section
variable {node place start : Json} {first second : Option Includer} {header : Path}

/-- The place and the start of a node. -/
structure Sited (node place start : Json) : Prop where
  placed : node.get? "loc" = some place
  begun : ∃ range, node.get? "range" = some range ∧ range.get? "begin" = some start

theorem Sited.trackNode (sited : Sited node place start) (before : Tells place first)
    (after : Tells start second) (includer : Includer) :
    (Origin.trackNode node).runOn includer = (.ok (), second.getD (first.getD includer)) := by
  obtain ⟨range, ranged, begun⟩ := sited.begun
  have located : node.field "loc" = .ok place := by rw [field_of_get? sited.placed, sited.placed]; rfl
  have spanned : node.field "range" = .ok range := by rw [field_of_get? sited.placed, ranged]; rfl
  have starts : (range.orElse (.obj [])).field "begin" = .ok start := by
    rw [Json.orElse, if_pos (holds_of_get? begun), field_of_get? begun, begun]
    rfl
  rw [Origin.trackNode, located, lift_ok_bind, spanned, lift_ok_bind]
  dsimp only
  rw [starts, lift_ok_bind, runOn_bind, before]
  exact after _

theorem Sited.thinned (sited : Sited node place start) (left omitted : Omission) :
    Sited (thinned left omitted node) (left.from place) (omitted.from start) := by
  obtain ⟨range, ranged, begun⟩ := sited.begun
  have still : (node.update "loc" left.from).get? "range" = some range :=
    (get?_update_of_ne (by decide) node).trans ranged
  refine ⟨?_, _, get?_update_self still, get?_update_self begun⟩
  exact (get?_update_of_ne (by decide) _).trans (get?_update_self sited.placed)

theorem field_thinned {name : String} (place : "loc" ≠ name) (range : "range" ≠ name)
    (left omitted : Omission) (node : Json) : (thinned left omitted node).field name = node.field name :=
  (field_update_of_ne range _).trans (field_update_of_ne place node)

theorem isDropped_thinned (left omitted : Omission) (known : Label → Bool) (node : Json) :
    isDropped known (thinned left omitted node) = isDropped known node := by
  have same (name : String) (place : "loc" ≠ name) (range : "range" ≠ name) :=
    field_thinned place range left omitted node
  unfold isDropped isSynonym
  rw [same "isImplicit" (by decide) (by decide), same "name" (by decide) (by decide),
    same "kind" (by decide) (by decide), same "type" (by decide) (by decide),
    same "inner" (by decide) (by decide)]

/-- The answer about a node that leaves an includer. -/
def reply (header : Path) (node : Json) (includer : Includer) : Question → Except Fault (Bool × Journal)
  | .foreign => do return (← isForeign header.name includer, [])
  | .skipped known => do
    if ← isForeign header.name includer then return (true, []) else isDropped known node

theorem answer_runOn {includer next : Includer}
    (tracked : (Origin.trackNode node).runOn includer = (.ok (), next)) (question : Question) :
    (answer header node question).runOn includer = (reply header node next question, next) := by
  have enters : (entersForeign header node).runOn includer = (isForeign header.name next, next) := by
    rw [entersForeign, runOn_bind, tracked]
    rfl
  cases question with
  | foreign =>
    rw [answer, runOn_bind, enters, reply]
    cases isForeign header.name next <;> rfl
  | skipped known =>
    rw [answer, skips, runOn_bind, enters, reply]
    cases isForeign header.name next with
    | error fault => rfl
    | ok foreign => cases foreign <;> rfl

/-- All questions about a node are answered for the includer that it leaves. -/
theorem answers_node {includer next : Includer} (rest : List (Json × Question))
    (tracked : (Origin.trackNode node).runOn includer = (.ok (), next))
    (again : (Origin.trackNode node).runOn next = (.ok (), next)) {questions : List Question}
    (asked : questions ≠ []) :
    answers header includer (questions.map (fun question => (node, question)) ++ rest) =
      questions.map (reply header node next) ++ answers header next rest := by
  cases questions with
  | nil => exact absurd rfl asked
  | cons question others =>
    have settled (others : List Question) :
        answers header next (others.map (fun question => (node, question)) ++ rest) =
          others.map (reply header node next) ++ answers header next rest := by
      induction others with
      | nil => rfl
      | cons question others ih =>
        rw [List.map_cons, List.cons_append, answers, answer_runOn again]
        exact congrArg (_ :: ·) ih
    rw [List.map_cons, List.cons_append, answers, answer_runOn tracked]
    exact congrArg (_ :: ·) (settled others)

theorem reply_thinned (left omitted : Omission) (includer : Includer) (question : Question) :
    reply header (thinned left omitted node) includer question = reply header node includer question := by
  cases question with
  | foreign => rfl
  | skipped known => rw [reply, reply, isDropped_thinned]

end

section
variable {source : String → Option String} {last : Option String} {visits others : List Visit}

/-- The includer after a visit is that of the last file, whether the file was left out or not. -/
theorem Thins.answers_eq (thins : Thins source last visits others) (header : Path) {includer : Includer}
    (known : ∀ file ∈ last, includer = shown (source file)) :
    answers header includer (others.flatMap Visit.rows) =
      answers header includer (visits.flatMap Visit.rows) := by
  induction thins generalizing includer with
  | nil => rfl
  | @cons last visit _ _ place range start file next left omitted placed named ranged begun goes repeats
      stays _ ih =>
    have sited : Sited visit.node place start := ⟨placed, range, ranged, begun⟩
    have tells (before : Includer) :
        (Origin.trackNode visit.node).runOn before = (.ok (), shown (source next)) :=
      sited.trackNode named.tells goes.tells before
    have lands (before : Includer)
        (kept : left ≠ .nothing → omitted ≠ .nothing → before = shown (source next)) :
        (Origin.trackNode (thinned left omitted visit.node)).runOn before =
          (.ok (), shown (source next)) := by
      rw [(sited.thinned left omitted).trackNode (named.from_tells left) (goes.from_tells omitted)]
      refine congrArg (Except.ok (), ·) ?_
      by_cases ends : omitted = .nothing
      · rw [if_pos ends, Option.getD_some]
      · obtain rfl := stays ends
        rw [if_neg ends, Option.getD_none]
        by_cases begins : left = .nothing
        · rw [if_pos begins, Option.getD_some]
        · rw [if_neg begins, Option.getD_none, kept begins ends]
    have entered : left ≠ .nothing → omitted ≠ .nothing → includer = shown (source next) := by
      intro begins ends
      obtain rfl := stays ends
      exact known _ (repeats begins)
    rw [List.flatMap_cons, List.flatMap_cons, Visit.rows, Visit.rows,
      answers_node _ (lands includer entered) (lands _ fun _ _ => rfl) visit.asked,
      answers_node _ (tells includer) (tells _) visit.asked]
    have replies : reply header (thinned left omitted visit.node) (shown (source next)) =
        reply header visit.node (shown (source next)) :=
      funext fun question => reply_thinned left omitted _ question
    rw [replies, ih fun file same => by rw [Option.mem_some.mp same]]

/-- Locations may leave out the file of the location before: every question about every node has the same
answer. -/
theorem answers_thinned (thins : Thins source none visits others) (header : Path) :
    answers header .null (others.flatMap Visit.rows) = answers header .null (visits.flatMap Visit.rows) :=
  thins.answers_eq header nofun

end

/-- A location in a file, and where the file was included from. -/
def locationIn (file : String) (source : Option String) : Json :=
  .obj (("file", .str file) :: (source.map fun other => ("includedFrom", .obj [("file", .str other)])).toList)

/-- The location of what a macro wrote. -/
def writtenBy (used : Json) : Json := .obj [("spellingLoc", .obj []), ("expansionLoc", used)]

def visitAt (name : String) (place start : Json) : Visit where
  node := .obj [("kind", .str "FunctionDecl"), ("name", .str name), ("loc", place),
    ("range", .obj [("begin", start)])]
  questions := [.foreign, .skipped fun _ => false]
  asked := by simp

/-- Where the files of a header are included from. -/
def sources : String → Option String
  | "deep.h" => some "lib.h"
  | "lib.h" => some "a.h"
  | _ => none

/-- A declaration of a file that the header includes by another one, two of a file that it includes, and
one of its own. -/
def fourVisits : List Visit :=
  [visitAt "far" (locationIn "deep.h" (some "lib.h")) (locationIn "deep.h" (some "lib.h")),
    visitAt "near" (locationIn "lib.h" (some "a.h")) (writtenBy (locationIn "lib.h" (some "a.h"))),
    visitAt "next" (locationIn "lib.h" (some "a.h")) (locationIn "lib.h" (some "a.h")),
    visitAt "own" (writtenBy (locationIn "a.h" none)) (locationIn "a.h" none)]

theorem answers_thinned_four :
    let sourceOnly : Json := .obj [("includedFrom", .obj [("file", .str "a.h")])]
    let others :=
      [visitAt "far" (locationIn "deep.h" (some "lib.h")) (.obj []),
        visitAt "near" (locationIn "lib.h" (some "a.h")) (writtenBy sourceOnly),
        visitAt "next" sourceOnly (.obj []),
        visitAt "own" (writtenBy (locationIn "a.h" none)) (.obj [])]
    let header : Path := { parts := ["a.h"] }
    Thins sources none fourVisits others ∧
      answers header .null (others.flatMap Visit.rows) =
        answers header .null (fourVisits.flatMap Visit.rows) ∧
      answers header .null (fourVisits.flatMap Visit.rows) =
        [.ok (true, []), .ok (true, []), .ok (false, []), .ok (false, []), .ok (false, []),
          .ok (false, []), .ok (false, []), .ok (false, [])] := by
  intro sourceOnly others header
  have deep : Names (locationIn "deep.h" (some "lib.h")) "deep.h" (sources "deep.h") :=
    ⟨rfl, _, rfl, rfl⟩
  have lib : Names (locationIn "lib.h" (some "a.h")) "lib.h" (sources "lib.h") := ⟨rfl, _, rfl, rfl⟩
  have own : Names (locationIn "a.h" none) "a.h" (sources "a.h") := ⟨rfl, rfl⟩
  have macroLib : Names (writtenBy (locationIn "lib.h" (some "a.h"))) "lib.h" (sources "lib.h") :=
    ⟨rfl, _, rfl, rfl⟩
  have macroOwn : Names (writtenBy (locationIn "a.h" none)) "a.h" (sources "a.h") := ⟨rfl, rfl⟩
  have thins : Thins sources none fourVisits others :=
    @Thins.cons _ _ (visitAt "far" _ _) _ _ _ _ _ _ _ .nothing .fileAndSource rfl deep rfl rfl deep
        (absurd rfl) (fun _ => rfl) <|
      @Thins.cons _ _ (visitAt "near" _ _) _ _ _ _ _ _ _ .nothing .file rfl lib rfl rfl macroLib
        (absurd rfl) (fun _ => rfl) <|
      @Thins.cons _ _ (visitAt "next" _ _) _ _ _ _ _ _ _ .file .fileAndSource rfl lib rfl rfl lib
        (fun _ => rfl) (fun _ => rfl) <|
      @Thins.cons _ _ (visitAt "own" _ _) _ _ _ _ _ _ _ .nothing .fileAndSource rfl macroOwn rfl rfl own
        (absurd rfl) (fun _ => rfl) (.nil _)
  exact ⟨thins, answers_thinned thins header, rfl⟩

end Origin

end NativeBindings
