import NativeBindings.Proofs.Layout.Persistence

/-!
Opening a cache whose files may hold anything. A file that holds no table is told of and ignored, and
the other one is loaded as it is. A value that counts as no integer in what is a table, and a text that
goes beyond the limits of the reader, end the opening with a fault.
-/
namespace NativeBindings.Layout.Cache

open Act Outcome World Json

/-- What a text file holds; its line ends are read as line feeds. -/
def contents (text : String) : Except Problem Json :=
  Json.read (String.ofList (Text.lineFeeds text.toList))

/-- The integer that a value counts as: a number without its fraction, or the one that a text writes. -/
inductive Counts : Json → Int → Prop
  | int (n : Int) : Counts (.int n) n
  | bool (b : Bool) : Counts (.bool b) (if b then 1 else 0)
  | real {x : Text.Binary64} {n : Int} (cut : x.truncate? = some n) : Counts (.real x) n
  | str {s : String} {n : Int} (writes : Text.readInteger s.toList = .ok n) : Counts (.str s) n

section
variable (table : String) (file : Path) (text : String)

/-- A text that holds no table, and what is told of it. -/
inductive Damaged : String → Prop
  | malformed {reason : String} (read : contents text = .error (.malformed reason)) :
    Damaged ("Failed to load " ++ table ++ " cache from " ++ file.text ++ ": " ++ reason)
  | foreign {value : Json} (read : contents text = .ok value) (apart : ∀ entries, value ≠ .obj entries) :
    Damaged ("Ignoring " ++ table ++ " cache at " ++ file.text ++ ": expected a JSON object")

/-- The table that a text gives: none if it is damaged, else an integer for each of its entries. -/
inductive Gives : Table String Amount → Prop
  | damaged {notice : String} (damaged : Damaged table file text notice) : Gives []
  | entries {read : List (String × Json)} {found : List (String × Int)}
      (holds : contents text = .ok (.obj read))
      (counts : List.Forall₂ (fun entry own => entry.1 = own.1 ∧ Counts entry.2 own.2) read found) :
    Gives (ofIntegers found)

end

/-- A text that ends the opening of the cache. -/
inductive Aborts (text : String) : Prop
  | beyond {fault : Fault} (read : contents text = .error (.beyond fault))
  | uncounted {read : List (String × Json)} {entry : String × Json} (holds : contents text = .ok (.obj read))
      (member : entry ∈ read) (uncounted : ∀ n, ¬ Counts entry.2 n)

section
variable {value : Json} {n : Int}

theorem integerValue_eq_ok : integerValue value = .ok n ↔ Counts value n := by
  constructor
  · intro counted
    cases value with
    | int m => obtain rfl := Except.ok.inj counted; exact .int _
    | bool b => obtain rfl := Except.ok.inj counted; exact .bool b
    | real x =>
      cases cut : x.truncate? with
      | some m =>
        simp only [integerValue, cut] at counted
        obtain rfl := Except.ok.inj counted
        exact .real cut
      | none => cases x <;> simp [integerValue, cut] at counted
    | str s =>
      rw [integerValue, Numeral.read] at counted
      split at counted
      next writes => obtain rfl := Except.ok.inj counted; exact .str writes
      next => cases counted
    | null | arr | obj => cases counted
  · rintro (_ | _ | cut | writes)
    · rfl
    · rfl
    · simp [integerValue, cut]
    · rw [integerValue, Numeral.read, writes]

theorem integers_eq_ok_iff {read : List (String × Json)} {found : Table String Amount} :
    integers read = .ok found ↔ ∃ entries : List (String × Int), found = ofIntegers entries ∧
      List.Forall₂ (fun entry own => entry.1 = own.1 ∧ Counts entry.2 own.2) read entries := by
  induction read generalizing found with
  | nil =>
    rw [integers, pure_eq_ok]
    constructor
    · rintro rfl
      exact ⟨[], rfl, .nil⟩
    · rintro ⟨entries, rfl, counts⟩
      cases counts
      rfl
  | cons entry rest ih =>
    obtain ⟨key, value⟩ := entry
    rw [integers, bind_eq_ok]
    constructor
    · rintro ⟨n, counted, done⟩
      obtain ⟨others, walked, done⟩ := bind_eq_ok.mp done
      obtain ⟨entries, rfl, counts⟩ := ih.mp walked
      obtain rfl := pure_eq_ok.mp done
      exact ⟨(key, n) :: entries, rfl, .cons ⟨rfl, integerValue_eq_ok.mp counted⟩ counts⟩
    · rintro ⟨entries, rfl, counts⟩
      cases counts with
      | @cons _ own _ entries first others =>
        obtain ⟨rfl, counted⟩ := first
        have walked := ih.mpr ⟨entries, rfl, others⟩
        exact ⟨own.2, integerValue_eq_ok.mpr counted, bind_eq_ok.mpr ⟨_, walked, rfl⟩⟩

theorem integers_fails {read : List (String × Json)} {fault : Fault} (failed : integers read = .error fault) :
    ∃ entry ∈ read, ∀ n, ¬ Counts entry.2 n := by
  induction read generalizing fault with
  | nil => cases failed
  | cons entry rest ih =>
    obtain ⟨key, value⟩ := entry
    cases counted : integerValue value with
    | error reason =>
      refine ⟨(key, value), List.mem_cons_self, fun n counts => ?_⟩
      rw [integerValue_eq_ok.mpr counts] at counted
      cases counted
    | ok n =>
      cases walked : integers rest with
      | error reason =>
        obtain ⟨entry, member, uncounted⟩ := ih walked
        exact ⟨entry, List.mem_cons_of_mem _ member, uncounted⟩
      | ok others =>
        rw [integers, counted, walked] at failed
        cases failed

end

section
variable {table : String} {path file : Path} {text : String} {world : World}

theorem Gives.not_aborts {found : Table String Amount} (gives : Gives table file text found) :
    ¬ Aborts text := by
  intro aborts
  cases aborts with
  | beyond read =>
    cases gives with
    | damaged damaged => rcases damaged with other | other <;> cases read.symm.trans other
    | entries holds => cases read.symm.trans holds
  | uncounted holds member uncounted =>
    cases gives with
    | damaged damaged =>
      rcases damaged with other | ⟨other, apart⟩
      · cases holds.symm.trans other
      · exact apart _ (Except.ok.inj (other.symm.trans holds))
    | entries holds' counts =>
      obtain rfl := Json.obj.inj (Except.ok.inj (holds.symm.trans holds'))
      obtain ⟨own, -, -, counted⟩ := result_of_item counts member
      exact uncounted own.2 counted

/-- A file gives its table, or ends the opening. -/
theorem load_gives (named : tablePath path table = .ok file)
    (leads : Files.Leads world.files world.here file (.text text)) :
    Ends (fun found after => Gives table file text found ∧
        ∃ told, after.journal = world.journal ++ told ∧
          ∀ notice, Damaged table file text notice → told = Journal.warning notice)
      (fun _ _ => Aborts text) (load path table) world := by
  have there : world.exists? file = .ok true := by
    refine bind_eq_ok.mpr ⟨some (.text text), ?_, rfl⟩
    rw [World.lookup, Files.lookup_of_leads leads]
    rfl
  rw [load, named, lift_ok_bind]
  refine ends_bind.mpr (ends_get.mpr ?_)
  rw [there, lift_ok_bind, Files.read_of_leads leads]
  dsimp only
  have same : Json.read (String.ofList (Text.lineFeeds text.toList)) = contents text := rfl
  rw [same]
  cases read : contents text with
  | error problem =>
    cases problem with
    | beyond fault => exact .beyond read
    | malformed reason =>
      refine ⟨.damaged (.malformed read), _, rfl, fun notice damaged => ?_⟩
      cases damaged with
      | malformed other =>
        obtain ⟨⟩ := read.symm.trans other
        rfl
      | foreign other => cases read.symm.trans other
  | ok value =>
    have foreign (apart : ∀ entries, value ≠ .obj entries) :
        Gives table file text [] ∧ ∀ notice, Damaged table file text notice →
          notice = "Ignoring " ++ table ++ " cache at " ++ file.text ++ ": expected a JSON object" := by
      refine ⟨.damaged (.foreign read apart), fun notice damaged => ?_⟩
      cases damaged with
      | malformed other => cases read.symm.trans other
      | foreign => rfl
    cases value with
    | obj entries =>
      refine ends_bind.mpr ((ends_modify _).mpr ((ends_lift _).mpr ?_))
      refine ⟨fun found done => ?_, fun fault failed => ?_⟩
      · obtain ⟨own, rfl, counts⟩ := integers_eq_ok_iff.mp done
        refine ⟨.entries read counts, _, rfl, fun notice damaged => ?_⟩
        rcases damaged with other | ⟨other, apart⟩
        · cases read.symm.trans other
        · exact absurd (Except.ok.inj (read.symm.trans other)).symm (apart entries)
      · obtain ⟨entry, member, uncounted⟩ := integers_fails failed
        exact .uncounted read member uncounted
    | _ =>
      obtain ⟨gives, only⟩ := foreign fun _ same => by cases same
      exact ⟨gives, _, rfl, fun notice damaged => by rw [only notice damaged]⟩

/-- A cache that was opened on two files: each table is what its own file gives, and a damaged file is
told of. -/
structure OpenedOn (sizesFile offsetsFile : Path) (sizes offsets : String) (world : World) (cache : Cache)
    (after : World) : Prop where
  givenSizes : Gives "sizeof" sizesFile sizes cache.sizes
  givenOffsets : Gives "offsetof" offsetsFile offsets cache.offsets
  told : ∃ first second, after.journal = world.journal ++ first ++ second ∧
    (∀ notice, Damaged "sizeof" sizesFile sizes notice → first = Journal.warning notice) ∧
      ∀ notice, Damaged "offsetof" offsetsFile offsets notice → second = Journal.warning notice

/-- Opening a cache ends with a fault just if one of its files holds a value that counts as no integer or
goes beyond a limit. -/
theorem openAt_aborts_iff {sizesFile offsetsFile : Path} {sizes offsets : String}
    (sizesNamed : tablePath path "sizeof" = .ok sizesFile)
    (offsetsNamed : tablePath path "offsetof" = .ok offsetsFile)
    (sizesHeld : Files.Leads world.files world.here sizesFile (.text sizes))
    (offsetsHeld : Files.Leads world.files world.here offsetsFile (.text offsets)) :
    ((∃ fault, ((openAt (some path)).runOn world).1 = .error fault) ↔ Aborts sizes ∨ Aborts offsets) ∧
      ∀ cache after, (openAt (some path)).runOn world = (.ok cache, after) →
        OpenedOn sizesFile offsetsFile sizes offsets world cache after := by
  have ends : Ends (OpenedOn sizesFile offsetsFile sizes offsets world)
      (fun _ _ => Aborts sizes ∨ Aborts offsets) (openAt (some path)) world := by
    have loaded := (load_looks path "sizeof").ends (load_gives sizesNamed sizesHeld)
    refine ends_bind.mpr (loaded.mono (fun found middle told => ?_) fun _ _ aborts => .inl aborts.1)
    obtain ⟨⟨gives, first, noted, warned⟩, quiet⟩ := told
    have still : Files.Leads middle.files middle.here offsetsFile (.text offsets) := by
      rw [quiet]
      exact offsetsHeld
    refine ends_bind.mpr ((load_gives offsetsNamed still).mono (fun other after told => ?_)
      fun _ _ aborts => .inr aborts)
    obtain ⟨gives', second, noted', warned'⟩ := told
    exact ⟨gives, gives', first, second, by rw [noted', noted], warned, warned'⟩
  rw [ends_iff] at ends
  refine ⟨⟨fun ⟨fault, failed⟩ => ends.2 fault failed, fun aborts => ?_⟩, fun cache after opened => ?_⟩
  · cases outcome : ((openAt (some path)).runOn world).1 with
    | error fault => exact ⟨fault, rfl⟩
    | ok cache =>
      have opened := ends.1 cache outcome
      exact absurd aborts (not_or.mpr ⟨opened.givenSizes.not_aborts, opened.givenOffsets.not_aborts⟩)
  · have given := ends.1 cache (by rw [opened])
    rwa [opened] at given

end

/-- Two files of a cache. -/
def drawer (sizes offsets : String) : World where
  scratch := { root := "/", parts := ["tmp"] }
  files := [(["layout_sizeof.json"], .text sizes), (["layout_offsetof.json"], .text offsets)]

def offsetsText : String := "\x7b\"k\": 8\x7d"

/-- A table with a null for a size. -/
def nullText : String := "\x7b\"k\": null\x7d"

theorem openAt_aborts_iff_drawer :
    (∃ cache after, (openAt (some { parts := ["layout"] })).runOn (drawer "[1" offsetsText) =
        (.ok cache, after) ∧ OpenedOn { parts := ["layout_sizeof.json"] }
          { parts := ["layout_offsetof.json"] } "[1" offsetsText (drawer "[1" offsetsText) cache after) ∧
      (Aborts nullText ∨ Aborts offsetsText) := by
  have opens (sizes : String) := @openAt_aborts_iff { parts := ["layout"] } (drawer sizes offsetsText)
    { parts := ["layout_sizeof.json"] } { parts := ["layout_offsetof.json"] } sizes offsetsText rfl rfl
    ⟨_, rfl, rfl⟩ ⟨_, rfl, rfl⟩
  constructor
  · have fine : (((openAt (some { parts := ["layout"] })).runOn (drawer "[1" offsetsText)).1.map
        fun _ => ()) = .ok () := by decide +kernel
    cases opening : (openAt (some { parts := ["layout"] })).runOn (drawer "[1" offsetsText) with
    | mk outcome after =>
      rw [opening] at fine
      cases outcome with
      | error fault => cases fine
      | ok cache => exact ⟨cache, after, rfl, (opens "[1").2 cache after opening⟩
  · apply (opens nullText).1.mp
    have fails : (((openAt (some { parts := ["layout"] })).runOn (drawer nullText offsetsText)).1.map
        fun _ => ()).toOption = none := by decide +kernel
    cases outcome : ((openAt (some { parts := ["layout"] })).runOn (drawer nullText offsetsText)).1 with
    | error fault => exact ⟨fault, rfl⟩
    | ok cache =>
      rw [outcome] at fails
      cases fails

/-- A null among the sizes ends the opening of a cache. -/
theorem openAt_aborts_null :
    (((openAt (some { parts := ["layout"] })).runOn (drawer nullText offsetsText)).1.map fun _ => ()) =
      .error (.mismatch ("int() argument must be a string, a bytes-like object or a real number, not " ++
        Text.quoted "NoneType")) := by
  decide +kernel

end NativeBindings.Layout.Cache
