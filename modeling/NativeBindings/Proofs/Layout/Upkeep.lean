import NativeBindings.Proofs.Layout.Warmth

/-!
A cache in use. Answers are put into it and looked up, and it is saved now and then, also where
writing fails halfway. As long as it is not modified, its files hold just what it holds.
-/
namespace NativeBindings.Layout.Cache

open Act Outcome World Json

/-- What is done with an open cache. -/
inductive Operation where
  | put (slot : Slot) (n : Int)
  | get (slot : Slot)
  | save (writer : Writer)

/-- A cache and its surroundings after an operation. A fault of a save leaves the cache as it is. -/
def perform (state : Cache × World) : Operation → Cache × World
  | .put slot n => (state.1.put slot (.int n), state.2)
  | .get _ => state
  | .save writer =>
    match (saveBy writer state.1).runOn state.2 with
    | (.ok saved, after) => (saved, after)
    | (.error _, after) => (state.1, after)

def performAll (state : Cache × World) (operations : List Operation) : Cache × World :=
  operations.foldl perform state

/-- The files hold what a cache holds: who opens it again finds the same entries. -/
def OnDisk (world : World) (path : Path) (cache : Cache) : Prop :=
  Ends (fun found _ => found.modified = false ∧ found.path = some path ∧ Answers cache found ∧
      found.sizes.Perm cache.sizes ∧ found.offsets.Perm cache.offsets)
    (fun _ _ => False) (openAt (some path)) world

section
variable {table other : Table String Amount} {world : World} {path : Path} {cache : Cache}

theorem Integral.mem_iff (integral : Integral table) {key : String} {value : Amount} :
    (key, value) ∈ table ↔ value ≠ .null ∧ (Table.find? key table).getD .null = value := by
  obtain ⟨entries, apart, rfl⟩ := integral
  have found : Table.find? key (ofIntegers entries) = some value ↔ _ :=
    Table.find?_eq_some_iff ((keys_ofIntegers entries).symm ▸ apart)
  constructor
  · intro member
    obtain ⟨entry, -, same⟩ := List.mem_map.mp member
    refine ⟨?_, by rw [found.mpr member, Option.getD_some]⟩
    rw [← (Prod.mk.inj same).2]
    exact Json.noConfusion
  · rintro ⟨whole, same⟩
    refine found.mp ?_
    cases there : Table.find? key (ofIntegers entries) with
    | none => exact absurd (by rw [← same, there, Option.getD_none]) whole
    | some old => rw [← same, there, Option.getD_some]

theorem Integral.nodup (integral : Integral table) : table.Nodup := by
  obtain ⟨entries, apart, rfl⟩ := integral
  rw [← keys_ofIntegers] at apart
  exact List.Pairwise.of_map Prod.fst (fun _ _ distinct same => distinct (congrArg Prod.fst same)) apart

theorem Integral.perm (first : Integral table) (second : Integral other)
    (same : ∀ key, (Table.find? key other).getD .null = (Table.find? key table).getD .null) :
    other.Perm table := by
  refine (List.perm_ext_iff_of_nodup second.nodup first.nodup).mpr fun (key, value) => ?_
  rw [first.mem_iff, second.mem_iff, same]

theorem Settled.onDisk (settled : Settled world path cache) (unmodified : cache.modified = false) :
    OnDisk world path cache := by
  refine ((settled.reopens unmodified).and (openAt_loads path world)).mono
    (fun found after opened => ?_) fun _ _ wrong => wrong.1
  obtain ⟨⟨fresh, located, answers⟩, -, -, sizes, offsets⟩ := opened
  exact ⟨fresh, located, answers, settled.sizes.perm sizes fun key => answers (.size key),
    settled.offsets.perm offsets fun key => answers (.offset key)⟩

theorem perform_settled {state : Cache × World} (settled : Settled state.2 path state.1)
    (operation : Operation) : Settled (perform state operation).2 path (perform state operation).1 := by
  cases operation with
  | put slot n => exact settled.put slot ⟨n, rfl⟩
  | get slot => exact settled
  | save writer =>
    have saved := saveBy_settled writer settled
    unfold Ends at saved
    simp only [perform]
    cases ran : (saveBy writer state.1).runOn state.2 with
    | mk outcome after =>
      rw [ran] at saved
      cases outcome with
      | ok cache => exact saved.2.1
      | error fault =>
        -- Only a save of something new can end with a fault.
        refine ⟨settled.located, settled.sizes, settled.offsets, fun unmodified => ?_⟩
        cases ran.symm.trans (saveBy_unmodified writer unmodified state.2)

theorem performAll_settled {state : Cache × World} (settled : Settled state.2 path state.1)
    (operations : List Operation) :
    Settled (performAll state operations).2 path (performAll state operations).1 := by
  induction operations generalizing state with
  | nil => exact settled
  | cons operation rest ih => exact ih (perform_settled settled operation)

/-- A put of what is there already is all that leaves a cache unmodified. -/
theorem put_unmodified {slot : Slot} {n : Amount} (unmodified : (cache.put slot n).modified = false) :
    cache.put slot n = cache := by
  unfold put at unmodified ⊢
  split
  · rfl
  · next new =>
    rw [if_neg new] at unmodified
    cases slot <;> exact nomatch unmodified

theorem unmodified_onDisk {start : Cache} {opened : World}
    (opening : (openAt (some path)).runOn world = (.ok start, opened)) (operations : List Operation) :
    ((performAll (start, opened) operations).1.modified = false →
      OnDisk (performAll (start, opened) operations).2 path (performAll (start, opened) operations).1) ∧
    ∀ slot n, ((performAll (start, opened) operations).1.put slot (.int n)).modified = false →
      (performAll (start, opened) operations).1.put slot (.int n) =
        (performAll (start, opened) operations).1 := by
  have settled : Settled opened path start :=
    ((openAt_settled path world).of_run opening).2.2
  exact ⟨(performAll_settled settled operations).onDisk, fun _ _ => put_unmodified⟩

end

/-- A disk that takes only the start of some files. -/
def Writer.full (start : String) (fails : Path → Bool) : Writer where
  makeDirectories := World.makeDirectories
  write file s :=
    if fails file then do
      World.write file start
      throw (.file .longName file.text)
    else World.write file s
  made := makeDirectories_ends
  wrote file s world := by
    split
    · exact ends_bind.mpr ((write_ends file start world).mono (fun _ _ wrote => wrote.1) fun _ _ kept => kept)
    · exact write_ends file s world

def shelf : World where
  scratch := { root := "/", parts := ["tmp"] }
  files := [(["layout_sizeof.json"], .text "\x7b\"a.h::point\": true\x7d")]

/-- Two saves of a size and an offset; the first one fails at the offsets. -/
def shelfUse : List Operation :=
  [.put (.size "a.h::point") 8, .save (.full "\x7b" (·.name == "layout_offsetof.json")),
    .put (.offset "a.h::point::y") 4, .get (.size "a.h::point"), .save .plain,
    .put (.size "a.h::point") 8]

theorem unmodified_onDisk_shelf :
    ∃ start opened, (openAt (some { parts := ["layout"] })).runOn shelf = (.ok start, opened) ∧
      (performAll (start, opened) shelfUse).1.modified = false ∧
      OnDisk (performAll (start, opened) shelfUse).2 { parts := ["layout"] }
        (performAll (start, opened) shelfUse).1 := by
  have fine : (((openAt (some { parts := ["layout"] })).runOn shelf).1.map fun start =>
      (performAll (start, ((openAt (some { parts := ["layout"] })).runOn shelf).2) shelfUse).1.modified) =
        .ok false := by decide +kernel
  cases opening : (openAt (some { parts := ["layout"] })).runOn shelf with
  | mk outcome opened =>
    rw [opening] at fine
    cases outcome with
    | error fault => cases fine
    | ok start =>
      have unmodified := Except.ok.inj fine
      exact ⟨start, opened, rfl, unmodified, (unmodified_onDisk opening shelfUse).1 unmodified⟩

end NativeBindings.Layout.Cache
