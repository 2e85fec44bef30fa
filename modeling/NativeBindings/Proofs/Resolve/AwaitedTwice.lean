import NativeBindings.Proofs.Resolve.Repetition

/-!
A typedef that waits twice. A copy that comes before the tag is declared waits for the tag as the first
one does. Once the tag is there both are woken, the copy behind what was woken in between.
-/
namespace NativeBindings.Resolve

open Json Act Outcome Mirror

/-! ### What waits -/

section
variable (name : String)

/-- Nothing waits for a name, and what waits has other identifiers. -/
structure Calm (waiting : Waiting) : Prop where
  idle : Table.find? (.str name) waiting = none
  apart : ∀ tag names own, Table.find? tag waiting = some names → own ∈ names →
    Emit.identText own ≠ Emit.identText (.str name)

/-- Nothing waits for a name. It waits for one tag, and what else waits has other identifiers. -/
structure Lone (tag : String) (waiting : Waiting) : Prop where
  idle : Table.find? (.str name) waiting = none
  apart : ∀ other names own, Table.find? other waiting = some names → own ∈ names →
    Emit.identText own ≠ Emit.identText (.str name) ∨ own = .str name ∧ (other == .str tag) = true

/-- The same typedefs wait, but the name may wait for its tag once more. -/
structure Doubles (tag : String) (waiting waiting' : Waiting) : Prop where
  lone : Lone name tag waiting
  keys : Table.keys waiting' = Table.keys waiting
  names : ∀ other, Table.find? other waiting' = Table.find? other waiting ∨
    (other == .str tag) = true ∧ ∃ early late, Table.find? other waiting = some (early ++ late) ∧
      Table.find? other waiting' = some (early ++ .str name :: late) ∧ .str name ∈ early

end

section
variable {name tag : String} {waiting waiting' : Waiting} {own other : Label}

theorem find?_erase_some {names : List Label}
    (found : Table.find? other (Table.erase own waiting) = some names) :
    (own == other) = false ∧ Table.find? other waiting = some names := by
  cases same : own == other with
  | true =>
    rw [Table.find?_congr (BEq.symm same), Table.find?_erase_self] at found
    cases found
  | false =>
    rw [Table.find?_erase_of_ne same] at found
    exact ⟨rfl, found⟩

theorem find?_erase_none (absent : Table.find? other waiting = none) :
    Table.find? other (Table.erase own waiting) = none := by
  cases found : Table.find? other (Table.erase own waiting) with
  | none => rfl
  | some names =>
    rw [(find?_erase_some found).2] at absent
    cases absent

theorem Calm.erase (calm : Calm name waiting) (own : Label) : Calm name (Table.erase own waiting) where
  idle := find?_erase_none calm.idle
  apart other names waiter found := calm.apart other names waiter (find?_erase_some found).2

theorem Lone.erase (lone : Lone name tag waiting) (own : Label) : Lone name tag (Table.erase own waiting) where
  idle := find?_erase_none lone.idle
  apart other names waiter found := lone.apart other names waiter (find?_erase_some found).2

/-- Once the tag is declared, the name no longer waits. -/
theorem Lone.calm (lone : Lone name tag waiting) (same : (own == .str tag) = true) :
    Calm name (Table.erase own waiting) where
  idle := find?_erase_none lone.idle
  apart other names waiter found member := by
    obtain ⟨apart, before⟩ := find?_erase_some found
    refine (lone.apart other names waiter before member).resolve_right fun ⟨_, tagged⟩ => ?_
    rw [BEq.trans same (BEq.symm tagged)] at apart
    cases apart

theorem Doubles.erase (doubles : Doubles name tag waiting waiting') (own : Label) :
    Doubles name tag (Table.erase own waiting) (Table.erase own waiting') where
  lone := doubles.lone.erase own
  keys := by
    have keys (table : Waiting) : Table.keys (Table.erase own table) =
        (Table.keys table).filter (· != own) := by
      rw [Table.keys, Table.erase, Table.keys, List.filter_map]
      rfl
    rw [keys, keys, doubles.keys]
  names other := by
    cases same : own == other with
    | true =>
      left
      rw [Table.find?_congr (BEq.symm same), Table.find?_congr (BEq.symm same), Table.find?_erase_self,
        Table.find?_erase_self]
    | false =>
      rw [Table.find?_erase_of_ne same, Table.find?_erase_of_ne same]
      exact doubles.names other

theorem Doubles.defer (doubles : Doubles name tag waiting waiting') (apart : (other == .str name) = false)
    (distinct : Emit.identText own ≠ Emit.identText (.str name)) :
    Doubles name tag (Table.insert other ((Table.find? other waiting).getD [] ++ [own]) waiting)
      (Table.insert other ((Table.find? other waiting').getD [] ++ [own]) waiting') where
  lone := by
    refine ⟨?_, fun key names waiter found member => ?_⟩
    · rw [Table.find?_insert_of_ne apart]
      exact doubles.lone.idle
    · cases same : other == key with
      | false =>
        rw [Table.find?_insert_of_ne same] at found
        exact doubles.lone.apart key names waiter found member
      | true =>
        rw [Table.find?_congr (BEq.symm same), Table.find?_insert_self] at found
        obtain rfl := Option.some.inj found
        rcases List.mem_append.mp member with inside | last
        · cases before : Table.find? other waiting with
          | none =>
            rw [before] at inside
            cases inside
          | some names =>
            rw [before] at inside
            refine (doubles.lone.apart other names waiter before inside).imp_right fun known => ?_
            exact ⟨known.1, BEq.trans (BEq.symm same) known.2⟩
        · obtain rfl := List.mem_singleton.mp last
          exact .inl distinct
  keys := by
    have present : Table.has other waiting' = Table.has other waiting := by
      rcases doubles.names other with same | ⟨-, early, late, found, found', -⟩
      · rw [Table.has, Table.has, same]
      · rw [Table.has, Table.has, found, found']
        rfl
    rw [Table.keys_insert, Table.keys_insert, present, doubles.keys]
  names key := by
    cases same : other == key with
    | false =>
      rw [Table.find?_insert_of_ne same, Table.find?_insert_of_ne same]
      exact doubles.names key
    | true =>
      rw [Table.find?_congr (BEq.symm same), Table.find?_congr (BEq.symm same), Table.find?_insert_self,
        Table.find?_insert_self]
      rcases doubles.names other with equal | ⟨tagged, early, late, found, found', member⟩
      · rw [equal]
        exact .inl rfl
      · refine .inr ⟨BEq.trans (BEq.symm same) tagged, early, late ++ [own], ?_, ?_, member⟩
        · simp [found]
        · simp [found']

end

/-! ### Where a name stands -/

/-- A name stands for an item, and nothing behind it needs its marshalers. -/
def Trails (name : String) (item : CType) (graph : Graph) : Prop :=
  ∃ front type back, graph.declarations = front ++ (.str name, type) :: back ∧
    CType.View.essential.look type = CType.View.essential.look (Registry.aliasOf (.str name) item) ∧
    (∀ entry ∈ front ++ back, (entry.1 == .str name) = false) ∧ ∀ entry ∈ back, Free (.str name) entry

section
variable {name : String} {graph : Graph} {item type : CType} {own : Label} {number : Nat}

theorem free_numbered : Free (.str name) (own, type.numbered number) ↔ Free (.str name) (own, type) := by
  rw [← free_look, CType.View.essential_numbered, free_look]

theorem Declarable.numbered (declarable : Declarable own type) (number : Nat) :
    Declarable own (type.numbered number) where
  own := by rw [CType.name_numbered, declarable.own]
  plain := by rw [CType.isTransparent_numbered, declarable.plain]
  single header item length same := by
    have plain := declarable.single
    unfold CType.numbered at same
    split at same
    · exact plain _ _ _ same
    · cases type with
      | array header item length => exact plain header item length rfl
      | _ => cases same

theorem Declarable.accessed (declarable : Declarable own type) :
    ∀ other ∈ Emit.accessed type, other = own := by
  obtain ⟨named, plain, single⟩ := declarable
  intro other member
  cases type with
  | array header item length => exact absurd rfl (single header item length)
  | synonym header target transparent =>
    obtain rfl : transparent = false := plain
    exact (List.mem_singleton.mp member).trans named
  | pointer header base isConst =>
    rw [Emit.accessed] at member
    split at member
    · cases member
    · exact (List.mem_singleton.mp member).trans named
  | _ => exact (List.mem_singleton.mp member).trans named

/-- An alias needs what is declared under the name of its target. -/
theorem Declarable.free (declarable : Declarable own type)
    (apart : Emit.identText own ≠ Emit.identText (.str name)) (waiter : Label) :
    Free (.str name) (waiter, Registry.aliasOf waiter type) := by
  intro other member
  rw [declarable.accessed other member]
  exact apart

theorem trails_enter : Trails name item (graph.enter (.str name, Registry.aliasOf (.str name) item)) := by
  refine ⟨_, _, [], declarations_enter _ _ _, CType.View.essential_numbered _ _, fun entry member => ?_,
    by simp⟩
  rw [List.append_nil] at member
  simpa [bne] using (List.mem_filter.mp member).2

theorem Trails.enter (trails : Trails name item graph) (apart : (own == .str name) = false)
    (free : Free (.str name) (own, type)) : Trails name item (graph.enter (own, type)) := by
  obtain ⟨front, held, back, cut, same, others, behind⟩ := trails
  have differs : ((Json.str name) == own) = false := by rw [BEq.comm, apart]
  refine ⟨Table.erase own front, held, Table.erase own back ++ [(own, type.numbered graph.issued)], ?_, same,
    fun entry member => ?_, fun entry member => ?_⟩
  · rw [declarations_enter, cut, Table.erase_append_cons differs, List.append_assoc, List.cons_append]
  · rw [← List.append_assoc] at member
    rcases List.mem_append.mp member with old | new
    · refine others entry ?_
      rcases List.mem_append.mp old with before | after
      · exact List.mem_append_left _ (List.mem_filter.mp before).1
      · exact List.mem_append_right _ (List.mem_filter.mp after).1
    · obtain rfl := List.mem_singleton.mp new
      exact apart
  · rcases List.mem_append.mp member with old | new
    · exact behind entry (List.mem_filter.mp old).1
    · obtain rfl := List.mem_singleton.mp new
      exact free_numbered.mpr free

/-- A name that stands for an item may come to stand for it once more. -/
theorem Trails.again {graph' : Graph} {item' : CType} (trails : Trails name item graph)
    (shifted : Shifted (.str name) (Free (.str name)) graph graph')
    (same : CType.View.essential.look item = CType.View.essential.look item') :
    Shifted (.str name) (Free (.str name)) graph
      (graph'.enter (.str name, Registry.aliasOf (.str name) item')) := by
  obtain ⟨front, held, back, cut, alike, others, behind⟩ := trails
  have listed : entries graph = front.map (fun entry => (entry.1, CType.View.essential.look entry.2)) ++
      (.str name, CType.View.essential.look held) ::
        back.map (fun entry => (entry.1, CType.View.essential.look entry.2)) := by
    rw [entries, Graph.seen, cut, List.map_append, List.map_cons]
  refine shifted_again listed ?_ ?_ ?_ ?_
  · intro entry member
    rw [← List.map_append] at member
    obtain ⟨old, inside, rfl⟩ := List.mem_map.mp member
    exact others old inside
  · -- An alias is no pointer.
    intro base isConst other _ pointer
    rw [alike] at pointer
    cases pointer
  · intro entry member
    obtain ⟨old, inside, rfl⟩ := List.mem_map.mp member
    exact free_look.mpr (behind old inside)
  · rw [entries_enter, shifted.erase, alike, Mirror.aliasOf_alike _ same]

end

/-! ### What is woken -/

section
variable {σ : Type} {name : String} {item type : CType} {own : Label} {fuel : Nat} {session : Session σ}

/-- A typedef for which nothing waits is woken alone. -/
theorem promote_alone (fuel : Nat) (tag : Label) (item : CType)
    (idle : Table.find? (.str name) session.registry.waiting = none) :
    ∃ told, (promote fuel tag item (.str name)).runOn session = (.ok (), { session with
      registry := { session.registry with
        graph := session.graph.enter (.str name, Registry.aliasOf (.str name) item) }
      journal := session.journal ++ told }) := by
  obtain ⟨told, run⟩ := @registerWith_alone _ (Noting.tell (Journal.debug ("Resolved lazy alias " ++
    (Json.str name).plain ++ " -> " ++ tag.plain)) session) (.str name)
      (Registry.aliasOf (.str name) item) fuel rfl idle
  rw [promote_runOn, run]
  exact ⟨_, by rw [← List.append_assoc]; rfl⟩

theorem promote_gives {P : Session σ → Prop} {tag waiter : Label}
    (registers : ∀ told, Gives (fun _ => P) (registerWith fuel waiter (Registry.aliasOf waiter item))
      { session with journal := session.journal ++ told }) :
    Gives (fun _ => P) (promote fuel tag item waiter) session :=
  ends_bind.mpr ((ends_modify _).mpr (Gives.then (registers _) fun _ _ kept => kept))

/-- Where nothing waits for a name, a declaration and what it wakes keep the name where it is. -/
theorem registerWith_calm (declarable : Declarable own type)
    (apart : Emit.identText own ≠ Emit.identText (.str name)) (free : Free (.str name) (own, type))
    (calm : Calm name session.registry.waiting) :
    Gives (fun _ after => Calm name after.registry.waiting ∧
        (Trails name item session.graph → Trails name item after.graph))
      (registerWith fuel own type) session := by
  have other {own : Label} (apart : Emit.identText own ≠ Emit.identText (.str name)) :
      (own == .str name) = false := by
    refine Bool.eq_false_iff.mpr fun same => apart ?_
    rw [(beq_str_iff own name).mp same]
  induction fuel generalizing own type session with
  | zero =>
    unfold Gives Ends
    cases keyed : own.asKey with
    | error fault =>
      rw [registerWith, declare_unkeyed keyed]
      trivial
    | ok key =>
      obtain ⟨told, run⟩ := declare_runOn keyed type session
      rw [registerWith, run]
      exact ⟨calm, fun trails => trails.enter (other apart) free⟩
  | succ fuel ih =>
    rw [registerWith_succ]
    refine (announce_gives own type).then fun announced between told => ?_
    obtain ⟨rfl, entered⟩ := told
    have graph : between.graph = session.graph.enter (own, type) := congrArg Registry.graph entered
    have start : Calm name between.registry.waiting ∧
        (Trails name item session.graph → Trails name item between.graph) := by
      rw [entered, graph]
      exact ⟨calm.erase own, fun trails => trails.enter (other apart) free⟩
    refine Gives.then (ends_forM start fun waiter member before kept => ?_) fun _ _ kept => gives_pure kept
    have waits : Emit.identText waiter ≠ Emit.identText (.str name) := by
      cases found : Table.find? own session.registry.waiting with
      | none =>
        rw [found] at member
        cases member
      | some names =>
        rw [found] at member
        exact calm.apart own names waiter found member
    refine promote_gives fun told => ?_
    have free := (declarable.numbered session.graph.issued).free apart waiter
    refine Ends.mono (ih (declarable_aliasOf _ _) waits free ?_) (fun _ after last => ?_) fun _ _ _ => trivial
    · exact kept.1
    · exact ⟨last.1, fun trails => last.2 (kept.2 trails)⟩

/-- The name is woken, and what is woken later keeps it where it is. -/
theorem promotes_trail {tag : Label} {waiters : List Label} (declarable : Declarable tag item)
    (apart : Emit.identText tag ≠ Emit.identText (.str name))
    (distinct : ∀ waiter ∈ waiters,
      waiter = .str name ∨ Emit.identText waiter ≠ Emit.identText (.str name))
    (calm : Calm name session.registry.waiting)
    (woken : .str name ∈ waiters ∨ Trails name item session.graph) :
    Gives (fun _ after => Calm name after.registry.waiting ∧ Trails name item after.graph)
      (waiters.forM (promote fuel tag item)) session := by
  induction waiters generalizing session with
  | nil => exact ⟨calm, woken.resolve_left List.not_mem_nil⟩
  | cons waiter rest ih =>
    have others := fun other member => distinct other (List.mem_cons_of_mem _ member)
    by_cases same : waiter = .str name
    · subst same
      obtain ⟨told, run⟩ := promote_alone fuel tag item calm.idle
      have first : Gives (fun _ after => Calm name after.registry.waiting ∧ Trails name item after.graph)
          (promote fuel tag item (.str name)) session := by
        unfold Gives Ends
        rw [run]
        exact ⟨calm, trails_enter⟩
      exact Gives.then first fun _ after kept => ih others kept.1 (.inr kept.2)
    · have waits := (distinct waiter List.mem_cons_self).resolve_left same
      have first : Gives (fun _ after => Calm name after.registry.waiting ∧
          (Trails name item session.graph → Trails name item after.graph))
          (promote fuel tag item waiter) session :=
        promote_gives fun told =>
          registerWith_calm (declarable_aliasOf _ _) waits (declarable.free apart waiter) calm
      refine Gives.then first fun _ after kept => ih others kept.1 ?_
      refine woken.imp (fun member => ?_) kept.2
      exact (List.mem_cons.mp member).resolve_left fun equal => same equal.symm

end

/-! ### Two resolutions, in the second of which a name waits twice -/

section
variable {σ : Type} (name tag : String)

/-- Two resolutions, in the second of which a name waits for its tag once more or comes later. -/
def doubling : Mirror σ σ where
  outlook := .shifted (.str name) (Free (.str name))
  tuned := Eq
  waits := Doubles name tag
  fine _ := True
  clear _ _ := True
  place _ := True
  defers other own := (other == .str name) = false ∧ Emit.identText own ≠ Emit.identText (.str name)
  strict := False

variable {name tag} {session session' : Session σ} {own : Label} {item item' type type' : CType} {fuel : Nat}

/-- In the second resolution a name that stands for an item is woken once more. -/
theorem promote_again (like : (doubling name tag).Like session session')
    (trails : Trails name item session.graph)
    (same : CType.View.essential.look item = CType.View.essential.look item') (apart : tag ≠ name) :
    ∃ after', (promote fuel own item' (.str name)).runOn session' = (.ok (), after') ∧
      (doubling name tag).Like session after' := by
  have idle : Table.find? (.str name) session'.registry.waiting = none := by
    rcases like.waiting.names (.str name) with equal | ⟨tagged, -⟩
    · exact equal.trans like.waiting.lone.idle
    · have equal := Json.str.inj ((beq_str_iff _ _).mp tagged)
      exact absurd equal.symm apart
  obtain ⟨told, run⟩ := promote_alone fuel own item' idle
  exact ⟨_, run, trails.again like.graph same, like.waiting, like.owners, like.includer, like.place, like.oracle⟩

theorem promote_doubling (same : CType.View.essential.look item = CType.View.essential.look item')
    (registers : ∀ {own type type'}, Declarable own type →
      CType.View.essential.look type = CType.View.essential.look type' →
        (doubling name tag : Mirror σ σ).Mirrors CType.View.essential.look (registerWith fuel own type)
          (registerWith fuel own type')) (waiter : Label) :
    (doubling name tag : Mirror σ σ).Mirrors id (promote fuel own item waiter)
      (promote fuel own item' waiter) := by
  refine (mirrors_note _ _).then fun _ _ _ => ?_
  refine (registers (declarable_aliasOf waiter item) ?_).then fun _ _ _ => mirrors_pure rfl
  exact aliasOf_alike waiter same

/-- Typedefs are woken, in the second resolution the name once more. -/
theorem promotes_doubling {early late : List Label} (apart : tag ≠ name)
    (declarable : Declarable (.str tag) item)
    (distinct : Emit.identText (.str tag) ≠ Emit.identText (.str name))
    (same : CType.View.essential.look item = CType.View.essential.look item')
    (steps : ∀ waiter, (doubling name tag : Mirror σ σ).Mirrors id (promote fuel (.str tag) item waiter)
      (promote fuel (.str tag) item' waiter))
    (waiters : ∀ waiter ∈ early, waiter = .str name ∨ Emit.identText waiter ≠ Emit.identText (.str name))
    (calm : Calm name session.registry.waiting) (member : .str name ∈ early)
    (like : (doubling name tag).Like session session') :
    (doubling name tag).Alike id (((early ++ late).forM (promote fuel (.str tag) item)).runOn session)
      (((early ++ .str name :: late).forM (promote fuel (.str tag) item')).runOn session') := by
  have cut (step : Label → Resolving σ Unit) (some more : List Label) :
      (some ++ more).forM step = some.forM step >>= fun _ => more.forM step := List.forM_append
  have next : (Json.str name :: late).forM (promote fuel (.str tag) item' : Label → Resolving σ Unit) =
      promote fuel (.str tag) item' (.str name) >>= fun _ => late.forM (promote fuel (.str tag) item') := rfl
  have trails : Gives (fun _ after => Calm name after.registry.waiting ∧ Trails name item after.graph)
      (early.forM (promote fuel (.str tag) item)) session :=
    promotes_trail declarable distinct waiters calm (.inl member)
  rw [cut, cut]
  have first := (mirrors_forM steps early session ⟨trivial, trivial⟩).2 session' like
  refine first.then fun done middle done' middle' run _ like => ?_
  obtain ⟨after, woken, again⟩ := promote_again like (trails.of_run run).2 same apart
  rw [next, runOn_bind, woken]
  exact (mirrors_forM steps late middle ⟨trivial, trivial⟩).2 after again

/-- What a declaration wakes: the tag wakes the name once more. -/
theorem wakes_doubling {waiting waiting' : Waiting} (apart : tag ≠ name)
    (distinct : Emit.identText (.str tag) ≠ Emit.identText (.str name)) (declarable : Declarable own item)
    (same : CType.View.essential.look item = CType.View.essential.look item')
    (steps : ∀ waiter, (doubling name tag : Mirror σ σ).Mirrors id (promote fuel own item waiter)
      (promote fuel own item' waiter))
    (doubles : Doubles name tag waiting waiting') (rest : session.registry.waiting = Table.erase own waiting)
    (like : (doubling name tag).Like session session') :
    (doubling name tag).Alike id
      ((((Table.find? own waiting).getD []).forM (promote fuel own item)).runOn session)
      ((((Table.find? own waiting').getD []).forM (promote fuel own item')).runOn session') := by
  rcases doubles.names own with equal | ⟨tagged, early, late, found, found', member⟩
  · rw [equal]
    exact (mirrors_forM steps _ session ⟨trivial, trivial⟩).2 session' like
  · obtain rfl := (beq_str_iff own tag).mp tagged
    rw [found, found']
    refine promotes_doubling apart declarable distinct same steps ?_ ?_ member like
    · intro waiter inside
      refine (doubles.lone.apart _ _ waiter found (List.mem_append_left _ inside)).symm.imp_left ?_
      exact And.left
    · rw [rest]
      exact doubles.lone.calm tagged

theorem registerWith_doubling (apart : tag ≠ name)
    (distinct : Emit.identText (.str tag) ≠ Emit.identText (.str name)) (fuel : Nat)
    (declarable : Declarable own type)
    (same : CType.View.essential.look type = CType.View.essential.look type') :
    (doubling name tag : Mirror σ σ).Mirrors CType.View.essential.look (registerWith fuel own type)
      (registerWith fuel own type') := by
  have enters {session session' : Session σ} (like : (doubling name tag).Like session session') {own : Label}
      {type type' : CType} (same : CType.View.essential.look type = CType.View.essential.look type') :
      Shifted (.str name) (Free (.str name)) (session.graph.enter (own, type))
        (session'.graph.enter (own, type')) :=
    (doubling name tag : Mirror σ σ).outlook.enter own like.graph same
  have items {session session' : Session σ} {type type' : CType}
      (same : CType.View.essential.look type = CType.View.essential.look type') :
      CType.View.essential.look (type.numbered session.graph.issued) =
        CType.View.essential.look (type'.numbered session'.graph.issued) := by
    rw [CType.View.essential_numbered, CType.View.essential_numbered, same]
  induction fuel generalizing own type type' with
  | zero =>
    refine fun session _ => ⟨⟨trivial, trivial⟩, fun session' like => ?_⟩
    rw [registerWith, registerWith]
    cases keyed : own.asKey with
    | error fault =>
      rw [declare_unkeyed keyed, declare_unkeyed keyed]
      exact False.elim
    | ok key =>
      obtain ⟨told, run⟩ := declare_runOn keyed type session
      obtain ⟨told', run'⟩ := declare_runOn keyed type' session'
      rw [run, run']
      exact ⟨items same, enters like same, like.waiting, like.owners, like.includer, like.place, like.oracle⟩
  | succ fuel ih =>
    refine fun session _ => ⟨⟨trivial, trivial⟩, fun session' like => ?_⟩
    rw [registerWith_succ, registerWith_succ, runOn_bind, runOn_bind]
    cases keyed : own.asKey with
    | error fault =>
      rw [announce_unkeyed keyed, announce_unkeyed keyed]
      exact False.elim
    | ok key =>
      obtain ⟨told, run⟩ := announce_runOn keyed type session
      obtain ⟨told', run'⟩ := announce_runOn keyed type' session'
      rw [run, run']
      dsimp only
      have alike : CType.View.essential.look (type.numbered session.graph.issued) =
          CType.View.essential.look (type'.numbered session'.graph.issued) := items same
      have steps := @promote_doubling _ name tag own _ _ fuel alike ih
      have entered : (doubling name tag).Like
          { session with
            registry := {
              graph := session.graph.enter (own, type)
              waiting := Table.erase own session.registry.waiting }
            journal := session.journal ++ told }
          { session' with
            registry := {
              graph := session'.graph.enter (own, type')
              waiting := Table.erase own session'.registry.waiting }
            journal := session'.journal ++ told' } :=
        ⟨enters like same, like.waiting.erase own, like.owners, like.includer, like.place, like.oracle⟩
      refine (wakes_doubling apart distinct (declarable.numbered _) alike steps like.waiting rfl entered).then ?_
      intro _ last _ last' _ _ like
      exact ⟨alike, like⟩

end

/-! ### Resolving with a copy -/

/-- What a copy of a typedef leaves, where its tag is not declared yet: it waits for the tag once more. -/
structure Rewaits {σ : Type} (name tag : String) (there copied : Session σ) : Prop where
  place : copied.includer = there.includer
  waiting : copied.registry.waiting = (there.registry.defer (.str tag) (.str name)).waiting
  awaits : ∃ names, Table.find? (.str tag) there.registry.waiting = some names ∧ .str name ∈ names
  lone : Lone name tag there.registry.waiting
  distinct : Emit.identText (.str tag) ≠ Emit.identText (.str name)

/-- Whether a node, if it comes to wait, waits for another name than the given one and has another
identifier. -/
def Leaves (name : String) (node : Json) : Prop :=
  ∀ own text, node.need "name" = .ok own → spellingOf node = .ok (.str text) → mayWait text = true →
    Spelling.normal text ≠ name ∧ Emit.identText own ≠ Emit.identText (.str name)

section
variable {σ : Type} {header : Path} {oracle : Layout.Oracle σ} {state : σ} {name tag : String}
  {there copied : Session σ}

theorem doubling_faithful (oracle : Layout.Oracle σ) (apart : tag ≠ name)
    (distinct : Emit.identText (.str tag) ≠ Emit.identText (.str name)) :
    (doubling name tag).Faithful oracle oracle where
  ask := ask_mirrors rfl fun _ => trivial
  register name' declarable same := register_mirrors_of name' fun fuel =>
    registerWith_doubling apart distinct fuel declarable same
  defer other own known := by
    refine fun session _ => ⟨⟨trivial, trivial⟩, fun session' like => ?_⟩
    exact ⟨rfl, like.graph, like.waiting.defer known.1 known.2, like.owners, like.includer, like.place, like.oracle⟩

theorem Leaves.waits {node : Json} (leaves : Leaves name node) :
    (doubling name tag : Mirror σ σ).Waits node := by
  intro own spelling text named spelled shown may
  obtain rfl := asText_eq_ok shown
  obtain ⟨other, distinct⟩ := leaves own text named spelled may
  refine ⟨Bool.eq_false_iff.mpr fun same => other ?_, distinct⟩
  exact Json.str.inj ((beq_str_iff _ _).mp same)

/-- After the copy the name waits twice. -/
theorem Rewaits.like (rewaits : Rewaits name tag there copied) (recurs : Recurs (.str name) there copied) :
    (doubling name tag).Like there copied := by
  obtain ⟨names, found, member⟩ := rewaits.awaits
  have graph : entries copied.graph = entries there.graph := by
    rcases recurs.does with ⟨-, kept⟩ | ⟨type, -, kept⟩ | ⟨other, deferred⟩
    · exact absurd (rewaits.waiting.symm.trans kept) waiting_of_defer
    · exact absurd (rewaits.waiting.symm.trans kept) waiting_of_defer
    · rw [Session.graph, deferred]
      rfl
  refine ⟨shifted_same graph.symm, ⟨rewaits.lone, ?_, fun other => ?_⟩, recurs.owners.symm,
    rewaits.place.symm, trivial, recurs.oracle.symm⟩
  · rw [rewaits.waiting, Registry.defer, Table.keys_insert, if_pos]
    rw [Table.has, found]
    rfl
  · rw [rewaits.waiting, Registry.defer]
    cases same : Json.str tag == other with
    | false =>
      rw [Table.find?_insert_of_ne same]
      exact .inl rfl
    | true =>
      refine .inr ⟨BEq.symm same, names, [], ?_, ?_, member⟩
      · rw [← Table.find?_congr same, found, List.append_nil]
      · rw [← Table.find?_congr same, Table.find?_insert_self, found]
        rfl

/-- A copy of a typedef is harmless if it declares the name as it was and nothing behind needs it, or if it
waits for its tag as the name does. -/
theorem resolve_typedef_again {typedef : Json} {before between after : List Json} {graph : Graph}
    (kind : typedef.field "kind" = .ok (.str "TypedefDecl"))
    (named : typedef.need "name" = .ok (.str name))
    (settled : ∀ last ∈ (before ++ typedef :: between).getLast?, Settled last)
    (copies : (topNode header oracle none typedef).runOn
      (reached header oracle state (before ++ typedef :: between)) = (.ok false, copied))
    (repeats : Repeats (.str name) (reached header oracle state (before ++ typedef :: between)) copied ∨
      ∃ tag, Rewaits name tag (reached header oracle state (before ++ typedef :: between)) copied ∧
        ∀ node ∈ after, Leaves name node)
    (resolved : ((resolve header oracle (before ++ typedef :: between ++ after)).runOn
      { oracle := state }).1 = .ok graph) :
    ∃ graph', ((resolve header oracle (before ++ typedef :: between ++ typedef :: after)).runOn
      { oracle := state }).1 = .ok graph' ∧ FailsNoMore graph graph' := by
  obtain ⟨session, run, rfl, nothing⟩ := resolve_eq_ok resolved
  have passes := passes_of_topNodes settled run
  rw [topNodes_reached settled passes] at run
  have idle : Table.find? (.str name)
      (reached header oracle state (before ++ typedef :: between)).registry.waiting = none := by
    rcases repeats with repeats | ⟨tag, rewaits, -⟩
    · exact repeats.idle
    · exact rewaits.lone.idle
  have recurs := Ends.of_run (topNode_recurs kind rfl named idle) copies
  have goes : ∃ last, (topNodes header oracle false after).runOn copied = (.ok (), last) ∧
      last.registry.waiting = [] ∧ Shifted (.str name) (Free (.str name)) session.graph last.graph := by
    rcases repeats with repeats | ⟨tag, rewaits, leaves⟩
    · have distinct := Ends.of_run passNodes_distinct passes
      have like : (moving (.str name)).Like (reached header oracle state (before ++ typedef :: between)) copied :=
        ⟨repeats.shifted recurs distinct, repeats.waiting.symm, recurs.owners.symm, repeats.place.symm,
          trivial, recurs.oracle.symm⟩
      obtain ⟨last, again, ends⟩ := topNodes_like (moving_faithful _ oracle) (fun _ => ⟨trivial, trivial⟩)
        (fun _ => trivial) (fun node _ => waits_any (fun _ _ => trivial) node) like run
      exact ⟨last, again, ends.waiting.symm.trans nothing, ends.graph⟩
    · have apart : tag ≠ name := fun same => rewaits.distinct (by rw [same])
      obtain ⟨last, again, ends⟩ := topNodes_like (doubling_faithful oracle apart rewaits.distinct)
        (fun _ => ⟨trivial, trivial⟩) (fun _ => trivial) (fun node member => (leaves node member).waits)
        (rewaits.like recurs) run
      refine ⟨last, again, ?_, ends.graph⟩
      have keys := ends.waiting.keys
      rw [nothing] at keys
      exact List.map_eq_nil_iff.mp keys
  obtain ⟨last, again, waits, shifted⟩ := goes
  have whole : (topNodes header oracle false (before ++ typedef :: between ++ typedef :: after)).runOn
      (opening state) = (.ok (), last) := by
    rw [topNodes_reached settled passes, topNodes, if_neg (by decide), runOn_bind,
      topNode_settled (settled_of_typedef kind), copies]
    exact again
  have resolved' := resolve_of_topNodes whole waits
  exact ⟨last.graph, resolved', shifted.failsNoMore (resolve_keyed resolved) (resolve_keyed resolved')⟩

end

section
variable (nodes : List Json)

/-- What a list resolves to. -/
def outerGraph : Except Fault Graph :=
  ((resolve { parts := ["a.h"] } (answering outerAnswers) nodes).runOn { oracle := () }).1

/-- The session in which the next node comes. -/
def outerReached : Session Unit := reached { parts := ["a.h"] } (answering outerAnswers) () nodes

/-- The session after one node more. -/
def outerCopied (node : Json) : Session Unit :=
  ((topNode { parts := ["a.h"] } (answering outerAnswers) none node).runOn (outerReached nodes)).2

/-- What fails of the module of a list with default options. -/
def outerFailures : Option (List Label) :=
  (outerGraph nodes).toOption.bind fun graph =>
    ((Emit.generate {} graph).runOn {}).1.toOption.map fun made => made.failed

end

theorem outerCopied_eq {nodes : List Json} {node : Json}
    (undone : ((topNode { parts := ["a.h"] } (answering outerAnswers) none node).runOn
      (outerReached nodes)).1 = .ok false) :
    (topNode { parts := ["a.h"] } (answering outerAnswers) none node).runOn (outerReached nodes) =
      (.ok false, outerCopied nodes node) := by
  rw [← undone]
  rfl

/-- An alias of an integer type before a record that does not hold it. -/
theorem ticks_repeats :
    let nodes := [typedefNode "ticks" "int32_t", recordNode "box" [fieldNode "x" "int"]]
    Repeats (.str "ticks") (outerReached nodes) (outerCopied nodes (typedefNode "ticks" "int32_t")) := by
  intro nodes
  have holds : (outerCopied nodes (typedefNode "ticks" "int32_t")).includer = (outerReached nodes).includer ∧
      (outerCopied nodes (typedefNode "ticks" "int32_t")).registry.waiting =
        (outerReached nodes).registry.waiting ∧
      Table.find? (.str "ticks") (outerReached nodes).registry.waiting = none ∧
      ((outerCopied nodes (typedefNode "ticks" "int32_t")).graph.find? (.str "ticks")).map
          CType.View.essential.look =
        ((outerReached nodes).graph.find? (.str "ticks")).map CType.View.essential.look ∧
      (∀ entry ∈ behind (.str "ticks") (outerReached nodes).graph.declarations,
        ∀ other ∈ Emit.needs entry.2, Emit.identText other ≠ Emit.identText (.str "ticks")) ∧
      ((outerReached nodes).graph.find? (.str "ticks")).map CType.kind = some "alias" := by
    decide +kernel
  obtain ⟨place, waiting, idle, same, free, kind⟩ := holds
  refine ⟨place, waiting, idle, same, free, fun type base isConst found pointer => ?_⟩
  rw [found] at kind
  cases type with
  | pointer => simp [CType.kind] at kind
  | _ => cases pointer

/-- An alias of a struct before the struct. -/
theorem dot_rewaits :
    let nodes := [typedefNode "dot" "struct point"]
    Rewaits "dot" "point" (outerReached nodes) (outerCopied nodes (typedefNode "dot" "struct point")) := by
  intro nodes
  have holds : (outerCopied nodes (typedefNode "dot" "struct point")).includer =
        (outerReached nodes).includer ∧
      (outerCopied nodes (typedefNode "dot" "struct point")).registry.waiting =
        ((outerReached nodes).registry.defer (.str "point") (.str "dot")).waiting ∧
      (outerReached nodes).registry.waiting = [(.str "point", [.str "dot"])] := by
    decide +kernel
  obtain ⟨place, waiting, waits⟩ := holds
  refine ⟨place, waiting, ⟨[.str "dot"], ?_, by simp⟩, ⟨?_, ?_⟩, by decide +kernel⟩
  · rw [waits]
    rfl
  · rw [waits]
    rfl
  · intro other names own found member
    rw [waits, Table.find?] at found
    split at found
    next same =>
      obtain rfl := Option.some.inj found
      exact .inr ⟨List.mem_singleton.mp member, BEq.symm same⟩
    next => cases found

theorem resolve_typedef_again_ticks :
    let ticks := typedefNode "ticks" "int32_t"
    let box := recordNode "box" [fieldNode "x" "int"]
    let dot := typedefNode "dot" "struct point"
    let point := recordNode "point" []
    (∃ graph graph', outerGraph [ticks, box] = .ok graph ∧ outerGraph [ticks, box, ticks] = .ok graph' ∧
      FailsNoMore graph graph') ∧
      ∃ graph graph', outerGraph [dot, point] = .ok graph ∧ outerGraph [dot, dot, point] = .ok graph' ∧
        FailsNoMore graph graph' := by
  intro ticks box dot point
  constructor
  · have last : ∀ last ∈ ([] ++ ticks :: [box]).getLast?, Settled last := by
      rintro _ ⟨⟩
      exact fun _ _ _ => ⟨.str "box", rfl, rfl⟩
    have fine : ((topNode { parts := ["a.h"] } (answering outerAnswers) none ticks).runOn
        (outerReached [ticks, box])).1 = .ok false ∧ (outerGraph [ticks, box]).isOk = true := by
      decide +kernel
    obtain ⟨graph, after, run⟩ := runs_of_isOk fine.2
    have resolved : outerGraph ([] ++ ticks :: [box] ++ []) = .ok graph := congrArg Prod.fst run
    obtain ⟨graph', again, fails⟩ := resolve_typedef_again rfl rfl last (outerCopied_eq fine.1)
      (.inl ticks_repeats) resolved
    exact ⟨graph, graph', resolved, again, fails⟩
  · have last : ∀ last ∈ ([] ++ dot :: []).getLast?, Settled last := by
      rintro _ ⟨⟩
      exact settled_of_typedef rfl
    have leaves : ∀ node ∈ [point], Leaves "dot" node := by
      intro node member own text _ spelled may
      obtain rfl := List.mem_singleton.mp member
      have bare : spellingOf point = .ok (.str "") := rfl
      obtain rfl := Json.str.inj (Except.ok.inj (bare.symm.trans spelled))
      cases may
    have fine : ((topNode { parts := ["a.h"] } (answering outerAnswers) none dot).runOn
        (outerReached [dot])).1 = .ok false ∧ (outerGraph [dot, point]).isOk = true := by
      decide +kernel
    obtain ⟨graph, after, run⟩ := runs_of_isOk fine.2
    have resolved : outerGraph ([] ++ dot :: [] ++ [point]) = .ok graph := congrArg Prod.fst run
    obtain ⟨graph', again, fails⟩ := resolve_typedef_again rfl rfl last (outerCopied_eq fine.1)
      (.inr ⟨"point", dot_rewaits, leaves⟩) resolved
    exact ⟨graph, graph', resolved, again, fails⟩

/-- A record that holds an alias fails where a copy of the alias comes after it, and an alias of an alias
that waits fails where the first one waits again behind it. -/
theorem typedef_again_spoils :
    let point := recordNode "point" [fieldNode "x" "int"]
    let dot := typedefNode "dot" "struct point"
    let box := recordNode "box" [fieldNode "at" "dot"]
    let spot := typedefNode "spot" "struct dot"
    outerFailures [point, dot, box] = some [] ∧
      outerFailures [point, dot, box, dot] = some [.str "box"] ∧
      outerFailures [dot, spot, point] = some [] ∧
      outerFailures [dot, spot, dot, point] = some [.str "spot"] := by
  decide +kernel

end NativeBindings.Resolve
