import NativeBindings.Proofs.Emit.Isolation

/-!
What a module consists of, told without running the generator: an account holds the lines of a stretch
of the module, the marshalers that it makes known, and the units of work in it that fail, in the order
in which they are done. A run that goes on after failures adds what the account says. One that ends
with the first failure does the same where no unit fails, and else ends with the first of the faults.
-/
namespace NativeBindings.Emit

open Act Outcome

/-- A unit of work that fails: the symbol that is recorded, and the fault. -/
structure Mishap where
  symbol : Label
  fault : Fault

structure Account where
  lines : List Fragment := []
  known : List Marshaler := []
  mishaps : List Mishap := []

namespace Account

def followedBy (first second : Account) : Account :=
  { lines := first.lines ++ second.lines
    known := first.known ++ second.known
    mishaps := first.mishaps ++ second.mishaps }

/-- A unit of work, and what comes of its result. -/
def tried {α : Type} (symbol : Label) (outcome : Except Fault α) (rest : α → Account) : Account :=
  match outcome with
  | .ok value => rest value
  | .error fault => { mishaps := [{ symbol, fault }] }

def yield (account : Account) : Yield :=
  { lines := account.lines
    known := account.known
    failed := account.mishaps.map Mishap.symbol }

theorem yield_followedBy (first second : Account) :
    (first.followedBy second).yield = first.yield.followedBy second.yield := by
  simp only [yield, followedBy, Yield.followedBy, List.map_append]

theorem followedBy_nothing (account : Account) : account.followedBy {} = account := by
  simp only [followedBy, List.append_nil]

theorem followedBy_lines (first second : List Fragment) (rest : Account) :
    followedBy { lines := first ++ second } rest =
      followedBy { lines := first } (followedBy { lines := second } rest) := by
  simp only [followedBy, List.append_assoc, List.nil_append]

theorem known_tried {α : Type} (symbol : Label) (outcome : Except Fault α)
    (lines : α → List Fragment) :
    (tried symbol outcome fun value => { lines := lines value }).known = [] := by
  cases outcome <;> rfl

end Account

/-- A function that a graph declares. -/
structure Function where
  name : Label
  result : CType
  parameters : List (Parameter CType)

/-- The functions among the entries of a graph, in their order. -/
def functionsOf (entries : Table Label CType) : List Function :=
  entries.filterMap fun (name, type) =>
    match type with
    | .signature _ result parameters => some { name, result, parameters }
    | _ => none

section
variable (options : Options)

def halfAccount (direction : Direction) (name : Label) (ident : String) (result : CType)
    (parameters : List (Parameter CType)) : Account :=
  .tried (halfSymbol direction name) (callbackHalf options direction name result parameters)
    fun lines => { lines, known := [{ direction, ident }] }

/-- A pointer to a function: its type and, if that does not fail, its halves. -/
def callbackAccount (name : Label) (ident : String) (result : CType)
    (parameters : List (Parameter CType)) : Account :=
  .tried name (signatureHint result parameters) fun hint =>
    let reader := if options.readers then halfAccount options .reading name ident result parameters else {}
    let writer := if options.writers then halfAccount options .writing name ident result parameters else {}
    Account.followedBy { lines := [aliasLine options ident hint] } (reader.followedBy writer)

/-- What is emitted of a declaration. -/
def renderedAccount (rendered : Rendered) : Account :=
  { lines := if rendered.lines.isEmpty then [] else rendered.lines ++ [blankLine]
    known := (rendered.ident.map (marshalersOf options)).getD [] }

def entryAccount (known : List Marshaler) (name : Label) : CType → Account
  | .synonym _ _ true => {}
  | .callback _ _ result parameters =>
    match identText name with
    | .ok ident => callbackAccount options name ident result parameters
    | .error _ => {}
  | type => .tried name (declaration options known name type) (renderedAccount options)

/-- The declarations. Each one may use what those before it made known. -/
def entriesAccount (known : List Marshaler) : Table Label CType → Account
  | [] => {}
  | (name, type) :: rest =>
    let first := entryAccount options known name type
    first.followedBy (entriesAccount (known ++ first.known) rest)

/-- A pass over functions, a unit of work for each. -/
def passAccount {α : Type} (work : Function → Except Fault α) (lines : α → List Fragment) :
    List Function → Account
  | [] => {}
  | function :: rest =>
    let first := Account.tried function.name (work function) fun result => { lines := lines result }
    first.followedBy (passAccount work lines rest)

def entryOf (function : Function) : Except Fault Fragment :=
  symbolEntry options function.name function.result function.parameters

def callableOf (known : List Marshaler) (function : Function) : Except Fault (List Fragment) :=
  callable options known function.name function.result function.parameters

/-- What stands before the entries of the table of symbols. -/
def tableStart : List Fragment :=
  let (lines, path) := options.libraryCode options.library
  lines.map (fun text => [.text text]) ++
    [put options 0 [.text ("imported_lib = _ctypes.CDLL(" ++ path ++ ")")], blankLine,
      put options 0 ["_symbol_signatures = \x7b"]]

/-- What stands after them. -/
def tableEnd : List Fragment :=
  [put options 0 ["\x7d"],
    put options 0 ["for _name, (_restype, _argtypes) in _symbol_signatures.items():"],
    put options 1 ["_symbol = getattr(imported_lib, _name)"],
    put options 1 ["_symbol.restype = _restype"],
    put options 1 ["_symbol.argtypes = _argtypes"], blankLine]

def symbolsAccount (functions : List Function) : Account :=
  Account.followedBy { lines := tableStart options }
    ((passAccount (entryOf options) (fun entry => [entry]) functions).followedBy
      { lines := tableEnd options })

/-- What follows the declarations, where these marshalers are known. -/
def restAccount (known : List Marshaler) (functions : List Function) : Account :=
  let symbols := if options.symbols then symbolsAccount options functions else {}
  let callables :=
    if options.wrappers && options.symbols then passAccount (callableOf options known) id functions
    else {}
  symbols.followedBy callables

/-- A whole module after its fixed first text. -/
def moduleAccount (graph : Graph) : Account :=
  let declared := entriesAccount options [] graph.declarations
  Account.followedBy { lines := if options.helpers then [[.text helpers]] else [] }
    (declared.followedBy (restAccount options declared.known (functionsOf graph.declarations)))

end

/-- An act that adds what an account says, wherever these marshalers are known and failures are noted.
Where the first failure is to end the work, it ends so if there is a mishap. -/
structure Accounts {α : Type} (options : Options) (act : Emitting α) (known : List Marshaler) (value : α)
    (account : Account) : Prop where
  goesOn : options.failFast = false → Yields act known value account.yield
  stops : options.failFast = true → ∀ before : Progress, before.known = known → before.failed = [] →
    Ends (fun given after => account.mishaps = [] ∧ given = value ∧ Added account.yield before after)
      (fun fault after => ∃ symbol others, account.mishaps = { symbol, fault } :: others ∧
        after.failed = [symbol]) act before

section
variable {α β : Type} {options : Options} {known : List Marshaler} {act : Emitting α}
  {next : α → Emitting β} {value : α} {result : β} {first second account : Account}

theorem Accounts.then (one : Accounts options act known value first)
    (two : Accounts options (next value) (known ++ first.known) result second) :
    Accounts options (act >>= next) known result (first.followedBy second) := by
  constructor
  · intro patient
    rw [Account.yield_followedBy]
    exact (one.goesOn patient).then (two.goesOn patient)
  · intro hasty before same unfailed
    refine ends_bind.mpr ((one.stops hasty before same unfailed).mono (fun given middle begun => ?_)
      fun fault after ended => ?_)
    · obtain ⟨clean, rfl, added⟩ := begun
      have unfailed' : middle.failed = [] := by
        rw [added.failed, Account.yield, clean]
        exact unfailed
      refine (two.stops hasty middle (by rw [added.known, same, Account.yield]) unfailed').mono
        (fun given after ended => ?_) fun fault after ended => ?_
      · obtain ⟨clean', same', added'⟩ := ended
        refine ⟨by rw [Account.followedBy, clean, clean', List.append_nil], same', ?_⟩
        rw [Account.yield_followedBy]
        exact added.trans added'
      · obtain ⟨symbol, others, failures, failed⟩ := ended
        exact ⟨symbol, others, by rw [Account.followedBy, clean, failures, List.nil_append], failed⟩
    · obtain ⟨symbol, others, failures, failed⟩ := ended
      exact ⟨symbol, others ++ second.mishaps,
        by rw [Account.followedBy, failures, List.cons_append], failed⟩

/-- An act that does the same whether or not the first failure is to end the work. -/
theorem accounts_of_yields (clean : account.mishaps = []) (yields : Yields act known value account.yield) :
    Accounts options act known value account := by
  refine ⟨fun _ => yields, fun _ before same _ => ?_⟩
  obtain ⟨after, run, added⟩ := yields before same
  unfold Ends
  rw [run]
  exact ⟨clean, rfl, added⟩

theorem accounts_pure (value : α) : Accounts options (pure value) known value {} :=
  accounts_of_yields rfl (yields_pure value)

theorem accounts_append (lines : List Fragment) :
    Accounts options (append lines) known () { lines } :=
  accounts_of_yields rfl (yields_append lines)

theorem accounts_know (more : List Marshaler) :
    Accounts options (know more) known () { known := more } :=
  accounts_of_yields rfl (yields_know more)

theorem accounts_note (journal : Journal) : Accounts options (note journal) known () {} :=
  accounts_of_yields rfl (yields_note journal)

/-- A note of how far the module has come. -/
theorem accounts_tell (told : Progress → Journal) :
    Accounts options (get >>= fun progress => note (told progress)) known () {} :=
  accounts_of_yields rfl fun before same => yields_note (told before) before same

theorem accounts_append_know (lines : List Fragment) (more : List Marshaler) :
    Accounts options (append lines >>= fun _ => know more) known () { lines, known := more } := by
  have both : Accounts options (append lines >>= fun _ => know more) known () _ :=
    (accounts_append lines).then (accounts_know more)
  simpa only [Account.followedBy, List.append_nil, List.nil_append] using both

theorem accounts_know_append (more : List Marshaler) (lines : List Fragment) :
    Accounts options (know more >>= fun _ => append lines) known () { lines, known := more } := by
  have both : Accounts options (know more >>= fun _ => append lines) known () _ :=
    (accounts_know more).then (accounts_append lines)
  simpa only [Account.followedBy, List.append_nil, List.nil_append] using both

/-- A part that an option may leave out, at the end. -/
theorem Accounts.last {chosen : Bool} {act : Emitting Unit} (one : Accounts options act known () first) :
    Accounts options (if chosen = true then act else pure ()) known ()
      (if chosen then first else {}) := by
  split
  · exact one
  · exact accounts_pure ()

/-- A part that an option may leave out, before the rest. -/
theorem Accounts.optional {chosen : Bool} {act : Emitting Unit} {rest : Unit → Emitting Unit}
    (one : Accounts options act known () first)
    (two : ∀ known, Accounts options (rest ()) known () second) :
    Accounts options (if chosen = true then act >>= rest else rest ()) known ()
      ((if chosen then first else {}).followedBy second) := by
  split
  · exact one.then (two _)
  · exact two known

/-- A unit of work, and what comes of its result. -/
theorem accounts_tried {symbol : Label} (keyed : symbol.asKey = .ok symbol) (context : String)
    (work : List Marshaler → Except Fault α) {next : Option α → Emitting β} {rest : α → Account}
    (done : ∀ value, work known = .ok value → Accounts options (next (some value)) known result (rest value))
    (failed : next none = pure result) :
    Accounts options (unit options symbol context work >>= next) known result
      (.tried symbol (work known) rest) := by
  cases worked : work known with
  | ok value =>
    have unchanged (before : Progress) (same : before.known = known) :
        (unit options symbol context work >>= next).runOn before = (next (some value)).runOn before := by
      rw [runOn_bind, unit, runOn_ofRun, same, worked, ← same]
      simp [tryUnit]
    have rest := done value worked
    refine ⟨fun patient before same => ?_, fun hasty before same unfailed => ?_⟩
    · rw [unchanged before same]
      exact rest.goesOn patient before same
    · unfold Ends
      rw [unchanged before same]
      exact rest.stops hasty before same unfailed
  | error fault =>
    refine ⟨fun patient => ?_, fun hasty before same unfailed => ?_⟩
    · have units := yields_unit patient known keyed context work
      rw [worked] at units
      exact units.then (failed ▸ yields_pure result)
    · unfold Ends
      rw [runOn_bind, unit, runOn_ofRun, same, worked]
      simp [tryUnit, keyed, hasty, unfailed, Account.tried]

end

end NativeBindings.Emit
