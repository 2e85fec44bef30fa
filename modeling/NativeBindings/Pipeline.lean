import NativeBindings.Emit.Module
import NativeBindings.Layout.Compiler
import NativeBindings.Resolve.Unit
import NativeBindings.Settings
import NativeBindings.Tally

/-!
From a header to a module: the dump of its syntax tree, the graph of its types, the module, and the
file that it is written to.
-/
namespace NativeBindings

/-- The compiler with its cache, and the counts of the run. -/
structure Plant where
  bench : Layout.Bench
  tally : Tally := {}

instance : Noting Plant where
  tell told plant := { plant with bench := Noting.tell told plant.bench }

instance : Tallied Plant where
  tally := Plant.tally
  put tally plant := { plant with tally }

namespace Pipeline

def inBench {α : Type} (act : Act Layout.Bench α) : Act Plant α :=
  Act.zoom Plant.bench (fun plant bench => { plant with bench }) act

def inWorld {α : Type} (act : Act World α) : Act Plant α := inBench (Layout.inWorld act)

def backendOf (settings : Settings) : Layout.Backend :=
  if settings.backend == "dwarf" then .debug else .probe

/-- The path of the cache; none, if nothing is to be kept. -/
def cachePath (settings : Settings) : Act World (Option Path) := do
  let tools ← ToolSettings.read
  match settings.cache with
  | some path => return some (← path.asPath)
  | none => if tools.persistent then return some (← cachePathOf settings.header) else return none

def enter (settings : Settings) : Act World Plant := do
  let cache ← Layout.Cache.openAt (← cachePath settings)
  let includes ← (settings.includes.mapM Operand.asPath : Except Fault (List Path))
  let toolchain ← Toolchain.make includes "" "" none
  Layout.prepare (backendOf settings) settings.header
  note (Journal.debug ("Using " ++ settings.backend ++ " layout backend"))
  return { bench := { shop := { world := ← get, toolchain }, cache } }

def saveCache : Act Plant Unit := do
  let saved ← inWorld (← get).bench.cache.save
  modify fun plant => { plant with bench := { plant.bench with cache := saved } }

/-- Saves the cache and clears away what the compiler made. -/
def leave : Act Plant Unit := do
  saveCache
  note (Journal.debug ("Layout cache: " ++ (← get).bench.cache.statistics.shown))
  inBench (Layout.inWorkshop Workshop.clean)

/-- The graph of top-level nodes, with the compiler as oracle. -/
def resolveNodes (settings : Settings) (nodes : List Json) : Act Layout.Bench Graph :=
  Act.ofRun fun bench =>
    let oracle := Layout.compilerOracle (backendOf settings) settings.header.text
    let (outcome, session) :=
      (Resolve.resolve settings.header oracle nodes).runOn { oracle := bench }
    (outcome, Noting.tell session.journal session.oracle)

def resolve (settings : Settings) : Act Plant Graph :=
  timed "BindingsGenerator.resolve" do
    let graph ← operation "resolve" (inBench do
      let nodes ← Layout.inWorkshop (Workshop.dump settings.header.text)
      resolveNodes settings nodes)
    saveCache
    let asked := (← get).bench.asked
    changeTally fun tally => { tally with
      declarations := tally.declarations + graph.declarations.length
      queries := tally.queries + asked }
    return graph

def emit (options : Emit.Options) (graph : Graph) : Act Plant Emit.Module :=
  Act.ofRun fun plant =>
    let (outcome, progress) := (Emit.generate options graph).runOn {}
    (outcome, Noting.tell progress.journal plant)

def generate (settings : Settings) (options : Emit.Options) : Act Plant Emit.Module := do
  let graph ← resolve settings
  let made ← operation "generate" (emit options graph)
  changeTally fun tally => { tally with
    fragments := tally.fragments + made.fragments.length
    failures := tally.failures + made.failed.length }
  note (← tally).summary
  return made

/-- Writes a module to a path, or to that of the settings. -/
def write (settings : Settings) (made : Emit.Module) (path : Option Path) : Act Plant Path := do
  let output ← match path with
    | some path => pure path
    | none => settings.output.valueFor "parent"
  inWorld (World.makeDirectories output.parent)
  inWorld (World.write output made.text)
  let length := made.text.length
  note (Journal.info ("Wrote " ++ output.text ++ s!" ({length} bytes)"))
  return output

/-- The options where none are given. -/
def defaultOptions (settings : Settings) : Emit.Options :=
  { library := match settings.library with
      | none | some "" => Emit.defaultLibrary
      | some path => path }

/-- Enters, acts and leaves, whether or not the act fails. -/
def within {α : Type} (settings : Settings) (act : Act Plant α) :
    Act World (Except Fault α × Plant) := do
  let plant ← enter settings
  let (outcome, after) := act.runOn plant
  let (left, plant) := leave.runOn after
  set plant.bench.shop.world
  match left with
  | .ok _ => return (outcome, plant)
  | .error fault => return (.error fault, plant)

end Pipeline

end NativeBindings
