import Converge.Edit
import Converge.Simulation.Disk
import Converge.Simulation.Fault

/-!
# Simulations

A simulation is a controller over one store, with two clocks that move only when told: the wall
clock, which stamps notices, and the clock of the schedule. Passes see the texts of the store
through scripted faults; clients work on what is read from the texts.

## Main definitions

* `Simulation`: the state of a simulation.
* `Simulation.reconcile`, `Simulation.runAggregate`, `Simulation.runDue`, `Simulation.runTicks`:
  passes.
* `Simulation.reopen`, `Simulation.command`: the store as it is kept on disk.
-/

namespace Converge

/-- The state of a simulation. -/
structure Simulation where
  world : FaultyStore := {}
  /-- The wall clock in seconds since 1970, which may be before. -/
  clock : Int
  /-- The clock of the schedule. -/
  now : Instant
  settings : Settings := {}
  catalog : Catalog := Catalog.standard
  controller : Controller := {}
  tick : Seconds := 1
  schedule : Schedule := {}
  /-- Files and stores outside the store of the simulation. -/
  disk : Disk := {}

namespace Simulation

/-- The instant at which the clock of the schedule starts. -/
def start : Instant := 1000000

/-- The time on the wall clock as notices are stamped with it. -/
def time (s : Simulation) : UInt64 := UInt64.ofNat s.clock.toNat

/-- The store as clients read it. -/
def store (s : Simulation) : Store := s.world.store.opened

/-- The simulation after a client has made `store` of what is read. -/
def withStore (s : Simulation) (store : Store) : Simulation :=
  { s with world := { s.world with store := s.world.store.saved store } }

/-! ### Setting up -/

/-- Set up reconciler and controller anew; the schedule becomes empty. -/
def rebuild (s : Simulation) (settings : Settings) (catalog : Catalog) :
    Except SettingsError Simulation := do
  let (controller, tick) ← Controller.ofSettings settings catalog
  return { s with settings, catalog, controller, tick, schedule := {} }

/-- A simulation over an empty store. -/
def create (clock : Int) (settings : Settings) (catalog : Catalog) (faults : List Fault) :
    Except SettingsError Simulation :=
  rebuild { clock, now := start, world := { faults } } settings catalog

/-- Replace all faults. -/
def setFaults (s : Simulation) (faults : List Fault) : Simulation :=
  { s with world := { s.world with faults } }

/-- Move both clocks. -/
def advance (s : Simulation) (seconds : Nat) : Simulation :=
  { s with clock := s.clock + seconds, now := s.now + seconds }

/-! ### Passes -/

/-- Run a program in the simulated world. -/
def runProgram {α : Type} (s : Simulation) (p : Program α) : α × Simulation :=
  let (a, world) := p.run (FaultyStore.collaborators s.time) s.world
  (a, { s with world })

/-- A pass over a database. -/
def reconcile (s : Simulation) (key : ObjectKey) : Directive × Simulation :=
  s.runProgram (s.controller.reconciler.reconcile s.time key)

/-- The steps of a pass over a loaded database. -/
def runAggregate (s : Simulation) (a : Aggregate) : (Directive × Aggregate) × Simulation :=
  s.runProgram (s.controller.reconciler.runAggregate s.time a)

/-- The databases in the store, in its order. -/
def listed (s : Simulation) : List ObjectKey := (s.store.list Database.kind.name).map Object.key

/-- Run the passes that are due now, and count them. There are none if some database cannot be
read. -/
def runDue (s : Simulation) : Except ClockOverflow (Nat × Simulation) :=
  match s.world.store.list Database.kind.name with
  | .error _ => .ok (0, s)
  | .ok databases => do
    let (passes, schedule, world) ← s.controller.runDue (FaultyStore.collaborators s.time) s.time
      s.now (databases.map Object.key) s.schedule s.world
    return (passes, { s with schedule, world })

/-- Move both clocks by the tick interval and run the passes that are then due, `n` times. -/
def runTicks (s : Simulation) : Nat → Except ClockOverflow Simulation
  | 0 => .ok s
  | n + 1 => do
    let (_, s) ← (s.advance s.tick.toNat).runDue
    s.runTicks n

/-- When a database is due, in seconds since the start. -/
def due? (s : Simulation) (key : ObjectKey) : Option Int :=
  (s.schedule.due? key).map fun instant => (instant : Int) - start

/-- The calls that were made since they were last taken, in order. -/
def takeCalls (s : Simulation) : List Call × Simulation :=
  (s.world.calls.reverse, { s with world := { s.world with calls := [] } })

/-! ### The store on disk -/

/-- Close the store and open it again. -/
def reopen (s : Simulation) : Except DecodeError Simulation := do
  let store ← TextStore.codec.decode (TextStore.codec.encode s.world.store)
  return { s with world := { s.world with store }, schedule := {} }

/-- Write files, execute a command while the store is closed, and open the store again. Its
directory is `dataDir`. -/
def command (s : Simulation) (dataDir : String) (files : List (String × String)) (c : Command) :
    Except CommandError String × Simulation :=
  let disk := files.foldl (fun d (path, content) => d.writeFile path content)
    (s.disk.saveStore dataDir s.world.store)
  let (result, disk) := (c.execute Disk.host).run disk
  let store := (disk.stores.find? (Disk.normalize dataDir)).getD ∅
  (result, { s with world := { s.world with store }, schedule := {}, disk })

end Simulation

end Converge
