import Proactor.Simulation.Outlet
import Proactor.Simulation.Trace

/-!
# The state of a scenario

Everything that the actions of a scenario act on: the simulated operating
system, the sinks, the subject, the operations that the scenario has taken out
of it, and the trace that has not been reported yet.
-/

namespace Proactor.Simulation

/-- The thread of a dispatch loop. It announces itself when it first waits. -/
structure Worker where
  name : String
  announced : Bool
  ending : Option EventLoop.Ending

/-- Whether the loop of a thread has ended in a panic. -/
def Worker.hasPanicked (worker : Worker) : Bool :=
  match worker.ending with
  | some (.panicked _) => true
  | _ => false

/-- A reactor with its stop flag and the threads of its loops. -/
structure Running where
  reactor : Reactor Target
  stopping : Bool
  reading : Option Worker
  writing : Option Worker

namespace Running

/-- A reactor whose loops have not been started. -/
def idle (reactor : Reactor Target) : Running :=
  ⟨reactor, false, none, none⟩

/-- The thread of the loop of a direction. -/
def worker? (running : Running) : Direction → Option Worker
  | .read => running.reading
  | .write => running.writing

/-- The same with a new thread for the loop of a direction. -/
def withWorker (running : Running) (direction : Direction) (worker : Worker) : Running :=
  match direction with
  | .read => { running with reading := some worker }
  | .write => { running with writing := some worker }

/-- The same with the thread of a direction changed, if there is one. -/
def mapWorker (running : Running) (direction : Direction) (change : Worker → Worker) : Running :=
  match running.worker? direction with
  | some worker => running.withWorker direction (change worker)
  | none => running

end Running

/-- An operation that a scenario has taken out of its subject or made up, and the outcome of the
last attempt that the scenario made on it. -/
structure Held where
  operation : Operation Target
  lastAttempt : Attempt

/-- A side of the scenario and the number of actions that are at work on it. A side that is no
longer the current one stays open as long as it is in use. -/
structure SharedSide where
  side : Side Target
  users : Nat

/-- The place at which a loop works. -/
inductive Place where
  /-- The side of the scenario with this source. -/
  | alone (source : Fd)
  /-- One side of the reactor with this reading source. -/
  | within (reactor : Fd) (direction : Direction)

/-- The state of a scenario. Sides are kept by the descriptors of their sources and reactors by
those of their reading sources; at most one of them is the current one. Loops that have been
started wait in `started` for a thread. The trace is kept with its last line first. -/
structure World where
  subject : Subject
  kernel : Kernel Action
  specs : List (String × SinkSpec)
  outlets : List (String × Outlet)
  stopFlag : Bool
  sides : FdMap SharedSide
  currentSide : Option Fd
  held : List (String × Held)
  reactors : FdMap Running
  currentReactor : Option Fd
  started : List (Fd × Direction)
  trace : List (Thread × String)
  released : List String

namespace World

/-- The state before the first action. -/
def initial (scenario : Scenario) : World where
  subject := scenario.subject
  kernel := .initial
  specs := scenario.sinks
  outlets := scenario.sinks.map fun (name, spec) => (name, .ofSpec spec)
  stopFlag := false
  sides := .empty
  currentSide := none
  held := []
  reactors := .empty
  currentReactor := none
  started := []
  trace := []
  released := []

/-- Write a line into the trace. -/
def say (world : World) (thread : Thread) (line : String) : World :=
  { world with trace := (thread, line) :: world.trace }

/-- Replace the state of the operating system. -/
def withKernel (world : World) (kernel : Kernel Action) : World :=
  { world with kernel }

/-! ## Sinks -/

/-- The behaviour of a sink. An unknown name stands for a sink that discards. -/
def spec (world : World) (name : String) : SinkSpec :=
  (world.specs.lookup name).getD .discards

/-- The sink with a name. Unknown names and the absence of a name come to the same. -/
def sink (world : World) (target : Target) : Sink Target :=
  match target with
  | none => ⟨none, false⟩
  | some name => ⟨some name, (world.spec name).waitsForRoom⟩

/-- What a sink remembers. -/
def outlet (world : World) (name : String) : Outlet :=
  (world.outlets.lookup name).getD .stateless

/-- Replace what a sink remembers. -/
def withOutlet (world : World) (name : String) (outlet : Outlet) : World :=
  { world with
    outlets := world.outlets.map fun entry =>
      if entry.1 = name then (name, outlet) else entry }

/-- Whether a completion for this sink would have to wait for room. -/
def isFull (world : World) (target : Target) : Bool :=
  match target with
  | none => false
  | some name => (world.outlet name).isFull

/-! ## Operations taken out of the subject -/

/-- Keep an operation under a name, in place of the one kept there. -/
def hold (world : World) (id : String) (operation : Operation Target)
    (lastAttempt : Attempt) : World :=
  { world with
    held := (id, ⟨operation, lastAttempt⟩) :: world.held.filter fun entry => entry.1 ≠ id }

/-- Give up the operation under a name. -/
def letGo (world : World) (id : String) : World :=
  { world with held := world.held.filter fun entry => entry.1 ≠ id }

/-! ## Sides -/

/-- The side of the scenario with a source. -/
def sharedSide? (world : World) (source : Fd) : Option SharedSide :=
  world.sides.get? source

/-- Keep a side under its source. -/
def withSharedSide (world : World) (source : Fd) (shared : SharedSide) : World :=
  { world with sides := world.sides.insert source shared }

/-- Change a side of the scenario, if it is there. -/
def mapSharedSide (world : World) (source : Fd) (change : SharedSide → SharedSide) : World :=
  match world.sharedSide? source with
  | some shared => world.withSharedSide source (change shared)
  | none => world

/-! ## Reactors -/

/-- The reactor with a reading source. -/
def running? (world : World) (reactor : Fd) : Option Running :=
  world.reactors.get? reactor

/-- Keep a reactor under its reading source. -/
def withRunning (world : World) (reactor : Fd) (running : Running) : World :=
  { world with reactors := world.reactors.insert reactor running }

/-- Change a reactor, if it is there. -/
def mapRunning (world : World) (reactor : Fd) (change : Running → Running) : World :=
  match world.running? reactor with
  | some running => world.withRunning reactor (change running)
  | none => world

/-- The thread of a loop. -/
def worker? (world : World) (reactor : Fd) (direction : Direction) : Option Worker := do
  let running ← world.running? reactor
  running.worker? direction

/-- Change the thread of a loop, if it is there. -/
def mapWorker (world : World) (reactor : Fd) (direction : Direction)
    (change : Worker → Worker) : World :=
  world.mapRunning reactor (·.mapWorker direction change)

/-- The stop flag of a reactor, or that of the scenario. -/
def isStopping (world : World) : Option Fd → Bool
  | some reactor => (world.running? reactor).any Running.stopping
  | none => world.stopFlag

/-! ## Places of loops -/

/-- The side at a place. -/
def side? (world : World) : Place → Option (Side Target)
  | .alone source => (world.sharedSide? source).map SharedSide.side
  | .within reactor direction =>
      (world.running? reactor).map fun running => running.reactor.side direction

/-- Replace the side at a place. -/
def withSide (world : World) (place : Place) (side : Side Target) : World :=
  match place with
  | .alone source => world.mapSharedSide source fun shared => { shared with side }
  | .within reactor direction =>
      world.mapRunning reactor fun running =>
        { running with reactor := running.reactor.withSide direction side }

end World

end Proactor.Simulation
