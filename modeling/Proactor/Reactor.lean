import Proactor.EventLoop

/-!
# Reactors

A reactor owns a reading and a writing side, the handles given to it to watch,
and one dispatch loop for each side. Reads and writes are submitted against
descriptors; each completion goes to the sink that was given with it.

The life of a reactor is a machine too, because its owner waits for the loops
when it ends: the loops are started one after the other, a shutdown raises the
stop flag and wakes both of them, waits for both to end, and then releases the
sources and the handles. A failed start ends in the same shutdown.
-/

namespace Proactor

/-- A reactor. `started` lists the loops that run or have run, in the order of their start. -/
structure Reactor (σ : Type) where
  reads : Side σ
  writes : Side σ
  custody : Custody
  settings : Settings
  started : List Direction

namespace Reactor

variable {σ : Type}

/-- The side of a direction. -/
def side (reactor : Reactor σ) : Direction → Side σ
  | .read => reactor.reads
  | .write => reactor.writes

/-- The reactor with the side of a direction changed. -/
def withSide (reactor : Reactor σ) (direction : Direction) (side : Side σ) : Reactor σ :=
  match direction with
  | .read => { reactor with reads := side }
  | .write => { reactor with writes := side }

/-- A side that has been put in place is there. -/
@[simp]
theorem side_withSide_same (reactor : Reactor σ) (direction : Direction) (side : Side σ) :
    (reactor.withSide direction side).side direction = side := by
  cases direction <;> rfl

/-- Putting a side in place leaves the other one alone. -/
theorem side_withSide_other (reactor : Reactor σ) {direction other : Direction} (side : Side σ)
    (hne : other ≠ direction) :
    (reactor.withSide direction side).side other = reactor.side other := by
  cases direction <;> cases other <;> first | rfl | exact absurd rfl hne

/-- What the loop of a direction has to know. -/
def loopSetup (reactor : Reactor σ) (direction : Direction) : EventLoop.Setup :=
  ⟨direction, reactor.settings.delivery, reactor.settings.eventsCapacity⟩

/-- The number of descriptors with an outstanding operation in a direction. -/
def pending (reactor : Reactor σ) (direction : Direction) : Nat :=
  (reactor.side direction).table.size

/-- Whether the loop of a direction runs. -/
def isDispatching (reactor : Reactor σ) (direction : Direction) : Bool :=
  (reactor.side direction).dispatching

/-! ## Watching descriptors -/

/-- The status flag of descriptors whose calls never wait. -/
def nonBlockingFlag : Int32 :=
  2048

/-- Switch a descriptor to calls that never wait, unless it is so already. -/
def setNonBlocking (fd : Fd) : Program σ (Except Fault Unit) := do
  match ← Program.ask (.flags fd) with
  | .error errno => return .error (.system errno)
  | .ok flags =>
      if flags &&& nonBlockingFlag = 0 then
        return Fault.ofCall (← Program.ask (.setFlags fd (flags ||| nonBlockingFlag)))
      else return .ok ()

/-- Store a handle whose descriptor is ready to be watched. The handle stored before under the
same descriptor is released. -/
def keep (reactor : Reactor σ) (fd : Fd) (handle : Handle) : Program σ (Reactor σ) := do
  let (previous, custody) := reactor.custody.insert fd handle
  if previous.isSome then Program.log (.watchedTwice fd)
  Program.log (.watching fd)
  if let some handle := previous then Program.ask (.release handle)
  return { reactor with custody }

/-- Take ownership of a handle. The handle is released at once if it cannot be watched. -/
def watch (reactor : Reactor σ) (handle : Handle) :
    Program σ (Except ReactorError Fd × Reactor σ) :=
  match handle.descriptor with
  | none => do
      Program.ask (.release handle)
      return (.error .unsupportedHandle, reactor)
  | some fd => do
      match ← setNonBlocking fd with
      | .error fault =>
          Program.ask (.release handle)
          return (.error (.watch fd fault), reactor)
      | .ok () => return (.ok fd, ← reactor.keep fd handle)

/-- Release the handle stored for a descriptor. Operations on the descriptor stay. -/
def stopWatch (reactor : Reactor σ) (fd : Fd) : Program σ (Reactor σ) := do
  let (removed, custody) := reactor.custody.remove fd
  if let some handle := removed then
    Program.ask (.release handle)
    Program.log (.stoppedWatching fd)
  return { reactor with custody }

/-! ## Submitting operations -/

/-- Submit a read or a write. -/
def submit (reactor : Reactor σ) (direction : Direction) (fd : Fd) (buffer : Bytes)
    (sink : Sink σ) : Program σ (Except ReactorError Unit × Reactor σ) := do
  let operation := Operation.submitted fd buffer sink
  match ← (reactor.side direction).submit operation reactor.settings.overlap with
  | (.error error, side) => return (.error error, reactor.withSide direction side)
  | (.ok displaced, side) =>
      if let some displaced := displaced then
        Program.log (.overwritten fd direction displaced.outline)
      Program.log (.submitted fd direction buffer.length)
      return (.ok (), reactor.withSide direction side)

/-! ## Starting -/

/-- Open both sources. If the second one cannot be opened, the first one is closed. -/
def create (settings : Settings) : Program σ (Except ReactorError (Reactor σ)) := do
  match ← Side.create .read with
  | .error fault => return .error (.init fault)
  | .ok reads =>
      match ← Side.create .write with
      | .error fault =>
          let _ ← reads.close
          return .error (.init fault)
      | .ok writes =>
          let eventsCapacity := Settings.batchSize settings.eventsCapacity
          return .ok ⟨reads, writes, .empty, { settings with eventsCapacity }, []⟩

/-- Why a loop could not be started. -/
inductive StartFailure where
  | refused (error : ReactorError)
  | panicked (cause : Panic)

/-- The name of the thread of a loop. -/
def threadName (settings : Settings) (direction : Direction) : String :=
  settings.threadNamePrefix ++ "-" ++ direction.text

/-- Start the loop of a direction on a thread of its own. No thread can have a name with a NUL
character in it. -/
def startLoop (reactor : Reactor σ) (direction : Direction) :
    Program σ (Except StartFailure Unit × Reactor σ) := do
  let name := threadName reactor.settings direction
  let side := reactor.side direction
  let raised := reactor.withSide direction { side with dispatching := true }
  if name.contains (Char.ofNat 0) then
    return (.error (.panicked .nulInThreadName), raised)
  else
    match ← Program.ask (.spawn direction name) with
    | .ok () => return (.ok (), { raised with started := raised.started ++ [direction] })
    | .error errno => return (.error (.refused (.init (.system errno))), reactor)

/-! ## Shutting down -/

/-- Wake the loop of a side. A loop that cannot be woken is reported. -/
def wakeLoop (side : Side σ) : Program σ Unit := do
  match ← side.source.wake with
  | .ok () => return ()
  | .error fault => Program.log (.wakeFailed side.table.direction fault)

/-- Raise the stop flag and wake both loops. -/
def signalStop (reactor : Reactor σ) : Program σ Unit := do
  Program.ask .raiseStop
  wakeLoop reactor.reads
  wakeLoop reactor.writes

/-- Wait for loops to end, one after the other. -/
def joinLoops : List Direction → Program σ Unit
  | [] => return ()
  | direction :: rest => do
      if ← Program.ask (.join direction) then Program.log .loopPanicked
      joinLoops rest

/-- Close both sources. The second one is closed also when the first one fails, and the first
fault is reported. -/
def closeSources (reactor : Reactor σ) :
    Program σ (Except ReactorError Unit × Reactor σ) := do
  let pending := reactor.reads.table.size + reactor.writes.table.size
  if pending > 0 then Program.log (.closingWithPending pending)
  let (first, reads) ← reactor.reads.close
  let (second, writes) ← reactor.writes.close
  let result : Except ReactorError Unit :=
    match first, second with
    | .error fault, _ => .error (.close fault)
    | .ok (), .error fault => .error (.close fault)
    | .ok (), .ok () => .ok ()
  return (result, { reactor with reads, writes })

/-- Release handles. -/
def releaseHandles : List Handle → Program σ Unit
  | [] => return ()
  | handle :: rest => do
      Program.ask (.release handle)
      releaseHandles rest

/-- Why a reactor is shut down. -/
inductive Purpose where
  /-- Its owner closes it and asks for the result. -/
  | closing
  /-- Its owner lets go of it. -/
  | dropping
  /-- It could not be started. -/
  | abandoning (failure : StartFailure)

/-- Report a failed shutdown to the log if nobody asked for its result. -/
def reportShutdown (purpose : Purpose) (result : Except ReactorError Unit) : Program σ Unit :=
  match purpose, result with
  | .closing, _ => return ()
  | _, .ok () => return ()
  | _, .error error => Program.log (.dropFailed error)

/-! ## The life of a reactor -/

/-- The points in the life of a reactor at which its owner can be. -/
inductive Lifecycle where
  | starting (direction : Direction)
  | running
  | signalling (purpose : Purpose)
  | joining (purpose : Purpose)
  | releasing (purpose : Purpose)
  | gone (purpose : Purpose) (result : Except ReactorError Unit)

/-- What the owner does at a point. As with the moves of a loop, an exclusive act gives the
reactor back changed, and during a shared one the loops go on. -/
inductive OwnerMove (σ : Type) where
  | exclusive (act : Reactor σ → Program σ (Lifecycle × Reactor σ))
  | shared (act : Reactor σ → Program σ Lifecycle)

/-- The point that follows the start of a loop. -/
def Lifecycle.afterStart : Direction → Lifecycle
  | .read => .starting .write
  | .write => .running

/-- What the owner does at each point. -/
def Lifecycle.move : Lifecycle → OwnerMove σ
  | .starting direction => .exclusive fun reactor => do
      match ← reactor.startLoop direction with
      | (.ok (), reactor) => return (.afterStart direction, reactor)
      | (.error failure, reactor) => return (.signalling (.abandoning failure), reactor)
  | .running => .shared fun _ => return .running
  | .signalling purpose => .shared fun reactor => do
      reactor.signalStop
      return .joining purpose
  | .joining purpose => .shared fun reactor => do
      joinLoops reactor.started
      return .releasing purpose
  | .releasing purpose => .exclusive fun reactor => do
      let (result, reactor) ← reactor.closeSources
      reportShutdown purpose result
      releaseHandles reactor.custody.all
      return (.gone purpose result, { reactor with custody := .empty })
  | .gone purpose result => .shared fun _ => return .gone purpose result

end Reactor

end Proactor
