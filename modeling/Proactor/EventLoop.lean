import Proactor.Delivery
import Proactor.Side
import Proactor.Transfer

/-!
# Dispatch loops

A dispatch loop waits on the source of its side, makes one transfer attempt for
each descriptor that is ready, and delivers what resolved. It runs for ever, so
it is given as a machine: a stage says at which point the loop is, and a move
says what happens there.

Other threads submit operations to the same side. A move is therefore of one of
two sorts. An exclusive move holds the side's lock: it takes the side and gives
it back changed, and nothing happens in between. A shared move makes its
requests without the lock: the side may change meanwhile, and the move does not
change it.

Whatever ends a loop, a panic in a sink included, lowers the flag of its side.
-/

namespace Proactor

namespace EventLoop

/-- The fixed facts about a loop. -/
structure Setup where
  direction : Direction
  delivery : DeliveryPolicy
  capacity : Nat

/-- The number of events that the loop takes from one wait. -/
def Setup.batch (setup : Setup) : Nat :=
  Settings.batchSize setup.capacity

/-- Why a loop has ended. -/
inductive Ending where
  | stopped
  | waitFailed (fault : Fault)
  | panicked (cause : Panic)

/-- The points at which a loop can be, with the rest of the batch of events. -/
inductive Stage (σ : Type) where
  /-- About to make room for its batches. -/
  | starting
  /-- About to wait for events. -/
  | waiting
  /-- The events of the batch that have not been handled. -/
  | handling (batch : List Event)
  /-- Taking wake-ups out of the pipe. -/
  | draining (batch : List Event)
  /-- An operation is checked out for an attempt. -/
  | attempting (operation : Operation σ) (batch : List Event)
  /-- The attempt has been made. -/
  | settling (operation : Operation σ) (attempt : Attempt) (batch : List Event)
  /-- Operations have resolved and are to be delivered in order. -/
  | announcing (resolved : List (Resolved σ)) (batch : List Event)
  /-- A completion is on its way to its sink. -/
  | delivering (delivery : Delivery σ) (resolved : List (Resolved σ)) (batch : List Event)
  /-- The loop is over. -/
  | ended (ending : Ending)

/-- What a loop does at a stage. -/
inductive Move (σ : Type) where
  | exclusive (act : Side σ → Program σ (Stage σ × Side σ))
  | shared (act : Side σ → Program σ (Stage σ))

namespace Stage

variable {σ : Type}

/-- Whether the loop is over. -/
def isEnded : Stage σ → Bool
  | ended _ => true
  | _ => false

/-- Wait for the next batch. An interrupted wait is repeated. -/
def waitMove (setup : Setup) : Move σ :=
  .shared fun side => do
    match ← side.source.wait setup.batch none with
    | .ok batch => return handling batch
    | .error fault =>
        if fault.errno?.map Errno.kind = some .interrupted then return waiting
        else
          Program.log (.waitFailed setup.direction fault)
          return ended (.waitFailed fault)

/-- Handle a wake-up: end the loop if it is to stop, and go on otherwise. -/
def wakeMove (setup : Setup) (batch : List Event) : Move σ :=
  .shared fun _ => do
    if ← Program.ask .stopping then
      Program.log (.loopStopping setup.direction)
      return ended .stopped
    else return draining batch

/-- Handle the readiness of a descriptor: check out what waits there, if anything does. -/
def readyMove (setup : Setup) (event : Event) (batch : List Event) : Move σ :=
  .exclusive fun side => do
    Program.log (.descriptorReady event.key event.readiness setup.direction)
    match side.checkOut event.fd with
    | some (operation, side) => return (attempting operation batch, side)
    | none =>
        Program.log (.nothingPending event.fd setup.direction)
        return (handling batch, side)

/-- What the loop does at each stage. -/
def move (setup : Setup) : Stage σ → Move σ
  | starting => .shared fun _ => do
      Source.reserve setup.batch
      return waiting
  | waiting => waitMove setup
  | handling [] => .shared fun _ => return waiting
  | handling (event :: batch) =>
      if event.isNotification then wakeMove setup batch else readyMove setup event batch
  | draining batch => .shared fun side => do
      if ← side.source.drainStep then return draining batch else return handling batch
  | attempting operation batch => .shared fun _ => do
      let (operation, attempt) ← Transfer.attempt setup.direction operation
      if attempt = .retry then
        Program.log (.notDone operation.fd setup.direction operation.transferred)
      return settling operation attempt batch
  | settling operation attempt batch => .exclusive fun side => do
      match ← side.settle operation attempt with
      | (.ok resolved, side) => return (announcing resolved batch, side)
      | (.error cause, side) => return (ended (.panicked cause), side)
  | announcing [] batch => .shared fun _ => return handling batch
  | announcing (first :: resolved) batch => .shared fun _ => do
      let completion := first.completion
      Program.log
        (.complete completion.fd setup.direction completion.transferred completion.fault)
      return delivering (.ofResolved first) resolved batch
  | delivering delivery resolved batch => .shared fun _ => do
      match ← delivery.step setup.delivery with
      | some delivery => return delivering delivery resolved batch
      | none => return announcing resolved batch
  | ended ending => .shared fun _ => return ended ending

end Stage

end EventLoop

/-- The side as the end of its loop leaves it. While the loop goes on, nothing changes. -/
def Side.afterStage {σ : Type} (side : Side σ) (stage : EventLoop.Stage σ) : Side σ :=
  if stage.isEnded then { side with dispatching := false } else side

end Proactor
