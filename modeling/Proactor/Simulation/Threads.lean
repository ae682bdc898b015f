import Proactor.Simulation.Answering

/-!
# Deliveries, loops and the life of a reactor

Machines of the reactor, followed step by step: a delivery that waits for room,
a loop that waits for events, and an owner who waits for the loops of its
reactor. Only at these waits, and where an action inside a call or a sink comes
to one, does another thread come in.

Deliveries, drains and loops may go on for ever. Each is followed for a number
of steps that no scenario with an answer comes near.
-/

namespace Proactor.Simulation

/-- The number of steps for which an activity is followed. -/
def stepLimit : Nat :=
  1000000

namespace Context

/-! ## Wake-ups and deliveries -/

/-- Take wake-ups out of the pipe of a source. -/
def drain (ctx : Context) (source : Source) : Nat → Activity World Unit
  | 0 => return ()
  | limit + 1 => do
      if ← ctx.perform source.drainStep then ctx.drain source limit

/-- A delivery that was refused goes on when there is room, or when it is to give up. -/
private def awaitRoom (ctx : Context) (delivery : Delivery Target) : Activity World Unit :=
  match delivery.point with
  | .refused =>
      Activity.waitUntil fun world =>
        world.isStopping ctx.reactor || !world.isFull delivery.sink.target
  | _ => return ()

/-- Deliver a completion. -/
def deliver (ctx : Context) (policy : DeliveryPolicy) :
    Nat → Delivery Target → Activity World Unit
  | 0, _ => return ()
  | limit + 1, delivery => do
      ctx.awaitRoom delivery
      if let some delivery ← ctx.perform (delivery.step policy) then
        ctx.deliver policy limit delivery

/-- Poll a sink until a deadline. -/
private def poll (ctx : Context) (target : Target) (deadline : Instant) :
    Nat → Completion → Activity World Reception
  | 0, completion => return .full completion
  | limit + 1, completion => do
      match ← ctx.perform (Polling.round target completion deadline) with
      | .inr completion => ctx.poll target deadline limit completion
      | .inl reception => return reception

/-- Offer a completion to a sink for a while. -/
def offerWithin (ctx : Context) (sink : Sink Target) (completion : Completion)
    (patience : Duration) : Activity World Reception := do
  if sink.waitsForRoom then
    ctx.perform (Program.ask (.offerWithin sink.target completion patience))
  else
    let deadline ← ctx.perform (Polling.deadline patience)
    ctx.poll sink.target deadline stepLimit completion

/-! ## Loops -/

/-- Make a move of a loop at a stage, and put the side at its place as the move leaves it. -/
private def makeMove (ctx : Context) (place : Place) (side : Side Target) :
    EventLoop.Move Target → Activity World (EventLoop.Stage Target)
  | .exclusive act => do
      let (stage, side) ← ctx.perform (act side)
      modify (·.withSide place side)
      return stage
  | .shared act => ctx.perform (act side)

/-- Let a loop go on by one stage. A panic ends it and leaves the side as it was before. -/
private def stepLoop (ctx : Context) (place : Place) (setup : EventLoop.Setup)
    (stage : EventLoop.Stage Target) : Activity World (EventLoop.Stage Target) := do
  match (← get).side? place with
  | none => return .ended .stopped
  | some side =>
      match ← (ctx.makeMove place side (stage.move setup)).outcome with
      | .ok stage => return stage
      | .error cause => return .ended (.panicked cause)

/-- Run a loop from a stage until it ends. Its end lowers the flag of its side. -/
def runLoop (ctx : Context) (place : Place) (setup : EventLoop.Setup) :
    Nat → EventLoop.Stage Target → Activity World EventLoop.Ending
  | 0, _ => return .stopped
  | limit + 1, stage => do
      if let .delivering delivery _ _ := stage then ctx.awaitRoom delivery
      let stage ← ctx.stepLoop place setup stage
      if let some side := (← get).side? place then
        modify (·.withSide place (side.afterStage stage))
      match stage with
      | .ended ending => return ending
      | stage => ctx.runLoop place setup limit stage

/-- What the thread of a reactor's loop does. -/
def loopThread (hooks : Hooks) (reactor : Fd) (direction : Direction) : Activity World Unit := do
  if let some running := (← get).running? reactor then
    let ctx : Context := ⟨.loop reactor direction, some reactor, hooks⟩
    let setup := running.reactor.loopSetup direction
    let ending ← ctx.runLoop (.within reactor direction) setup stepLimit .starting
    modify (·.mapWorker reactor direction fun worker => { worker with ending := some ending })

/-! ## The life of a reactor -/

/-- The number of points in the life of a reactor. -/
private def lifecycleLimit : Nat :=
  8

/-- What the owner of a reactor does at a point. The reactor is changed as the move leaves it. -/
private def ownerMove (ctx : Context) (reactor : Fd) (running : Running) :
    Reactor.OwnerMove Target → Activity World Reactor.Lifecycle
  | .exclusive act => do
      let (point, changed) ← ctx.perform (act running.reactor)
      modify (·.mapRunning reactor fun running => { running with reactor := changed })
      return point
  | .shared act => ctx.perform (act running.reactor)

/-- Follow the owner of a reactor until the reactor runs or is gone. -/
private def followFor (ctx : Context) (reactor : Fd) :
    Nat → Reactor.Lifecycle → Activity World Reactor.Lifecycle
  | 0, point => return point
  | limit + 1, point => do
      match point, (← get).running? reactor with
      | .running, _ => return point
      | .gone _ _, _ => return point
      | point, none => return point
      | point, some running =>
          ctx.followFor reactor limit (← ctx.ownerMove reactor running point.move)

/-- Follow the owner of a reactor from a point in its life. The owner asks on its behalf. -/
def follow (ctx : Context) (reactor : Fd) (point : Reactor.Lifecycle) :
    Activity World Reactor.Lifecycle :=
  { ctx with reactor := some reactor }.followFor reactor lifecycleLimit point

end Context

end Proactor.Simulation
