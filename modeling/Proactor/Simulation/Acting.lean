import Proactor.Simulation.Reply
import Proactor.Simulation.Threads

/-!
# Carrying out actions

What each action of a scenario does to its state, and what comes of it. Actions
inside calls and sinks are carried out in the same way, and each leaves a line
in the trace. A panic ends a step of the scenario, or a dispatch loop; inside a
call or a sink it goes on to whatever made the call or the offer.

An action on a side keeps the side open until it is over, even if another side
has become the current one meanwhile. A reactor stops being the current one
before it is shut down.
-/

namespace Proactor.Simulation

namespace Context

/-! ## Reading actions -/

/-- The bytes of a payload, while a completion may be on its way to a sink. -/
private def payload (current : Option Completion) : Payload → Bytes
  | .bytes bytes => bytes
  | .filled => (current.map Completion.filled).getD []

/-- The completion that a scenario makes up. -/
private def madeUp (current : Option Completion) (offered : Offered) : Completion :=
  ⟨offered.fd, payload current offered.payload, offered.transferred, offered.fault,
    offered.direction⟩

/-- A scripted transfer with its bytes filled in. -/
private def filledIn (current : Option Completion)
    (step : ScriptedTransfer Payload Action) : ScriptedTransfer Bytes Action :=
  ⟨step.result.map (payload current), step.during⟩

/-- The attempt with which to settle. -/
private def settledWith (held : Held) : SettleWith → Attempt
  | .retry => .retry
  | .finished fault => .finished fault
  | .last => held.lastAttempt

/-- Put waits at the end of the script of the newest source. -/
private def queueWaits (waits : List (ScriptedWait Action)) : Activity World Unit :=
  modify fun world =>
    match world.kernel.newestSource with
    | some source => world.withKernel (world.kernel.extendWaits source waits)
    | none => world

/-! ## Replies -/

/-- The reply to a call that returns nothing but a fault. -/
private def faultReply : Except Fault Unit → Reply
  | .ok () => .ok
  | .error fault => .fault fault

/-- The reply to a call that returns nothing but an error. -/
private def errorReply : Except ReactorError Unit → Reply
  | .ok () => .ok
  | .error error => .failed error

/-- The reply to an offer, unless the sink has panicked. -/
private def receptionReply : Reception → Activity World Reply
  | .accepted => return .ok
  | .full completion => return .refusedFull completion
  | .disconnected completion => return .refusedDisconnected completion
  | .panicked cause => throw cause

/-- The reply to a submission. -/
private def submissionReply : Except ReactorError (Option (Operation Target)) → Reply
  | .ok none => .ok
  | .ok (some operation) => .displaced operation
  | .error error => .failed error

/-! ## Sinks -/

/-- Take a completion out of a channel. -/
private def receiveFrom (target : Target) : Activity World Reply := do
  match target with
  | none => return .nothing
  | some name =>
      match ((← get).outlet name).receive with
      | (some completion, outlet) =>
          modify (·.withOutlet name outlet)
          return .completion completion
      | (none, _) => return .nothing

/-- The receiver of a channel goes away. -/
private def dropReceiver (target : Target) : Activity World Unit := do
  if let some name := target then
    modify fun world => world.withOutlet name (world.outlet name).dropReceiver

/-! ## Sides in use -/

/-- Close a side for good if it is neither in use nor the current one. -/
private def closeUnused (ctx : Context) (source : Fd) : Activity World Unit := do
  let world ← get
  if let some ⟨side, 0⟩ := world.sharedSide? source then
    if world.currentSide ≠ some source then
      let _ ← ctx.perform side.close
      modify fun world => { world with sides := world.sides.erase source }

/-- Begin or end the use of a side. -/
private def countUser (source : Fd) (count : Nat → Nat) : Activity World Unit :=
  modify (·.mapSharedSide source fun shared => { shared with users := count shared.users })

/-- Work on the current side, which stays open meanwhile. -/
private def withCurrentSide (ctx : Context)
    (work : Fd → Side Target → Activity World Reply) : Activity World Reply := do
  let world ← get
  match world.currentSide.bind fun source => world.sharedSide? source with
  | none => return .lacking .side
  | some shared =>
      let source := shared.side.source.descriptor
      countUser source (· + 1)
      let outcome ← (work source shared.side).outcome
      countUser source (· - 1)
      ctx.closeUnused source
      Activity.ofOutcome outcome

/-- Make another side the current one, or none. The one that was current before is closed if it
is not in use. -/
private def setCurrentSide (ctx : Context) (source : Option Fd) : Activity World Unit := do
  let previous := (← get).currentSide
  modify fun world => { world with currentSide := source }
  if let some previous := previous then ctx.closeUnused previous

/-- Open a side. The one that was current before stays so if the new one cannot be opened. -/
private def createSide (ctx : Context) (direction : Direction) : Activity World Reply := do
  match ← ctx.perform (Side.create direction) with
  | .error fault => return .fault fault
  | .ok side =>
      let source := side.source.descriptor
      modify (·.withSharedSide source ⟨side, 0⟩)
      ctx.setCurrentSide (some source)
      return .ok

/-- Let go of the current side. -/
private def discardSide (ctx : Context) : Activity World Reply := do
  if (← get).currentSide.isSome then
    ctx.setCurrentSide none
    return .ok
  else return .lacking .side

/-! ## Work on a side -/

/-- Change the registration of a descriptor. -/
private def register (source : Source) (kind : ArmKind) (fd : Fd) (key : UInt64)
    (interest : Interest) : Program Target (Except Fault Unit) :=
  match kind with
  | .add => source.add fd key interest
  | .modify => source.modify fd key interest
  | .arm => source.arm fd key interest
  | .rearm => source.rearm fd key interest

/-- Wake a source a number of times. The last outcome counts, if there is one. -/
private def wakeTimes (source : Source) :
    Nat → Option (Except Fault Unit) → Program Target (Option (Except Fault Unit))
  | 0, last => return last
  | times + 1, _ => do wakeTimes source times (some (← source.wake))

/-- The time limit that a scenario states. The scenario panics if no duration is that long. -/
private def timeLimit : Option StatedTimeout → Activity World (Option Duration)
  | none => return none
  | some stated =>
      match Duration.ofParts? stated.seconds stated.nanoseconds with
      | some duration => return some duration
      | none => throw (.foreign none)

/-- Wait a number of times at the source of a side, which actions inside a wait may close. -/
private def waitTimes (ctx : Context) (side : Side Target) (batch : Nat)
    (timeout : Option Duration) : Nat → Activity World (List (Except Fault (List Event)))
  | 0 => return []
  | times + 1 => do
      let place : Place := .alone side.source.descriptor
      let source := (((← get).side? place).getD side).source
      let first ← ctx.perform (source.wait batch timeout)
      let rest ← ctx.waitTimes side batch timeout times
      return first :: rest

/-- Deliver resolved operations one after the other. A panic keeps the rest from being
delivered. -/
private def deliverAll (ctx : Context) (policy : DeliveryPolicy) :
    List (Resolved Target) → Activity World Unit
  | [] => return ()
  | first :: rest => do
      ctx.deliver policy stepLimit (.ofResolved first)
      ctx.deliverAll policy rest

/-- Attempt the transfer of an operation that was taken out. It cannot be named during the attempt,
and a panic loses it. -/
private def attemptHeld (ctx : Context) (id : String) (direction : Direction) :
    Activity World Reply := do
  match (← get).held.lookup id with
  | none => return .lacking .operation
  | some held =>
      modify (·.letGo id)
      let (operation, attempt) ← ctx.perform (Transfer.attempt direction held.operation)
      modify (·.hold id operation attempt)
      return .attempted attempt operation

/-- Settle an operation that was taken out, and deliver what resolves if asked to. -/
private def settleHeld (ctx : Context) (source : Fd) (side : Side Target) (id : String)
    (attempt : SettleWith) (transferred : Option Nat) (policy : Option DeliveryPolicy) :
    Activity World Reply := do
  match (← get).held.lookup id with
  | none => return .lacking .operation
  | some held =>
      modify (·.letGo id)
      let operation :=
        { held.operation with transferred := transferred.getD held.operation.transferred }
      let (result, side) ← ctx.perform (side.settle operation (settledWith held attempt))
      modify (·.withSide (.alone source) side)
      let resolved ← Activity.ofOutcome result
      if let some policy := policy then ctx.deliverAll policy resolved
      return .resolved (resolved.map Resolved.completion)

/-- Run the loop of a side until it ends. A loop that panics makes the action panic. -/
private def runSide (ctx : Context) (source : Fd) (side : Side Target) (capacity : Nat)
    (policy : DeliveryPolicy) : Activity World Reply := do
  let direction := side.table.direction
  let place : Place := .alone source
  modify (·.withSide place { side with dispatching := true })
  match ← ctx.runLoop place ⟨direction, policy, capacity⟩ stepLimit .starting with
  | .panicked cause => throw cause
  | _ => return .table direction

/-- An action that needs a side. -/
private def actOnSide (ctx : Context) (current : Option Completion) (source : Fd)
    (side : Side Target) (action : Action) : Activity World Reply := do
  match action with
  | .close =>
      let (result, side) ← ctx.perform side.close
      modify (·.withSide (.alone source) side)
      return faultReply result
  | .register kind fd key interest =>
      return faultReply (← ctx.perform (register side.source kind fd key interest))
  | .unregister fd => return faultReply (← ctx.perform (side.source.delete fd))
  | .wake times =>
      let last ← ctx.perform (wakeTimes side.source times none)
      return last.elim .nothing faultReply
  | .drain =>
      ctx.drain side.source stepLimit
      return .ok
  | .wait waits timeout capacity times =>
      queueWaits waits
      let limit ← timeLimit timeout
      let batch := Settings.batchSize capacity
      ctx.perform (Source.reserve batch)
      return .waited (← ctx.waitTimes side batch limit times)
  | .submit fd buffer overlap target =>
      let sink := (← get).sink target
      let operation := Operation.submitted fd (payload current buffer) sink
      let (result, side) ← ctx.perform (side.submit operation overlap)
      modify (·.withSide (.alone source) side)
      return submissionReply result
  | .checkOut fd id =>
      match side.checkOut fd with
      | some (operation, side) =>
          modify fun world => (world.withSide (.alone source) side).hold id operation .retry
          return .operation operation
      | none => return .nothing
  | .make id fd buffer transferred target =>
      let sink := (← get).sink target
      let operation : Operation Target := ⟨fd, payload current buffer, transferred, sink, false⟩
      modify (·.hold id operation .retry)
      return .made operation
  | .attempt id direction => ctx.attemptHeld id (direction.getD side.table.direction)
  | .settle id attempt transferred policy =>
      ctx.settleHeld source side id attempt transferred policy
  | .run waits capacity policy =>
      queueWaits waits
      ctx.runSide source side capacity policy
  | _ => return .lacking .side

/-! ## Reactors -/

/-- The reply to the construction or the end of a reactor, unless its construction panicked. -/
private def lifecycleReply : Reactor.Lifecycle → Activity World Reply
  | .gone .closing result => return errorReply result
  | .gone (.abandoning (.refused error)) _ => return .failed error
  | .gone (.abandoning (.panicked cause)) _ => throw cause
  | _ => return .ok

/-- Follow a reactor that is not the current one to its end. -/
private def endReactor (ctx : Context) (reactor : Fd) (point : Reactor.Lifecycle) :
    Activity World Reply := do
  let point ← ctx.follow reactor point
  modify fun world => { world with reactors := world.reactors.erase reactor }
  lifecycleReply point

/-- Shut the current reactor down. -/
private def endCurrentReactor (ctx : Context) (reactor : Fd) (purpose : Reactor.Purpose) :
    Activity World Reply := do
  modify fun world => { world with currentReactor := none }
  ctx.endReactor reactor (.signalling purpose)

/-- Construct a reactor. The one that was current before is dropped after the new one has taken
its place, but stays if the new one cannot be constructed. -/
private def createReactor (ctx : Context) (settings : Settings) : Activity World Reply := do
  match ← ctx.perform (Reactor.create settings) with
  | .error error => return .failed error
  | .ok fresh =>
      let reactor := fresh.reads.source.descriptor
      modify (·.withRunning reactor (.idle fresh))
      match ← ctx.follow reactor (.starting .read) with
      | .running =>
          let previous := (← get).currentReactor
          modify fun world => { world with currentReactor := some reactor }
          if let some previous := previous then
            let _ ← ctx.endReactor previous (.signalling .dropping)
          return .ok
      | point => ctx.endReactor reactor point

/-- An action that needs a reactor. -/
private def actOnReactor (ctx : Context) (current : Option Completion) (reactor : Fd)
    (running : Running) (action : Action) : Activity World Reply := do
  let owned := running.reactor
  let put (changed : Reactor Target) : Activity World Unit :=
    modify (·.mapRunning reactor fun running => { running with reactor := changed })
  match action with
  | .watch handle =>
      let (result, changed) ← ctx.perform (owned.watch handle)
      put changed
      match result with
      | .ok fd => return .number fd.number.toInt
      | .error error => return .failed error
  | .stopWatch fd =>
      put (← ctx.perform (owned.stopWatch fd))
      return .ok
  | .isWatched fd => return .truth (owned.custody.contains fd)
  | .transfer direction fd buffer target =>
      let sink := (← get).sink target
      let (result, changed) ←
        ctx.perform (owned.submit direction fd (payload current buffer) sink)
      put changed
      return errorReply result
  | .ready direction waits =>
      let source := (owned.side direction).source.descriptor
      modify fun world => world.withKernel (world.kernel.extendWaits source waits)
      return .ok
  | .close => ctx.endCurrentReactor reactor .closing
  | .discard => ctx.endCurrentReactor reactor .dropping
  | _ => return .lacking .reactor

/-! ## All actions -/

/-- An action on the subject of the scenario. -/
private def actOnSubject (ctx : Context) (current : Option Completion) (action : Action) :
    Activity World Reply := do
  let world ← get
  match world.subject, action with
  | .reactor, .create settings => ctx.createReactor settings
  | .reactor, action =>
      match world.currentReactor with
      | none => return .lacking .reactor
      | some reactor =>
          match world.running? reactor with
          | none => return .lacking .reactor
          | some running => ctx.actOnReactor current reactor running action
  | .side direction, .create _ => ctx.createSide direction
  | _, .discard => ctx.discardSide
  | _, action =>
      ctx.withCurrentSide fun source side => ctx.actOnSide current source side action

/-- Let the operating system be prepared. -/
private def prepare (change : Kernel Action → Kernel Action) : Activity World Reply := do
  modify fun world => world.withKernel (change world.kernel)
  return .ok

/-- Carry out an action, in the middle of the delivery of a completion if one is given. -/
def act (ctx : Context) (current : Option Completion) (action : Action) :
    Activity World Reply := do
  match action with
  | .failCalls kind codes => prepare (·.failNext kind codes)
  | .script kind fd steps => prepare (·.extendScript kind fd (steps.map (filledIn current)))
  | .closeFile fd => prepare (·.closeFile fd)
  | .reuseFile fd => prepare (·.forget fd)
  | .openFile fd => prepare (·.openFile fd)
  | .markNotSocket fd => prepare (·.markNotSocket fd)
  | .giveFlags fd flags => prepare (·.giveFlags fd flags)
  | .offer target offered =>
      let sink := (← get).sink target
      receptionReply
        (← ctx.perform (Program.ask (.offer sink.target (madeUp current offered))))
  | .offerWithin target offered millis =>
      let sink := (← get).sink target
      receptionReply (← ctx.offerWithin sink (madeUp current offered) (.ofMillis millis))
  | .deliver target offered policy =>
      let sink := (← get).sink target
      ctx.deliver policy stepLimit (.ofResolved ⟨madeUp current offered, sink⟩)
      return .ok
  | .setStop value =>
      modify fun world => { world with stopFlag := value }
      return .ok
  | .receive target => receiveFrom target
  | .dropReceiver target =>
      dropReceiver target
      return .ok
  | action => ctx.actOnSubject current action

end Context

/-! ## Actions inside calls and sinks -/

/-- How deep actions can be nested in one another. -/
private def nestingLimit : Nat :=
  1000

/-- Carry out actions one after the other, on behalf of the scenario. Each leaves a line with what
came of it. A panic keeps the rest from being carried out, and an action panics if something that
it needs is not there. -/
private def actEach (ctx : Context) (current : Option Completion) :
    List Action → Activity World Unit
  | [] => return ()
  | action :: rest => do
      match ← ctx.act current action with
      | .lacking _ => throw (.foreign none)
      | reply =>
          ctx.say ("hook " ++ action.word ++ " -> " ++ reply.brief)
          actEach ctx current rest

/-- Carry out actions inside a call or a sink, nested at most so many times. -/
private def actInside : Nat → Hooks
  | 0 => fun _ _ _ => return ()
  | limit + 1 => fun thread => actEach ⟨thread, none, actInside limit⟩

/-- Carry out actions inside a call or a sink. -/
def hooks : Hooks :=
  actInside nestingLimit

end Proactor.Simulation
