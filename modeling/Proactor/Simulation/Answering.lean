import Proactor.Simulation.Activity
import Proactor.Simulation.World

/-!
# Answering requests

The simulated environment answers the requests of programs and records what it
was asked. Actions that a script places inside a call take place between the
beginning and the end of the call, on the thread that makes it. If one of them
panics, the call never returns: it leaves no line, and its panic goes on through
the program that made the call. If one of them waits, so does the call, while
other threads go on.
-/

namespace Proactor.Simulation

/-- How actions in the middle of a call are carried out, up to the first that panics. The
completion is the one that is being delivered, if there is one. -/
abbrev Hooks := Thread → Option Completion → List Action → Activity World Unit

/-- Who is asking, and how actions in the middle of a call are carried out. A reactor asks on its
own behalf; without one, the scenario asks. -/
structure Context where
  thread : Thread
  reactor : Option Fd
  hooks : Hooks

namespace Context

/-! ## System calls -/

/-- Write a line into the trace of the thread. -/
def say (ctx : Context) (line : String) : Activity World Unit :=
  modify (·.say ctx.thread line)

/-- Let the operating system act. -/
private def system {α : Type} (act : Kernel Action → α × Kernel Action) : Activity World α :=
  modifyGet fun world =>
    let (answer, kernel) := act world.kernel
    (answer, world.withKernel kernel)

/-- Write down a system call that has returned. -/
private def returned {α : Type} (ctx : Context) (call : String) (show? : α → String)
    (answer : Except Errno α) : Activity World (Except Errno α) := do
  ctx.say (Trace.line call show? answer)
  return answer

/-- Carry out a system call that touches nothing but the operating system. -/
private def systemCall {α : Type} (ctx : Context) (call : String) (show? : α → String)
    (act : Kernel Action → Except Errno α × Kernel Action) :
    Activity World (Except Errno α) := do
  ctx.returned call show? (← system act)

/-- The result of calls that return nothing else. -/
private def zero : Unit → String :=
  fun _ => "0"

/-- Before its first wait, the thread of a loop gives its name. -/
private def announce (ctx : Context) : Activity World Unit := do
  if let .loop reactor direction := ctx.thread then
    if let some worker := (← get).worker? reactor direction then
      if !worker.announced then
        ctx.say ("thread " ++ worker.name)
        modify (·.mapWorker reactor direction fun worker => { worker with announced := true })

/-- Answer a wait. A reactor's wait without a time limit lasts until it has something to return. -/
private def answerWait (ctx : Context) (source : Fd) (capacity : Nat) (millis : Option Nat) :
    Activity World (Except Errno (List RawEvent)) := do
  let call := Trace.wait source capacity millis
  ctx.announce
  if ctx.reactor.isSome && millis.isNone then
    Activity.waitUntil (·.kernel.waitReturns source)
  if (← get).kernel.isOpen source then
    match ← system (·.takeWait source) with
    | none =>
        ctx.returned call Trace.events ((← get).kernel.waitUnscripted source millis.isSome)
    | some wait =>
        ctx.hooks ctx.thread none wait.during
        match wait.result with
        | .error errno => ctx.returned call Trace.events (.error errno)
        | .ok events =>
            let reported ← system (·.reportEvents source capacity events)
            ctx.returned call Trace.events (.ok reported)
  else ctx.returned call Trace.events (.error .badDescriptor)

/-- Take the next scripted transfer of a descriptor and carry out the actions inside it. What is
left is the result that the script gives. -/
private def scriptedTransfer (ctx : Context) (kind : TransferKind) (fd : Fd) :
    Activity World (Option (TransferResult Bytes)) := do
  match ← system (·.takeTransfer kind fd) with
  | some step =>
      ctx.hooks ctx.thread none step.during
      return some step.result
  | none => return none

/-- Answer a read. -/
private def answerRead (ctx : Context) (fd : Fd) (count : Nat) :
    Activity World (Except Errno Bytes) := do
  let call := "read " ++ fd.text ++ " " ++ toString count
  match (← get).kernel.pipeReadBy? fd with
  | some pipe => ctx.systemCall call Trace.moved (·.readPipe pipe count)
  | none =>
      let result ← ctx.scriptedTransfer .read fd
      ctx.systemCall call Trace.moved (·.finishRead fd count result)

/-- Answer a send or a write. -/
private def answerWrite (ctx : Context) (kind : TransferKind) (fd : Fd) (bytes : Bytes)
    (call : String) : Activity World (Except Errno Nat) := do
  match (← get).kernel.pipeWrittenBy? fd with
  | some pipe => ctx.systemCall call toString (·.writePipe pipe bytes)
  | none =>
      let result ← ctx.scriptedTransfer kind fd
      let answer := (← get).kernel.finishWrite kind fd bytes.length result
      ctx.returned call (fun count => Trace.moved (bytes.take count)) answer

/-! ## Sinks -/

/-- The word for a reception. -/
private def receptionWord : Reception → String
  | .accepted => "ok"
  | .full _ => "full"
  | .disconnected _ => "disc"
  | .panicked _ => "panic"

/-- The reception that a scripted answer stands for. -/
private def scriptedReception (answer : ScriptedAnswer) (completion : Completion) : Reception :=
  match answer with
  | .accept => .accepted
  | .full => .full completion
  | .disconnect => .disconnected completion

/-- The next answer of a script, and the answers after it. At the end of the script everything
is accepted. -/
private def nextReception : List ScriptedReception → ScriptedReception × List ScriptedReception
  | [] => (⟨.accept, []⟩, [])
  | first :: rest => (first, rest)

/-- The line about an offer to a channel. -/
private def channelLine (name how : String) (completion : Completion) (reception : Reception) :
    String :=
  "sink " ++ name ++ " " ++ how ++ " fd=" ++ completion.fd.text ++ " -> " ++
    receptionWord reception

/-- The line about an offer to a scripted sink. -/
private def scriptLine (name how : String) (completion : Completion) (reception : Reception) :
    String :=
  "sink " ++ name ++ " " ++ how ++ " " ++ completion.text ++ " -> " ++ receptionWord reception

/-- Carry out the actions inside a sink. What is left is how the sink answers, unless one of them
panics. -/
private def receptionAfter (ctx : Context) (completion : Completion) (actions : List Action)
    (reception : Activity World Reception) : Activity World Reception := do
  match ← (ctx.hooks ctx.thread (some completion) actions).outcome with
  | .ok () => reception
  | .error cause => return .panicked cause

/-- Answer for a scripted sink whose next answer has been taken. -/
private def answerScripted (ctx : Context) (name how : String) (completion : Completion)
    (step : ScriptedReception) : Activity World Reception :=
  ctx.receptionAfter completion step.before do
    let reception := scriptedReception step.answer completion
    ctx.say (scriptLine name how completion reception)
    return reception

/-- Offer a completion to a channel. Its line says how it was offered. -/
private def answerChannel (ctx : Context) (name how : String) (reception : Reception)
    (outlet : Outlet) (completion : Completion) : Activity World Reception := do
  modify (·.withOutlet name outlet)
  ctx.say (channelLine name how completion reception)
  return reception

/-- The panic of sinks that always panic. -/
private def panickingSink : Panic :=
  .foreign (some "sink panics")

/-- Offer a completion to a named sink. -/
private def answerOffer (ctx : Context) (name : String) (completion : Completion) :
    Activity World Reception := do
  let world ← get
  match world.spec name, world.outlet name with
  | .calls onData otherwise, _ =>
      ctx.say ("sink " ++ name ++ " fn " ++ completion.text)
      let moved := completion.isOk && 0 < completion.transferred
      ctx.receptionAfter completion (if moved then onData else otherwise) (return .accepted)
  | .panics, _ => return .panicked panickingSink
  | _, .channel capacity queue connected =>
      let (reception, outlet) := Outlet.offerChannel capacity queue connected completion
      ctx.answerChannel name "try" reception outlet completion
  | _, .scripted offers timed =>
      let (step, rest) := nextReception offers
      modify (·.withOutlet name (.scripted rest timed))
      ctx.answerScripted name "try" completion step
  | _, .stateless => return .accepted

/-- Offer a completion to a named sink that waits for room by itself. A channel without room
lets the time pass; it leaves no line then. -/
private def answerOfferWithin (ctx : Context) (name : String) (completion : Completion)
    (patience : Duration) : Activity World Reception := do
  match (← get).outlet name with
  | .channel capacity queue connected =>
      match Outlet.offerChannel capacity queue connected completion with
      | (.full completion, _) =>
          modify fun world => world.withKernel (world.kernel.advance patience)
          return .full completion
      | (reception, outlet) => ctx.answerChannel name "timeout" reception outlet completion
  | .scripted offers timed =>
      let (step, rest) := nextReception timed
      modify (·.withOutlet name (.scripted offers rest))
      ctx.answerScripted name "timeout" completion step
  | .stateless => return .accepted

/-! ## Threads -/

/-- Start the thread of a loop of the reactor. Only a failure leaves a line. -/
private def answerSpawn (ctx : Context) (direction : Direction) (name : String) :
    Activity World (Except Errno Unit) := do
  match ← system (·.takeFailure .thread) with
  | some errno => ctx.returned "thread" zero (.error errno)
  | none =>
      if let some reactor := ctx.reactor then
        modify fun world =>
          { world.mapRunning reactor (·.withWorker direction ⟨name, false, none⟩) with
            started := world.started ++ [(reactor, direction)] }
      return .ok ()

/-- Wait until the thread of a loop of the reactor has ended, and learn whether it panicked. A
thread that is to wait for its own end panics. -/
private def answerJoin (ctx : Context) (direction : Direction) : Activity World Bool := do
  match ctx.reactor with
  | none => return false
  | some reactor =>
      if ctx.thread = .loop reactor direction then throw (.foreign none)
      Activity.waitUntil fun world =>
        (world.worker? reactor direction).all fun worker => worker.ending.isSome
      return ((← get).worker? reactor direction).any Worker.hasPanicked

/-- Raise the stop flag of the reactor. -/
private def raiseStop (ctx : Context) : Activity World Unit := do
  if let some reactor := ctx.reactor then
    modify (·.mapRunning reactor fun running => { running with stopping := true })

/-! ## All requests -/

/-- Answer a request, unless an action inside the call panics. -/
def answer (ctx : Context) : (request : Request Target) → Activity World request.Answer
  | .openSource => ctx.systemCall "epoll_create1" Fd.text Kernel.openSource
  | .openPipe =>
      ctx.systemCall "pipe2"
        (fun (readEnd, writeEnd) => readEnd.text ++ "," ++ writeEnd.text) Kernel.openPipe
  | .control source change =>
      ctx.systemCall (Trace.control source change) zero (·.control source change)
  | .wait source capacity millis => ctx.answerWait source capacity millis
  | .read fd count => ctx.answerRead fd count
  | .send fd bytes =>
      ctx.answerWrite .send fd bytes
        ("send " ++ fd.text ++ " " ++ toString bytes.length ++ " " ++ toString Trace.sendFlags)
  | .write fd bytes =>
      ctx.answerWrite .write fd bytes ("write " ++ fd.text ++ " " ++ toString bytes.length)
  | .flags fd =>
      ctx.systemCall ("fcntl " ++ fd.text ++ " GETFL") (fun flags => toString flags.toInt)
        (·.getFlags fd)
  | .setFlags fd flags =>
      ctx.systemCall ("fcntl " ++ fd.text ++ " SETFL " ++ toString flags.toInt) zero
        (·.setFlags fd flags)
  | .close fd => ctx.systemCall ("close " ++ fd.text) zero (·.close fd)
  | .spawn direction name => ctx.answerSpawn direction name
  | .join direction => ctx.answerJoin direction
  | .release handle =>
      modify fun world => { world with released := handle.name :: world.released }
  | .log record => ctx.say ("log " ++ record.text)
  | .offer none _ => return .accepted
  | .offer (some name) completion => ctx.answerOffer name completion
  | .offerWithin none _ _ => return .accepted
  | .offerWithin (some name) completion patience =>
      ctx.answerOfferWithin name completion patience
  | .stopping => return (← get).isStopping ctx.reactor
  | .raiseStop => ctx.raiseStop
  | .now => return (← get).kernel.clock
  | .pause duration => modify fun world => world.withKernel (world.kernel.advance duration)

/-- A pipe is read without anything else taking place. -/
theorem advance_answer_read (ctx : Context) {world : World} {fd : Fd} {pipe : Pipe}
    (h : world.kernel.pipeReadBy? fd = some pipe) (count : Nat) :
    ∃ after, (ctx.answer (.read fd count)).advance world =
        (.done (world.kernel.readPipe pipe count).1, after) ∧
      after.kernel = (world.kernel.readPipe pipe count).2 := by
  refine ⟨?after, ?advance, ?kernel⟩
  case advance =>
    show Activity.advance
      (match world.kernel.pipeReadBy? fd with | some pipe => _ | none => _) world = _
    rw [h]
    rfl
  case kernel => rfl

/-- Run a program to its end, or until it panics or a call that it makes does. -/
def perform {α : Type} (ctx : Context) : Program Target α → Activity World α
  | .done value => return value
  | .panic cause => throw cause
  | .call request next => do
      let reply ← ctx.answer request
      ctx.perform (next reply)

end Context

end Proactor.Simulation
