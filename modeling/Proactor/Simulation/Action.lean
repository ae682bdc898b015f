import Proactor.Reactor
import Proactor.Simulation.Kernel

/-!
# Scenarios

A scenario is a list of actions on one of three subjects: sinks alone, one side
with its loop, or a whole reactor. Actions prepare the simulated operating
system, use sinks, or call the subject. Scripted calls and scripted sinks carry
actions of their own.
-/

namespace Proactor.Simulation

/-- The name by which operations know their sink. Without a name, completions are discarded. -/
abbrev Target := Option String

/-- The contents of a buffer, given in advance or taken from the completion that is being
delivered. -/
inductive Payload where
  | bytes (bytes : Bytes)
  | filled

/-- A completion that a scenario makes up. -/
structure Offered where
  fd : Fd
  payload : Payload
  transferred : Nat
  fault : Option Fault
  direction : Direction

/-- The attempt with which a scenario settles an operation. -/
inductive SettleWith where
  | retry
  | finished (fault : Option Fault)
  /-- The outcome of the last attempt that the scenario made. -/
  | last

/-- A time limit as a scenario states it, which may be more than a duration can be. -/
structure StatedTimeout where
  seconds : Nat
  nanoseconds : Nat

/-- Which of the four ways of arming a descriptor is asked for. -/
inductive ArmKind where
  | add
  | modify
  | arm
  | rearm
  deriving DecidableEq

/-- An action of a scenario. -/
inductive Action where
  -- the operating system
  | failCalls (kind : CallKind) (codes : List Int)
  | script (kind : TransferKind) (fd : Fd) (steps : List (ScriptedTransfer Payload Action))
  | closeFile (fd : Fd)
  | reuseFile (fd : Fd)
  | openFile (fd : Fd)
  | markNotSocket (fd : Fd)
  | giveFlags (fd : Fd) (flags : Int32)
  -- sinks
  | offer (sink : Target) (completion : Offered)
  | offerWithin (sink : Target) (completion : Offered) (millis : Nat)
  | deliver (sink : Target) (completion : Offered) (policy : DeliveryPolicy)
  | setStop (value : Bool)
  | receive (sink : Target)
  | dropReceiver (sink : Target)
  -- a side or a reactor
  | create (settings : Settings)
  | discard
  | close
  -- a side
  | register (kind : ArmKind) (fd : Fd) (key : UInt64) (interest : Interest)
  | unregister (fd : Fd)
  | wake (times : Nat)
  | drain
  | wait (waits : List (ScriptedWait Action)) (timeout : Option StatedTimeout)
      (capacity times : Nat)
  | submit (fd : Fd) (payload : Payload) (overlap : OverlapPolicy) (sink : Target)
  | checkOut (fd : Fd) (id : String)
  | make (id : String) (fd : Fd) (payload : Payload) (transferred : Nat) (sink : Target)
  | attempt (id : String) (direction : Option Direction)
  | settle (id : String) (attempt : SettleWith) (transferred : Option Nat)
      (deliver : Option DeliveryPolicy)
  | run (waits : List (ScriptedWait Action)) (capacity : Nat) (delivery : DeliveryPolicy)
  -- a reactor
  | watch (handle : Handle)
  | stopWatch (fd : Fd)
  | isWatched (fd : Fd)
  | transfer (direction : Direction) (fd : Fd) (payload : Payload) (sink : Target)
  | ready (direction : Direction) (waits : List (ScriptedWait Action))

/-- The word for an action in the trace. -/
def Action.word : Action → String
  | .failCalls _ _ => "os_fail"
  | .script .read _ _ => "os_read"
  | .script .send _ _ => "os_send"
  | .script .write _ _ => "os_write"
  | .closeFile _ => "os_close"
  | .reuseFile _ => "os_reuse"
  | .openFile _ => "os_open"
  | .markNotSocket _ => "os_not_socket"
  | .giveFlags _ _ => "os_flags"
  | .offer _ _ => "try"
  | .offerWithin _ _ _ => "timeout"
  | .deliver _ _ _ => "deliver"
  | .setStop true => "stop"
  | .setStop false => "unstop"
  | .receive _ => "recv"
  | .dropReceiver _ => "drop_rx"
  | .create _ => "new"
  | .discard => "drop"
  | .close => "close"
  | .register .add _ _ _ => "add"
  | .register .modify _ _ _ => "modify"
  | .register .arm _ _ _ => "arm"
  | .register .rearm _ _ _ => "rearm"
  | .unregister _ => "delete"
  | .wake _ => "notify"
  | .drain => "clear"
  | .wait _ _ _ _ => "wait"
  | .submit _ _ _ _ => "submit"
  | .checkOut _ _ => "begin"
  | .make _ _ _ _ _ => "ocb"
  | .attempt _ _ => "attempt"
  | .settle _ _ _ _ => "settle"
  | .run _ _ _ => "run"
  | .watch _ => "watch"
  | .stopWatch _ => "stop_watch"
  | .isWatched _ => "is_watched"
  | .transfer .read _ _ _ => "read"
  | .transfer .write _ _ _ => "write"
  | .ready _ _ => "ready"

/-! ## Sinks -/

/-- An answer that a scripted sink gives. -/
inductive ScriptedAnswer where
  | accept
  | full
  | disconnect
  deriving DecidableEq

/-- An answer of a scripted sink and the actions that take place before it. -/
structure ScriptedReception where
  answer : ScriptedAnswer
  before : List Action

/-- How a sink of a scenario behaves. -/
inductive SinkSpec where
  /-- Takes everything and keeps nothing. -/
  | discards
  /-- A channel with a receiver; without a capacity it always has room. -/
  | channel (capacity : Option Nat)
  /-- Runs actions: one list for completions that moved bytes without a fault, one for others. -/
  | calls (onData otherwise : List Action)
  /-- Panics whenever it is offered something. -/
  | panics
  /-- Answers from lists, and takes what comes after their end. Without the second list it does
  not wait for room by itself. -/
  | scripted (offers : List ScriptedReception) (timed : Option (List ScriptedReception))

/-- Whether a sink waits for room by itself. -/
def SinkSpec.waitsForRoom : SinkSpec → Bool
  | .channel _ => true
  | .scripted _ (some _) => true
  | _ => false

/-- What a scenario is about. -/
inductive Subject where
  | sinks
  | side (direction : Direction)
  | reactor

/-- A scenario. -/
structure Scenario where
  subject : Subject
  sinks : List (String × SinkSpec)
  steps : List Action

end Proactor.Simulation
