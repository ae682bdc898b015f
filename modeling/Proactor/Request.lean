import Proactor.Clock
import Proactor.Panic
import Proactor.Settings
import Proactor.Log
import Proactor.Custody

/-!
# Requests to the environment

Everything that the reactor asks of the world around it: system calls, threads,
the clock, the shared stop flag, the log, and the sinks of its callers. The type
of the answer depends on the request. Nothing is assumed about answers here.
-/

namespace Proactor

/-- A change of a readiness registration. -/
inductive Control where
  | add (fd : Fd) (event : RawEvent)
  | modify (fd : Fd) (event : RawEvent)
  | delete (fd : Fd)
  deriving DecidableEq

/-- How a sink answers when it is offered a completion. A refusal hands a completion back. A sink
may also panic. -/
inductive Reception where
  | accepted
  | full (completion : Completion)
  | disconnected (completion : Completion)
  | panicked (cause : Panic)
  deriving DecidableEq

/-- A request to the environment. -/
inductive Request (σ : Type) where
  /-- Open a readiness source. -/
  | openSource
  /-- Open a non-blocking pipe. -/
  | openPipe
  /-- Change a registration of a readiness source. -/
  | control (source : Fd) (change : Control)
  /-- Wait for at most `capacity` events, for ever if no time is given. -/
  | wait (source : Fd) (capacity : Nat) (millis : Option Nat)
  /-- Read at most `count` bytes. -/
  | read (fd : Fd) (count : Nat)
  /-- Send bytes to a socket, without a signal if the peer is gone. -/
  | send (fd : Fd) (bytes : Bytes)
  /-- Write bytes. -/
  | write (fd : Fd) (bytes : Bytes)
  /-- The status flags of a descriptor. -/
  | flags (fd : Fd)
  /-- Set the status flags of a descriptor. -/
  | setFlags (fd : Fd) (flags : Int32)
  /-- Close a descriptor. -/
  | close (fd : Fd)
  /-- Start the dispatch loop of a direction on a thread of the given name. -/
  | spawn (direction : Direction) (name : String)
  /-- Wait for the end of a dispatch loop and learn whether it panicked. -/
  | join (direction : Direction)
  /-- Release a handle that was given to the reactor. -/
  | release (handle : Handle)
  /-- Write a log record. -/
  | log (record : Log)
  /-- Offer a completion to a sink, which answers at once. -/
  | offer (target : σ) (completion : Completion)
  /-- Offer a completion to a sink that waits for room by itself for a while. -/
  | offerWithin (target : σ) (completion : Completion) (patience : Duration)
  /-- Read the stop flag. -/
  | stopping
  /-- Set the stop flag. -/
  | raiseStop
  /-- Read the clock. -/
  | now
  /-- Sleep. -/
  | pause (duration : Duration)

namespace Request

/-- The type of the answer to a request. -/
@[reducible]
def Answer {σ : Type} : Request σ → Type
  | openSource => Except Errno Fd
  | openPipe => Except Errno (Fd × Fd)
  | control _ _ => Except Errno Unit
  | wait _ _ _ => Except Errno (List RawEvent)
  | read _ _ => Except Errno Bytes
  | send _ _ => Except Errno Nat
  | write _ _ => Except Errno Nat
  | flags _ => Except Errno Int32
  | setFlags _ _ => Except Errno Unit
  | close _ => Except Errno Unit
  | spawn _ _ => Except Errno Unit
  | join _ => Bool
  | release _ => Unit
  | log _ => Unit
  | offer _ _ => Reception
  | offerWithin _ _ _ => Reception
  | stopping => Bool
  | raiseStop => Unit
  | now => Instant
  | pause _ => Unit

end Request

end Proactor
