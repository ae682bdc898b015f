import Proactor.Simulation.Kernel

/-!
# Trace lines

Every system call leaves a line in the trace when it returns: the call, an
arrow, and its result or the number of its error.
-/

namespace Proactor.Simulation

/-- The threads of a scenario: its own, and those of the loops of its reactors. A reactor is named
by the descriptor of its reading source. -/
inductive Thread where
  | main
  | loop (reactor : Fd) (direction : Direction)
  deriving DecidableEq

/-- The direction whose loop runs on a thread. -/
def Thread.direction? : Thread → Option Direction
  | main => none
  | loop _ direction => some direction

namespace Trace

/-- A call and what came of it. -/
def line {α : Type} (call : String) (show? : α → String) : Except Errno α → String
  | .ok value => call ++ " -> " ++ show? value
  | .error errno => call ++ " -> E" ++ toString errno.code

/-- The text of a change of a registration. -/
def control (source : Fd) : Control → String
  | .add fd event => registration "ADD" fd event
  | .modify fd event => registration "MOD" fd event
  | .delete fd => "epoll_ctl " ++ source.text ++ " DEL " ++ fd.text
where
  /-- A change that carries a mask and a key. -/
  registration (verb : String) (fd : Fd) (event : RawEvent) : String :=
    "epoll_ctl " ++ source.text ++ " " ++ verb ++ " " ++ fd.text ++
      " events=" ++ toString event.mask.toNat ++ " key=" ++ toString event.key.toNat

/-- The text of a wait. -/
def wait (source : Fd) (capacity : Nat) (millis : Option Nat) : String :=
  "epoll_wait " ++ source.text ++ " " ++ toString capacity ++ " " ++
    (match millis with
      | some millis => toString millis
      | none => "-1")

/-- The text of reported events. -/
def events (events : List RawEvent) : String :=
  "[" ++
    String.intercalate ","
      (events.map fun event =>
        toString event.key.toNat ++ ":" ++ toString event.mask.toNat) ++
    "]"

/-- The text of moved bytes: their number, and what they are unless there are none. -/
def moved (bytes : Bytes) : String :=
  if bytes.isEmpty then "0" else toString bytes.length ++ " " ++ bytes.summary

/-- The flag with which bytes are sent: no signal is raised when the peer is gone. -/
def sendFlags : Nat :=
  16384

end Trace

end Proactor.Simulation
