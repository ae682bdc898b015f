import Proactor.Program

/-!
# Wake pipes

A blocked wait is ended by writing a byte to a non-blocking pipe whose read end
is registered with the readiness source. Wake-ups coalesce: however many bytes
the pipe holds, one event reports them, until the pipe has been drained.
-/

namespace Proactor

/-- The two ends of the pipe. -/
structure WakePipe where
  readEnd : Fd
  writeEnd : Fd
  deriving DecidableEq

namespace WakePipe

variable {σ : Type}

/-- Open a wake pipe. -/
def create : Program σ (Except Fault WakePipe) := do
  match ← Program.ask .openPipe with
  | .ok (readEnd, writeEnd) => return .ok ⟨readEnd, writeEnd⟩
  | .error errno => return .error (.system errno)

/-- Raise a wake-up. A pipe without room holds a wake-up already. -/
def signal (wakePipe : WakePipe) : Program σ (Except Fault Unit) := do
  match ← Program.ask (.write wakePipe.writeEnd [1]) with
  | .ok _ => return .ok ()
  | .error errno =>
      if errno.kind = .wouldBlock then return .ok () else return .error (.system errno)

/-- The most bytes that one read takes out of the pipe. -/
def drainChunk : Nat :=
  64

/-- Take one chunk out of the pipe. The answer says whether there may be more. -/
def drainStep (wakePipe : WakePipe) : Program σ Bool := do
  match ← Program.ask (.read wakePipe.readEnd drainChunk) with
  | .ok bytes => return !bytes.isEmpty
  | .error _ => return false

end WakePipe

end Proactor
