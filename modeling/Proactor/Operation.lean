import Proactor.Bytes
import Proactor.Descriptor
import Proactor.Direction
import Proactor.Fault

/-!
# Operations and completions

An operation is one submitted read or write. It resolves into a completion,
which says how it ended: the descriptor, the submitted buffer, the number of
bytes moved, and the fault that ended the operation, if any. An operation
carries the sink that is to receive its completion. Sinks are named by values of
a type that this development leaves open; the only thing known about a sink is
whether it can wait for room by itself.
-/

namespace Proactor

/-! ## Completions -/

/-- The outcome of a resolved operation. -/
structure Completion where
  fd : Fd
  buffer : Bytes
  transferred : Nat
  fault : Option Fault
  direction : Direction
  deriving DecidableEq

namespace Completion

/-- The operation ended without a fault. -/
def isOk (completion : Completion) : Bool :=
  completion.fault.isNone

/-- A read without a fault that moved no byte. -/
def isEof (completion : Completion) : Bool :=
  completion.direction = .read && completion.fault.isNone && completion.transferred = 0

/-- The bytes that were moved. A count beyond the buffer means the whole buffer. -/
def filled (completion : Completion) : Bytes :=
  completion.buffer.take completion.transferred

/-- The number of bytes moved, or the fault, beside the submitted buffer. -/
def result (completion : Completion) : Except Fault Nat × Bytes :=
  match completion.fault with
  | some fault => (.error fault, completion.buffer)
  | none => (.ok completion.transferred, completion.buffer)

/-- A completion on one line. -/
def text (completion : Completion) : String :=
  "fd=" ++ completion.fd.text ++ " dir=" ++ completion.direction.text ++
    " n=" ++ toString completion.transferred ++
    " err=" ++ (completion.fault.map Fault.mark).getD "-" ++
    " buf=" ++ completion.buffer.summary

end Completion

/-! ## Operations -/

/-- The destination of a completion. -/
structure Sink (σ : Type) where
  target : σ
  waitsForRoom : Bool

/-- The facts of an operation that messages mention. -/
structure Outline where
  fd : Fd
  length : Nat
  transferred : Nat

/-- The structure of an operation, as debugging output spells it. -/
def Outline.debugText (outline : Outline) : String :=
  "Ocb \x7b fd: " ++ outline.fd.text ++ ", len: " ++ toString outline.length ++
    ", transferred: " ++ toString outline.transferred ++ ", .. \x7d"

/-- A submitted read or write. `notSocket` is set once a socket call on the descriptor was
refused because it is something else. -/
structure Operation (σ : Type) where
  fd : Fd
  buffer : Bytes
  transferred : Nat
  sink : Sink σ
  notSocket : Bool

/-- A completion together with the sink of its operation. -/
structure Resolved (σ : Type) where
  completion : Completion
  sink : Sink σ

namespace Operation

variable {σ : Type}

/-- A fresh operation, of which nothing has been done. -/
def submitted (fd : Fd) (buffer : Bytes) (sink : Sink σ) : Operation σ :=
  ⟨fd, buffer, 0, sink, false⟩

/-- What messages say about the operation. -/
def outline (operation : Operation σ) : Outline :=
  ⟨operation.fd, operation.buffer.length, operation.transferred⟩

/-- End the operation, with or without a fault. -/
def resolve (operation : Operation σ) (direction : Direction) (fault : Option Fault) :
    Resolved σ :=
  ⟨⟨operation.fd, operation.buffer, operation.transferred, fault, direction⟩, operation.sink⟩

end Operation

end Proactor
