import Proactor.Outstanding

/-!
# Transfers

One non-blocking attempt to move the bytes of an operation. A read is finished
by whatever its single call returns. A write is finished when the whole buffer
is out; it begins with socket calls and changes to plain writes for good once a
socket call was refused because the descriptor is not a socket.
-/

namespace Proactor

namespace Transfer

variable {σ : Type}

/-- The attempt that a fault ends: a passing condition calls for another one. -/
def failed (fault : Fault) : Attempt :=
  if fault.isTransient then .retry else .finished (some fault)

/-- One read of the whole buffer. The bytes that arrive replace the front of it. -/
def read (operation : Operation σ) : Program σ (Operation σ × Attempt) := do
  match ← Program.ask (.read operation.fd operation.buffer.length) with
  | .ok bytes =>
      return ({ operation with
        buffer := bytes ++ operation.buffer.drop bytes.length
        transferred := bytes.length }, .finished none)
  | .error errno => return (operation, failed (.system errno))

/-- Write bytes through a socket call if possible, and through a plain write otherwise. -/
def writeBytes (operation : Operation σ) (bytes : Bytes) :
    Program σ (Operation σ × Except Errno Nat) := do
  if operation.notSocket then
    return (operation, ← Program.ask (.write operation.fd bytes))
  else
    match ← Program.ask (.send operation.fd bytes) with
    | .ok count => return (operation, .ok count)
    | .error errno =>
        if errno = .notSocket then
          return ({ operation with notSocket := true },
            ← Program.ask (.write operation.fd bytes))
        else return (operation, .error errno)

/-- One write of the bytes that are not out yet. -/
def write (operation : Operation σ) : Program σ (Operation σ × Attempt) :=
  if operation.transferred ≤ operation.buffer.length then do
    match ← writeBytes operation (operation.buffer.drop operation.transferred) with
    | (operation, .ok count) =>
        let operation := { operation with transferred := operation.transferred + count }
        if operation.transferred = operation.buffer.length then
          return (operation, .finished none)
        else return (operation, .retry)
    | (operation, .error errno) => return (operation, failed (.system errno))
  else .panic .beyondBuffer

/-- One attempt in a direction. -/
def attempt : Direction → Operation σ → Program σ (Operation σ × Attempt)
  | .read => read
  | .write => write

end Transfer

end Proactor
