import Proactor.Outstanding

/-!
# The two sides of a reactor

A reactor has a reading and a writing side. Each has its own readiness source,
its own table of outstanding operations, and a flag that says whether its
dispatch loop runs.
-/

namespace Proactor

/-- What belongs to one direction. -/
structure Side (σ : Type) where
  source : Source
  table : Outstanding σ
  dispatching : Bool

namespace Side

variable {σ : Type}

/-- Open the source of a direction, with nothing outstanding. -/
def create (direction : Direction) : Program σ (Except Fault (Side σ)) := do
  match ← Source.create with
  | .error fault => return .error fault
  | .ok source => return .ok ⟨source, .empty direction, false⟩

/-- Close the source, and with it the side. -/
def close (side : Side σ) : Program σ (Except Fault Unit × Side σ) := do
  let (result, source) ← side.source.close
  return (result, { side with source })

/-- Submit an operation to the table, armed at the source. -/
def submit (side : Side σ) (operation : Operation σ) (policy : OverlapPolicy) :
    Program σ (Except ReactorError (Option (Operation σ)) × Side σ) := do
  let (result, table) ← side.table.submit operation policy side.source
  return (result, { side with table })

/-- Settle a checked-out operation in the table, rearmed or disarmed at the source. -/
def settle (side : Side σ) (operation : Operation σ) (attempt : Attempt) :
    Program σ (Except Panic (List (Resolved σ)) × Side σ) := do
  let (result, table) ← side.table.settle operation attempt side.source
  return (result, { side with table })

/-- Take out the operation that waits on a descriptor. -/
def checkOut (side : Side σ) (fd : Fd) : Option (Operation σ × Side σ) :=
  (side.table.checkOut fd).map fun (operation, table) => (operation, { side with table })

end Side

end Proactor
