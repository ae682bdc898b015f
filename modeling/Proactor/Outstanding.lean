import Proactor.Source

/-!
# Tables of pending operations

Each direction has one table, which maps a descriptor to its single outstanding
operation. A slot is either waiting for readiness or checked out for a transfer
attempt. The table is not locked during the attempt, so a submission can arrive
meanwhile. If it is allowed to overwrite, it is parked as the successor of the
slot and takes over when the attempt settles.

`submit` and `settle` are whole critical sections: they take a table and return
it changed, and nothing else touches the table in between.
-/

namespace Proactor

/-- The outcome of one transfer attempt. -/
inductive Attempt where
  | retry
  | finished (fault : Option Fault)
  deriving DecidableEq

/-- What a table knows about a descriptor. -/
inductive Slot (σ : Type) where
  | pending (operation : Operation σ)
  | inFlight (successor : Option (Operation σ))

/-- The outstanding operations of one direction. -/
structure Outstanding (σ : Type) where
  direction : Direction
  slots : FdMap (Slot σ)

namespace Outstanding

variable {σ : Type}

/-- The table without operations. -/
def empty (direction : Direction) : Outstanding σ :=
  ⟨direction, FdMap.empty⟩

/-- The number of descriptors with an outstanding operation. -/
def size (table : Outstanding σ) : Nat :=
  table.slots.size

/-- The readiness that operations of the table wait for. -/
def interest (table : Outstanding σ) : Interest :=
  .ofDirection table.direction

/-- The table with a slot changed. -/
def put (table : Outstanding σ) (fd : Fd) (slot : Slot σ) : Outstanding σ :=
  { table with slots := table.slots.insert fd slot }

/-- The table with a slot removed. -/
def erase (table : Outstanding σ) (fd : Fd) : Outstanding σ :=
  { table with slots := table.slots.erase fd }

/-! ## Submission -/

/-- Arm a descriptor on behalf of a submission. -/
def armFor (table : Outstanding σ) (fd : Fd) (source : Source) :
    Program σ (Except ReactorError Unit) := do
  match ← source.arm fd fd.key table.interest with
  | .ok () => return .ok ()
  | .error fault => return .error (.submit fd table.direction fault)

/-- A submission on a descriptor without a slot: it is stored once its descriptor is armed. -/
def submitFresh (table : Outstanding σ) (operation : Operation σ) (source : Source) :
    Program σ (Except ReactorError (Option (Operation σ)) × Outstanding σ) := do
  match ← table.armFor operation.fd source with
  | .error error => return (.error error, table)
  | .ok () => return (.ok none, table.put operation.fd (.pending operation))

/-- A submission on a descriptor whose operation waits for readiness. Rearming the descriptor
shows whether its registration is still there. If it is gone, the file behind the descriptor was
closed and the waiting operation can never complete, so it is displaced under either policy. -/
def submitOver (table : Outstanding σ) (operation current : Operation σ)
    (policy : OverlapPolicy) (source : Source) :
    Program σ (Except ReactorError (Option (Operation σ)) × Outstanding σ) := do
  let fd := operation.fd
  match ← source.modify fd fd.key table.interest with
  | .ok () =>
      match policy with
      | .reject => return (.error (.busy fd table.direction), table)
      | .overwrite => return (.ok (some current), table.put fd (.pending operation))
  | .error fault =>
      if fault.errno? = some .noEntry then
        match ← table.armFor fd source with
        | .error error => return (.error error, table)
        | .ok () =>
            Program.log (.descriptorReused fd table.direction)
            return (.ok (some current), table.put fd (.pending operation))
      else return (.error (.submit fd table.direction fault), table)

/-- Record an operation. The answer holds the operation that it displaced, whose sink will never
hear of it. A refused submission leaves the table as it was. -/
def submit (table : Outstanding σ) (operation : Operation σ) (policy : OverlapPolicy)
    (source : Source) : Program σ (Except ReactorError (Option (Operation σ)) × Outstanding σ) :=
  match table.slots.get? operation.fd with
  | none => table.submitFresh operation source
  | some (.pending current) => table.submitOver operation current policy source
  | some (.inFlight successor) =>
      match policy with
      | .reject => return (.error (.busy operation.fd table.direction), table)
      | .overwrite =>
          return (.ok successor, table.put operation.fd (.inFlight (some operation)))

/-! ## Transfer attempts -/

/-- Take out the operation that waits on a descriptor, for a transfer attempt. Nothing is taken
out if no operation waits there. -/
def checkOut (table : Outstanding σ) (fd : Fd) : Option (Operation σ × Outstanding σ) :=
  match table.slots.get? fd with
  | some (.pending operation) => some (operation, table.put fd (.inFlight none))
  | _ => none

/-- Remove the slot of a descriptor after an attempt and return what was parked there. A slot
that waits for readiness cannot belong to an operation that was checked out. -/
def checkIn (table : Outstanding σ) (fd : Fd) :
    Except Panic (Option (Operation σ)) × Outstanding σ :=
  match table.slots.get? fd with
  | some (.inFlight successor) => (.ok successor, table.erase fd)
  | some (.pending _) => (.error (.slotPending fd), table.erase fd)
  | none => (.ok none, table)

/-- Keep an operation waiting after an attempt. If its descriptor cannot be rearmed, the
operation ends with the fault of that call instead. -/
def retain (table : Outstanding σ) (fd : Fd) (operation : Operation σ)
    (source : Source) : Program σ (List (Resolved σ) × Outstanding σ) := do
  match ← source.rearm fd fd.key table.interest with
  | .ok () => return ([], table.put fd (.pending operation))
  | .error fault =>
      let _ ← source.delete fd
      return ([operation.resolve table.direction (some fault)], table)

/-- Disarm a descriptor on which nothing waits any more. A missing registration is as good. -/
def disarm (table : Outstanding σ) (fd : Fd) (source : Source) : Program σ Unit := do
  match ← source.delete fd with
  | .ok () => return ()
  | .error fault =>
      if fault.errno? = some .noEntry then return ()
      else Program.log (.disarmFailed fd table.direction fault)

/-- Return a checked-out operation after its attempt. A finished operation resolves, and its
successor waits in its place. An unfinished one goes back to waiting unless a successor has
replaced it. The answer lists everything that resolved, in order. -/
def settle (table : Outstanding σ) (operation : Operation σ) (attempt : Attempt)
    (source : Source) : Program σ (Except Panic (List (Resolved σ)) × Outstanding σ) :=
  let fd := operation.fd
  match table.checkIn fd with
  | (.error cause, table) => return (.error cause, table)
  | (.ok successor, table) =>
      match attempt, successor with
      | .finished fault, some next => do
          let (failed, table) ← table.retain fd next source
          return (.ok (operation.resolve table.direction fault :: failed), table)
      | .finished fault, none => do
          table.disarm fd source
          return (.ok [operation.resolve table.direction fault], table)
      | .retry, some next => do
          let (failed, table) ← table.retain fd next source
          Program.log (.replacedInFlight fd table.direction)
          return (.ok failed, table)
      | .retry, none => do
          let (failed, table) ← table.retain fd operation source
          return (.ok failed, table)

end Outstanding

end Proactor
