import Proactor.WakePipe

/-!
# Readiness sources

A readiness source is an epoll instance together with the pipe that wakes it.
Registrations are one-shot: after its event a descriptor stays registered but
disarmed until it is modified or deleted. `arm` and `rearm` set an interest
whether or not the descriptor is registered; they differ in which call they try
first.

A closed source answers calls that need its epoll descriptor with a
bad-descriptor fault and asks nothing of the operating system.
-/

namespace Proactor

/-- A readiness source. -/
structure Source where
  descriptor : Fd
  wakePipe : WakePipe
  closed : Bool

namespace Source

variable {σ : Type}

/-- Close a descriptor whose state no longer matters. -/
def discard (fd : Fd) : Program σ Unit := do
  let _ ← Program.ask (.close fd)
  return ()

/-- Open an epoll instance and register its wake pipe. On failure the instance is closed again. -/
def create : Program σ (Except Fault Source) := do
  match ← Program.ask .openSource with
  | .error errno => return .error (.system errno)
  | .ok descriptor =>
      match ← WakePipe.create with
      | .error fault =>
          discard descriptor
          return .error fault
      | .ok wakePipe =>
          let event : RawEvent := ⟨notifyKey, EventMask.input⟩
          match ← Program.ask (.control descriptor (.add wakePipe.readEnd event)) with
          | .error errno =>
              discard descriptor
              return .error (.system errno)
          | .ok () => return .ok ⟨descriptor, wakePipe, false⟩

/-- The epoll descriptor of a source that has not been closed. -/
def live (source : Source) : Except Fault Fd :=
  if source.closed then .error (.system .badDescriptor) else .ok source.descriptor

/-- Change the registration of a descriptor. Negative descriptors are refused before anything
else, and an empty interest is a mistake of the caller. -/
def control (source : Source) (change : Fd → RawEvent → Control)
    (fd : Fd) (key : UInt64) (interest : Interest) : Program σ (Except Fault Unit) :=
  if fd.isNegative then return .error (.system .badDescriptor)
  else if interest.isEmpty then .panic .emptyInterest
  else
    match source.live with
    | .error fault => return .error fault
    | .ok descriptor => do
        let answer ← Program.ask (.control descriptor (change fd ⟨key, interest.mask⟩))
        return Fault.ofCall answer

/-- Register a descriptor that is not registered. -/
def add (source : Source) : Fd → UInt64 → Interest → Program σ (Except Fault Unit) :=
  source.control .add

/-- Rearm a descriptor that is registered. -/
def modify (source : Source) : Fd → UInt64 → Interest → Program σ (Except Fault Unit) :=
  source.control .modify

/-- Remove the registration of a descriptor. A closed descriptor has left every source already
and counts as not registered. -/
def delete (source : Source) (fd : Fd) : Program σ (Except Fault Unit) :=
  match source.live with
  | .error fault => return .error fault
  | .ok descriptor => do
      match ← Program.ask (.control descriptor (.delete fd)) with
      | .ok () => return .ok ()
      | .error errno =>
          if errno = .badDescriptor then return .error (.system .noEntry)
          else return .error (.system errno)

/-- Arm a descriptor that is probably not registered. -/
def arm (source : Source) (fd : Fd) (key : UInt64) (interest : Interest) :
    Program σ (Except Fault Unit) := do
  match ← source.add fd key interest with
  | .error fault =>
      if fault.errno? = some .alreadyExists then source.modify fd key interest
      else return .error fault
  | .ok () => return .ok ()

/-- Arm a descriptor that is probably registered. The registration is missing when the file
behind the descriptor was closed. -/
def rearm (source : Source) (fd : Fd) (key : UInt64) (interest : Interest) :
    Program σ (Except Fault Unit) := do
  match ← source.modify fd key interest with
  | .error fault =>
      if fault.errno? = some .noEntry then source.add fd key interest
      else return .error fault
  | .ok () => return .ok ()

/-- The number of bytes that a reported event takes up in memory. -/
def eventSize : Nat :=
  12

/-- The number of bytes in the largest block of memory. -/
def memoryLimit : Nat :=
  UInt64.size / 2 - 1

/-- Make room for a batch of events. A batch that no block of memory holds is a mistake of the
caller. -/
def reserve (batch : Nat) : Program σ Unit :=
  if batch * eventSize ≤ memoryLimit then return () else .panic .batchTooLarge

/-- The longest time and the largest batch that one wait can ask for. -/
def waitLimit : Nat :=
  2147483647

/-- Wait until an event is ready or the time has passed. A report of more events than the batch
holds is a mistake of the operating system. -/
def wait (source : Source) (batch : Nat) (timeout : Option Duration) :
    Program σ (Except Fault (List Event)) :=
  match source.live with
  | .error fault => return .error fault
  | .ok descriptor => do
      let millis := timeout.map fun duration => min duration.millis waitLimit
      match ← Program.ask (.wait descriptor (min batch waitLimit) millis) with
      | .error errno => return .error (.system errno)
      | .ok events =>
          if events.length ≤ batch then return .ok (events.map Event.ofRaw)
          else .panic .batchOverflow

/-- Wake a thread that is blocked in a wait. -/
def wake (source : Source) : Program σ (Except Fault Unit) :=
  source.wakePipe.signal

/-- Take one chunk of pending wake-ups away. The answer says whether there may be more. -/
def drainStep (source : Source) : Program σ Bool :=
  source.wakePipe.drainStep

/-- Release the source. Closing again does nothing, also when the first attempt failed. -/
def close (source : Source) : Program σ (Except Fault Unit × Source) :=
  if source.closed then return (.ok (), source)
  else do
    let answer ← Program.ask (.close source.descriptor)
    return (Fault.ofCall answer, { source with closed := true })

end Source

end Proactor
