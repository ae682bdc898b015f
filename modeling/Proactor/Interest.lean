import Proactor.Descriptor
import Proactor.Direction

/-!
# Interest and readiness

The same pair of flags says what a registration waits for and what an event
reported. The numeric event masks are those of the operating system's readiness
facility. An event that reports an error or a hang-up counts as ready on both
sides, because only the transfer that follows can show the actual condition.
-/

namespace Proactor

/-- The sides of a descriptor that are waited for, or that are ready. -/
structure Interest where
  readable : Bool
  writable : Bool
  deriving DecidableEq, Repr

namespace Interest

/-- Neither side. -/
def empty : Interest :=
  ⟨false, false⟩

/-- The reading side alone. -/
def read : Interest :=
  ⟨true, false⟩

/-- The writing side alone. -/
def write : Interest :=
  ⟨false, true⟩

/-- Whether no side is named. -/
def isEmpty (interest : Interest) : Bool :=
  !interest.readable && !interest.writable

/-- The sides that either of two interests names. -/
def union (first second : Interest) : Interest :=
  ⟨first.readable || second.readable, first.writable || second.writable⟩

/-- The side that operations of a direction wait for. -/
def ofDirection : Direction → Interest
  | .read => read
  | .write => write

/-- The flags as a number: one for reading and two for writing. -/
def bits (interest : Interest) : Nat :=
  (if interest.readable then 1 else 0) + (if interest.writable then 2 else 0)

/-- The structure of an interest, as debugging output spells it. -/
def debugText (interest : Interest) : String :=
  "Interest \x7b bits: " ++ toString interest.bits ++ " \x7d"

end Interest

/-! ## Event masks of the readiness facility -/

namespace EventMask

/-- Input is available. -/
def input : UInt32 := 0x1

/-- Output is possible. -/
def output : UInt32 := 0x4

/-- An error condition holds. -/
def error : UInt32 := 0x8

/-- Both sides were shut. -/
def hangUp : UInt32 := 0x10

/-- The peer shut its writing side. -/
def peerHangUp : UInt32 := 0x2000

/-- The registration is disarmed by its first event. -/
def oneShot : UInt32 := 0x40000000

end EventMask

/-! ## Registrations and events -/

/-- The mask of a one-shot registration. The reading side also waits for the peer's hang-up. -/
def Interest.mask (interest : Interest) : UInt32 :=
  EventMask.oneShot
    ||| (if interest.readable then EventMask.input ||| EventMask.peerHangUp else 0)
    ||| (if interest.writable then EventMask.output else 0)

/-- Reads wait once, for input (1) and for the peer's hang-up (0x2000). -/
theorem Interest.mask_ofDirection_read : (ofDirection .read).mask = 0x40002001 := by
  decide

/-- Writes wait once, for output (4). -/
theorem Interest.mask_ofDirection_write : (ofDirection .write).mask = 0x40000004 := by
  decide

/-- An event as the readiness facility reports it: a key and a mask. -/
structure RawEvent where
  key : UInt64
  mask : UInt32
  deriving DecidableEq

/-- A readiness event: the key of a registration and the sides found ready. -/
structure Event where
  key : UInt64
  readiness : Interest
  deriving DecidableEq

namespace Event

/-- The readiness that a mask reports. Errors and hang-ups make both sides ready. -/
def readinessOf (mask : UInt32) : Interest :=
  let failed := mask &&& (EventMask.error ||| EventMask.hangUp) != 0
  { readable := failed || mask &&& (EventMask.input ||| EventMask.peerHangUp) != 0
    writable := failed || mask &&& EventMask.output != 0 }

/-- Read a reported event. -/
def ofRaw (event : RawEvent) : Event :=
  ⟨event.key, readinessOf event.mask⟩

/-- Whether the event was raised by a wake-up and not by a descriptor. -/
def isNotification (event : Event) : Bool :=
  event.key == notifyKey

/-- The descriptor that the event is about. -/
def fd (event : Event) : Fd :=
  Fd.ofKey event.key

end Event

end Proactor
