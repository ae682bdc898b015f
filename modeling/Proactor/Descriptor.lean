/-!
# Descriptors and their keys

A descriptor is a signed 32-bit number. A readiness registration carries a
64-bit key instead: the descriptor's number with its sign extended. Reading the
low 32 bits of a key gives the descriptor back. The greatest key is set aside
for the wake-up channel of a readiness source; only the descriptor `-1` would
be given that key, and negative descriptors are never registered.
-/

namespace Proactor

/-- A file descriptor. -/
structure Fd where
  number : Int32
  deriving DecidableEq

namespace Fd

/-- Negative descriptors name nothing. -/
def isNegative (fd : Fd) : Bool :=
  fd.number < 0

/-- The key under which a descriptor is registered. -/
def key (fd : Fd) : UInt64 :=
  fd.number.toInt64.toUInt64

/-- The descriptor that a key stands for. -/
def ofKey (key : UInt64) : Fd :=
  ⟨key.toInt64.toInt32⟩

/-- The decimal text of a descriptor. -/
def text (fd : Fd) : String :=
  toString fd.number.toInt

/-- A key is the number of its descriptor modulo `2 ^ 64`. -/
theorem key_eq_ofInt (fd : Fd) : fd.key = .ofInt fd.number.toInt := by
  have hfits : (fd.number.toInt % 2 ^ 64).toNat < 2 ^ 64 := by omega
  apply UInt64.toNat_inj.mp
  exact (BitVec.toNat_ofInt fd.number.toInt).trans (UInt64.toNat_ofNat_of_lt hfits).symm

/-- Decoding the key of a descriptor gives that descriptor. -/
@[simp]
theorem ofKey_key (fd : Fd) : ofKey fd.key = fd := by
  simp [ofKey, key]

end Fd

/-- The key of wake-up events. -/
def notifyKey : UInt64 :=
  0xFFFFFFFFFFFFFFFF

end Proactor
