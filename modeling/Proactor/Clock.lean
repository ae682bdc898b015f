/-!
# Time

Durations and instants are counted in nanoseconds. Both have a greatest value,
so making a duration of its parts and adding a duration to an instant can fail.
-/

namespace Proactor

/-- A length of time. -/
structure Duration where
  nanoseconds : Nat
  deriving DecidableEq

namespace Duration

/-- Durations are shorter than this many nanoseconds: their seconds are 64-bit numbers. -/
def limit : Nat :=
  UInt64.size * 1000000000

/-- The duration of whole seconds and nanoseconds, if there is one. The nanoseconds may come to
more than a second. -/
def ofParts? (seconds nanoseconds : Nat) : Option Duration :=
  let total := seconds * 1000000000 + nanoseconds
  if total < limit then some ⟨total⟩ else none

/-- A duration of whole milliseconds. -/
def ofMillis (millis : Nat) : Duration :=
  ⟨millis * 1000000⟩

/-- The whole milliseconds of a duration. -/
def millis (duration : Duration) : Nat :=
  duration.nanoseconds / 1000000

end Duration

/-- A reading of a clock that never goes back. -/
structure Instant where
  nanoseconds : Nat
  deriving DecidableEq

namespace Instant

/-- Instants lie before this many nanoseconds: their seconds are signed 64-bit numbers. -/
def limit : Nat :=
  UInt64.size / 2 * 1000000000

/-- The instant that lies a duration later, if there is one. -/
def add? (instant : Instant) (duration : Duration) : Option Instant :=
  if instant.nanoseconds + duration.nanoseconds < limit then
    some ⟨instant.nanoseconds + duration.nanoseconds⟩
  else none

/-- Whether one instant lies before another. -/
def isBefore (first second : Instant) : Bool :=
  first.nanoseconds < second.nanoseconds

end Instant

end Proactor
