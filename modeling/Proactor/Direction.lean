/-!
# Directions

Every operation moves bytes one way. Reads and writes have separate tables,
readiness sources and dispatch loops.
-/

namespace Proactor

/-- The side of a descriptor that an operation drives. -/
inductive Direction where
  | read
  | write
  deriving DecidableEq, Repr

/-- The word for a direction in messages. -/
def Direction.text : Direction → String
  | .read => "read"
  | .write => "write"

end Proactor
