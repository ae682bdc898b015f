import Proactor.Errno

/-!
# Faults

The reason for which a transfer or a system call failed. Almost every fault is
an error number of the operating system; a fault of another origin carries its
text and no number.
-/

namespace Proactor

/-- What went wrong in an input or output operation. -/
inductive Fault where
  | system (errno : Errno)
  | other (text : String)
  deriving DecidableEq, Repr

namespace Fault

/-- The error number behind a fault, if there is one. -/
def errno? : Fault → Option Errno
  | .system errno => some errno
  | .other _ => none

/-- The sentence for a fault. The number follows the text of a system error. -/
def message : Fault → String
  | .system errno => errno.text ++ " (os error " ++ toString errno.code ++ ")"
  | .other text => text

/-- The structure of a fault, as debugging output spells it. -/
def debugText : Fault → String
  | .system errno =>
      "Os \x7b code: " ++ toString errno.code ++ ", kind: " ++ errno.kind.label ++
        ", message: \"" ++ errno.text ++ "\" \x7d"
  | .other text => "Custom \x7b kind: Other, error: \"" ++ text ++ "\" \x7d"

/-- The short mark for a fault in a one-line description. -/
def mark : Fault → String
  | .system errno => "E" ++ toString errno.code
  | .other text => text

/-- Faults under which an attempt is repeated at the next readiness event. -/
def isTransient : Fault → Bool
  | .system errno => errno.isTransient
  | .other _ => false

/-- A fault made by a failed system call is a system fault. -/
@[simp]
theorem errno?_system (errno : Errno) : (Fault.system errno).errno? = some errno :=
  rfl

end Fault

/-- The outcome of a system call, with its error number made into a fault. -/
def Fault.ofCall {α : Type} : Except Errno α → Except Fault α
  | .ok value => .ok value
  | .error errno => .error (.system errno)

end Proactor
