import Proactor.Descriptor

/-!
# Panics

A panic gives up whatever is being done, from the innermost call to the thread or
the caller that catches it. What had been changed until then stays changed.
-/

namespace Proactor

/-- Why something was given up in the middle. A panic of code that belongs to the callers of the
reactor, such as a sink, is `foreign`. -/
inductive Panic where
  | emptyInterest
  | slotPending (fd : Fd)
  | beyondBuffer
  | batchTooLarge
  | batchOverflow
  | nulInThreadName
  | deadlineOverflow
  | foreign (message : Option String)
  deriving DecidableEq

/-- The message of a panic, where it is told. -/
def Panic.message? : Panic → Option String
  | .emptyInterest => some "interest cannot be NONE"
  | .slotPending fd =>
      some ("internal error: entered unreachable code: slot for fd " ++ fd.text ++
        " was pending while checked out")
  | .foreign message => message
  | _ => none

end Proactor
