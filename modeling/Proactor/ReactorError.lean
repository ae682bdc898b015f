import Proactor.Descriptor
import Proactor.Direction
import Proactor.Fault

/-!
# Errors of the reactor

The ways in which a call on the reactor itself can fail. A failed transfer is no
such error: it travels in the completion of its operation.
-/

namespace Proactor

/-- Why a call on the reactor failed. -/
inductive ReactorError where
  | init (fault : Fault)
  | unsupportedHandle
  | watch (fd : Fd) (fault : Fault)
  | submit (fd : Fd) (direction : Direction) (fault : Fault)
  | busy (fd : Fd) (direction : Direction)
  | close (fault : Fault)
  deriving DecidableEq

namespace ReactorError

/-- The name of the kind of error. -/
def label : ReactorError → String
  | .init _ => "Init"
  | .unsupportedHandle => "UnsupportedHandle"
  | .watch _ _ => "Watch"
  | .submit _ _ _ => "Submit"
  | .busy _ _ => "Busy"
  | .close _ => "Close"

/-- The fault that an error passes on. -/
def cause? : ReactorError → Option Fault
  | .init fault => some fault
  | .unsupportedHandle => none
  | .watch _ fault => some fault
  | .submit _ _ fault => some fault
  | .busy _ _ => none
  | .close fault => some fault

/-- The error number behind an error, if there is one. -/
def errno? (error : ReactorError) : Option Errno :=
  error.cause?.bind Fault.errno?

/-- The sentence for an error. -/
def message : ReactorError → String
  | .init fault => "failed to initialise reactor: " ++ fault.message
  | .unsupportedHandle => "handle does not expose a raw descriptor"
  | .watch fd fault => "failed to prepare fd " ++ fd.text ++ " for watching: " ++ fault.message
  | .submit fd direction fault =>
      "failed to arm " ++ direction.text ++ " interest for fd " ++ fd.text ++ ": " ++
        fault.message
  | .busy fd direction =>
      "fd " ++ fd.text ++ " already has a pending " ++ direction.text ++ " operation"
  | .close fault => "failed to release readiness source: " ++ fault.message

end ReactorError

end Proactor
