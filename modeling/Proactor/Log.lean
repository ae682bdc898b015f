import Proactor.ReactorError
import Proactor.Interest
import Proactor.Operation

/-!
# Log records

Everything that the reactor reports to its log, one constructor for each kind of
record, and the line that a record is written as: its level, its sentence, and
its fields in a fixed order.
-/

namespace Proactor

/-- A record for the log. -/
inductive Log where
  | descriptorReady (key : UInt64) (readiness : Interest) (direction : Direction)
  | nothingPending (fd : Fd) (direction : Direction)
  | notDone (fd : Fd) (direction : Direction) (transferred : Nat)
  | complete (fd : Fd) (direction : Direction) (transferred : Nat) (fault : Option Fault)
  | loopStopping (direction : Direction)
  | waitFailed (direction : Direction) (fault : Fault)
  | loopPanicked
  | sinkDisconnected (fd : Fd) (direction : Direction)
  | sinkFull (fd : Fd) (direction : Direction)
  | sinkFullAtShutdown (fd : Fd) (direction : Direction)
  | descriptorReused (fd : Fd) (direction : Direction)
  | disarmFailed (fd : Fd) (direction : Direction) (fault : Fault)
  | replacedInFlight (fd : Fd) (direction : Direction)
  | overwritten (fd : Fd) (direction : Direction) (displaced : Outline)
  | submitted (fd : Fd) (direction : Direction) (length : Nat)
  | watchedTwice (fd : Fd)
  | watching (fd : Fd)
  | stoppedWatching (fd : Fd)
  | wakeFailed (direction : Direction) (fault : Fault)
  | closingWithPending (pending : Nat)
  | dropFailed (error : ReactorError)

namespace Log

/-- The severities of log records. -/
inductive Level where
  | trace
  | debug
  | warn
  | error
  deriving DecidableEq

/-- The spelling of a severity. -/
def Level.label : Level → String
  | .trace => "TRACE"
  | .debug => "DEBUG"
  | .warn => "WARN"
  | .error => "ERROR"

/-- The severity of a record. -/
def level : Log → Level
  | .descriptorReady _ _ _ | .nothingPending _ _ | .notDone _ _ _ | .submitted _ _ _
  | .watching _ | .stoppedWatching _ => .trace
  | .complete _ _ _ _ | .loopStopping _ | .sinkDisconnected _ _ | .descriptorReused _ _
  | .disarmFailed _ _ _ | .replacedInFlight _ _ | .overwritten _ _ _
  | .closingWithPending _ => .debug
  | .sinkFull _ _ | .sinkFullAtShutdown _ _ | .watchedTwice _ | .wakeFailed _ _
  | .dropFailed _ => .warn
  | .waitFailed _ _ | .loopPanicked => .error

/-- The sentence of a record. -/
def sentence : Log → String
  | .descriptorReady _ _ _ => "descriptor ready"
  | .nothingPending _ _ => "readiness event with nothing pending"
  | .notDone _ _ _ => "not done yet, rearming"
  | .complete _ _ _ _ => "operation complete"
  | .loopStopping _ => "dispatch loop stopping"
  | .waitFailed _ _ => "readiness wait failed, dispatch stopped"
  | .loopPanicked => "dispatch thread panicked"
  | .sinkDisconnected _ _ => "completion sink disconnected, dropping result"
  | .sinkFull _ _ => "completion sink full, dropping result"
  | .sinkFullAtShutdown _ _ => "completion sink full at shutdown, dropping result"
  | .descriptorReused _ _ => "dropping operation on a reused descriptor"
  | .disarmFailed _ _ _ => "failed to disarm descriptor"
  | .replacedInFlight _ _ => "in-flight operation replaced by a newer submission"
  | .overwritten _ _ _ => "pending operation overwritten, its completion is lost"
  | .submitted _ _ _ => "operation submitted"
  | .watchedTwice _ => "descriptor watched twice, previous handle dropped"
  | .watching _ => "watching descriptor"
  | .stoppedWatching _ => "stopped watching descriptor"
  | .wakeFailed _ _ => "failed to wake dispatch loop"
  | .closingWithPending _ => "closing with operations still pending"
  | .dropFailed _ => "error while dropping watcher"

/-- The field that names a descriptor. -/
private def fdField (fd : Fd) : String :=
  "fd=" ++ fd.text

/-- The field that names a direction. -/
private def directionField (direction : Direction) : String :=
  "direction=" ++ direction.text

/-- The field that gives a fault by its sentence. -/
private def faultField (fault : Fault) : String :=
  "error=" ++ fault.message

/-- The structure of an optional fault, as debugging output spells it. -/
private def faultDebugText : Option Fault → String
  | none => "None"
  | some fault => "Some(" ++ fault.debugText ++ ")"

/-- The fields of a record. -/
def fields : Log → List String
  | .descriptorReady key readiness direction =>
      ["key=" ++ toString key.toNat, "readiness=" ++ readiness.debugText,
        directionField direction]
  | .nothingPending fd direction => [fdField fd, directionField direction]
  | .notDone fd direction transferred =>
      [fdField fd, directionField direction, "transferred=" ++ toString transferred]
  | .complete fd direction transferred fault =>
      [fdField fd, directionField direction, "transferred=" ++ toString transferred,
        "error=" ++ faultDebugText fault]
  | .loopStopping direction => [directionField direction]
  | .waitFailed direction fault => [directionField direction, faultField fault]
  | .loopPanicked => []
  | .sinkDisconnected fd direction => [fdField fd, directionField direction]
  | .sinkFull fd direction => [fdField fd, directionField direction]
  | .sinkFullAtShutdown fd direction => [fdField fd, directionField direction]
  | .descriptorReused fd direction => [fdField fd, directionField direction]
  | .disarmFailed fd direction fault =>
      [fdField fd, directionField direction, faultField fault]
  | .replacedInFlight fd direction => [fdField fd, directionField direction]
  | .overwritten fd direction displaced =>
      [fdField fd, directionField direction, "displaced=" ++ displaced.debugText]
  | .submitted fd direction length =>
      [fdField fd, directionField direction, "len=" ++ toString length]
  | .watchedTwice fd => [fdField fd]
  | .watching fd => [fdField fd]
  | .stoppedWatching fd => [fdField fd]
  | .wakeFailed direction fault => [directionField direction, faultField fault]
  | .closingWithPending pending => ["pending=" ++ toString pending]
  | .dropFailed error => ["error=" ++ error.message]

/-- A record as one line. -/
def text (record : Log) : String :=
  let head := record.level.label ++ " " ++ record.sentence
  match record.fields with
  | [] => head
  | fields => head ++ " | " ++ String.intercalate " " fields

end Log

end Proactor
