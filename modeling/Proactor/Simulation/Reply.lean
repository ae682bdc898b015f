import Proactor.Reactor
import Proactor.Simulation.Action
import Proactor.Document

/-!
# Replies

What comes of an action, as a document for reports and as a few words for the
trace.
-/

namespace Proactor.Simulation

/-- Something that an action needs and that is not there. -/
inductive Lack where
  | side
  | reactor
  | operation

/-- The word for a lack. -/
def Lack.word : Lack → String
  | .side => "no_lane"
  | .reactor => "no_watcher"
  | .operation => "no_ocb"

/-- What comes of an action. -/
inductive Reply where
  | ok
  | nothing
  | truth (value : Bool)
  | number (value : Int)
  | completion (completion : Completion)
  | failed (error : ReactorError)
  | fault (fault : Fault)
  | panicked (cause : Panic)
  | lacking (lack : Lack)
  | displaced (operation : Operation Target)
  | operation (operation : Operation Target)
  | made (operation : Operation Target)
  | attempted (attempt : Attempt) (operation : Operation Target)
  | refusedFull (completion : Completion)
  | refusedDisconnected (completion : Completion)
  | resolved (completions : List Completion)
  | waited (outcomes : List (Except Fault (List Event)))
  | table (direction : Direction)

namespace Reply

/-- The number of an error, or null. -/
def errnoDocument (errno : Option Errno) : Document :=
  .ofOption (errno.map fun errno => .integer errno.code)

/-- A fault of a readiness source. -/
def faultDocument (fault : Fault) : Document :=
  .record [("error", .text "os"), ("os", errnoDocument fault.errno?)]

/-- An operation. -/
def operationDocument (operation : Operation Target) : Document :=
  .record
    [("fd", .integer operation.fd.number.toInt),
     ("n", .count operation.transferred),
     ("buf", .text operation.buffer.summary),
     ("not_socket", .boolean operation.notSocket)]

/-- The outcome of an attempt. -/
def attemptDocument : Attempt → Document
  | .retry => .text "retry"
  | .finished none => .text "done"
  | .finished (some cause) => .record [("done", errnoDocument cause.errno?)]

/-- An event: its key, the sides found ready, and whether it is a wake-up. -/
def eventDocument (event : Event) : Document :=
  .list
    [.text (toString event.key.toNat), .boolean event.readiness.readable,
     .boolean event.readiness.writable, .boolean event.isNotification]

/-- The outcome of a wait: how many events there were, and what the events are. -/
def waitDocument : Except Fault (List Event) → Document
  | .ok events => .list [.count events.length, .list (events.map eventDocument)]
  | .error cause => .list [faultDocument cause, .list []]

/-- A reply in a report. -/
def document : Reply → Document
  | .ok => .text "ok"
  | .nothing => .null
  | .truth value => .boolean value
  | .number value => .integer value
  | .completion received => .text received.text
  | .failed error =>
      .record
        [("error", .text error.label), ("message", .text error.message),
         ("os", errnoDocument error.errno?)]
  | .fault cause => faultDocument cause
  | .panicked cause =>
      .record
        (("error", .text "panic") ::
          match cause.message? with
          | some message => [("message", .text message)]
          | none => [])
  | .lacking lack => .record [("error", .text lack.word)]
  | .displaced previous => .record [("displaced", operationDocument previous)]
  | .operation taken => operationDocument taken
  | .made fresh =>
      .record [("ocb", operationDocument fresh), ("debug", .text fresh.outline.debugText)]
  | .attempted attempt tried =>
      .record [("attempt", attemptDocument attempt), ("ocb", operationDocument tried)]
  | .refusedFull returned => .record [("full", .text returned.text)]
  | .refusedDisconnected returned => .record [("disc", .text returned.text)]
  | .resolved completions => .texts (completions.map Completion.text)
  | .waited outcomes => .list (outcomes.map waitDocument)
  | .table direction => .record [("table", .text direction.text)]

/-- An error in a few words: its kind and its number. -/
private def briefError (label : String) (errno : Option Errno) : String :=
  label ++ " " ++ (errno.map fun errno => toString errno.code).getD "-"

/-- A reply in the trace. -/
def brief : Reply → String
  | .ok => "ok"
  | .completion received => received.text
  | .failed error => briefError error.label error.errno?
  | .fault cause => briefError "os" cause.errno?
  | .displaced previous =>
      "displaced n=" ++ toString previous.transferred ++ " buf=" ++ previous.buffer.summary
  | reply => reply.document.compact

end Reply

end Proactor.Simulation
