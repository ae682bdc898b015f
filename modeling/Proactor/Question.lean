import Proactor.Custody
import Proactor.Document
import Proactor.Guarded
import Proactor.Interest
import Proactor.ReactorError
import Proactor.Operation
import Proactor.Settings

/-!
# Questions about single parts

Questions that one part of the reactor answers by itself, without an
environment: how interests combine, what an event means, what settings come to,
how errors and completions read, and how a lock and the store of handles behave
over a few steps.
-/

namespace Proactor

/-- One holder of a lock around a list: it appends, removes the last element, and may panic. -/
structure LockStep where
  push : Option Int
  pop : Bool
  panic : Bool

/-- A step on the store of handles. -/
inductive CustodyStep where
  | insert (fd : Fd) (name : String)
  | remove (fd : Fd)
  | contains (fd : Fd)

/-- A question about one part. -/
inductive Question where
  | interest (first second : List Interest)
  | event (event : RawEvent)
  | settings (changes : List Settings.Change)
  | error (error : ReactorError)
  | completion (completion : Completion)
  | lock (steps : List LockStep)
  | custody (steps : List CustodyStep)

namespace Question

/-- The flags of an interest. -/
private def interestDocument (interest : Interest) : Document :=
  .record
    [("readable", .boolean interest.readable), ("writable", .boolean interest.writable),
     ("none", .boolean interest.isEmpty)]

/-- How two interests combine, each made of parts. -/
private def interestAnswer (first second : List Interest) : Document :=
  let a := first.foldl Interest.union .empty
  let b := second.foldl (fun whole part => part.union whole) .empty
  let both := a.union b
  .record
    [("a", interestDocument a), ("b", interestDocument b), ("or", interestDocument both),
     ("bitor", interestDocument both), ("eq", .boolean (a = b)),
     ("debug", .text both.debugText)]

/-- What an event means. -/
private def eventAnswer (raw : RawEvent) : Document :=
  let event := Event.ofRaw raw
  .record
    [("key", .text (toString event.key.toNat)),
     ("interest", interestDocument event.readiness),
     ("notification", .boolean event.isNotification)]

/-- The word for a treatment of overlapping submissions. -/
private def overlapWord : OverlapPolicy → String
  | .overwrite => "overwrite"
  | .reject => "reject"

/-- The word for a treatment of full sinks. -/
private def deliveryWord : DeliveryPolicy → String
  | .dropWhenFull => "drop"
  | .blockWhenFull => "block"

/-- Settings. -/
private def settingsDocument (settings : Settings) : Document :=
  .record
    [("events_capacity", .count settings.eventsCapacity),
     ("overlap", .text (overlapWord settings.overlap)),
     ("delivery", .text (deliveryWord settings.delivery)),
     ("thread_name_prefix", .text settings.threadNamePrefix)]

/-- The number of a fault, or null. -/
private def numberDocument (errno : Option Errno) : Document :=
  .ofOption (errno.map fun errno => .integer errno.code)

/-- How an error reads. -/
private def errorAnswer (error : ReactorError) : Document :=
  .record
    [("display", .text error.message), ("os", numberDocument error.errno?),
     ("source", .ofOption (error.cause?.map fun fault => .text fault.message))]

/-- How a completion reads. -/
private def completionAnswer (completion : Completion) : Document :=
  let (result, buffer) := completion.result
  let outcome : Document :=
    match result with
    | .ok count => .record [("ok", .count count)]
    | .error fault =>
        .record [("err", .text fault.message), ("os", numberDocument fault.errno?)]
  .record
    [("ok", .boolean completion.isOk), ("eof", .boolean completion.isEof),
     ("filled", .text completion.filled.summary), ("result", outcome),
     ("buf", .text buffer.summary), ("shown", .text completion.text)]

/-- What one holder of the lock does. -/
private def holdStep (step : LockStep) (values : List Int) : Guarded.Hold (List Int) :=
  let pushed :=
    match step.push with
    | some value => values ++ [value]
    | none => values
  ⟨if step.pop then pushed.dropLast else pushed, step.panic⟩

/-- What each holder of the lock leaves. -/
private def lockAnswers : List LockStep → Guarded (List Int) → List Document
  | [], _ => []
  | step :: rest, guarded =>
      let (panicked, guarded) := guarded.hold (holdStep step)
      .record
        [("panicked", .boolean panicked), ("values", .list (guarded.value.map .integer))] ::
          lockAnswers rest guarded

/-- What a step on the store comes to: its result, the handle released by it, and the store. -/
private def custodyStep (store : Custody) : CustodyStep → Bool × Option Handle × Custody
  | .insert fd name =>
      let (previous, store) := store.insert fd (.exposing name fd)
      (previous.isSome, previous, store)
  | .remove fd =>
      let (removed, store) := store.remove fd
      (removed.isSome, removed, store)
  | .contains fd => (store.contains fd, none, store)

/-- What steps on the store come to. -/
private def custodyAnswers : List CustodyStep → Custody → List Document × Custody
  | [], store => ([], store)
  | step :: rest, store =>
      let (result, released, store) := custodyStep store step
      let document : Document :=
        .record
          [("r", .boolean result), ("len", .count store.size),
           ("dropped", .texts (released.toList.map Handle.name))]
      let (documents, last) := custodyAnswers rest store
      (document :: documents, last)

/-- The answer to a question. -/
def answer : Question → Document
  | .interest first second => interestAnswer first second
  | .event raw => eventAnswer raw
  | .settings changes =>
      .record
        [("config", settingsDocument (.build changes)), ("default", settingsDocument {})]
  | .error cause => errorAnswer cause
  | .completion whole => completionAnswer whole
  | .lock steps => .record [("steps", .list (lockAnswers steps ⟨[], false⟩))]
  | .custody steps =>
      let (documents, last) := custodyAnswers steps .empty
      .record
        [("steps", .list documents),
         ("end", .texts (last.all.map Handle.name).mergeSort)]

end Question

end Proactor
