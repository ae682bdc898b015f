import Proactor.Proofs.Signals

/-!
# Handling what is reported

A loop waits for events, handles those of the batch one after the other, and waits again. This
module follows the events from the answer to a wait to the move that handles them. `Ledger` says
that those handled so far, with what is left of the batch, are those reported so far.

The loop keeps one buffer for all its waits. `EventBuffer` is that buffer, and whatever an earlier
wait has left in it makes no difference.
-/

namespace Proactor

open EventLoop

variable {σ : Type}

/-! ## The buffer for events -/

/-- A buffer for events: the memory with whatever is in it, and how many events the last wait has
reported. -/
structure EventBuffer where
  entries : List RawEvent
  filled : Nat

namespace EventBuffer

/-- The events that the last wait has reported. -/
def events (buffer : EventBuffer) : List Event :=
  (buffer.entries.take buffer.filled).map Event.ofRaw

/-- Wait until there are events, which are written over the first entries. -/
def waitOn (buffer : EventBuffer) (source : Source) (timeout : Option Duration) :
    Program σ (Except Fault Unit × EventBuffer) :=
  let cleared : EventBuffer := { buffer with filled := 0 }
  match source.live with
  | .error fault => return (.error fault, cleared)
  | .ok descriptor => do
      let millis := timeout.map fun duration => min duration.millis Source.waitLimit
      match ← Program.ask
        (.wait descriptor (min buffer.entries.length Source.waitLimit) millis) with
      | .error errno => return (.error (.system errno), cleared)
      | .ok events =>
          if events.length ≤ buffer.entries.length then
            return (.ok (), ⟨events ++ buffer.entries.drop events.length, events.length⟩)
          else .panic .batchOverflow

/-- What a loop does when it waits with a buffer. -/
def waitMove (setup : Setup) (buffer : EventBuffer) (side : Side σ) :
    Program σ (Stage σ × EventBuffer) := do
  match ← buffer.waitOn side.source none with
  | (.ok (), buffer) => return (.handling buffer.events, buffer)
  | (.error fault, buffer) =>
      if fault.errno?.map Errno.kind = some .interrupted then return (.waiting, buffer)
      else
        Program.log (.waitFailed setup.direction fault)
        return (.ended (.waitFailed fault), buffer)

variable {buffer : EventBuffer}

/-- What the buffer holds after a wait. Its size stays, and after a wait that fails it gives no
events. -/
theorem waitOn_yields {source : Source} {timeout : Option Duration} :
    (buffer.waitOn source timeout : Program σ _).Yields fun answer =>
      answer.2.entries.length = buffer.entries.length ∧
        ∀ fault, answer.1 = .error fault → answer.2.events = [] := by
  unfold waitOn
  dsimp only
  split
  · exact ⟨rfl, fun _ _ => rfl⟩
  · refine .bind fun answer => ?_
    cases answer with
    | error errno => exact ⟨rfl, fun _ _ => rfl⟩
    | ok events =>
        dsimp only
        split
        · rename_i hfits
          refine ⟨?_, nofun⟩
          rw [List.length_append, List.length_drop]
          exact Nat.add_sub_cancel' hfits
        · trivial

/-- A wait with a buffer is a wait, and the buffer gives the events that are reported. -/
theorem waitOn_eq (source : Source) (timeout : Option Duration) :
    (source.wait buffer.entries.length timeout : Program σ _) =
      buffer.waitOn source timeout >>= fun answer =>
        pure (answer.1.map fun _ => answer.2.events) := by
  unfold Source.wait waitOn
  dsimp only
  cases source.live with
  | error fault => rfl
  | ok descriptor =>
      refine congrArg (Program.call _) (funext fun answer => ?_)
      cases answer with
      | error errno => rfl
      | ok reported =>
          show (ite _ _ _ : Program σ _) = (ite _ _ _ >>= _)
          split
          · rw [pure_bind]
            refine congrArg (fun batch => pure (Except.ok batch)) ?_
            rw [events, List.take_left]
          · rfl

/-- Whatever is in its buffer, a loop that waits with it makes the same move. -/
theorem waitMove_eq {setup : Setup} (hsize : buffer.entries.length = setup.batch) :
    Stage.waitMove (σ := σ) setup =
      .shared fun side => buffer.waitMove setup side >>= fun answer => pure answer.1 := by
  refine congrArg Move.shared (funext fun side => ?_)
  rw [← hsize, waitOn_eq, waitMove, LawfulMonad.bind_assoc, LawfulMonad.bind_assoc]
  refine congrArg _ (funext fun answer => ?_)
  obtain ⟨result, after⟩ := answer
  cases result with
  | ok value => rfl
  | error fault =>
      show ite _ _ _ = (ite _ _ _ >>= _)
      split <;> rfl

/-- After a wait the buffer gives the batch of the loop, and no events if the wait has failed or
has been interrupted. -/
theorem waitMove_yields {setup : Setup} {side : Side σ} :
    (buffer.waitMove setup side).Yields fun answer =>
      answer.2.entries.length = buffer.entries.length ∧ answer.2.events = answer.1.batch := by
  refine waitOn_yields.chain fun answer hanswer => ?_
  obtain ⟨result, after⟩ := answer
  obtain ⟨hsize, hevents⟩ := hanswer
  cases result with
  | ok value => exact ⟨hsize, rfl⟩
  | error fault =>
      dsimp only
      split
      · exact ⟨hsize, hevents fault rfl⟩
      · exact .bind fun _ => ⟨hsize, hevents fault rfl⟩

end EventBuffer

/-! ## What moves come to -/

/-- The loop does something else than wait for events or turn to the next one. -/
def EventLoop.Stage.isBusy : Stage σ → Bool
  | draining _ | attempting _ _ | settling _ _ _ | announcing _ _ | delivering _ _ _ => true
  | starting | waiting | handling _ | ended _ => false

/-- The lane after a shared move. -/
def Side.reached (side : Side σ) : Outcome (Stage σ) → Lane σ
  | .returned stage => ⟨side.afterStage stage, stage⟩
  | .panicked cause => ⟨side.afterStage (.ended (.panicked cause)), .ended (.panicked cause)⟩

/-- The lane after an exclusive move. -/
def Side.reachedWith (side : Side σ) : Outcome (Stage σ × Side σ) → Lane σ
  | .returned (stage, changed) => ⟨changed.afterStage stage, stage⟩
  | .panicked cause => ⟨side.afterStage (.ended (.panicked cause)), .ended (.panicked cause)⟩

namespace Lane

variable {setup : Setup} {lane next : Lane σ} {exchanges : List (Exchange σ)}

/-- A move that leaves the side alone is a run of its program, and leads to the stage that it
returns. -/
theorem moves_shared {act : Side σ → Program σ (Stage σ)}
    (hmove : lane.stage.move setup = .shared act) :
    Moves setup lane exchanges next ↔
      ∃ outcome, (act lane.side).Runs exchanges outcome ∧ next = lane.side.reached outcome := by
  constructor
  · intro h
    cases h with
    | shared hother hact | sharedPanic hother hact =>
        cases hmove.symm.trans hother
        exact ⟨_, hact, rfl⟩
    | exclusive hother | exclusivePanic hother => cases hmove.symm.trans hother
  · rintro ⟨outcome, hruns, rfl⟩
    cases outcome with
    | returned stage => exact .shared hmove hruns
    | panicked cause => exact .sharedPanic hmove hruns

/-- A move that changes the side is a run of its program, and leads to the stage and the side that
it returns. -/
theorem moves_exclusive {act : Side σ → Program σ (Stage σ × Side σ)}
    (hmove : lane.stage.move setup = .exclusive act) :
    Moves setup lane exchanges next ↔
      ∃ outcome, (act lane.side).Runs exchanges outcome ∧
        next = lane.side.reachedWith outcome := by
  constructor
  · intro h
    cases h with
    | exclusive hother hact | exclusivePanic hother hact =>
        cases hmove.symm.trans hother
        exact ⟨_, hact, rfl⟩
    | shared hother | sharedPanic hother => cases hmove.symm.trans hother
  · rintro ⟨outcome, hruns, rfl⟩
    cases outcome with
    | returned answer => exact .exclusive hmove hruns
    | panicked cause => exact .exclusivePanic hmove hruns

/-- What a wait comes to. A wait that a signal has ended (4) is repeated, and any other failure
ends the loop. -/
inductive Waited (setup : Setup) (side : Side σ) : List (Exchange σ) → Lane σ → Prop where
  | reported {events : List RawEvent} (hfits : events.length ≤ setup.batch) :
      Waited setup side
        [⟨.wait side.source.descriptor (min setup.batch Source.waitLimit) none, .ok events⟩]
        ⟨side, .handling (events.map Proactor.Event.ofRaw)⟩
  | interrupted {errno : Errno} (hcode : errno.code = 4) :
      Waited setup side
        [⟨.wait side.source.descriptor (min setup.batch Source.waitLimit) none, .error errno⟩]
        ⟨side, .waiting⟩
  | failed {errno : Errno} (hcode : errno.code ≠ 4) :
      Waited setup side
        [⟨.wait side.source.descriptor (min setup.batch Source.waitLimit) none, .error errno⟩,
          ⟨.log (.waitFailed setup.direction (.system errno)), ()⟩]
        ⟨{ side with dispatching := false }, .ended (.waitFailed (.system errno))⟩
  | shut (hclosed : side.source.closed = true) :
      Waited setup side
        [⟨.log (.waitFailed setup.direction (.system .badDescriptor)), ()⟩]
        ⟨{ side with dispatching := false }, .ended (.waitFailed (.system .badDescriptor))⟩
  | overfull {events : List RawEvent} (hoverfull : setup.batch < events.length) :
      Waited setup side
        [⟨.wait side.source.descriptor (min setup.batch Source.waitLimit) none, .ok events⟩]
        ⟨{ side with dispatching := false }, .ended (.panicked .batchOverflow)⟩

/-- What a loop can do while it waits is listed in `Waited`. -/
theorem Moves.waited (h : Moves setup lane exchanges next) (hstage : lane.stage = .waiting) :
    Waited setup lane.side exchanges next := by
  have hmove : lane.stage.move setup = Stage.waitMove setup := by
    rw [hstage]
    rfl
  obtain ⟨outcome, hruns, rfl⟩ := (moves_shared hmove).mp h
  unfold Source.wait Source.live at hruns
  cases hclosed : lane.side.source.closed with
  | true =>
      rw [hclosed] at hruns
      obtain ⟨_, rest, rfl, rfl, rfl⟩ := hruns
      exact .shut hclosed
  | false =>
      rw [hclosed] at hruns
      obtain ⟨answer, rest, rfl, hrest⟩ := hruns
      cases answer with
      | ok events =>
          change (ite _ _ _ >>= _ : Program σ _).Runs _ _ at hrest
          split at hrest
          · rename_i hfits
            obtain ⟨rfl, rfl⟩ := hrest
            exact .reported hfits
          · rename_i hoverfull
            obtain ⟨rfl, rfl⟩ := hrest
            exact .overfull (Nat.lt_of_not_le hoverfull)
      | error errno =>
          change (ite _ _ _ : Program σ _).Runs _ _ at hrest
          split at hrest
          · rename_i hkind
            obtain ⟨rfl, rfl⟩ := hrest
            exact .interrupted (Errno.kind_eq_interrupted_iff.mp (Option.some.inj hkind))
          · rename_i hkind
            obtain ⟨_, last, rfl, rfl, rfl⟩ := hrest
            exact .failed fun hcode =>
              hkind (congrArg some (Errno.kind_eq_interrupted_iff.mpr hcode))

/-- What handling a wake-up comes to. -/
inductive Woken (setup : Setup) (side : Side σ) (batch : List Proactor.Event) :
    List (Exchange σ) → Lane σ → Prop where
  | spurious : Woken setup side batch [⟨.stopping, false⟩] ⟨side, .draining batch⟩
  | stopped : Woken setup side batch
      [⟨.stopping, true⟩, ⟨.log (.loopStopping setup.direction), ()⟩]
      ⟨{ side with dispatching := false }, .ended .stopped⟩

/-- What a loop can do with a notification is listed in `Woken`. -/
theorem Moves.woken (h : Moves setup lane exchanges next) {event : Proactor.Event}
    {batch : List Proactor.Event} (hstage : lane.stage = .handling (event :: batch))
    (hevent : event.isNotification = true) : Woken setup lane.side batch exchanges next := by
  have hmove : lane.stage.move setup = Stage.wakeMove setup batch := by
    rw [hstage, move_handling, if_pos hevent]
  obtain ⟨outcome, hruns, rfl⟩ := (moves_shared hmove).mp h
  obtain ⟨answer, rest, rfl, hrest⟩ := hruns
  cases answer with
  | true =>
      obtain ⟨_, last, rfl, rfl, rfl⟩ := hrest
      exact .stopped
  | false =>
      obtain ⟨rfl, rfl⟩ := hrest
      exact .spurious

/-- What handling the readiness of a descriptor comes to. -/
inductive Readied (setup : Setup) (side : Side σ) (event : Proactor.Event)
    (batch : List Proactor.Event) : List (Exchange σ) → Lane σ → Prop where
  | checkedOut {operation : Operation σ} {changed : Side σ}
      (hcheck : side.checkOut event.fd = some (operation, changed)) :
      Readied setup side event batch
        [⟨.log (.descriptorReady event.key event.readiness setup.direction), ()⟩]
        ⟨changed, .attempting operation batch⟩
  | nothing (hcheck : side.checkOut event.fd = none) :
      Readied setup side event batch
        [⟨.log (.descriptorReady event.key event.readiness setup.direction), ()⟩,
          ⟨.log (.nothingPending event.fd setup.direction), ()⟩]
        ⟨side, .handling batch⟩

/-- What a loop can do with an event of a descriptor is listed in `Readied`. -/
theorem Moves.readied (h : Moves setup lane exchanges next) {event : Proactor.Event}
    {batch : List Proactor.Event} (hstage : lane.stage = .handling (event :: batch))
    (hevent : event.isNotification = false) :
    Readied setup lane.side event batch exchanges next := by
  have hmove : lane.stage.move setup = Stage.readyMove setup event batch := by
    rw [hstage, move_handling, if_neg (by rw [hevent]; exact Bool.false_ne_true)]
  obtain ⟨outcome, hruns, rfl⟩ := (moves_exclusive hmove).mp h
  obtain ⟨_, rest, rfl, hrest⟩ := hruns
  cases hcheck : lane.side.checkOut event.fd with
  | none =>
      rw [hcheck] at hrest
      obtain ⟨_, last, rfl, rfl, rfl⟩ := hrest
      exact .nothing hcheck
  | some checked =>
      rw [hcheck] at hrest
      obtain ⟨rfl, rfl⟩ := hrest
      exact .checkedOut hcheck

/-- What emptying the wake pipe comes to. The batch is returned to when nothing more is read. -/
inductive Drained (side : Side σ) (batch : List Proactor.Event) :
    List (Exchange σ) → Lane σ → Prop where
  | more {byte : UInt8} {bytes : Bytes} : Drained side batch
      [⟨.read side.source.wakePipe.readEnd WakePipe.drainChunk, .ok (byte :: bytes)⟩]
      ⟨side, .draining batch⟩
  | empty : Drained side batch
      [⟨.read side.source.wakePipe.readEnd WakePipe.drainChunk, .ok []⟩] ⟨side, .handling batch⟩
  | failed (errno : Errno) : Drained side batch
      [⟨.read side.source.wakePipe.readEnd WakePipe.drainChunk, .error errno⟩]
      ⟨side, .handling batch⟩

/-- What a loop can do while it drains its wake pipe is listed in `Drained`. -/
theorem Moves.drained (h : Moves setup lane exchanges next) {batch : List Proactor.Event}
    (hstage : lane.stage = .draining batch) : Drained lane.side batch exchanges next := by
  have hmove : lane.stage.move setup = .shared fun side => do
      if ← side.source.drainStep then return .draining batch else return .handling batch := by
    rw [hstage]
    rfl
  obtain ⟨outcome, ⟨answer, rest, rfl, hrest⟩, rfl⟩ := (moves_shared hmove).mp h
  cases answer with
  | error errno =>
      obtain ⟨rfl, rfl⟩ := hrest
      exact .failed errno
  | ok bytes =>
      cases bytes with
      | nil =>
          obtain ⟨rfl, rfl⟩ := hrest
          exact .empty
      | cons byte bytes =>
          obtain ⟨rfl, rfl⟩ := hrest
          exact .more

/-- A loop starts by making room for its events. It asks for nothing and ends only if it cannot. -/
theorem Moves.of_starting (h : Moves setup lane exchanges next) (hstage : lane.stage = .starting) :
    exchanges = [] ∧ (next = ⟨lane.side, .waiting⟩ ∨
      next = ⟨{ lane.side with dispatching := false }, .ended (.panicked .batchTooLarge)⟩) := by
  have hmove : lane.stage.move setup =
      .shared fun _ => Source.reserve setup.batch >>= fun _ => pure .waiting := by
    rw [hstage]
    rfl
  obtain ⟨outcome, hruns, rfl⟩ := (moves_shared hmove).mp h
  change (ite _ _ _ >>= _ : Program σ _).Runs _ _ at hruns
  split at hruns
  · obtain ⟨rfl, rfl⟩ := hruns
    exact ⟨rfl, .inl rfl⟩
  · obtain ⟨rfl, rfl⟩ := hruns
    exact ⟨rfl, .inr rfl⟩

/-- A loop that has handled its batch asks for nothing and waits again. -/
theorem Moves.of_handled (h : Moves setup lane exchanges next)
    (hstage : lane.stage = .handling []) :
    exchanges = [] ∧ next = ⟨lane.side, .waiting⟩ := by
  have hmove : lane.stage.move setup = .shared fun _ => pure .waiting := by
    rw [hstage]
    rfl
  obtain ⟨outcome, ⟨rfl, rfl⟩, rfl⟩ := (moves_shared hmove).mp h
  exact ⟨rfl, rfl⟩

/-- A loop that is over asks for nothing and stays as it is, with its flag down. -/
theorem Moves.of_over (h : Moves setup lane exchanges next) {ending : Ending}
    (hstage : lane.stage = .ended ending) :
    exchanges = [] ∧ next = ⟨{ lane.side with dispatching := false }, .ended ending⟩ := by
  have hmove : lane.stage.move setup = .shared fun _ => pure (.ended ending) := by
    rw [hstage]
    rfl
  obtain ⟨outcome, ⟨rfl, rfl⟩, rfl⟩ := (moves_shared hmove).mp h
  exact ⟨rfl, rfl⟩

/-- A loop that is busy keeps its batch, or it panics. -/
theorem Moves.of_busy (h : Moves setup lane exchanges next) (hbusy : lane.stage.isBusy = true) :
    (next.stage.isEnded = false ∧ next.stage.batch = lane.stage.batch) ∨
      ∃ cause, next.stage = .ended (.panicked cause) := by
  cases h with
  | sharedPanic | exclusivePanic => exact .inr ⟨_, rfl⟩
  | shared hmove hact =>
      have hfollows := (shared_follows hmove _).of_returns hact
      refine .inl ?_
      generalize lane.stage = before at hfollows hbusy
      cases hfollows with
      | started | interrupted | waited | failed | exhausted | stopped | woken | ended => cases hbusy
      | draining | drained | attempted | announced | handed | delivering | delivered =>
          exact ⟨rfl, rfl⟩
  | exclusive hmove hact =>
      have hfollows := (exclusive_follows hmove _).of_returns hact
      generalize lane.stage = before at hfollows hbusy
      cases hfollows with
      | checkedOut | passedOver => cases hbusy
      | settled => exact .inl ⟨rfl, rfl⟩
      | misplaced => exact .inr ⟨_, rfl⟩

end Lane

/-! ## Waits -/

/-- The batches of events that are reported in an exchange. -/
def Exchange.batches : Exchange σ → List (List Event)
  | ⟨.wait _ _ _, .ok events⟩ => [events.map Event.ofRaw]
  | _ => []

/-- The request is for events. -/
def Request.isWait : Request σ → Bool
  | .wait _ _ _ => true
  | _ => false

namespace Request

variable {request : Request σ}

/-- Telling the log something does not wait. -/
theorem Logs.isWait_eq (h : request.Logs) : request.isWait = false := by
  obtain ⟨record, rfl⟩ := h
  rfl

/-- Tending a registration does not wait. -/
theorem Tends.isWait_eq {source : Source} {fd : Fd} {event : RawEvent}
    (h : request.Tends source fd event) : request.isWait = false := by
  cases h <;> rfl

/-- Offering a completion to a sink does not wait for events. -/
theorem Delivers.isWait_eq (h : request.Delivers) : request.isWait = false := by
  cases h <;> rfl

/-- Transferring bytes does not wait for events. -/
theorem isWait_eq_of_transferOn? {fd : Fd} (h : request.transferOn? = some fd) :
    request.isWait = false := by
  cases request with
  | wait => cases h
  | _ => rfl

/-- Only a loop that waits for events asks for them. -/
theorem isWait_eq_of_mayAsk {setup : Setup} {side : Side σ} {stage : Stage σ}
    (h : stage.MayAsk setup side request) (hstage : stage ≠ .waiting) :
    request.isWait = false := by
  cases stage with
  | starting | ended => exact h.elim
  | waiting => exact absurd rfl hstage
  | handling =>
      rcases h with rfl | hlogs
      · rfl
      · exact hlogs.isWait_eq
  | draining =>
      obtain ⟨count, rfl⟩ := h
      rfl
  | attempting operation batch =>
      rcases h with htransfer | hlogs
      · exact isWait_eq_of_transferOn? htransfer
      · exact hlogs.isWait_eq
  | settling => exact Tends.isWait_eq h
  | announcing => exact Logs.isWait_eq h
  | delivering => exact Delivers.isWait_eq h

end Request

/-- Where no wait is asked for, no batch is reported. -/
theorem batches_eq_nil {exchanges : List (Exchange σ)}
    (h : ∀ exchange ∈ exchanges, exchange.request.isWait = false) :
    exchanges.flatMap Exchange.batches = [] := by
  refine List.flatMap_eq_nil_iff.mpr fun exchange hexchange => ?_
  have hnone := h exchange hexchange
  obtain ⟨request, answer⟩ := exchange
  cases request with
  | wait => cases hnone
  | _ => rfl

/-- A submission does not wait for events. -/
theorem Side.submit_asksNoWait {side : Side σ} {operation : Operation σ}
    {policy : OverlapPolicy} :
    (side.submit operation policy).Asks fun request => request.isWait = false :=
  Program.Asks.bind (Outstanding.submit_tends.mono fun _ => Request.Tends.isWait_eq)
    fun _ => Program.asks_pure _

/-- Closing a side does not wait for events. -/
theorem Side.close_asksNoWait {side : Side σ} :
    side.close.Asks fun request => request.isWait = false := by
  refine Program.Asks.mono (Source.close_asks.bind fun _ => Program.asks_pure _) ?_
  rintro request rfl
  rfl

namespace Lane

/-! ## Paths -/

/-- What can happen to a lane from some point on, and what it leads to. The last event comes
first. -/
inductive Path (setup : Setup) (start : Lane σ) : List (Event σ) → Lane σ → Prop where
  | here : Path setup start [] start
  | submit {history : List (Event σ)} {lane : Lane σ} {exchanges : List (Exchange σ)}
      {result : Except ReactorError (Option (Operation σ))} {side : Side σ}
      (h : Path setup start history lane) (operation : Operation σ) (policy : OverlapPolicy)
      (hsubmit : (lane.side.submit operation policy).Returns exchanges (result, side)) :
      Path setup start (.submitted operation policy exchanges result :: history)
        { lane with side }
  | close {history : List (Event σ)} {lane : Lane σ} {exchanges : List (Exchange σ)}
      {result : Except Fault Unit} {side : Side σ} (h : Path setup start history lane)
      (hclose : lane.side.close.Returns exchanges (result, side)) :
      Path setup start (.closed exchanges :: history) { lane with side }
  | move {history : List (Event σ)} {lane next : Lane σ} {exchanges : List (Exchange σ)}
      (h : Path setup start history lane) (hmoves : Moves setup lane exchanges next) :
      Path setup start (.moved lane exchanges next :: history) next

variable {setup : Setup} {start lane next : Lane σ} {history : List (Event σ)}
  {exchanges : List (Exchange σ)}

/-- A run of a lane is a path from its start. -/
theorem Run.path {history : List (Event (Numbered σ))} {lane : Lane (Numbered σ)}
    (h : Run setup history lane) :
    ∃ source dispatching,
      Path setup ⟨⟨source, .empty setup.direction, dispatching⟩, .starting⟩ history lane := by
  induction h with
  | opened source dispatching => exact ⟨source, dispatching, .here⟩
  | submit _ fd buffer sink policy hsubmit ih =>
      obtain ⟨source, dispatching, hpath⟩ := ih
      exact ⟨source, dispatching, hpath.submit _ _ hsubmit⟩
  | close _ hclose ih =>
      obtain ⟨source, dispatching, hpath⟩ := ih
      exact ⟨source, dispatching, hpath.close hclose⟩
  | move _ hmoves ih =>
      obtain ⟨source, dispatching, hpath⟩ := ih
      exact ⟨source, dispatching, hpath.move hmoves⟩

/-- What is read off the events of a history, from the first one to the last. -/
def collect {β : Type} (read : Event σ → List β) (history : List (Event σ)) : List β :=
  history.reverse.flatMap read

/-- What is read off the last event comes after what is read off the history before it. -/
@[simp]
theorem collect_cons {β : Type} (read : Event σ → List β) (event : Event σ)
    (history : List (Event σ)) :
    collect read (event :: history) = collect read history ++ read event := by
  simp [collect]

namespace Event

/-- The batches that are reported meanwhile. -/
def batches (event : Event σ) : List (List Proactor.Event) :=
  event.exchanges.flatMap Exchange.batches

/-- The event that the loop turns to. -/
def handled : Event σ → List Proactor.Event
  | moved ⟨_, .handling (event :: _)⟩ _ _ => [event]
  | _ => []

/-- The descriptor that the loop turns to. It tells the log the key. -/
def dispatched : Event σ → List Fd
  | moved ⟨_, .handling _⟩ exchanges _ => exchanges.flatMap fun exchange =>
      match exchange.request with
      | .log (.descriptorReady key _ _) => [Fd.ofKey key]
      | _ => []
  | _ => []

end Event

/-- The batches that have been reported in a history. -/
def batches (history : List (Event σ)) : List (List Proactor.Event) :=
  collect Event.batches history

/-- The events that have been handled in a history. -/
def handled (history : List (Event σ)) : List Proactor.Event :=
  collect Event.handled history

/-! ## The ledger of events -/

/-- What remains unhandled of the last batch when the loop is over. -/
def LeftBy (history : List (Event σ)) (left : List Proactor.Event) : Ending → Prop
  | .stopped => ∃ earlier event batch front, handled history = earlier ++ [event] ∧
      event.isNotification = true ∧ (batches history).getLast? = some batch ∧
      batch = front ++ event :: left
  | .waitFailed _ => left = []
  | .panicked _ => True

/-- The events reported so far are those that have been handled, in the same order, and those that
are left. -/
structure Ledger (history : List (Event σ)) (lane : Lane σ) : Prop where
  live : lane.stage.isEnded = false →
    (batches history).flatten = handled history ++ lane.stage.batch ∧
      ∃ front, (batches history).getLast?.getD [] = front ++ lane.stage.batch
  gone : ∀ ending, lane.stage = .ended ending → ∃ left,
    (batches history).flatten = handled history ++ left ∧ LeftBy history left ending

/-- Nothing has been reported or handled in the meantime. -/
theorem Ledger.of_same {before after : List (Event σ)} (h : Ledger before lane)
    (hbatches : batches after = batches before) (hhandled : handled after = handled before)
    (hstage : next.stage.isEnded = lane.stage.isEnded ∧ next.stage.batch = lane.stage.batch)
    (hended : ∀ ending, next.stage = .ended ending → lane.stage = .ended ending) :
    Ledger after next := by
  constructor
  case live =>
    intro hlive
    rw [hbatches, hhandled, hstage.2]
    exact h.live (hstage.1.symm.trans hlive)
  case gone =>
    intro ending hnext
    obtain ⟨left, hflatten, hleft⟩ := h.gone ending (hended ending hnext)
    refine ⟨left, by rw [hbatches, hhandled, hflatten], ?_⟩
    cases ending with
    | stopped =>
        unfold LeftBy at hleft ⊢
        rwa [hbatches, hhandled]
    | waitFailed => exact hleft
    | panicked => trivial

/-- A loop that has an event in its batch handles the first one. -/
theorem Event.handled_moved {event : Proactor.Event} {batch : List Proactor.Event}
    (hstage : lane.stage = .handling (event :: batch)) :
    (moved lane exchanges next).handled = [event] := by
  obtain ⟨side, stage⟩ := lane
  subst hstage
  rfl

/-- A move without an event at hand handles none. -/
theorem Event.handled_eq_nil (h : ∀ event batch, lane.stage ≠ .handling (event :: batch)) :
    (moved lane exchanges next).handled = [] := by
  obtain ⟨side, stage⟩ := lane
  cases stage with
  | handling batch =>
      cases batch with
      | nil => rfl
      | cons event batch => exact absurd rfl (h event batch)
  | _ => rfl

/-- The batches reported by a move come after the earlier ones. -/
theorem batches_moved : batches (.moved lane exchanges next :: history) =
    batches history ++ exchanges.flatMap Exchange.batches :=
  collect_cons _ _ _

/-- A move that neither waits nor turns to an event leaves the ledger as it is. -/
theorem Ledger.idle (h : Ledger history lane)
    (hbatches : exchanges.flatMap Exchange.batches = [])
    (hhandled : ∀ event batch, lane.stage ≠ .handling (event :: batch))
    (hlive : lane.stage.isEnded = false)
    (hnext : (next.stage.isEnded = false ∧ next.stage.batch = lane.stage.batch) ∨
      ∃ cause, next.stage = .ended (.panicked cause)) :
    Ledger (.moved lane exchanges next :: history) next := by
  have hsame : batches (.moved lane exchanges next :: history) = batches history := by
    rw [batches_moved, hbatches, List.append_nil]
  have hquiet : handled (.moved lane exchanges next :: history) = handled history := by
    rw [handled, collect_cons, Event.handled_eq_nil hhandled, List.append_nil]
    rfl
  rcases hnext with ⟨hgoes, hbatch⟩ | ⟨cause, hpanicked⟩
  · refine h.of_same hsame hquiet ⟨hgoes.trans hlive.symm, hbatch⟩ fun ending hended => ?_
    rw [hended] at hgoes
    cases hgoes
  · constructor
    case live =>
      intro hgoes
      rw [hpanicked] at hgoes
      cases hgoes
    case gone =>
      intro ending hended
      cases hpanicked.symm.trans hended
      exact ⟨lane.stage.batch, by rw [hsame, hquiet]; exact (h.live hlive).1, trivial⟩

/-- The loop has waited. -/
theorem Ledger.waited (h : Ledger history lane) (hstage : lane.stage = .waiting)
    (hwaited : Waited setup lane.side exchanges next) :
    Ledger (.moved lane exchanges next :: history) next := by
  have hlive : lane.stage.isEnded = false := by rw [hstage]; rfl
  have hquiet : ∀ event batch, lane.stage ≠ .handling (event :: batch) := by
    intro event batch heq
    cases hstage.symm.trans heq
  have hbatch : lane.stage.batch = [] := by rw [hstage]; rfl
  have hhandled : handled (.moved lane exchanges next :: history) = handled history := by
    rw [handled, collect_cons, Event.handled_eq_nil hquiet, List.append_nil]
    rfl
  have hbefore := (h.live hlive).1
  rw [hbatch, List.append_nil] at hbefore
  cases hwaited with
  | interrupted => exact h.idle rfl hquiet hlive (.inl ⟨rfl, hbatch.symm⟩)
  | failed | shut =>
      refine ⟨nofun, fun ending hended => ⟨[], ?_, ?_⟩⟩
      · rw [batches_moved, hhandled, List.append_nil]
        exact (congrArg List.flatten (List.append_nil _)).trans hbefore
      · cases hended
        rfl
  | @reported events hfits =>
      refine ⟨fun _ => ⟨?_, [], ?_⟩, nofun⟩
      · rw [batches_moved, hhandled, List.flatten_append, hbefore]
        exact congrArg _ (List.append_nil _)
      · rw [batches_moved]
        show (batches history ++ [events.map Proactor.Event.ofRaw]).getLast?.getD [] = _
        rw [List.getLast?_concat]
        rfl
  | @overfull events hoverfull =>
      refine ⟨nofun, fun ending hended => ⟨events.map Proactor.Event.ofRaw, ?_, ?_⟩⟩
      · rw [batches_moved, hhandled, List.flatten_append, hbefore]
        exact congrArg _ (List.append_nil _)
      · cases hended
        trivial

/-- The loop has turned to the next event of its batch. -/
theorem Ledger.turned (h : Ledger history lane) {event : Proactor.Event}
    {batch : List Proactor.Event} (hstage : lane.stage = .handling (event :: batch))
    (hbatches : exchanges.flatMap Exchange.batches = [])
    (hnext : (next.stage.isEnded = false ∧ next.stage.batch = batch) ∨
      (event.isNotification = true ∧ next.stage = .ended .stopped)) :
    Ledger (.moved lane exchanges next :: history) next := by
  have hlive : lane.stage.isEnded = false := by rw [hstage]; rfl
  have hbatch : lane.stage.batch = event :: batch := by rw [hstage]; rfl
  have hsame : batches (.moved lane exchanges next :: history) = batches history := by
    rw [batches_moved, hbatches, List.append_nil]
  have hhandled : handled (.moved lane exchanges next :: history) = handled history ++ [event] := by
    rw [handled, collect_cons, Event.handled_moved hstage]
    rfl
  obtain ⟨hflatten, front, hlast⟩ := h.live hlive
  rw [hbatch] at hflatten hlast
  have hafter : (batches (.moved lane exchanges next :: history)).flatten =
      handled (.moved lane exchanges next :: history) ++ batch := by
    rw [hsame, hhandled, hflatten, List.append_assoc]
    rfl
  rcases hnext with ⟨hgoes, hrest⟩ | ⟨hevent, hstopped⟩
  · constructor
    case live =>
      intro _
      rw [hrest]
      refine ⟨hafter, front ++ [event], ?_⟩
      rw [hsame, hlast, List.append_assoc]
      rfl
    case gone =>
      intro ending hended
      rw [hended] at hgoes
      cases hgoes
  · constructor
    case live =>
      intro hgoes
      rw [hstopped] at hgoes
      cases hgoes
    case gone =>
      intro ending hended
      cases hstopped.symm.trans hended
      -- The loop is in its last batch, so the wake-up stands there, before what is left of it.
      refine ⟨batch, hafter, handled history, event, _, front, hhandled, hevent, ?_, rfl⟩
      rw [hsame]
      cases hgiven : (batches history).getLast? with
      | none =>
          rw [hgiven] at hlast
          simp at hlast
      | some given =>
          rw [hgiven] at hlast
          exact congrArg some hlast

/-- The ledger of events is kept by every move. -/
theorem Ledger.move (h : Ledger history lane) (hmoves : Moves setup lane exchanges next) :
    Ledger (.moved lane exchanges next :: history) next := by
  cases hstage : lane.stage with
  | ended ending =>
      obtain ⟨rfl, rfl⟩ := hmoves.of_over hstage
      refine h.of_same ?_ ?_ ⟨?_, ?_⟩ fun other hother => ?_
      · rw [batches_moved, List.flatMap_nil, List.append_nil]
      · rw [handled, collect_cons, Event.handled_eq_nil (by simp [hstage]), List.append_nil]
        rfl
      · rw [hstage]
      · rw [hstage]
      · rw [hstage]
        exact hother
  | starting =>
      obtain ⟨rfl, hnext⟩ := hmoves.of_starting hstage
      refine h.idle rfl (by simp [hstage]) (by rw [hstage]; rfl) ?_
      rcases hnext with rfl | rfl
      · exact .inl ⟨rfl, by rw [hstage]; rfl⟩
      · exact .inr ⟨_, rfl⟩
  | waiting => exact h.waited hstage (hmoves.waited hstage)
  | handling batch =>
      cases batch with
      | nil =>
          obtain ⟨rfl, rfl⟩ := hmoves.of_handled hstage
          exact h.idle rfl (by simp [hstage]) (by rw [hstage]; rfl)
            (.inl ⟨rfl, by rw [hstage]; rfl⟩)
      | cons event batch =>
          cases hevent : event.isNotification with
          | true =>
              cases hmoves.woken hstage hevent with
              | spurious => exact h.turned hstage rfl (.inl ⟨rfl, rfl⟩)
              | stopped => exact h.turned hstage rfl (.inr ⟨hevent, rfl⟩)
          | false =>
              cases hmoves.readied hstage hevent with
              | checkedOut | nothing => exact h.turned hstage rfl (.inl ⟨rfl, rfl⟩)
  | draining | attempting | settling | announcing | delivering =>
      -- A busy loop asks for no events, and its batch waits until it is done.
      have hbatches := batches_eq_nil fun exchange hexchange =>
        Request.isWait_eq_of_mayAsk (hmoves.mayAsk exchange hexchange) (by simp [hstage])
      exact h.idle hbatches (by simp [hstage]) (by rw [hstage]; rfl)
        (hmoves.of_busy (by rw [hstage]; rfl))

/-- On every path of a loop the ledger of its events is kept. -/
theorem Path.ledger (h : Path setup start history lane) (hstart : start.stage = .starting) :
    Ledger history lane := by
  -- The calls of others report nothing and handle nothing.
  have hdone : ∀ (event : Event σ) {history : List (Event σ)},
      (∀ exchange ∈ event.exchanges, exchange.request.isWait = false) → event.handled = [] →
        batches (event :: history) = batches history ∧
          handled (event :: history) = handled history := by
    intro event history hnone hhandled
    constructor
    · rw [batches, collect_cons, Event.batches, batches_eq_nil hnone, List.append_nil]
      rfl
    · rw [handled, collect_cons, hhandled, List.append_nil]
      rfl
  induction h with
  | here =>
      constructor
      case live => exact fun _ => by rw [hstart]; exact ⟨rfl, [], rfl⟩
      case gone =>
        intro ending hended
        cases hstart.symm.trans hended
  | submit _ operation policy hsubmit ih =>
      obtain ⟨hbatches, hhandled⟩ := hdone (.submitted operation policy _ _)
        (Side.submit_asksNoWait.request hsubmit) rfl
      exact ih.of_same hbatches hhandled ⟨rfl, rfl⟩ fun _ hended => hended
  | close _ hclose ih =>
      obtain ⟨hbatches, hhandled⟩ := hdone (.closed _)
        (Side.close_asksNoWait.request hclose) rfl
      exact ih.of_same hbatches hhandled ⟨rfl, rfl⟩ fun _ hended => hended
  | move _ hmoves ih => exact ih.move hmoves

/-! ## Descriptors -/

/-- The loop turns to the descriptor of the event that it handles, unless that is a wake-up. -/
theorem Moves.dispatched_eq (h : Moves setup lane exchanges next) :
    (Event.moved lane exchanges next).dispatched =
      ((Event.moved lane exchanges next).handled.filter
        fun event => !event.isNotification).map Proactor.Event.fd := by
  cases hstage : lane.stage with
  | handling batch =>
      cases batch with
      | nil =>
          obtain ⟨rfl, -⟩ := h.of_handled hstage
          obtain ⟨side, stage⟩ := lane
          subst hstage
          rfl
      | cons event batch =>
          rw [Event.handled_moved hstage]
          cases hevent : event.isNotification with
          | true =>
              rw [List.filter_cons_of_neg (by simp [hevent])]
              have hwoken := h.woken hstage hevent
              obtain ⟨side, stage⟩ := lane
              subst hstage
              cases hwoken <;> rfl
          | false =>
              rw [List.filter_cons_of_pos (by simp [hevent])]
              have hreadied := h.readied hstage hevent
              obtain ⟨side, stage⟩ := lane
              subst hstage
              cases hreadied <;> rfl
  | _ =>
      obtain ⟨side, stage⟩ := lane
      subst hstage
      rfl

/-- The loop turns to the descriptors of the events it handles, in the same order, and to nothing
for notifications. -/
theorem Path.dispatched_eq (h : Path setup start history lane) :
    collect Event.dispatched history =
      ((handled history).filter fun event => !event.isNotification).map Proactor.Event.fd := by
  induction h with
  | here => rfl
  | submit _ _ _ _ ih | close _ _ ih =>
      rw [handled, collect_cons, collect_cons]
      exact (congrArg (· ++ []) ih).trans (by simp [handled, Event.handled])
  | move _ hmoves ih =>
      rw [handled, collect_cons, collect_cons, List.filter_append, List.map_append,
        hmoves.dispatched_eq, ih]
      rfl

/-! ## What a loop makes of its events -/

/-- Every move in the history of a path is a move of its loop. -/
theorem Path.moves (h : Path setup start history lane) {before after : Lane σ}
    (hevent : .moved before exchanges after ∈ history) : Moves setup before exchanges after := by
  induction h with
  | here => cases hevent
  | submit _ _ _ _ ih | close _ _ ih =>
      rcases List.mem_cons.mp hevent with heq | hearlier
      · cases heq
      · exact ih hearlier
  | move _ hmoves ih =>
      rcases List.mem_cons.mp hevent with heq | hearlier
      · cases heq
        exact hmoves
      · exact ih hearlier

/-- Every wait is for as many events as the loop has room for, and for as long as it takes. -/
theorem Path.waits (h : Path setup start history lane) {event : Event σ} (hevent : event ∈ history)
    {fd : Fd} {capacity : Nat} {millis : Option Nat}
    {answer : (Request.wait fd capacity millis : Request σ).Answer}
    (hwait : ⟨.wait fd capacity millis, answer⟩ ∈ event.exchanges) :
    capacity = min (max 1 setup.capacity) 2147483647 ∧ millis = none := by
  induction h with
  | here => cases hevent
  | submit _ _ _ hsubmit ih =>
      rcases List.mem_cons.mp hevent with rfl | hearlier
      · cases Side.submit_asksNoWait.request hsubmit _ hwait
      · exact ih hearlier
  | close _ hclose ih =>
      rcases List.mem_cons.mp hevent with rfl | hearlier
      · cases Side.close_asksNoWait.request hclose _ hwait
      · exact ih hearlier
  | @move _ before _ _ _ hmoves ih =>
      rcases List.mem_cons.mp hevent with rfl | hearlier
      · have hstage : before.stage = .waiting := by
          by_contra hother
          cases Request.isWait_eq_of_mayAsk (hmoves.mayAsk _ hwait) hother
        cases hmoves.waited hstage with
        | reported | interrupted | overfull =>
            cases List.mem_singleton.mp hwait
            exact ⟨rfl, rfl⟩
        | failed =>
            rcases List.mem_cons.mp hwait with heq | hlog
            · cases heq
              exact ⟨rfl, rfl⟩
            · cases List.mem_singleton.mp hlog
        | shut => cases List.mem_singleton.mp hwait
      · exact ih hearlier

/-- What a loop makes of the events that are reported to it. -/
structure Dispatched (setup : Setup) (history : List (Event σ)) (lane : Lane σ) : Prop where
  /-- Every wait is for as many events as the loop has room for, and for as long as it takes. -/
  waits : ∀ event ∈ history, ∀ fd capacity millis
    (answer : (Request.wait fd capacity millis : Request σ).Answer),
    ⟨.wait fd capacity millis, answer⟩ ∈ event.exchanges →
      capacity = min (max 1 setup.capacity) 2147483647 ∧ millis = none
  /-- A loop that goes on has handled all events that have been reported, in their order, but for
  the rest of the last batch. -/
  live : lane.stage.isEnded = false →
    (batches history).flatten = handled history ++ lane.stage.batch
  /-- A loop that has been stopped has handled them up to the wake-up that it was stopped by, and
  one whose wait has failed has handled all of them. -/
  gone : ∀ ending, lane.stage = .ended ending → ∃ left,
    (batches history).flatten = handled history ++ left ∧ LeftBy history left ending
  /-- The loop turns to the descriptor of each event that it handles, once, unless the event is a
  wake-up. -/
  dispatched : collect Event.dispatched history =
    ((handled history).filter fun event => !event.isNotification).map Proactor.Event.fd
  /-- It then makes an attempt on the operation that waits there, and none if there is none. -/
  ready : ∀ before exchanges after event batch, .moved before exchanges after ∈ history →
    before.stage = .handling (event :: batch) → event.isNotification = false →
      Readied setup before.side event batch exchanges after
  /-- A wake-up ends the loop if the stop flag is up, and otherwise has it empty its wake pipe. -/
  woken : ∀ before exchanges after event batch, .moved before exchanges after ∈ history →
    before.stage = .handling (event :: batch) → event.isNotification = true →
      Woken setup before.side batch exchanges after
  /-- With an empty wake pipe the loop returns to its batch. -/
  drained : ∀ before exchanges after batch, .moved before exchanges after ∈ history →
    before.stage = .draining batch → Drained before.side batch exchanges after
  /-- The loop waits when its batch is handled. A wait that is interrupted is repeated, and one
  that fails ends the loop. -/
  waited : ∀ before exchanges after, .moved before exchanges after ∈ history →
    before.stage = .waiting → Waited setup before.side exchanges after
  /-- A loop that is over does nothing. -/
  quiet : ∀ before exchanges after, .moved before exchanges after ∈ history →
    before.stage.isEnded = true → exchanges = [] ∧ after.stage = before.stage
  /-- Whatever earlier waits have left in the buffer of the loop, it waits as it does, and the
  buffer gives its batch, without an event if the wait has failed or has been interrupted. -/
  buffered : ∀ buffer : EventBuffer, buffer.entries.length = setup.batch →
    Stage.waitMove (σ := σ) setup =
        .shared (fun side => buffer.waitMove setup side >>= fun answer => pure answer.1) ∧
      ∀ side : Side σ, (buffer.waitMove setup side).Yields fun answer =>
        answer.2.entries.length = setup.batch ∧ answer.2.events = answer.1.batch

/-- On every path the loop dispatches the events it is told of until it ends, in their order and
nothing else. -/
theorem Path.dispatches (h : Path setup start history lane) (hstart : start.stage = .starting) :
    Dispatched setup history lane := by
  have hledger := h.ledger hstart
  constructor
  case waits => exact fun _ hevent _ _ _ _ => h.waits hevent
  case live => exact fun hlive => (hledger.live hlive).1
  case gone => exact hledger.gone
  case dispatched => exact h.dispatched_eq
  case ready => exact fun _ _ _ _ _ hevent => (h.moves hevent).readied
  case woken => exact fun _ _ _ _ _ hevent => (h.moves hevent).woken
  case drained => exact fun _ _ _ _ hevent => (h.moves hevent).drained
  case waited => exact fun _ _ _ hevent => (h.moves hevent).waited
  case quiet =>
    intro before exchanges after hevent hended
    obtain ⟨ending, hstage⟩ := Stage.isEnded_iff.mp hended
    obtain ⟨hnone, rfl⟩ := (h.moves hevent).of_over hstage
    exact ⟨hnone, hstage.symm⟩
  case buffered =>
    intro buffer hsize
    refine ⟨EventBuffer.waitMove_eq hsize, fun side => ?_⟩
    rw [← hsize]
    exact EventBuffer.waitMove_yields

end Lane

end Proactor
