import Proactor.Proofs.DataTransfers
import Proactor.Proofs.Records
import Proactor.Reactor

/-!
# The stop flag and the wake pipes

The owner of a reactor ends its loops through signals that it shares with them:
the stop flag, and the bytes in the wake pipe of each side. `Signals.after` says
what an exchange changes about them, and `Signals.Allows` which answers a system
gives that keeps the flag and the pipes. A pipe is reported to the loop that
waits for it as long as there are bytes in it.

A loop leaves the signals alone as long as its operations are on descriptors of
others and it does not empty its pipe. Only a loop that finds the flag down when
it handles a wake-up does that, as `Moves.course` says.
-/

namespace Proactor

variable {σ : Type}

/-- The descriptors of a source: its own and the two ends of its wake pipe. -/
def Source.descriptors (source : Source) : List Fd :=
  [source.descriptor, source.wakePipe.readEnd, source.wakePipe.writeEnd]

/-! ## Signals -/

/-- What a system knows of the signals between the owner of a reactor and its loops. -/
structure Signals where
  /-- The stop flag. -/
  stopping : Bool
  /-- The number of bytes in the wake pipe of each side. -/
  held : Direction → Nat
  /-- What the wake pipe of each side is registered for with the source of its side. -/
  wakeEvent : Direction → Option RawEvent
  /-- The keys under which other descriptors have been registered with each source, also those
  of registrations that are no more. -/
  otherKeys : Direction → List UInt64

namespace Signals

/-- The flag is down, the pipes are empty, and nothing is registered. -/
def silent : Signals :=
  ⟨false, fun _ => 0, fun _ => none, fun _ => []⟩

variable (sources : Direction → Source)

/-- The signals after a change of a registration. -/
def afterControl (signals : Signals) (source : Fd) (change : Control) : Signals :=
  { signals with
    wakeEvent := fun direction =>
      if (sources direction).descriptor = source ∧
          (sources direction).wakePipe.readEnd = change.fd then change.event?
      else signals.wakeEvent direction
    otherKeys := fun direction =>
      if (sources direction).descriptor = source ∧
          (sources direction).wakePipe.readEnd ≠ change.fd then
        (change.event?.map RawEvent.key).toList ++ signals.otherKeys direction
      else signals.otherKeys direction }

/-- The signals after an exchange. -/
def after (signals : Signals) : Exchange σ → Signals
  | ⟨.raiseStop, _⟩ => { signals with stopping := true }
  | ⟨.write fd _, .ok count⟩ =>
      { signals with
        held := fun direction =>
          if (sources direction).wakePipe.writeEnd = fd then signals.held direction + count
          else signals.held direction }
  | ⟨.read fd _, .ok bytes⟩ =>
      { signals with
        held := fun direction =>
          if (sources direction).wakePipe.readEnd = fd then
            signals.held direction - bytes.length
          else signals.held direction }
  | ⟨.control source change, .ok _⟩ => signals.afterControl sources source change
  | _ => signals

/-- The signals after some exchanges. -/
def afterAll (signals : Signals) (exchanges : List (Exchange σ)) : Signals :=
  exchanges.foldl (after sources) signals

/-- What a wait can report. An event belongs to another descriptor or to a pipe with bytes in it.
As long as there are bytes in it, a pipe is reported whenever there is room, unless its
registration is disarmed by its first event. -/
structure Reports (signals : Signals) (direction : Direction) (capacity : Nat)
    (events : List RawEvent) : Prop where
  origin : ∀ event ∈ events, event.key ∈ signals.otherKeys direction ∨
    0 < signals.held direction ∧
      ∃ registered, signals.wakeEvent direction = some registered ∧ event.key = registered.key
  level : ∀ key, signals.wakeEvent direction = some ⟨key, EventMask.input⟩ →
    0 < signals.held direction → events.length < capacity → ∃ event ∈ events, event.key = key

/-- The answers that a system can give: the flag is as it is, writing into a pipe adds a byte
unless it is full, reading takes no more bytes out than there are, and a wait reports the pipe of
its source. -/
def Allows (signals : Signals) : Exchange σ → Prop
  | ⟨.stopping, answer⟩ => answer = signals.stopping
  | ⟨.write fd bytes, .ok count⟩ =>
      ∀ direction, (sources direction).wakePipe.writeEnd = fd → bytes ≠ [] → 0 < count
  | ⟨.write fd _, .error errno⟩ =>
      ∀ direction, (sources direction).wakePipe.writeEnd = fd → errno.kind = .wouldBlock →
        0 < signals.held direction
  | ⟨.read fd _, .ok bytes⟩ =>
      ∀ direction, (sources direction).wakePipe.readEnd = fd →
        bytes.length ≤ signals.held direction
  | ⟨.wait source capacity _, .ok events⟩ =>
      ∀ direction, (sources direction).descriptor = source →
        signals.Reports direction capacity events
  | _ => True

/-- All answers are such as the system can give at their time. -/
def Truthful : Signals → List (Exchange σ) → Prop
  | _, [] => True
  | signals, exchange :: exchanges =>
      signals.Allows sources exchange ∧ (signals.after sources exchange).Truthful exchanges

/-! ## Leaving the signals alone -/

/-- The flag, the pipes and their registrations are the same, and no other descriptor has been
registered under the key of wake-ups. -/
structure Undisturbed (signals later : Signals) : Prop where
  stopping : later.stopping = signals.stopping
  held : later.held = signals.held
  wakeEvent : later.wakeEvent = signals.wakeEvent
  otherKeys : ∀ direction, notifyKey ∈ later.otherKeys direction →
    notifyKey ∈ signals.otherKeys direction

end Signals

/-- The request leaves the stop flag and some descriptors alone, and registers no other descriptor
under the key of wake-ups. -/
def Request.Spares (own : List Fd) : Request σ → Prop
  | .raiseStop => False
  | .read fd _ => fd ∉ own
  | .send fd _ => fd ∉ own
  | .write fd _ => fd ∉ own
  | .control _ change => change.fd ∉ own ∧ ∀ event, change.event? = some event →
      event.key ≠ notifyKey
  | _ => True

namespace Signals

variable {sources : Direction → Source} {own : List Fd} {signals : Signals}

/-- Signals that stay as they are are undisturbed. -/
theorem Undisturbed.refl (signals : Signals) : signals.Undisturbed signals :=
  ⟨rfl, rfl, rfl, fun _ h => h⟩

/-- Signals that are left alone twice are undisturbed. -/
theorem Undisturbed.trans {later last : Signals} (h : signals.Undisturbed later)
    (hlast : later.Undisturbed last) : signals.Undisturbed last where
  stopping := hlast.stopping.trans h.stopping
  held := hlast.held.trans h.held
  wakeEvent := hlast.wakeEvent.trans h.wakeEvent
  otherKeys direction hkey := h.otherKeys direction (hlast.otherKeys direction hkey)

/-- A request that spares the ends of the wake pipes leaves the signals alone. -/
theorem undisturbed_after (hown : ∀ direction fd, fd ∈ (sources direction).descriptors → fd ∈ own)
    {exchange : Exchange σ} (h : exchange.request.Spares own) :
    signals.Undisturbed (signals.after sources exchange) := by
  have hread : ∀ direction, (sources direction).wakePipe.readEnd ∈ own := fun direction =>
    hown direction _ (by simp [Source.descriptors])
  have hwrite : ∀ direction, (sources direction).wakePipe.writeEnd ∈ own := fun direction =>
    hown direction _ (by simp [Source.descriptors])
  unfold after
  split
  · exact h.elim
  · refine ⟨rfl, funext fun direction => if_neg ?_, rfl, fun _ hkey => hkey⟩
    rintro rfl
    exact h (hwrite direction)
  · refine ⟨rfl, funext fun direction => if_neg ?_, rfl, fun _ hkey => hkey⟩
    rintro rfl
    exact h (hread direction)
  · rename_i source change answer
    obtain ⟨hfd, hkeys⟩ := h
    refine ⟨rfl, rfl, funext fun direction => if_neg ?_, fun direction hkey => ?_⟩
    · rintro ⟨-, heq⟩
      exact hfd (heq ▸ hread direction)
    · dsimp only [afterControl] at hkey
      split at hkey
      · rcases List.mem_append.mp hkey with hnew | hold
        · obtain ⟨event, hevent, heq⟩ := Option.map_eq_some_iff.mp (Option.mem_toList.mp hnew)
          exact absurd heq (hkeys event hevent)
        · exact hold
      · exact hkey
  · exact .refl _

/-- So do several of them. -/
theorem undisturbed_afterAll
    (hown : ∀ direction fd, fd ∈ (sources direction).descriptors → fd ∈ own)
    {exchanges : List (Exchange σ)}
    (h : ∀ exchange ∈ exchanges, exchange.request.Spares own) :
    signals.Undisturbed (signals.afterAll sources exchanges) := by
  induction exchanges generalizing signals with
  | nil => exact .refl _
  | cons exchange exchanges ih =>
      obtain ⟨hfirst, hrest⟩ := List.forall_mem_cons.mp h
      exact (undisturbed_after hown hfirst).trans (ih hrest)

end Signals

/-! ## Requests that leave the signals alone -/

/-- Only a negative descriptor could have the key of wake-ups. -/
theorem Fd.key_ne_notifyKey {fd : Fd} (h : fd.isNegative = false) : fd.key ≠ notifyKey := by
  intro heq
  have hfd : fd = ⟨-1⟩ := by
    rw [← Fd.ofKey_key fd, heq]
    rfl
  subst hfd
  cases h

namespace Request

variable {request : Request σ} {own : List Fd}

/-- Telling the log something leaves all signals alone. -/
theorem Logs.spares (h : request.Logs) : request.Spares own := by
  obtain ⟨record, rfl⟩ := h
  trivial

/-- Offering a completion to a sink leaves all signals alone. -/
theorem Delivers.spares (h : request.Delivers) : request.Spares own := by
  cases h <;> trivial

/-- Tending the registration of another descriptor leaves all signals alone. -/
theorem Tends.spares {source : Source} {table : Outstanding σ} {fd : Fd}
    (h : request.Tends source fd (table.event fd)) (hfd : fd ∉ own) : request.Spares own := by
  cases h with
  | set hchange hopen =>
      obtain rfl | rfl := hchange
      all_goals
        refine ⟨hfd, fun event hevent => ?_⟩
        cases hevent
        exact Fd.key_ne_notifyKey hopen
  | delete =>
      refine ⟨hfd, fun event hevent => ?_⟩
      cases hevent
  | log record => trivial

/-- Transferring bytes on another descriptor leaves all signals alone. -/
theorem spares_of_transferOn? {fd : Fd} (h : request.transferOn? = some fd) (hfd : fd ∉ own) :
    request.Spares own := by
  cases request with
  | read | send | write =>
      cases h
      exact hfd
  | _ => cases h

end Request

/-! ## Loops -/

/-- The events of a wait are those that the system has reported. -/
theorem Source.wait_returns {source : Source} {batch : Nat} {timeout : Option Duration}
    {exchanges : List (Exchange σ)} {events : List Event}
    (h : (source.wait batch timeout).Returns exchanges (.ok events)) :
    ∃ millis reported,
      exchanges = [⟨.wait source.descriptor (min batch waitLimit) millis, .ok reported⟩] ∧
        events = reported.map Event.ofRaw := by
  unfold wait at h
  split at h
  · cases (Program.returns_pure.mp h).2
  · rename_i hlive
    unfold live at hlive
    split at hlive <;> cases hlive
    obtain ⟨answer, rest, rfl, hrest⟩ := Program.returns_ask_bind.mp h
    cases answer with
    | error errno => cases (Program.returns_pure.mp hrest).2
    | ok reported =>
        dsimp only at hrest
        split at hrest
        · obtain ⟨rfl, hevents⟩ := Program.returns_pure.mp hrest
          cases hevents
          exact ⟨_, reported, rfl, rfl⟩
        · exact absurd hrest Program.returns_panic

/-- The events of the batch that a loop has yet to handle. -/
def EventLoop.Stage.batch : EventLoop.Stage σ → List Event
  | handling batch => batch
  | draining batch => batch
  | attempting _ batch => batch
  | settling _ _ batch => batch
  | announcing _ batch => batch
  | delivering _ _ batch => batch
  | starting | waiting | ended _ => []

/-- The loop is emptying its wake pipe. -/
def EventLoop.Stage.isDraining : EventLoop.Stage σ → Bool
  | draining _ => true
  | _ => false

/-- The loop is about to handle a wake-up. -/
def EventLoop.Stage.isWoken : EventLoop.Stage σ → Bool
  | handling (event :: _) => event.isNotification
  | _ => false

/-- A loop is about to handle a wake-up if and only if the next event of its batch is one. -/
theorem EventLoop.Stage.isWoken_iff {stage : EventLoop.Stage σ} :
    stage.isWoken = true ↔
      ∃ event batch, stage = .handling (event :: batch) ∧ event.isNotification = true := by
  constructor
  · intro h
    unfold isWoken at h
    split at h
    · exact ⟨_, _, rfl, h⟩
    · cases h
  · rintro ⟨event, batch, rfl, hevent⟩
    exact hevent

namespace Lane

/-- All operations of a lane are on descriptors of the given kind. -/
structure Confined (admitted : Fd → Prop) (lane : Lane σ) : Prop where
  stored : ∀ operation ∈ lane.side.table.picked Slot.stored?, admitted operation.fd
  held : ∀ record, lane.stage.held? = some record → admitted record.ticket.fd

variable {setup : EventLoop.Setup} {lane next : Lane σ} {exchanges : List (Exchange σ)}
  {admitted : Fd → Prop}

/-- A lane without operations in its table and in the hands of its loop. -/
theorem Confined.idle (h : lane.Confined admitted) (hheld : next.stage.held? = none)
    (htable : next.side.table = lane.side.table) : next.Confined admitted := by
  constructor
  case stored =>
    rw [htable]
    exact h.stored
  case held =>
    intro record hrecord
    cases hheld.symm.trans hrecord

/-- A settlement keeps to the descriptors of the operations that there are. -/
theorem Confined.settle (h : lane.Confined admitted) {operation : Operation σ} {attempt : Attempt}
    {batch : List Proactor.Event} {result : Except Panic (List (Resolved σ))}
    (hstage : lane.stage = .settling operation attempt batch)
    (hsettle : (lane.side.table.settle operation attempt lane.side.source).Returns exchanges
      (result, next.side.table)) (hheld : next.stage.held? = none) : next.Confined admitted := by
  constructor
  case stored =>
    intro other hother
    rcases (Outstanding.settle_cases hsettle).stored hother with rfl | hbefore
    · exact h.held _ (by rw [hstage]; rfl)
    · exact h.stored other hbefore
  case held =>
    intro record hrecord
    cases hheld.symm.trans hrecord

/-- A move keeps to the descriptors of the operations that there are. -/
theorem Moves.confined (h : Moves setup lane exchanges next) (hconfined : lane.Confined admitted) :
    next.Confined admitted := by
  cases h.step with
  | idle hbefore hafter htable => exact hconfined.idle hafter htable
  | gaveUp hstage hpanics hnext =>
      exact hconfined.idle (by rw [hnext]; rfl) (h.table_of_attempting hstage)
  | settled hstage hsettle hnext | misplaced hstage hsettle hnext =>
      exact hconfined.settle hstage hsettle (by rw [hnext]; rfl)
  | @checkedOut _ _ event _ operation hstage hcheck hnext =>
      obtain ⟨hslot, htable⟩ := Outstanding.checkOut_eq_some.mp hcheck
      have hstored : (lane.side.table.slots.get? event.fd).bind Slot.stored? = some operation := by
        rw [hslot]
        rfl
      constructor
      case stored =>
        intro other hother
        rw [htable] at hother
        rcases Outstanding.mem_picked_put hother with hnone | hbefore
        · cases hnone
        · exact hconfined.stored other hbefore
      case held =>
        intro record hrecord
        rw [hnext] at hrecord
        cases hrecord
        exact hconfined.stored operation (Outstanding.mem_picked_of_slot hstored)
  | attempted hstage hattempt hlogs hnext htable =>
      constructor
      case stored =>
        rw [htable]
        exact hconfined.stored
      case held =>
        intro record hrecord
        rw [hnext] at hrecord
        cases hrecord
        show admitted (Operation.ticket _).fd
        rw [Transfer.attempt_ticket hattempt]
        exact hconfined.held _ (by rw [hstage]; rfl)

/-- A loop whose operations are on other descriptors spares a list of them, unless it is emptying
its wake pipe. -/
theorem Moves.spares (h : Moves setup lane exchanges next) {own : List Fd}
    (hconfined : lane.Confined (· ∉ own)) (hdraining : lane.stage.isDraining = false) :
    ∀ exchange ∈ exchanges, exchange.request.Spares own := by
  intro exchange hexchange
  have hmay := h.mayAsk exchange hexchange
  cases hstage : lane.stage with
  | starting | ended =>
      rw [hstage] at hmay
      exact hmay.elim
  | waiting =>
      rw [hstage] at hmay
      rcases hmay with ⟨millis, hrequest⟩ | hlogs
      · rw [hrequest]
        trivial
      · exact hlogs.spares
  | handling =>
      rw [hstage] at hmay
      rcases hmay with hrequest | hlogs
      · rw [hrequest]
        trivial
      · exact hlogs.spares
  | draining batch =>
      rw [hstage] at hdraining
      cases hdraining
  | attempting operation batch =>
      rw [hstage] at hmay
      rcases hmay with htransfer | hlogs
      · exact Request.spares_of_transferOn? htransfer (hconfined.held _ (by rw [hstage]; rfl))
      · exact hlogs.spares
  | settling operation attempt batch =>
      rw [hstage] at hmay
      exact Request.Tends.spares hmay (hconfined.held _ (by rw [hstage]; rfl))
  | announcing =>
      rw [hstage] at hmay
      exact Request.Logs.spares hmay
  | delivering =>
      rw [hstage] at hmay
      exact Request.Delivers.spares hmay

/-! ## Batches -/

/-- The loop goes on with its batch or has none any more, and does not empty its pipe. -/
def Onward (stage next : EventLoop.Stage σ) : Prop :=
  next.batch ⊆ stage.batch ∧ next.isDraining = false

/-- A loop with the same batch goes on with it. -/
theorem Onward.same {stage next : EventLoop.Stage σ} (hbatch : next.batch = stage.batch)
    (hnext : next.isDraining = false) : Onward stage next :=
  ⟨hbatch ▸ List.Subset.refl _, hnext⟩

/-- A loop without a batch has none any more. -/
theorem Onward.without {stage next : EventLoop.Stage σ} (hbatch : next.batch = [])
    (hnext : next.isDraining = false) : Onward stage next :=
  ⟨hbatch ▸ List.nil_subset _, hnext⟩

/-- A loop that is rid of the first event goes on with the rest. -/
theorem Onward.rest {event : Proactor.Event} {batch : List Proactor.Event}
    {next : EventLoop.Stage σ} (hbatch : next.batch = batch) (hnext : next.isDraining = false) :
    Onward (.handling (event :: batch)) next :=
  ⟨hbatch ▸ List.subset_cons_self _ _, hnext⟩

/-- How a loop comes by the events of its batch, and what it makes of a wake-up. -/
inductive Course (setup : EventLoop.Setup) (lane : Lane σ) :
    List (Exchange σ) → EventLoop.Stage σ → Prop where
  /-- The loop is emptying its wake pipe. -/
  | draining {exchanges : List (Exchange σ)} {next : EventLoop.Stage σ}
      (hstage : lane.stage.isDraining = true) : Course setup lane exchanges next
  | onward {exchanges : List (Exchange σ)} {next : EventLoop.Stage σ}
      (hwaiting : lane.stage ≠ .waiting) (hquiet : lane.stage.isWoken = false)
      (honward : Onward lane.stage next) : Course setup lane exchanges next
  /-- The wait has ended without events, and perhaps the loop with it. -/
  | unanswered {exchanges : List (Exchange σ)} {next : EventLoop.Stage σ}
      (hstage : lane.stage = .waiting) (hnext : next = .waiting ∨ next.isEnded = true) :
      Course setup lane exchanges next
  /-- The wait has reported events. -/
  | waited {millis : Option Nat} {events : List RawEvent} {next : EventLoop.Stage σ}
      (hstage : lane.stage = .waiting)
      (hnext : next = .handling (events.map Proactor.Event.ofRaw)) :
      Course setup lane
        [⟨.wait lane.side.source.descriptor (min setup.batch Source.waitLimit) millis,
          .ok events⟩] next
  /-- The loop has handled a wake-up. -/
  | woken {event : Proactor.Event} {batch : List Proactor.Event} {answer : Bool}
      {others : List (Exchange σ)} {next : EventLoop.Stage σ}
      (hstage : lane.stage = .handling (event :: batch)) (hevent : event.isNotification = true)
      (hnext : next = if answer then .ended .stopped else .draining batch) :
      Course setup lane (⟨.stopping, answer⟩ :: others) next

/-- A loop that waits is told of events, waits again or is over. -/
theorem waitMove_course {act : Side σ → Program σ (EventLoop.Stage σ)}
    {stage : EventLoop.Stage σ} (hstage : lane.stage = .waiting)
    (hmove : EventLoop.Stage.waitMove setup = .shared act)
    (hact : (act lane.side).Returns exchanges stage) : Course setup lane exchanges stage := by
  cases hmove
  obtain ⟨result, asked, last, rfl, hwait, hlast⟩ := Program.returns_bind.mp hact
  cases result with
  | error fault =>
      dsimp only at hlast
      split at hlast
      · obtain ⟨-, rfl⟩ := Program.returns_pure.mp hlast
        exact .unanswered hstage (.inl rfl)
      · obtain ⟨_, _, -, hended⟩ := Program.returns_ask_bind.mp hlast
        obtain ⟨-, rfl⟩ := Program.returns_pure.mp hended
        exact .unanswered hstage (.inr rfl)
  | ok batch =>
      obtain ⟨rfl, rfl⟩ := Program.returns_pure.mp hlast
      obtain ⟨millis, events, rfl, rfl⟩ := Source.wait_returns hwait
      exact .waited hstage rfl

/-- A loop with a wake-up at hand looks at the stop flag. It is over if the flag is up, and empties
its pipe otherwise. -/
theorem wakeMove_course {event : Proactor.Event} {batch : List Proactor.Event}
    {act : Side σ → Program σ (EventLoop.Stage σ)} {stage : EventLoop.Stage σ}
    (hstage : lane.stage = .handling (event :: batch)) (hevent : event.isNotification = true)
    (hmove : EventLoop.Stage.wakeMove setup batch = .shared act)
    (hact : (act lane.side).Returns exchanges stage) : Course setup lane exchanges stage := by
  cases hmove
  obtain ⟨answer, rest, rfl, hrest⟩ := Program.returns_ask_bind.mp hact
  cases answer with
  | false =>
      obtain ⟨-, rfl⟩ := Program.returns_pure.mp hrest
      exact .woken hstage hevent rfl
  | true =>
      obtain ⟨_, _, rfl, hlast⟩ := Program.returns_ask_bind.mp hrest
      obtain ⟨-, rfl⟩ := Program.returns_pure.mp hlast
      exact .woken hstage hevent rfl

/-- Whatever is neither a wait nor about a wake-up has the loop go on with its batch. -/
theorem FollowsShared.onward {stage next : EventLoop.Stage σ} (h : FollowsShared stage next)
    (hwaiting : stage ≠ .waiting) (hdraining : stage.isDraining = false)
    (hquiet : stage.isWoken = false) : Onward stage next := by
  cases h with
  | interrupted | waited | failed => exact absurd rfl hwaiting
  | draining | drained => cases hdraining
  | stopped _ hevent | woken _ hevent => cases hquiet.symm.trans hevent
  | _ => exact .same rfl rfl

/-- A move that changes the side has the loop go on with its batch. -/
theorem FollowsExclusive.onward {stage next : EventLoop.Stage σ}
    (h : FollowsExclusive stage next) : Onward stage next := by
  cases h with
  | checkedOut | passedOver => exact .rest rfl rfl
  | settled => exact .same rfl rfl
  | misplaced => exact .without rfl rfl

/-- A loop that handles a wake-up looks at the stop flag. -/
theorem Moves.course_of_woken (h : Moves setup lane exchanges next) {event : Proactor.Event}
    {batch : List Proactor.Event} (hstage : lane.stage = .handling (event :: batch))
    (hevent : event.isNotification = true) : Course setup lane exchanges next.stage := by
  have hwake : lane.stage.move setup = EventLoop.Stage.wakeMove setup batch := by
    rw [hstage, move_handling, if_pos hevent]
  cases h with
  | exclusive hmove | exclusivePanic hmove =>
      rw [hwake] at hmove
      cases hmove
  | shared hmove hact => exact wakeMove_course hstage hevent (hwake.symm.trans hmove) hact
  | sharedPanic hmove hact =>
      exact absurd hact (wakeMove_neverPanics (hwake.symm.trans hmove) _ _ _)

/-- A loop that waits handles the events that it is told of. -/
theorem Moves.course_of_waiting (h : Moves setup lane exchanges next)
    (hstage : lane.stage = .waiting) : Course setup lane exchanges next.stage := by
  have hwait : lane.stage.move setup = EventLoop.Stage.waitMove setup := by
    rw [hstage]
    rfl
  cases h with
  | exclusive hmove | exclusivePanic hmove =>
      rw [hwait] at hmove
      cases hmove
  | shared hmove hact => exact waitMove_course hstage (hwait.symm.trans hmove) hact
  | sharedPanic => exact .unanswered hstage (.inr rfl)

/-- Everything that a move can make of the batch and of a wake-up. -/
theorem Moves.course (h : Moves setup lane exchanges next) :
    Course setup lane exchanges next.stage := by
  by_cases hwaiting : lane.stage = .waiting
  · exact h.course_of_waiting hwaiting
  · cases hwoken : lane.stage.isWoken with
    | true =>
        obtain ⟨event, batch, hstage, hevent⟩ := EventLoop.Stage.isWoken_iff.mp hwoken
        exact h.course_of_woken hstage hevent
    | false =>
        cases h with
        | exclusivePanic | sharedPanic => exact .onward hwaiting hwoken (.without rfl rfl)
        | exclusive hmove hact =>
            have hfollows := (exclusive_follows hmove _).of_returns hact
            exact .onward hwaiting hwoken hfollows.onward
        | shared hmove hact =>
            cases hdraining : lane.stage.isDraining with
            | true => exact .draining hdraining
            | false =>
                have hfollows := (shared_follows hmove _).of_returns hact
                exact .onward hwaiting hwoken (hfollows.onward hwaiting hdraining hwoken)

end Lane

end Proactor
