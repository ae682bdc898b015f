import Proactor.EventLoop
import Proactor.Proofs.Conservation
import Proactor.Proofs.Transfers

/-!
# Lanes

A lane is a side together with the stage of its dispatch loop. Its history lists
the submissions and the moves of the loop, the last one first. `Run` says which
histories are possible: submissions come at any time, and the answers to all
requests are arbitrary. A move without the side's lock is listed when it ends,
after the submissions that came during it.

`Step` lists what a move can do to the operations of a lane. With it every run
of a lane is seen to be a run of its table, in which the loop has at most one
operation on loan.
-/

namespace Proactor

namespace Program

variable {σ α β : Type}

/-- All values that the program can return are of the given kind. -/
def Yields (kind : α → Prop) : Program σ α → Prop
  | .done value => kind value
  | .panic _ => True
  | .call _ next => ∀ answer, (next answer).Yields kind

variable {kind : α → Prop}

/-- What a second program returns is of a kind if it is so whatever the first one returns. -/
theorem Yields.bind {program : Program σ β} {continuation : β → Program σ α}
    (h : ∀ value, (continuation value).Yields kind) :
    (program >>= continuation).Yields kind := by
  induction program with
  | done value => exact h value
  | panic cause => trivial
  | call request next ih => exact fun answer => ih answer

/-- What the first program returns matters to what the second one returns. -/
theorem Yields.chain {given : β → Prop} {program : Program σ β}
    {continuation : β → Program σ α} (hprogram : program.Yields given)
    (h : ∀ value, given value → (continuation value).Yields kind) :
    (program >>= continuation).Yields kind := by
  induction program with
  | done value => exact h value hprogram
  | panic cause => trivial
  | call request next ih => exact fun answer => ih answer (hprogram answer)

/-- A value that is returned is of the kind that the program yields. -/
theorem Yields.of_returns {program : Program σ α} {exchanges : List (Exchange σ)} {value : α}
    (h : program.Yields kind) (hreturns : program.Returns exchanges value) : kind value := by
  induction program generalizing exchanges with
  | done result =>
      obtain ⟨-, hvalue⟩ := hreturns
      cases hvalue
      exact h
  | panic cause => exact absurd hreturns returns_panic
  | call request next ih =>
      obtain ⟨answer, rest, -, hrest⟩ := hreturns
      exact ih answer (h answer) hrest

end Program

/-! ## Records -/

/-- How far an operation has come. -/
inductive Progress where
  /-- It waits for an attempt, or was given up before it resolved. -/
  | unfinished
  /-- An attempt has been made, and the operation is about to be settled. -/
  | attempted (attempt : Attempt)
  /-- It has resolved, with or without a fault. -/
  | resolved (fault : Option Fault)

/-- The operation has ended well, or is about to. -/
def Progress.succeeded : Progress → Bool
  | .attempted (.finished none) => true
  | .resolved none => true
  | _ => false

/-- An operation has succeeded if its attempt has finished without a fault or it has resolved
without one. -/
theorem Progress.succeeded_iff {progress : Progress} :
    progress.succeeded = true ↔
      progress = .attempted (.finished none) ∨ progress = .resolved none := by
  constructor
  · intro h
    unfold succeeded at h
    split at h
    · exact .inl rfl
    · exact .inr rfl
    · cases h
  · rintro (rfl | rfl) <;> rfl

/-- An attempt that has failed is no success, whether or not another one follows. -/
theorem Progress.succeeded_failed (fault : Fault) :
    (Progress.attempted (Transfer.failed fault)).succeeded = false := by
  unfold Transfer.failed
  split <;> rfl

/-- What an operation and its completion have in common. -/
structure Record (σ : Type) where
  ticket : Ticket σ
  buffer : Bytes
  transferred : Nat
  progress : Progress

/-- The record of an operation. -/
def Operation.record {σ : Type} (operation : Operation σ) (progress : Progress) : Record σ :=
  ⟨operation.ticket, operation.buffer, operation.transferred, progress⟩

/-- The record of an operation that has resolved. -/
def Resolved.record {σ : Type} (resolved : Resolved σ) : Record σ :=
  ⟨resolved.ticket, resolved.completion.buffer, resolved.completion.transferred,
    .resolved resolved.completion.fault⟩

/-- The same record at another point of its progress. -/
def Record.become {σ : Type} (record : Record σ) (progress : Progress) : Record σ :=
  { record with progress }

/-- The operation that the loop has in its hands. -/
def EventLoop.Stage.held? {σ : Type} : Stage σ → Option (Record σ)
  | attempting operation _ => some (operation.record .unfinished)
  | settling operation attempt _ => some (operation.record (.attempted attempt))
  | _ => none

/-- A loop is over if and only if it has come to some ending. -/
theorem EventLoop.Stage.isEnded_iff {σ : Type} {stage : Stage σ} :
    stage.isEnded = true ↔ ∃ ending, stage = .ended ending := by
  cases stage <;> simp [isEnded]

/-! ## Histories of lanes -/

/-- A side together with the stage of its loop. -/
structure Lane (σ : Type) where
  side : Side σ
  stage : EventLoop.Stage σ

namespace Lane

/-- What happens to a lane. Of a move the history keeps the lane before and after it. -/
inductive Event (σ : Type) where
  | submitted (operation : Operation σ) (policy : OverlapPolicy) (exchanges : List (Exchange σ))
      (result : Except ReactorError (Option (Operation σ)))
  | closed (exchanges : List (Exchange σ))
  | moved (before : Lane σ) (exchanges : List (Exchange σ)) (after : Lane σ)

namespace Event

variable {σ : Type}

/-- What has been asked of the system. -/
def exchanges : Event σ → List (Exchange σ)
  | submitted _ _ exchanges _ => exchanges
  | closed exchanges => exchanges
  | moved _ exchanges _ => exchanges

/-- The operation that a move has made an attempt on, as it was before. -/
def attempted? : Event σ → Option (Operation σ)
  | moved ⟨_, .attempting operation _⟩ _ _ => some operation
  | _ => none

/-- A loop that is about to attempt an operation attempts it in its next move. -/
theorem attempted?_moved {before after : Lane σ} {exchanges : List (Exchange σ)}
    {operation : Operation σ} {batch : List Proactor.Event}
    (hstage : before.stage = .attempting operation batch) :
    (moved before exchanges after).attempted? = some operation := by
  obtain ⟨side, stage⟩ := before
  subst hstage
  rfl

/-- A move from any other stage attempts nothing. -/
theorem attempted?_eq_none {before after : Lane σ} {exchanges : List (Exchange σ)}
    (h : ∀ operation batch, before.stage ≠ .attempting operation batch) :
    (moved before exchanges after).attempted? = none := by
  obtain ⟨side, stage⟩ := before
  cases stage with
  | attempting operation batch => exact absurd rfl (h operation batch)
  | _ => rfl

/-- The call on the table, if it was one that changes the table. -/
def onTable : Event σ → List (Lending.Event σ)
  | submitted operation policy exchanges result =>
      [.submitted operation policy exchanges result]
  | closed _ => []
  | moved before exchanges after =>
      match before.stage, after.stage with
      | .handling (event :: _), .attempting operation _ =>
          [.checkedOut event.fd (some operation)]
      | .settling operation attempt _, .announcing resolved _ =>
          [.settled operation attempt (before.side.table.parkedOn operation.fd) exchanges
            (.ok resolved)]
      | _, _ => []

end Event

variable {σ : Type}

/-- The calls on the table of a lane. -/
def tableHistory (history : List (Event σ)) : List (Lending.Event σ) :=
  history.flatMap Event.onTable

/-- The number of submissions in a history. It is the number of the next one. -/
def submissions (history : List (Event σ)) : Nat :=
  Lending.submissions (tableHistory history)

/-- What one move of the loop can come to. A panic ends the loop and leaves the side as it was. -/
inductive Moves (setup : EventLoop.Setup) (lane : Lane σ) :
    List (Exchange σ) → Lane σ → Prop where
  | exclusive {act : Side σ → Program σ (EventLoop.Stage σ × Side σ)}
      {exchanges : List (Exchange σ)} {stage : EventLoop.Stage σ} {side : Side σ}
      (hmove : lane.stage.move setup = .exclusive act)
      (hact : (act lane.side).Returns exchanges (stage, side)) :
      Moves setup lane exchanges ⟨side.afterStage stage, stage⟩
  | shared {act : Side σ → Program σ (EventLoop.Stage σ)} {exchanges : List (Exchange σ)}
      {stage : EventLoop.Stage σ} (hmove : lane.stage.move setup = .shared act)
      (hact : (act lane.side).Returns exchanges stage) :
      Moves setup lane exchanges ⟨lane.side.afterStage stage, stage⟩
  | exclusivePanic {act : Side σ → Program σ (EventLoop.Stage σ × Side σ)}
      {exchanges : List (Exchange σ)} {cause : Panic}
      (hmove : lane.stage.move setup = .exclusive act)
      (hact : (act lane.side).Runs exchanges (.panicked cause)) :
      Moves setup lane exchanges
        ⟨lane.side.afterStage (.ended (.panicked cause)), .ended (.panicked cause)⟩
  | sharedPanic {act : Side σ → Program σ (EventLoop.Stage σ)} {exchanges : List (Exchange σ)}
      {cause : Panic} (hmove : lane.stage.move setup = .shared act)
      (hact : (act lane.side).Runs exchanges (.panicked cause)) :
      Moves setup lane exchanges
        ⟨lane.side.afterStage (.ended (.panicked cause)), .ended (.panicked cause)⟩

/-- The possible histories of a lane, and what they lead to. -/
inductive Run (setup : EventLoop.Setup) :
    List (Event (Numbered σ)) → Lane (Numbered σ) → Prop where
  | opened (source : Source) (dispatching : Bool) :
      Run setup [] ⟨⟨source, .empty setup.direction, dispatching⟩, .starting⟩
  | submit {history : List (Event (Numbered σ))} {lane : Lane (Numbered σ)}
      {exchanges : List (Exchange (Numbered σ))}
      {result : Except ReactorError (Option (Operation (Numbered σ)))}
      {side : Side (Numbered σ)} (hrun : Run setup history lane) (fd : Fd) (buffer : Bytes)
      (sink : Sink σ) (policy : OverlapPolicy)
      (hsubmit : (lane.side.submit
        ((Operation.submitted fd buffer sink).numbered (submissions history)) policy).Returns
          exchanges (result, side)) :
      Run setup
        (.submitted ((Operation.submitted fd buffer sink).numbered (submissions history)) policy
          exchanges result :: history)
        { lane with side }
  | close {history : List (Event (Numbered σ))} {lane : Lane (Numbered σ)}
      {exchanges : List (Exchange (Numbered σ))} {result : Except Fault Unit}
      {side : Side (Numbered σ)} (hrun : Run setup history lane)
      (hclose : lane.side.close.Returns exchanges (result, side)) :
      Run setup (.closed exchanges :: history) { lane with side }
  | move {history : List (Event (Numbered σ))} {lane next : Lane (Numbered σ)}
      {exchanges : List (Exchange (Numbered σ))} (hrun : Run setup history lane)
      (hmoves : Moves setup lane exchanges next) :
      Run setup (.moved lane exchanges next :: history) next

/-! ## Stages in succession -/

/-- With an event at hand a loop is woken by it if it is a notification, and turns to its descriptor
otherwise. -/
theorem move_handling (setup : EventLoop.Setup) (event : Proactor.Event)
    (batch : List Proactor.Event) :
    (EventLoop.Stage.handling (event :: batch) : EventLoop.Stage σ).move setup =
      if event.isNotification then EventLoop.Stage.wakeMove setup batch
      else EventLoop.Stage.readyMove setup event batch :=
  rfl

/-- The stages that a shared move can lead to. -/
inductive FollowsShared : EventLoop.Stage σ → EventLoop.Stage σ → Prop where
  | started : FollowsShared .starting .waiting
  | interrupted : FollowsShared .waiting .waiting
  | waited (batch : List Proactor.Event) : FollowsShared .waiting (.handling batch)
  | failed (fault : Fault) : FollowsShared .waiting (.ended (.waitFailed fault))
  | exhausted : FollowsShared (.handling []) .waiting
  | stopped {event : Proactor.Event} (batch : List Proactor.Event)
      (hevent : event.isNotification = true) :
      FollowsShared (.handling (event :: batch)) (.ended .stopped)
  | woken {event : Proactor.Event} (batch : List Proactor.Event)
      (hevent : event.isNotification = true) :
      FollowsShared (.handling (event :: batch)) (.draining batch)
  | draining (batch : List Proactor.Event) : FollowsShared (.draining batch) (.draining batch)
  | drained (batch : List Proactor.Event) : FollowsShared (.draining batch) (.handling batch)
  | attempted (operation changed : Operation σ) (attempt : Attempt)
      (batch : List Proactor.Event) :
      FollowsShared (.attempting operation batch) (.settling changed attempt batch)
  | announced (batch : List Proactor.Event) : FollowsShared (.announcing [] batch) (.handling batch)
  | handed (first : Resolved σ) (resolved : List (Resolved σ)) (batch : List Proactor.Event) :
      FollowsShared (.announcing (first :: resolved) batch)
        (.delivering (.ofResolved first) resolved batch)
  | delivering (delivery changed : Delivery σ) (resolved : List (Resolved σ))
      (batch : List Proactor.Event) :
      FollowsShared (.delivering delivery resolved batch) (.delivering changed resolved batch)
  | delivered (delivery : Delivery σ) (resolved : List (Resolved σ))
      (batch : List Proactor.Event) :
      FollowsShared (.delivering delivery resolved batch) (.announcing resolved batch)
  | ended (ending : EventLoop.Ending) : FollowsShared (.ended ending) (.ended ending)

/-- The stages that an exclusive move can lead to. -/
inductive FollowsExclusive : EventLoop.Stage σ → EventLoop.Stage σ → Prop where
  | checkedOut (event : Proactor.Event) (operation : Operation σ) (batch : List Proactor.Event) :
      FollowsExclusive (.handling (event :: batch)) (.attempting operation batch)
  | passedOver (event : Proactor.Event) (batch : List Proactor.Event) :
      FollowsExclusive (.handling (event :: batch)) (.handling batch)
  | settled (operation : Operation σ) (attempt : Attempt) (resolved : List (Resolved σ))
      (batch : List Proactor.Event) :
      FollowsExclusive (.settling operation attempt batch) (.announcing resolved batch)
  | misplaced (operation : Operation σ) (attempt : Attempt) (batch : List Proactor.Event)
      (cause : Panic) :
      FollowsExclusive (.settling operation attempt batch) (.ended (.panicked cause))

/-- A wait leads on to a batch, to another wait or to the end of the loop. -/
theorem waitMove_follows {setup : EventLoop.Setup}
    {act : Side σ → Program σ (EventLoop.Stage σ)}
    (hmove : EventLoop.Stage.waitMove setup = .shared act) (side : Side σ) :
    (act side).Yields (FollowsShared .waiting) := by
  cases hmove
  refine .bind fun result => ?_
  cases result with
  | ok batch => exact .waited batch
  | error fault =>
      dsimp only
      split
      · exact .interrupted
      · exact .bind fun _ => .failed fault

/-- A notification leads on to the draining of the wake pipe or to the end of the loop. -/
theorem wakeMove_follows {setup : EventLoop.Setup} {event : Proactor.Event}
    {batch : List Proactor.Event} {act : Side σ → Program σ (EventLoop.Stage σ)}
    (hmove : EventLoop.Stage.wakeMove setup batch = .shared act)
    (hevent : event.isNotification = true) (side : Side σ) :
    (act side).Yields (FollowsShared (.handling (event :: batch))) := by
  cases hmove
  refine .bind fun stopping => ?_
  cases stopping with
  | true => exact .bind fun _ => .stopped batch hevent
  | false => exact .woken batch hevent

/-- A shared move that does not panic leads to one of the stages that can follow. -/
theorem shared_follows {setup : EventLoop.Setup} {stage : EventLoop.Stage σ}
    {act : Side σ → Program σ (EventLoop.Stage σ)} (hmove : stage.move setup = .shared act)
    (side : Side σ) : (act side).Yields (FollowsShared stage) := by
  cases stage with
  | settling => cases hmove
  | starting =>
      cases hmove
      exact .bind fun _ => .started
  | waiting => exact waitMove_follows hmove side
  | handling batch =>
      cases batch with
      | nil =>
          cases hmove
          exact .exhausted
      | cons event batch =>
          rw [move_handling] at hmove
          split at hmove
          · rename_i hevent
            exact wakeMove_follows hmove hevent side
          · cases hmove
  | draining batch =>
      cases hmove
      refine .bind fun more => ?_
      cases more with
      | true => exact .draining batch
      | false => exact .drained batch
  | attempting operation batch =>
      cases hmove
      refine .bind fun answer => ?_
      dsimp only
      split
      · exact .bind fun _ => .attempted ..
      · exact .attempted ..
  | announcing resolved batch =>
      cases resolved with
      | nil =>
          cases hmove
          exact .announced batch
      | cons first resolved =>
          cases hmove
          exact .bind fun _ => .handed first resolved batch
  | delivering delivery resolved batch =>
      cases hmove
      refine .bind fun changed => ?_
      cases changed with
      | some changed => exact .delivering delivery changed resolved batch
      | none => exact .delivered delivery resolved batch
  | ended ending =>
      cases hmove
      exact .ended ending

/-- Exclusive moves handle readiness and settle operations. -/
theorem exclusive_cases {setup : EventLoop.Setup} {stage : EventLoop.Stage σ}
    {act : Side σ → Program σ (EventLoop.Stage σ × Side σ)}
    (hmove : stage.move setup = .exclusive act) :
    (∃ event batch, stage = .handling (event :: batch) ∧
        EventLoop.Stage.readyMove setup event batch = .exclusive act) ∨
      ∃ operation attempt batch, stage = .settling operation attempt batch := by
  cases stage with
  | starting | waiting | draining | attempting | delivering | ended => cases hmove
  | announcing resolved batch => cases resolved <;> cases hmove
  | settling operation attempt batch => exact .inr ⟨operation, attempt, batch, rfl⟩
  | handling batch =>
      cases batch with
      | nil => cases hmove
      | cons event batch =>
          rw [move_handling] at hmove
          split at hmove
          · cases hmove
          · exact .inl ⟨event, batch, rfl, hmove⟩

/-- An exclusive move leads to one of the stages that can follow. -/
theorem exclusive_follows {setup : EventLoop.Setup} {stage : EventLoop.Stage σ}
    {act : Side σ → Program σ (EventLoop.Stage σ × Side σ)}
    (hmove : stage.move setup = .exclusive act) (side : Side σ) :
    (act side).Yields fun answer => FollowsExclusive stage answer.1 := by
  rcases exclusive_cases hmove with ⟨event, batch, rfl, hready⟩ | ⟨operation, attempt, batch, rfl⟩
  · cases hready
    refine .bind fun _ => ?_
    cases side.checkOut event.fd with
    | none => exact .bind fun _ => .passedOver event batch
    | some checked => exact .checkedOut event checked.1 batch
  · cases hmove
    refine .bind fun answer => ?_
    obtain ⟨result, settled⟩ := answer
    cases result with
    | ok resolved => exact .settled operation attempt resolved batch
    | error cause => exact .misplaced operation attempt batch cause

/-- Without an operation in its hands, a shared move does not get hold of one. -/
theorem FollowsShared.held? {stage next : EventLoop.Stage σ} (h : FollowsShared stage next)
    (hheld : stage.held? = none) : next.held? = none := by
  cases h with
  | attempted => cases hheld
  | _ => rfl

/-! ## Steps -/

/-- The stage that a loop reaches does not show in the table. -/
@[simp]
theorem table_afterStage (side : Side σ) (stage : EventLoop.Stage σ) :
    (side.afterStage stage).table = side.table := by
  unfold Side.afterStage
  split <;> rfl

/-- The stage that a loop reaches does not show in the source. -/
@[simp]
theorem source_afterStage (side : Side σ) (stage : EventLoop.Stage σ) :
    (side.afterStage stage).source = side.source := by
  unfold Side.afterStage
  split <;> rfl

/-- What one move can do to the operations of a lane. -/
inductive Step (setup : EventLoop.Setup) (lane : Lane σ) :
    List (Exchange σ) → Lane σ → Prop where
  | idle {exchanges : List (Exchange σ)} {next : Lane σ} (hnow : lane.stage.held? = none)
      (hthen : next.stage.held? = none) (htable : next.side.table = lane.side.table) :
      Step setup lane exchanges next
  | checkedOut {exchanges : List (Exchange σ)} {next : Lane σ} {event : Proactor.Event}
      {batch : List Proactor.Event} {operation : Operation σ}
      (hstage : lane.stage = .handling (event :: batch))
      (hcheck : lane.side.table.checkOut event.fd = some (operation, next.side.table))
      (hnext : next.stage = .attempting operation batch) : Step setup lane exchanges next
  | attempted {calls logs : List (Exchange σ)} {next : Lane σ} {batch : List Proactor.Event}
      {operation changed : Operation σ} {attempt : Attempt}
      (hstage : lane.stage = .attempting operation batch)
      (hattempt : (Transfer.attempt setup.direction operation).Returns calls (changed, attempt))
      (hlogs : ∀ exchange ∈ logs, exchange.request.transferOn? = none)
      (hnext : next.stage = .settling changed attempt batch)
      (htable : next.side.table = lane.side.table) : Step setup lane (calls ++ logs) next
  | gaveUp {exchanges : List (Exchange σ)} {next : Lane σ} {batch : List Proactor.Event}
      {operation : Operation σ} {cause : Panic}
      (hstage : lane.stage = .attempting operation batch)
      (hpanics : ¬ (Transfer.attempt setup.direction operation).NeverPanics)
      (hnext : next.stage = .ended (.panicked cause)) : Step setup lane exchanges next
  | settled {exchanges : List (Exchange σ)} {next : Lane σ} {batch : List Proactor.Event}
      {operation : Operation σ} {attempt : Attempt} {resolved : List (Resolved σ)}
      (hstage : lane.stage = .settling operation attempt batch)
      (hsettle : (lane.side.table.settle operation attempt lane.side.source).Returns exchanges
        (.ok resolved, next.side.table))
      (hnext : next.stage = .announcing resolved batch) : Step setup lane exchanges next
  | misplaced {exchanges : List (Exchange σ)} {next : Lane σ} {batch : List Proactor.Event}
      {operation : Operation σ} {attempt : Attempt} {cause : Panic}
      (hstage : lane.stage = .settling operation attempt batch)
      (hsettle : (lane.side.table.settle operation attempt lane.side.source).Returns exchanges
        (.error cause, next.side.table))
      (hnext : next.stage = .ended (.panicked cause)) : Step setup lane exchanges next

/-- A loop that is woken cannot panic. -/
theorem wakeMove_neverPanics {setup : EventLoop.Setup} {batch : List Proactor.Event}
    {act : Side σ → Program σ (EventLoop.Stage σ)}
    (hmove : EventLoop.Stage.wakeMove setup batch = .shared act) (side : Side σ) :
    (act side).NeverPanics := by
  cases hmove
  refine (Program.neverPanics_ask _).bind fun stopping => ?_
  cases stopping with
  | true => exact (Program.neverPanics_ask _).bind fun _ => Program.neverPanics_pure _
  | false => exact Program.neverPanics_pure _

/-- The readiness of a descriptor has the operation that waits there checked out. -/
theorem ready_step {setup : EventLoop.Setup} {lane : Lane σ} {event : Proactor.Event}
    {batch : List Proactor.Event} {act : Side σ → Program σ (EventLoop.Stage σ × Side σ)}
    {exchanges : List (Exchange σ)} {stage : EventLoop.Stage σ} {side : Side σ}
    (hstage : lane.stage = .handling (event :: batch))
    (hmove : EventLoop.Stage.readyMove setup event batch = .exclusive act)
    (hact : (act lane.side).Returns exchanges (stage, side)) :
    Step setup lane exchanges ⟨side.afterStage stage, stage⟩ := by
  cases hmove
  obtain ⟨_, rest, rfl, hrest⟩ := Program.returns_ask_bind.mp hact
  cases hcheck : lane.side.table.checkOut event.fd with
  | none =>
      have hside : lane.side.checkOut event.fd = none := by simp [Side.checkOut, hcheck]
      rw [hside] at hrest
      obtain ⟨_, last, rfl, hlast⟩ := Program.returns_ask_bind.mp hrest
      obtain ⟨-, hanswer⟩ := Program.returns_pure.mp hlast
      cases hanswer
      exact .idle (by rw [hstage]; rfl) rfl (table_afterStage _ _)
  | some checked =>
      obtain ⟨operation, table⟩ := checked
      have hside : lane.side.checkOut event.fd = some (operation, { lane.side with table }) := by
        simp [Side.checkOut, hcheck]
      rw [hside] at hrest
      obtain ⟨-, hanswer⟩ := Program.returns_pure.mp hrest
      cases hanswer
      refine .checkedOut hstage ?_ rfl
      rw [table_afterStage]
      exact hcheck

/-- An attempt is made on the operation at hand, and the loop is about to settle it. -/
theorem attempting_step {setup : EventLoop.Setup} {lane : Lane σ} {operation : Operation σ}
    {batch : List Proactor.Event} {act : Side σ → Program σ (EventLoop.Stage σ)}
    {exchanges : List (Exchange σ)} {stage : EventLoop.Stage σ}
    (hstage : lane.stage = .attempting operation batch)
    (hmove : lane.stage.move setup = .shared act)
    (hact : (act lane.side).Returns exchanges stage) :
    Step setup lane exchanges ⟨lane.side.afterStage stage, stage⟩ := by
  have hmove' := hmove
  rw [hstage] at hmove'
  cases hmove'
  obtain ⟨⟨changed, attempt⟩, calls, logs, rfl, hattempt, hrest⟩ := Program.returns_bind.mp hact
  dsimp only at hrest
  -- an attempt that is to be repeated is logged after its calls
  split at hrest
  · obtain ⟨_, last, rfl, hlast⟩ := Program.returns_ask_bind.mp hrest
    obtain ⟨rfl, rfl⟩ := Program.returns_pure.mp hlast
    exact .attempted hstage hattempt (by simp [Request.transferOn?]) rfl (table_afterStage _ _)
  · obtain ⟨rfl, rfl⟩ := Program.returns_pure.mp hrest
    exact .attempted hstage hattempt (by simp) rfl (table_afterStage _ _)

/-- The operation at hand is settled. -/
theorem settling_step {setup : EventLoop.Setup} {lane : Lane σ} {operation : Operation σ}
    {attempt : Attempt} {batch : List Proactor.Event}
    {act : Side σ → Program σ (EventLoop.Stage σ × Side σ)} {exchanges : List (Exchange σ)}
    {stage : EventLoop.Stage σ} {side : Side σ}
    (hstage : lane.stage = .settling operation attempt batch)
    (hmove : lane.stage.move setup = .exclusive act)
    (hact : (act lane.side).Returns exchanges (stage, side)) :
    Step setup lane exchanges ⟨side.afterStage stage, stage⟩ := by
  have hmove' := hmove
  rw [hstage] at hmove'
  cases hmove'
  obtain ⟨⟨result, settled⟩, calls, last, rfl, hsettle, hrest⟩ := Program.returns_bind.mp hact
  obtain ⟨⟨answer, table⟩, asked, none, rfl, htable, hside⟩ := Program.returns_bind.mp hsettle
  obtain ⟨rfl, hsettled⟩ := Program.returns_pure.mp hside
  cases hsettled
  cases result with
  | ok resolved =>
      obtain ⟨rfl, hanswer⟩ := Program.returns_pure.mp hrest
      cases hanswer
      refine .settled hstage ?_ rfl
      rw [table_afterStage, List.append_nil, List.append_nil]
      exact htable
  | error cause =>
      obtain ⟨rfl, hanswer⟩ := Program.returns_pure.mp hrest
      cases hanswer
      refine .misplaced hstage ?_ rfl
      rw [table_afterStage, List.append_nil, List.append_nil]
      exact htable

/-- Exclusive moves do not panic. -/
theorem exclusive_neverPanics {setup : EventLoop.Setup} {stage : EventLoop.Stage σ}
    {act : Side σ → Program σ (EventLoop.Stage σ × Side σ)}
    (hmove : stage.move setup = .exclusive act) (side : Side σ) : (act side).NeverPanics := by
  rcases exclusive_cases hmove with ⟨event, batch, -, hready⟩ | ⟨operation, attempt, batch, rfl⟩
  · cases hready
    refine (Program.neverPanics_ask _).bind fun _ => ?_
    cases side.checkOut event.fd with
    | none => exact (Program.neverPanics_ask _).bind fun _ => Program.neverPanics_pure _
    | some checked => exact Program.neverPanics_pure _
  · cases hmove
    refine Program.NeverPanics.bind ?_ fun answer => ?_
    · exact Outstanding.settle_neverPanics.bind fun _ => Program.neverPanics_pure _
    · obtain ⟨result, settled⟩ := answer
      cases result <;> exact Program.neverPanics_pure _

/-- Everything that a move can come to. -/
theorem Moves.step {setup : EventLoop.Setup} {lane next : Lane σ} {exchanges : List (Exchange σ)}
    (h : Moves setup lane exchanges next) : Step setup lane exchanges next := by
  cases h with
  | exclusive hmove hact =>
      rcases exclusive_cases hmove with ⟨event, batch, hstage, hready⟩ |
        ⟨operation, attempt, batch, hstage⟩
      · exact ready_step hstage hready hact
      · exact settling_step hstage hmove hact
  | exclusivePanic hmove hact => exact absurd hact (exclusive_neverPanics hmove _ _ _)
  | shared hmove hact =>
      cases hstage : lane.stage with
      | attempting operation batch => exact attempting_step hstage hmove hact
      | settling operation attempt batch =>
          rw [hstage] at hmove
          cases hmove
      | _ =>
          have hheld : lane.stage.held? = none := by rw [hstage]; rfl
          have hfollows := (shared_follows hmove _).of_returns hact
          exact .idle hheld (hfollows.held? hheld) (table_afterStage _ _)
  | sharedPanic hmove hact =>
      cases hstage : lane.stage with
      | attempting operation batch =>
          -- the log entry after an attempt does not panic, so it was the attempt
          refine .gaveUp hstage (fun hsafe => ?_) rfl
          rw [hstage] at hmove
          cases hmove
          refine hsafe.bind ?_ _ _ hact
          rintro ⟨changed, attempt⟩
          dsimp only
          split
          · exact (Program.neverPanics_ask _).bind fun _ => Program.neverPanics_pure _
          · exact Program.neverPanics_pure _
      | settling operation attempt batch =>
          rw [hstage] at hmove
          cases hmove
      | _ =>
          have hheld : lane.stage.held? = none := by rw [hstage]; rfl
          exact .idle hheld rfl (table_afterStage _ _)

/-- An attempt leaves the table alone, also when it panics. -/
theorem Moves.table_of_attempting {setup : EventLoop.Setup} {lane next : Lane σ}
    {exchanges : List (Exchange σ)} (h : Moves setup lane exchanges next)
    {operation : Operation σ} {batch : List Proactor.Event}
    (hstage : lane.stage = .attempting operation batch) :
    next.side.table = lane.side.table := by
  cases h with
  | shared | sharedPanic => exact table_afterStage _ _
  | exclusive hmove | exclusivePanic hmove =>
      rw [hstage] at hmove
      cases hmove

end Lane

end Proactor
