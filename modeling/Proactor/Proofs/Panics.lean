import Proactor.Proofs.ReadStream
import Proactor.Proofs.WriteStream

/-!
# Why loops panic

A loop could panic at five of its stages. Three of these panics need a system that
reports more than it was asked for, or a batch that does not fit into memory,
and a settlement panics only if its operation was not checked out. What is left
is the delivery, which passes on the panic of a sink. `Run.calm` says so for all
runs, together with the invariant behind it: a slot is in flight exactly when the
loop has the operation of its descriptor in its hands.
-/

namespace Proactor

variable {σ : Type}

/-! ## Sinks -/

/-- A sink has panicked in a step of a delivery. -/
inductive Delivery.SinkPanics (delivery : Delivery σ) : List (Exchange σ) → Panic → Prop where
  | offered (completion : Completion) (cause : Panic) :
      SinkPanics delivery [⟨.offer delivery.sink.target completion, .panicked cause⟩] cause
  | offeredWithin (completion : Completion) (patience : Duration) (cause : Panic) :
      SinkPanics delivery
        [⟨.offerWithin delivery.sink.target completion patience, .panicked cause⟩] cause
  /-- A sink that waits for room by being polled could not tell until when. -/
  | noDeadline (now : Instant) (hwaits : delivery.sink.waitsForRoom = false)
      (hnow : now.add? Delivery.slice = none) :
      SinkPanics delivery [⟨.now, now⟩] .deadlineOverflow

namespace Delivery

variable {delivery : Delivery σ} {exchanges : List (Exchange σ)} {cause : Panic}

/-- What follows a reception panics only if the sink has panicked. -/
theorem received_panics {whenFull : Completion → Program σ (Option (Delivery σ))}
    {reception : Reception} (hfull : ∀ completion, (whenFull completion).NeverPanics)
    (h : (delivery.received whenFull reception).Runs exchanges (.panicked cause)) :
    exchanges = [] ∧ reception = .panicked cause := by
  cases reception with
  | accepted => exact absurd h (Program.neverPanics_pure _ _ _)
  | full completion => exact absurd h (hfull completion _ _)
  | disconnected completion =>
      exact absurd h ((Program.neverPanics_ask _).bind (fun _ => Program.neverPanics_pure _) _ _)
  | panicked other =>
      obtain ⟨rfl, hcause⟩ := h
      cases hcause
      exact ⟨rfl, rfl⟩

/-- A deadline that no clock can show is a panic. -/
theorem deadline_panics {patience : Duration}
    (h : (Polling.deadline patience).Runs exchanges (.panicked cause)) :
    ∃ now, exchanges = [⟨.now, now⟩] ∧ now.add? patience = none ∧ cause = .deadlineOverflow := by
  obtain ⟨now, rest, rfl, hrest⟩ := Program.panics_ask_bind.mp h
  cases hnow : now.add? patience with
  | some deadline =>
      rw [hnow] at hrest
      exact absurd hrest (Program.neverPanics_pure _ _ _)
  | none =>
      rw [hnow] at hrest
      obtain ⟨rfl, hcause⟩ := hrest
      cases hcause
      exact ⟨now, rfl, hnow, rfl⟩

/-- A round of polling passes on the panic of its offer. -/
theorem round_panics {target : σ} {completion : Completion} {deadline : Instant}
    (h : (Polling.round target completion deadline).Runs exchanges (.panicked cause)) :
    exchanges = [⟨.offer target completion, .panicked cause⟩] := by
  obtain ⟨reception, rest, rfl, hrest⟩ := Program.panics_ask_bind.mp h
  cases reception with
  | accepted | disconnected => exact absurd hrest (Program.neverPanics_pure _ _ _)
  | panicked other =>
      obtain ⟨rfl, hcause⟩ := hrest
      cases hcause
      rfl
  | full returned =>
      obtain ⟨now, last, rfl, hlast⟩ := Program.panics_ask_bind.mp hrest
      split at hlast
      · exact absurd hlast
          ((Program.neverPanics_ask _).bind (fun _ => Program.neverPanics_pure _) _ _)
      · exact absurd hlast (Program.neverPanics_pure _ _ _)

/-- A round of polling that is over has not ended in a panic. -/
theorem round_yields {target : σ} {completion : Completion} {deadline : Instant} :
    (Polling.round target completion deadline).Yields fun answer =>
      ∀ cause, answer ≠ .inl (.panicked cause) := by
  refine .bind fun reception => ?_
  cases reception with
  | accepted | disconnected => exact fun cause heq => by cases heq
  | panicked cause => trivial
  | full returned =>
      refine .bind fun now => ?_
      split
      · exact .bind fun _ cause heq => by cases heq
      · exact fun cause heq => by cases heq

/-- A step of a delivery panics only if the sink has panicked. -/
theorem step_panics {policy : DeliveryPolicy}
    (h : (delivery.step policy).Runs exchanges (.panicked cause)) :
    delivery.SinkPanics exchanges cause := by
  unfold step at h
  split at h
  · obtain ⟨reception, rest, rfl, hrest⟩ := Program.panics_ask_bind.mp h
    obtain ⟨rfl, rfl⟩ := received_panics (fun _ => by
      cases policy with
      | blockWhenFull => exact Program.neverPanics_pure _
      | dropWhenFull => exact (Program.neverPanics_ask _).bind fun _ => Program.neverPanics_pure _)
      hrest
    exact .offered _ _
  · obtain ⟨stopping, rest, rfl, hrest⟩ := Program.panics_ask_bind.mp h
    cases stopping with
    | false => exact absurd hrest (Program.neverPanics_pure _ _ _)
    | true =>
        exact absurd hrest
          ((Program.neverPanics_ask _).bind (fun _ => Program.neverPanics_pure _) _ _)
  · split at h
    · obtain ⟨reception, rest, rfl, hrest⟩ := Program.panics_ask_bind.mp h
      obtain ⟨rfl, rfl⟩ := received_panics (fun _ => Program.neverPanics_pure _) hrest
      exact .offeredWithin _ _ _
    · rename_i hwaits
      rcases Program.panics_bind h with hdeadline | ⟨_, _, _, rfl, -, hlast⟩
      · obtain ⟨now, rfl, hnow, rfl⟩ := deadline_panics hdeadline
        exact .noDeadline now (by simpa using hwaits) hnow
      · exact absurd hlast (Program.neverPanics_pure _ _ _)
  · rcases Program.panics_bind h with hround | ⟨answer, first, last, rfl, hround, hlast⟩
    · rw [round_panics hround]
      exact .offered _ _
    · have hanswer := round_yields.of_returns hround
      cases answer with
      | inr completion => exact absurd hlast (Program.neverPanics_pure _ _ _)
      | inl reception =>
          obtain ⟨-, rfl⟩ := received_panics (fun _ => Program.neverPanics_pure _) hlast
          exact absurd rfl (hanswer cause)

end Delivery

/-! ## Answers within bounds -/

namespace Exchange

/-- The system reports no more events than were asked for. -/
def ReportsAtMost : Exchange σ → Prop
  | ⟨.wait _ capacity _, .ok events⟩ => events.length ≤ capacity
  | _ => True

/-- The system keeps to the limits that it is given. -/
@[mk_iff]
structure Bounded (exchange : Exchange σ) : Prop where
  accepts : exchange.AcceptsAtMost
  arrives : exchange.ArrivesAtMost
  reports : exchange.ReportsAtMost

end Exchange

namespace Source

variable {source : Source} {batch : Nat} {exchanges : List (Exchange σ)} {cause : Panic}

/-- Only a batch that is too large for memory makes reserving panic. -/
theorem reserve_panics (h : (reserve batch).Runs exchanges (.panicked cause)) :
    memoryLimit < batch * eventSize := by
  unfold reserve at h
  split at h
  · exact absurd h (Program.neverPanics_pure _ _ _)
  · rename_i hlarge
    exact Nat.lt_of_not_le hlarge

/-- Only a report of too many events makes waiting panic. -/
theorem wait_panics {timeout : Option Duration}
    (h : (source.wait batch timeout).Runs exchanges (.panicked cause)) :
    ∃ millis events, exchanges =
        [⟨.wait source.descriptor (min batch waitLimit) millis, .ok events⟩] ∧
      batch < events.length := by
  unfold wait live at h
  split at h
  · exact absurd h (Program.neverPanics_pure _ _ _)
  · rename_i heq
    split at heq <;> cases heq
    obtain ⟨answer, rest, rfl, hrest⟩ := Program.panics_ask_bind.mp h
    cases answer with
    | error errno => exact absurd hrest (Program.neverPanics_pure _ _ _)
    | ok events =>
        dsimp only at hrest
        split at hrest
        · exact absurd hrest (Program.neverPanics_pure _ _ _)
        · rename_i hlength
          obtain ⟨rfl, -⟩ := hrest
          exact ⟨_, events, rfl, Nat.lt_of_not_le hlength⟩

end Source

/-! ## Moves that panic -/

/-- The panic that has ended a loop. -/
def EventLoop.Stage.panic? : EventLoop.Stage σ → Option Panic
  | ended (.panicked cause) => some cause
  | _ => none

namespace Lane

/-- What can be the cause of a panic after which a loop is over. -/
inductive Fatal (setup : EventLoop.Setup) (lane : Lane σ) (exchanges : List (Exchange σ))
    (cause : Panic) : Prop where
  | already (hstage : lane.stage.panic? = some cause)
  | tooLarge (hbatch : Source.memoryLimit < setup.batch * Source.eventSize)
  | overfull {source : Fd} {millis : Option Nat} {events : List RawEvent}
      (hexchange : ⟨.wait source (min setup.batch Source.waitLimit) millis, .ok events⟩ ∈ exchanges)
      (hlength : setup.batch < events.length)
  | attempted {operation : Operation σ} {batch : List Proactor.Event}
      (hstage : lane.stage = .attempting operation batch)
      (hpanics : ¬ (Transfer.attempt setup.direction operation).NeverPanics)
  | misplaced {operation : Operation σ} {attempt : Attempt} {batch : List Proactor.Event}
      {left : Outstanding σ} (hstage : lane.stage = .settling operation attempt batch)
      (hsettle : (lane.side.table.settle operation attempt lane.side.source).Returns exchanges
        (.error cause, left))
  | delivered {delivery : Delivery σ} {resolved : List (Resolved σ)} {batch : List Proactor.Event}
      (hstage : lane.stage = .delivering delivery resolved batch)
      (hpanics : delivery.SinkPanics exchanges cause)

section Moves

variable {setup : EventLoop.Setup} {stage : EventLoop.Stage σ}

/-- A shared move that comes to its end does not end the loop by a panic. -/
theorem FollowsShared.panic? {next : EventLoop.Stage σ} (h : FollowsShared stage next) :
    next.panic? = none ∨ next = stage := by
  cases h with
  | ended => exact .inr rfl
  | _ => exact .inl rfl

variable {lane next : Lane σ} {exchanges : List (Exchange σ)} {cause : Panic}

/-- A loop that panics while it waits has been told of more events than it has room for. -/
theorem waitMove_panics {act : Side σ → Program σ (EventLoop.Stage σ)}
    (hmove : EventLoop.Stage.waitMove setup = .shared act)
    (hact : (act lane.side).Runs exchanges (.panicked cause)) :
    Fatal setup lane exchanges cause := by
  cases hmove
  rcases Program.panics_bind hact with hwait | ⟨result, first, last, rfl, -, hlast⟩
  · obtain ⟨millis, events, rfl, hlength⟩ := Source.wait_panics hwait
    exact .overfull (List.mem_singleton_self _) hlength
  · cases result with
    | ok batch => exact absurd hlast (Program.neverPanics_pure _ _ _)
    | error fault =>
        dsimp only at hlast
        split at hlast
        · exact absurd hlast (Program.neverPanics_pure _ _ _)
        · exact absurd hlast
            ((Program.neverPanics_ask _).bind (fun _ => Program.neverPanics_pure _) _ _)

/-- A shared move that panics has done so for one of the causes. -/
theorem shared_fatal {act : Side σ → Program σ (EventLoop.Stage σ)}
    (hmove : lane.stage.move setup = .shared act)
    (hact : (act lane.side).Runs exchanges (.panicked cause)) :
    Fatal setup lane exchanges cause := by
  have hmoves : Moves setup lane exchanges _ := .sharedPanic hmove hact
  cases hstage : lane.stage with
  | attempting operation batch =>
      -- the step of this move says that it was the attempt that panicked
      cases hmoves.step with
      | idle hbefore =>
          rw [hstage] at hbefore
          cases hbefore
      | gaveUp hother hpanics => exact .attempted hother hpanics
      | misplaced hother => cases hstage.symm.trans hother
      | checkedOut _ _ hnext | attempted _ _ _ hnext | settled _ _ hnext => cases hnext
  | starting =>
      rw [hstage] at hmove
      cases hmove
      rcases Program.panics_bind hact with hreserve | ⟨_, _, _, rfl, -, hlast⟩
      · exact .tooLarge (Source.reserve_panics hreserve)
      · exact absurd hlast (Program.neverPanics_pure _ _ _)
  | waiting =>
      rw [hstage] at hmove
      exact waitMove_panics hmove hact
  | handling batch =>
      rw [hstage] at hmove
      cases batch with
      | nil =>
          cases hmove
          exact absurd hact (Program.neverPanics_pure _ _ _)
      | cons event batch =>
          rw [move_handling] at hmove
          split at hmove
          · exact absurd hact (wakeMove_neverPanics hmove _ _ _)
          · cases hmove
  | draining batch =>
      rw [hstage] at hmove
      cases hmove
      rcases Program.panics_bind hact with hdrain | ⟨more, _, _, rfl, -, hlast⟩
      · obtain ⟨answer, _, rfl, hrest⟩ := Program.panics_ask_bind.mp hdrain
        cases answer <;> exact absurd hrest (Program.neverPanics_pure _ _ _)
      · cases more <;> exact absurd hlast (Program.neverPanics_pure _ _ _)
  | settling =>
      rw [hstage] at hmove
      cases hmove
  | announcing resolved batch =>
      rw [hstage] at hmove
      cases resolved with
      | nil =>
          cases hmove
          exact absurd hact (Program.neverPanics_pure _ _ _)
      | cons first resolved =>
          cases hmove
          exact absurd hact
            ((Program.neverPanics_ask _).bind (fun _ => Program.neverPanics_pure _) _ _)
  | delivering delivery resolved batch =>
      rw [hstage] at hmove
      cases hmove
      rcases Program.panics_bind hact with hstep | ⟨result, _, _, rfl, -, hlast⟩
      · exact .delivered hstage (Delivery.step_panics hstep)
      · cases result <;> exact absurd hlast (Program.neverPanics_pure _ _ _)
  | ended ending =>
      rw [hstage] at hmove
      cases hmove
      exact absurd hact (Program.neverPanics_pure _ _ _)

/-- An exclusive move ends the loop by a panic only if its operation was not checked out. -/
theorem exclusive_fatal {act : Side σ → Program σ (EventLoop.Stage σ × Side σ)}
    {stage : EventLoop.Stage σ} {side : Side σ} (hmove : lane.stage.move setup = .exclusive act)
    (hact : (act lane.side).Returns exchanges (stage, side)) (hpanic : stage.panic? = some cause) :
    Fatal setup lane exchanges cause := by
  rcases exclusive_cases hmove with ⟨event, batch, hstage, hready⟩ |
    ⟨operation, attempt, batch, hstage⟩
  · cases hready
    obtain ⟨_, rest, rfl, hrest⟩ := Program.returns_ask_bind.mp hact
    cases hcheck : lane.side.checkOut event.fd with
    | none =>
        rw [hcheck] at hrest
        obtain ⟨_, last, rfl, hlast⟩ := Program.returns_ask_bind.mp hrest
        obtain ⟨-, hanswer⟩ := Program.returns_pure.mp hlast
        cases hanswer
        cases hpanic
    | some checked =>
        rw [hcheck] at hrest
        obtain ⟨-, hanswer⟩ := Program.returns_pure.mp hrest
        cases hanswer
        cases hpanic
  · cases settling_step hstage hmove hact with
    | idle hbefore =>
        rw [hstage] at hbefore
        cases hbefore
    | checkedOut hother | attempted hother | gaveUp hother => cases hstage.symm.trans hother
    | settled _ _ hnext =>
        obtain rfl : stage = _ := hnext
        cases hpanic
    | misplaced hother hsettle hnext =>
        obtain rfl : stage = _ := hnext
        cases hpanic
        exact .misplaced hother hsettle

/-- A loop that a move has left ended by a panic has ended for one of the causes. -/
theorem Moves.fatal (h : Moves setup lane exchanges next) (hnext : next.stage.panic? = some cause) :
    Fatal setup lane exchanges cause := by
  cases h with
  | exclusive hmove hact => exact exclusive_fatal hmove hact hnext
  | exclusivePanic hmove hact => exact absurd hact (exclusive_neverPanics hmove _ _ _)
  | shared hmove hact =>
      have hfollows := (shared_follows hmove _).of_returns hact
      rcases hfollows.panic? with hnone | hsame
      · cases hnone.symm.trans hnext
      · rw [hsame] at hnext
        exact .already hnext
  | sharedPanic hmove hact =>
      cases hnext
      exact shared_fatal hmove hact

end Moves

/-! ## No panic of a loop -/

section Runs

variable {setup : EventLoop.Setup} {history : List (Event (Numbered σ))}
  {lane : Lane (Numbered σ)}

/-- A sink has panicked in a move. -/
def Event.SinkPanics (event : Event σ) (cause : Panic) : Prop :=
  ∃ before exchanges after delivery resolved batch, event = .moved before exchanges after ∧
    before.stage = .delivering delivery resolved batch ∧ delivery.SinkPanics exchanges cause

/-- In both directions no operation moves more bytes than its buffer has, if the system keeps to
the limits that it is given. -/
theorem exists_bounding (setup : EventLoop.Setup) :
    ∃ fact, Invariant (σ := σ) setup Exchange.Bounded fact ∧
      ∀ history record, fact history record → record.transferred ≤ record.buffer.length := by
  cases hdirection : setup.direction with
  | read =>
      exact ⟨_, (readInto_invariant hdirection).mono fun _ hbounded => hbounded.arrives,
        fun _ _ hread => hread.bound⟩
  | write =>
      exact ⟨_, (written_invariant hdirection).mono fun _ hbounded => hbounded.accepts,
        fun _ _ hwritten => hwritten.bound⟩

/-- A loop that is over because of a panic is so because a sink has panicked. -/
theorem Run.sinkPanics (h : Run setup history lane)
    (hfits : setup.batch * Source.eventSize ≤ Source.memoryLimit)
    (hbounded : ∀ event ∈ history, ∀ exchange ∈ event.exchanges, exchange.Bounded)
    {cause : Panic} (hpanic : lane.stage.panic? = some cause) :
    ∃ event ∈ history, event.SinkPanics cause := by
  obtain ⟨fact, hinvariant, -⟩ := exists_bounding (σ := σ) setup
  induction h with
  | opened => cases hpanic
  | submit _ _ _ _ _ _ ih | close _ _ ih =>
      obtain ⟨event, hevent, hsink⟩ := ih (List.forall_mem_cons.mp hbounded).2 hpanic
      exact ⟨event, List.mem_cons_of_mem _ hevent, hsink⟩
  | @move history lane next exchanges hrun hmoves ih =>
      obtain ⟨hnow, hearlier⟩ := List.forall_mem_cons.mp hbounded
      have hkept := hrun.kept hinvariant hearlier
      cases hmoves.fatal hpanic with
      | already hstage =>
          obtain ⟨event, hevent, hsink⟩ := ih hearlier hstage
          exact ⟨event, List.mem_cons_of_mem _ hevent, hsink⟩
      | tooLarge hbatch => exact absurd hfits (Nat.not_le_of_lt hbatch)
      | overfull hexchange hlength =>
          have hreported : _ ≤ min setup.batch Source.waitLimit := (hnow _ hexchange).reports
          omega
      | @attempted operation batch hstage hpanics =>
          have hheld : lane.stage.held? = some (operation.record .unfinished) := by
            rw [hstage]
            rfl
          have hfact := hkept.facts _ (held_mem_records hheld)
          exact absurd (hinvariant.safe history operation hfact) hpanics
      | misplaced hstage hsettle =>
          obtain ⟨completions, kept, hresult, -⟩ := hkept.settles hstage hsettle
          cases hresult
      | delivered hstage hpanics =>
          exact ⟨_, List.mem_cons_self, lane, exchanges, next, _, _, _, rfl, hstage, hpanics⟩

/-- Nothing but a sink makes a loop panic, and the slots agree with what the loop has in hand. -/
structure Calm (setup : EventLoop.Setup) (history : List (Event (Numbered σ)))
    (lane : Lane (Numbered σ)) : Prop where
  panicked : ∀ cause, lane.stage = .ended (.panicked cause) →
    ∃ event ∈ history, event.SinkPanics cause
  /-- A slot is in flight exactly when the loop has the operation of its descriptor in hand. -/
  inFlight_iff : ∀ fd, (∃ successor, lane.side.table.slots.get? fd = some (.inFlight successor)) ↔
    ∃ record, lane.stage.held? = some record ∧ record.ticket.fd = fd
  waiting_fd : ∀ fd operation,
    lane.side.table.slots.get? fd = some (.pending operation) → operation.fd = fd
  parked_fd : ∀ fd operation,
    lane.side.table.slots.get? fd = some (.inFlight (some operation)) → operation.fd = fd
  /-- An operation that is settled has a slot in flight, so that its settlement has a result. -/
  settles : ∀ operation attempt batch, lane.stage = .settling operation attempt batch →
    (∃ successor, lane.side.table.slots.get? operation.fd = some (.inFlight successor)) ∧
      ∀ exchanges result left, (lane.side.table.settle operation attempt lane.side.source).Returns
        exchanges (result, left) → ∃ completions, result = .ok completions
  /-- No more bytes are counted than there are, before and after every attempt. -/
  bounded : ∀ record ∈ records history lane, record.transferred ≤ record.buffer.length
  attempts : ∀ operation batch, lane.stage = .attempting operation batch →
    operation.transferred ≤ operation.buffer.length ∧
      (Transfer.attempt setup.direction operation).NeverPanics
  submits : ∀ (operation : Operation (Numbered σ)) policy,
    (lane.side.submit operation policy).NeverPanics
  /-- Something is awaited in every registration. -/
  proper : ∀ event ∈ history, ∀ exchange ∈ event.exchanges,
    exchange.request.Proper setup.batch
  /-- The events of every wait fit into the batch. -/
  fits : ∀ event ∈ history, ∀ source capacity millis reported,
    ⟨.wait source capacity millis, .ok reported⟩ ∈ event.exchanges → reported.length ≤ setup.batch

/-- In every run of a lane the loop panics only if a sink has panicked. -/
theorem Run.calm (h : Run setup history lane)
    (hfits : setup.batch * Source.eventSize ≤ Source.memoryLimit)
    (hbounded : ∀ event ∈ history, ∀ exchange ∈ event.exchanges, exchange.Bounded) :
    Calm setup history lane := by
  obtain ⟨fact, hinvariant, hbound⟩ := exists_bounding (σ := σ) setup
  have hkept := h.kept hinvariant hbounded
  obtain ⟨lending, hmirrors⟩ := hkept.mirrors
  have horderly := hmirrors.run.orderly
  constructor
  case panicked =>
    intro cause hstage
    exact h.sinkPanics hfits hbounded (by rw [hstage]; rfl)
  case inFlight_iff => exact hmirrors.inFlight_iff
  case waiting_fd => exact hmirrors.table_eq ▸ horderly.waiting_fd
  case parked_fd => exact hmirrors.table_eq ▸ horderly.parked_fd
  case settles =>
    intro operation attempt batch hstage
    refine ⟨(hmirrors.inFlight_iff operation.fd).mpr ⟨_, by rw [hstage]; rfl, rfl⟩, ?_⟩
    intro exchanges result left hsettle
    obtain ⟨completions, kept, hresult, -⟩ := hkept.settles hstage hsettle
    exact ⟨completions, hresult⟩
  case bounded => exact fun record hrecord => hbound history record (hkept.facts record hrecord)
  case attempts =>
    intro operation batch hstage
    have hheld : lane.stage.held? = some (operation.record .unfinished) := by
      rw [hstage]
      rfl
    have hfact := hkept.facts _ (held_mem_records hheld)
    exact ⟨hbound history _ hfact, hinvariant.safe history operation hfact⟩
  case submits =>
    exact fun operation policy => Outstanding.submit_neverPanics.bind fun _ =>
      Program.neverPanics_pure _
  case proper => exact h.proper
  case fits =>
    intro event hevent source capacity millis reported hexchange
    have hcapacity : capacity ≤ setup.batch := h.proper event hevent _ hexchange
    have hreported : reported.length ≤ capacity := (hbounded event hevent _ hexchange).reports
    omega

/-- A sink submits a second write while the completion of the first one is delivered to it, and
then panics. -/
theorem calm_until_sink_panics :
    ∃ (setup : EventLoop.Setup) (history : List (Event (Numbered Unit)))
      (lane : Lane (Numbered Unit)),
      Run setup history lane ∧ setup.batch * Source.eventSize ≤ Source.memoryLimit ∧
        (∀ event ∈ history, ∀ exchange ∈ event.exchanges, exchange.Bounded) ∧
        lane.stage = .ended (.panicked (.foreign none)) ∧ lane.side.table.size = 1 ∧
        Calm setup history lane := by
  let setup : EventLoop.Setup := ⟨.write, .dropWhenFull, 4⟩
  let source : Source := ⟨⟨3⟩, ⟨⟨4⟩, ⟨5⟩⟩, false⟩
  let ready : RawEvent := ⟨Fd.key ⟨7⟩, EventMask.output⟩
  let spurious : RawEvent := ⟨Fd.key ⟨8⟩, EventMask.output⟩
  obtain ⟨history, lane, hrun, hbounded, hstage, hsize⟩ :
      ∃ history lane, Run (σ := Unit) setup history lane ∧
        (∀ event ∈ history, ∀ exchange ∈ event.exchanges, exchange.Bounded) ∧
        lane.stage = .ended (.panicked (.foreign none)) ∧ lane.side.table.size = 1 := by
    have hopened : Run (σ := Unit) setup [] ⟨⟨source, .empty .write, true⟩, .starting⟩ :=
      .opened source true
    have hsubmitted := hopened.submit ⟨7⟩ [1, 2] ⟨(), false⟩ .overwrite
      ⟨.ok (), [], rfl, rfl, rfl⟩
    have hstarted := hsubmitted.move (.shared rfl ⟨rfl, rfl⟩)
    have hwaited := hstarted.move (.shared rfl ⟨.ok [spurious, ready], _, rfl, rfl, rfl⟩)
    have hpassed := hwaited.move (.exclusive rfl ⟨(), _, rfl, (), _, rfl, rfl, rfl⟩)
    have hchecked := hpassed.move (.exclusive rfl ⟨(), _, rfl, rfl, rfl⟩)
    have hattempted := hchecked.move (.shared rfl ⟨.ok 2, _, rfl, rfl, rfl⟩)
    have hsettled := hattempted.move (.exclusive rfl ⟨.ok (), _, rfl, rfl, rfl⟩)
    have hannounced := hsettled.move (.shared rfl ⟨(), _, rfl, rfl, rfl⟩)
    have hagain := hannounced.submit ⟨7⟩ [3] ⟨(), false⟩ .overwrite ⟨.ok (), [], rfl, rfl, rfl⟩
    have hpanicked := hagain.move
      (.sharedPanic rfl ⟨.panicked (.foreign none), _, rfl, rfl, rfl⟩)
    refine ⟨_, _, hpanicked, ?_, rfl, rfl⟩
    simp only [List.mem_cons, List.not_mem_nil, or_false, Event.exchanges, Exchange.bounded_iff,
      Exchange.AcceptsAtMost, Exchange.ArrivesAtMost, Exchange.ReportsAtMost, forall_eq_or_imp,
      forall_eq, IsEmpty.forall_iff, implies_true, and_true, true_and]
    decide
  have hfits : setup.batch * Source.eventSize ≤ Source.memoryLimit := by decide
  exact ⟨setup, history, lane, hrun, hfits, hbounded, hstage, hsize, hrun.calm hfits hbounded⟩

end Runs

end Lane

end Proactor
