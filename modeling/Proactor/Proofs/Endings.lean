import Proactor.Proofs.Handover
import Proactor.Proofs.Panics
import Proactor.Proofs.Rejecting

/-!
# What an ended loop leaves behind

A loop ends once, and stays as it is from then on. `Run.mirrors` says that it leaves no slot in
flight unless it ended with an operation in its hands, and `EndsWell` lists the endings of which
this cannot be said: the stop flag, a wait that failed, and the panic of a sink.

While a completion is delivered its operation is in the table no more. Whatever the table holds then
has another number, also if it was submitted by the sink meanwhile.
-/

namespace Proactor

variable {σ : Type}

/-! ## Steps of a delivery -/

namespace Delivery

variable {delivery : Delivery σ} {exchanges : List (Exchange σ)} {cause : Panic}

/-- A delivery that goes on goes on to the same sink. -/
def Goes (delivery : Delivery σ) (next : Option (Delivery σ)) : Prop :=
  ∀ changed, next = some changed → changed.sink = delivery.sink

/-- A delivery that is over goes to no sink at all. -/
theorem goes_none : delivery.Goes none :=
  fun _ heq => by cases heq

/-- A delivery that goes on as it is goes on to the same sink. -/
theorem yields_goes {changed : Delivery σ} (h : changed.sink = delivery.sink) :
    (pure (some changed) : Program σ _).Yields delivery.Goes := by
  intro other heq
  cases heq
  exact h

/-- What follows a reception is what follows a refusal, or nothing. -/
theorem received_yields {kind : Option (Delivery σ) → Prop}
    {whenFull : Completion → Program σ (Option (Delivery σ))} (hnone : kind none)
    (hfull : ∀ completion, (whenFull completion).Yields kind) (reception : Reception) :
    (delivery.received whenFull reception).Yields kind := by
  cases reception with
  | accepted => exact hnone
  | full completion => exact hfull completion
  | disconnected completion => exact .bind fun _ => hnone
  | panicked cause => trivial

/-- Whatever the sink answers, a delivery that goes on goes on to the same sink. -/
theorem step_goes {policy : DeliveryPolicy} : (delivery.step policy).Yields delivery.Goes := by
  have hback : ∀ completion point, (pure (some (delivery.back completion point)) :
      Program σ _).Yields delivery.Goes := fun _ _ => yields_goes rfl
  unfold step
  split
  · refine .bind (received_yields goes_none fun completion => ?_)
    cases policy with
    | blockWhenFull => exact hback completion .refused
    | dropWhenFull => exact .bind fun _ => goes_none
  · refine .bind fun stopping => ?_
    cases stopping with
    | true => exact .bind fun _ => goes_none
    | false => exact yields_goes rfl
  · split
    · exact .bind (received_yields goes_none fun completion => hback completion .refused)
    · generalize (Polling.deadline slice : Program σ Instant) = program
      exact Program.Yields.bind fun deadline => hback delivery.completion (.polling deadline)
  · refine .bind fun answer => ?_
    cases answer with
    | inr completion => exact yields_goes rfl
    | inl reception =>
        exact received_yields goes_none (fun completion => hback completion .refused) reception

/-- A deadline that the clock can show is later than now. -/
theorem deadline_returns {patience : Duration} {deadline : Instant}
    (h : (Polling.deadline patience).Returns exchanges deadline) :
    ∃ now, exchanges = [⟨.now, now⟩] ∧ now.add? patience = some deadline := by
  obtain ⟨now, rest, rfl, hrest⟩ := Program.returns_ask_bind.mp h
  cases hnow : now.add? patience with
  | none =>
      rw [hnow] at hrest
      exact absurd hrest Program.returns_panic
  | some instant =>
      rw [hnow] at hrest
      obtain ⟨rfl, rfl⟩ := Program.returns_pure.mp hrest
      exact ⟨now, rfl, hnow⟩

/-- A sink that panics ends the step in which it does. -/
theorem SinkPanics.not_returns (h : delivery.SinkPanics exchanges cause) {policy : DeliveryPolicy}
    {next : Option (Delivery σ)} : ¬ (delivery.step policy).Returns exchanges next := by
  intro hreturns
  unfold step at hreturns
  split at hreturns
  · obtain ⟨reception, rest, heq, hrest⟩ := Program.returns_ask_bind.mp hreturns
    cases h <;> cases heq
    exact Program.returns_panic hrest
  · obtain ⟨stopping, rest, heq, -⟩ := Program.returns_ask_bind.mp hreturns
    cases h <;> cases heq
  · split at hreturns
    · obtain ⟨reception, rest, heq, hrest⟩ := Program.returns_ask_bind.mp hreturns
      cases h <;> cases heq
      exact Program.returns_panic hrest
    · obtain ⟨deadline, first, rest, heq, hfirst, -⟩ := Program.returns_bind.mp hreturns
      obtain ⟨now, rfl, hnow⟩ := deadline_returns hfirst
      cases h with
      | offered | offeredWithin => cases (List.cons.inj heq).1
      | noDeadline _ _ hnone =>
          cases (List.cons.inj heq).1
          cases hnone.symm.trans hnow
  · obtain ⟨answer, first, rest, heq, hfirst, -⟩ := Program.returns_bind.mp hreturns
    obtain ⟨reception, others, rfl, hothers⟩ := Program.returns_ask_bind.mp hfirst
    cases h with
    | offered =>
        cases (List.cons.inj heq).1
        exact Program.returns_panic hothers
    | offeredWithin | noDeadline => cases (List.cons.inj heq).1

end Delivery

/-! ## Flags -/

/-- The flag of a loop goes down when it reaches its end, and stays as it is otherwise. -/
@[simp]
theorem Side.dispatching_afterStage (side : Side σ) (stage : EventLoop.Stage σ) :
    (side.afterStage stage).dispatching = (side.dispatching && !stage.isEnded) := by
  unfold afterStage
  cases stage.isEnded <;> simp

/-- A settlement leaves the flag of the loop alone. -/
theorem Side.settle_dispatching {side : Side σ} {operation : Operation σ} {attempt : Attempt} :
    (side.settle operation attempt).Yields fun answer =>
      answer.2.dispatching = side.dispatching :=
  .bind fun _ => rfl

/-- A submission leaves the flag of the loop alone. -/
theorem Side.submit_dispatching {side : Side σ} {operation : Operation σ}
    {policy : OverlapPolicy} : (side.submit operation policy).Yields fun answer =>
      answer.2.dispatching = side.dispatching :=
  .bind fun _ => rfl

namespace Lane

/-- The flag of the side is up as long as the loop goes on. -/
def IsFlagged (lane : Lane σ) : Prop :=
  lane.side.dispatching = !lane.stage.isEnded

section Moves

variable {setup : EventLoop.Setup} {lane next : Lane σ} {exchanges : List (Exchange σ)}

/-- An exclusive move leaves the flag to its end. -/
theorem exclusive_dispatching {stage : EventLoop.Stage σ}
    {act : Side σ → Program σ (EventLoop.Stage σ × Side σ)}
    (hmove : stage.move setup = .exclusive act) (side : Side σ) :
    (act side).Yields fun answer => answer.2.dispatching = side.dispatching := by
  rcases exclusive_cases hmove with ⟨event, batch, rfl, hready⟩ | ⟨operation, attempt, batch, rfl⟩
  · cases hready
    refine .bind fun _ => ?_
    cases hcheck : side.checkOut event.fd with
    | none => exact .bind fun _ => rfl
    | some checked =>
        obtain ⟨_, -, rfl⟩ := Option.map_eq_some_iff.mp hcheck
        rfl
  · cases hmove
    refine Side.settle_dispatching.chain fun answer hanswer => ?_
    obtain ⟨result, settled⟩ := answer
    cases result <;> exact hanswer

/-- Whatever ends a loop lowers the flag of its side. -/
theorem Moves.isFlagged (h : Moves setup lane exchanges next) (hlive : lane.stage.isEnded = false)
    (hflag : lane.IsFlagged) : next.IsFlagged := by
  have hup : lane.side.dispatching = true := by
    rw [IsFlagged, hlive] at hflag
    exact hflag
  cases h with
  | exclusive hmove hact =>
      have hsame := (exclusive_dispatching hmove _).of_returns hact
      dsimp only at hsame
      simp only [IsFlagged, Side.dispatching_afterStage, hsame, hup, Bool.true_and]
  | shared | exclusivePanic | sharedPanic =>
      simp only [IsFlagged, Side.dispatching_afterStage, hup, Bool.true_and]

/-! ## Moves that end the loop -/

/-- The panic of a sink ends the loop. -/
theorem Moves.ends_of_sinkPanics (h : Moves setup lane exchanges next) {delivery : Delivery σ}
    {resolved : List (Resolved σ)} {batch : List Proactor.Event} {cause : Panic}
    (hstage : lane.stage = .delivering delivery resolved batch)
    (hsink : delivery.SinkPanics exchanges cause) : next.stage.isEnded = true := by
  cases h with
  | exclusive hmove | exclusivePanic hmove =>
      rw [hstage] at hmove
      cases hmove
  | sharedPanic => rfl
  | shared hmove hact =>
      rw [hstage] at hmove
      cases hmove
      obtain ⟨result, first, rest, rfl, hfirst, hrest⟩ := Program.returns_bind.mp hact
      obtain rfl : rest = [] := by
        cases result <;> exact (Program.returns_pure.mp hrest).1
      rw [List.append_nil] at hsink
      exact absurd hfirst hsink.not_returns

/-- A delivery is under way after it has been announced, or while it goes on. -/
theorem Moves.to_delivering (h : Moves setup lane exchanges next) {delivery : Delivery σ}
    {resolved : List (Resolved σ)} {batch : List Proactor.Event}
    (hnext : next.stage = .delivering delivery resolved batch) :
    (∃ first, lane.stage = .announcing (first :: resolved) batch) ∨
      ∃ earlier, lane.stage = .delivering earlier resolved batch := by
  cases h with
  | exclusive hmove hact =>
      have hfollows := (exclusive_follows hmove _).of_returns hact
      obtain rfl : _ = EventLoop.Stage.delivering delivery resolved batch := hnext
      generalize lane.stage = before at hfollows
      cases hfollows
  | exclusivePanic | sharedPanic => cases hnext
  | shared hmove hact =>
      have hfollows := (shared_follows hmove _).of_returns hact
      obtain rfl : _ = EventLoop.Stage.delivering delivery resolved batch := hnext
      generalize lane.stage = before at hfollows
      cases hfollows with
      | handed first => exact .inl ⟨first, rfl⟩
      | delivering earlier => exact .inr ⟨earlier, rfl⟩

/-- A delivery that goes on goes on to the same sink. -/
theorem Moves.delivering_sink (h : Moves setup lane exchanges next) {delivery changed : Delivery σ}
    {resolved others : List (Resolved σ)} {batch rest : List Proactor.Event}
    (hstage : lane.stage = .delivering delivery resolved batch)
    (hnext : next.stage = .delivering changed others rest) : changed.sink = delivery.sink := by
  cases h with
  | exclusive hmove | exclusivePanic hmove =>
      rw [hstage] at hmove
      cases hmove
  | sharedPanic => cases hnext
  | shared hmove hact =>
      rw [hstage] at hmove
      cases hmove
      obtain ⟨result, first, last, rfl, hfirst, hlast⟩ := Program.returns_bind.mp hact
      have hgoes := Delivery.step_goes.of_returns hfirst
      cases result with
      | none =>
          obtain ⟨-, rfl⟩ := Program.returns_pure.mp hlast
          cases hnext
      | some going =>
          obtain ⟨-, rfl⟩ := Program.returns_pure.mp hlast
          cases hnext
          exact hgoes _ rfl

end Moves

/-! ## How loops end -/

/-- The loop has ended in a move. -/
def Event.Ends (event : Event σ) : Prop :=
  ∃ before exchanges after, event = .moved before exchanges after ∧
    before.stage.isEnded = false ∧ after.stage.isEnded = true

/-- The loop has ended with an operation in its hands. -/
def Event.Forsakes (event : Event σ) : Prop :=
  ∃ before exchanges after, event = .moved before exchanges after ∧
    before.stage.held?.isSome = true ∧ after.stage.isEnded = true

/-- A loop that ends with an operation in its hands has ended. -/
theorem Event.Forsakes.ends {event : Event σ} (h : event.Forsakes) : event.Ends := by
  obtain ⟨before, exchanges, after, rfl, hheld, hended⟩ := h
  refine ⟨before, exchanges, after, rfl, ?_, hended⟩
  cases hstage : before.stage with
  | ended ending =>
      rw [hstage] at hheld
      cases hheld
  | _ => rfl

/-- The endings that are none of the loop's own making. -/
inductive EndsWell (history : List (Event σ)) : EventLoop.Ending → Prop where
  | stopped : EndsWell history .stopped
  | waitFailed (fault : Fault) : EndsWell history (.waitFailed fault)
  | sinkPanicked {event : Event σ} {cause : Panic} (hevent : event ∈ history)
      (hsink : event.SinkPanics cause) : EndsWell history (.panicked cause)

section Runs

variable {setup : EventLoop.Setup} {history : List (Event (Numbered σ))}
  {lane : Lane (Numbered σ)}

/-- The moves of a history are moves of the loop. -/
theorem Run.moves_of_mem (h : Run setup history lane) {before after : Lane (Numbered σ)}
    {exchanges : List (Exchange (Numbered σ))}
    (hevent : .moved before exchanges after ∈ history) : Moves setup before exchanges after := by
  obtain ⟨later, earlier, rfl⟩ := List.append_of_mem hevent
  obtain ⟨reached, hreached⟩ := h.earlier
  cases hreached with
  | move _ hmoves => exact hmoves

/-- A loop that has ended stays as it is. -/
theorem Run.stays_ended (h : Run setup history lane) {before after : Lane (Numbered σ)}
    {exchanges : List (Exchange (Numbered σ))}
    (hevent : .moved before exchanges after ∈ history) (hended : after.stage.isEnded = true) :
    lane.stage = after.stage := by
  induction h with
  | opened => cases hevent
  | submit _ _ _ _ _ _ ih | close _ _ ih =>
      rcases List.mem_cons.mp hevent with heq | hbefore
      · cases heq
      · exact ih hbefore
  | move hrun hmoves ih =>
      rcases List.mem_cons.mp hevent with heq | hbefore
      · cases heq
        rfl
      · obtain ⟨ending, hstage⟩ := EventLoop.Stage.isEnded_iff.mp hended
        have hsame := ih hbefore
        obtain ⟨hnext, -⟩ := hmoves.of_ended (hsame.trans hstage)
        rw [hnext, hstage]

/-- A loop that goes on has not ended in any move. -/
theorem Run.not_ends (h : Run setup history lane) (hlive : lane.stage.isEnded = false) :
    ∀ event ∈ history, ¬ event.Ends := by
  rintro event hevent ⟨before, exchanges, after, rfl, -, hended⟩
  rw [h.stays_ended hevent hended, hended] at hlive
  cases hlive

/-- A loop ends once. -/
theorem Run.ends_once (h : Run setup history lane) {first second : Event (Numbered σ)}
    (hfirst : first ∈ history) (hsecond : second ∈ history) (hends : first.Ends)
    (hagain : second.Ends) : first = second := by
  induction h with
  | opened => cases hfirst
  | submit _ _ _ _ _ _ ih | close _ _ ih =>
      rcases List.mem_cons.mp hfirst with rfl | hbefore
      · obtain ⟨_, _, _, heq, -⟩ := hends
        cases heq
      rcases List.mem_cons.mp hsecond with rfl | hearlier
      · obtain ⟨_, _, _, heq, -⟩ := hagain
        cases heq
      exact ih hbefore hearlier
  | @move history lane next exchanges hrun _ ih =>
      have honly : (Event.moved lane exchanges next).Ends → ∀ event ∈ history, ¬ event.Ends := by
        rintro ⟨_, _, _, heq, hlive, -⟩
        cases heq
        exact hrun.not_ends hlive
      rcases List.mem_cons.mp hfirst with rfl | hbefore
      · rcases List.mem_cons.mp hsecond with rfl | hearlier
        · rfl
        · exact absurd hagain (honly hends second hearlier)
      · rcases List.mem_cons.mp hsecond with rfl | hearlier
        · exact absurd hends (honly hagain first hbefore)
        · exact ih hbefore hearlier

/-- A loop that has not ended with an operation in its hands agrees with its table. -/
theorem Run.mirrors (h : Run setup history lane) (hforsakes : ∀ event ∈ history, ¬ event.Forsakes) :
    ∃ lending, Mirrors setup history lane lending := by
  induction h with
  | opened source dispatching => exact ⟨_, .opened, rfl, rfl⟩
  | submit _ _ _ _ _ hsubmit ih =>
      obtain ⟨lending, hmirrors⟩ := ih (List.forall_mem_cons.mp hforsakes).2
      exact ⟨_, hmirrors.submit hsubmit⟩
  | close _ hclose ih =>
      obtain ⟨lending, hmirrors⟩ := ih (List.forall_mem_cons.mp hforsakes).2
      obtain ⟨rfl, -⟩ := Side.close_returns hclose
      exact ⟨lending, hmirrors.idle rfl rfl rfl⟩
  | move _ hmoves ih =>
      obtain ⟨hnow, hearlier⟩ := List.forall_mem_cons.mp hforsakes
      obtain ⟨lending, hmirrors⟩ := ih hearlier
      cases hmoves.step with
      | idle hbefore hafter htable =>
          exact ⟨_, hmirrors.idle (onTable_idle hbefore hafter) htable
            (hafter.trans hbefore.symm)⟩
      | checkedOut hstage hcheck hnext => exact ⟨_, hmirrors.checkOut hstage hcheck hnext⟩
      | attempted hstage hattempt _ hnext htable =>
          exact ⟨_, hmirrors.attempt hstage hattempt hnext htable⟩
      | settled hstage hsettle hnext => exact ⟨_, hmirrors.settle hstage hsettle hnext⟩
      | gaveUp hstage _ hnext | misplaced hstage _ hnext =>
          exact absurd ⟨_, _, _, rfl, by rw [hstage]; rfl, by rw [hnext]; rfl⟩ hnow

/-- A loop that has ended well has left no operation checked out. -/
theorem EndsWell.mirrors {ending : EventLoop.Ending} (h : EndsWell history ending)
    (hrun : Run setup history lane) (hstage : lane.stage = .ended ending) :
    ∃ lending, Mirrors setup history lane lending := by
  refine hrun.mirrors fun event hevent hforsakes => ?_
  have hends := hforsakes.ends
  obtain ⟨before, exchanges, after, rfl, hheld, hended⟩ := hforsakes
  -- a loop with an operation in its hands ends by a panic of its own
  obtain ⟨cause, hpanic⟩ : ∃ cause, after.stage = .ended (.panicked cause) := by
    cases (hrun.moves_of_mem hevent).step with
    | gaveUp _ _ hnext | misplaced _ _ hnext => exact ⟨_, hnext⟩
    | idle hnow =>
        rw [hnow] at hheld
        cases hheld
    | checkedOut _ _ hnext | attempted _ _ _ hnext | settled _ _ hnext =>
        rw [hnext] at hended
        cases hended
  cases (hstage.symm.trans (hrun.stays_ended hevent hended)).trans hpanic
  cases h with
  | sinkPanicked hother hsink =>
      obtain ⟨_, _, _, delivery, resolved, batch, rfl, hdelivering, hpanics⟩ := hsink
      have hagain := (hrun.moves_of_mem hother).ends_of_sinkPanics hdelivering hpanics
      cases hrun.ends_once hevent hother hends
        ⟨_, _, _, rfl, by rw [hdelivering]; rfl, hagain⟩
      rw [hdelivering] at hheld
      cases hheld

/-- As long as the system keeps to the limits that it is given, loops end well. -/
theorem Run.endsWell (h : Run setup history lane)
    (hfits : setup.batch * Source.eventSize ≤ Source.memoryLimit)
    (hbounded : ∀ event ∈ history, ∀ exchange ∈ event.exchanges, exchange.Bounded)
    {ending : EventLoop.Ending} (hstage : lane.stage = .ended ending) :
    EndsWell history ending := by
  cases ending with
  | stopped => exact .stopped
  | waitFailed fault => exact .waitFailed fault
  | panicked cause =>
      obtain ⟨event, hevent, hsink⟩ := h.sinkPanics hfits hbounded (by rw [hstage]; rfl)
      exact .sinkPanicked hevent hsink

/-- A move that ends the loop leaves the table and all registrations as they are. -/
theorem Run.last_move (h : Run setup history lane) (hlive : lane.stage.isEnded = false)
    {next : Lane (Numbered σ)} {exchanges : List (Exchange (Numbered σ))}
    (hmoves : Moves setup lane exchanges next) (hended : next.stage.isEnded = true) :
    next.side.table = lane.side.table ∧
      ∀ exchange ∈ exchanges, ∀ source change, exchange.request ≠ .control source change := by
  have hsettling : ∀ operation attempt batch,
      lane.stage ≠ .settling operation attempt batch := by
    intro operation attempt batch hstage
    obtain ⟨lending, hinUse⟩ := h.inUse
    obtain ⟨_, _, hnext, -⟩ := (hinUse.mirrors hlive).announces hstage hmoves
    rw [hnext] at hended
    cases hended
  constructor
  · cases hmoves.step with
    | idle _ _ htable => exact htable
    | gaveUp hstage => exact hmoves.table_of_attempting hstage
    | settled hstage | misplaced hstage => exact absurd hstage (hsettling _ _ _)
    | checkedOut _ _ hnext | attempted _ _ _ hnext =>
        rw [hnext] at hended
        cases hended
  · intro exchange hexchange source change hrequest
    have hmay := hmoves.mayAsk exchange hexchange
    rw [hrequest] at hmay
    cases hstage : lane.stage with
    | settling operation attempt batch => exact hsettling _ _ _ hstage
    | delivering =>
        rw [hstage] at hmay
        cases hmay
    | _ =>
        rw [hstage] at hmay
        simp [EventLoop.Stage.MayAsk, Request.Logs, Request.transferOn?] at hmay

/-! ## While a completion is delivered -/

/-- A lane keeps its direction. -/
theorem Run.table_direction (h : Run setup history lane) :
    lane.side.table.direction = setup.direction := by
  obtain ⟨lending, hinUse⟩ := h.inUse
  rw [← hinUse.table_eq]
  exact hinUse.run.direction_eq

/-- A delivery goes to the sink of a completion that has been handed over. -/
theorem Run.delivering (h : Run setup history lane) {delivery : Delivery (Numbered σ)}
    {resolved : List (Resolved (Numbered σ))} {batch : List Proactor.Event}
    (hstage : lane.stage = .delivering delivery resolved batch) :
    ∃ first ∈ Lane.handed history, first.sink = delivery.sink := by
  induction h generalizing delivery resolved batch with
  | opened => cases hstage
  | submit _ _ _ _ _ _ ih | close _ _ ih =>
      obtain ⟨first, hfirst, hsink⟩ := ih hstage
      exact ⟨first, List.mem_append_left _ hfirst, hsink⟩
  | @move history lane next exchanges hrun hmoves ih =>
      rcases hmoves.to_delivering hstage with ⟨first, hbefore⟩ | ⟨earlier, hbefore⟩
      · refine ⟨delivery.resolved, List.mem_append_right _ ?_, rfl⟩
        simp [Event.handed, hbefore, hstage, EventLoop.Stage.handedTo]
      · obtain ⟨first, hfirst, hsink⟩ := ih hbefore
        refine ⟨first, List.mem_append_left _ hfirst, hsink.trans ?_⟩
        exact (hmoves.delivering_sink hbefore hstage).symm

/-- While a completion is delivered, the table holds only operations with other numbers. -/
theorem Run.number_ne_delivered (h : Run setup history lane) {delivery : Delivery (Numbered σ)}
    {resolved : List (Resolved (Numbered σ))} {batch : List Proactor.Event}
    (hstage : lane.stage = .delivering delivery resolved batch) :
    ∀ operation ∈ lane.side.table.picked Slot.stored?,
      operation.ticket.number ≠ delivery.sink.target.1 := by
  intro operation hoperation hnumber
  obtain ⟨first, hfirst, hsink⟩ := h.delivering hstage
  obtain ⟨lending, hinUse⟩ := h.inUse
  rw [← hinUse.table_eq] at hoperation
  have hcompleted := h.handing.front.subset hfirst
  have hresolved := (Lending.completed_perm _).subset (List.mem_map_of_mem hcompleted)
  have houtstanding : operation.ticket ∈ lending.outstanding :=
    Lending.mem_outstanding.mpr (.inr (List.mem_map_of_mem hoperation))
  refine hinUse.run.number_ne_ended houtstanding (.inr hresolved) (hnumber.trans ?_)
  rw [← hsink]
  rfl

/-- While a completion is delivered, a submission that overwrites nothing is refused only because
of an operation with another number. -/
theorem Run.busy_elsewhere (h : Run setup history lane) {delivery : Delivery (Numbered σ)}
    {resolved : List (Resolved (Numbered σ))} {batch : List Proactor.Event}
    (hstage : lane.stage = .delivering delivery resolved batch)
    {operation : Operation (Numbered σ)} {exchanges : List (Exchange (Numbered σ))}
    {side : Side (Numbered σ)} (hsubmit : (lane.side.submit operation .reject).Returns exchanges
      (.error (.busy operation.fd lane.side.table.direction), side)) :
    ∃ current, lane.side.table.slots.get? operation.fd = some (.pending current) ∧
      current.ticket.number ≠ delivery.sink.target.1 := by
  obtain ⟨⟨result, table⟩, calls, none, rfl, htable, hside⟩ := Program.returns_bind.mp hsubmit
  obtain ⟨-, hvalue⟩ := Program.returns_pure.mp hside
  cases hvalue
  rcases (Outstanding.submit_cases htable).busy_iff.mp rfl with hinFlight | ⟨⟨current, hslot⟩, -⟩
  · obtain ⟨lending, hinUse⟩ := h.inUse
    have hmirrors := hinUse.mirrors (by rw [hstage]; rfl)
    obtain ⟨record, hheld, -⟩ := (hmirrors.inFlight_iff operation.fd).mp hinFlight
    rw [hstage] at hheld
    cases hheld
  · have hstored : (lane.side.table.slots.get? operation.fd).bind Slot.stored? = some current := by
      rw [hslot]
      rfl
    exact ⟨current, hslot,
      h.number_ne_delivered hstage current (Outstanding.mem_picked_of_slot hstored)⟩

end Runs

end Lane

end Proactor
