import Proactor.Proofs.Closing
import Proactor.Proofs.Release

/-!
# Reactors whose loops have ended

A loop ends because it was told to stop, because it could no longer wait, or because a sink has
panicked. `Life.Reachable.clean` says that the reactor is as sound afterwards as it was before: no
slot is in flight, the flag of the side is down, the other lane has not noticed, and the owner can
shut the reactor down as ever.
-/

namespace Proactor

namespace Reactor

variable {σ : Type}

/-- The owner of a reactor has been given it after both loops had been started. -/
theorem Lifecycle.loops?_of_constructed {point : Lifecycle} (h : point.isConstructed = true) :
    point.loops? = some [.read, .write] := by
  cases point with
  | starting => cases h
  | _ => simpa [loops?] using h

namespace State

variable {state next : State σ} {direction : Direction}
  {history : List (Lane.Event (Numbered σ))}

/-- Only the last move of a loop ends it. -/
theorem Step.ends (h : state.Step next) (hlive : (state.stage direction).isEnded = false)
    (hended : (next.stage direction).isEnded = true) :
    ∃ exchanges lane, direction ∈ state.reactor.started ∧
      Lane.Moves (state.reactor.loopSetup direction) (state.lane direction) exchanges lane ∧
      next = state.moved direction exchanges lane := by
  cases h with
  | submit | watch | stopWatch | shutDown => cases hlive.symm.trans hended
  | owner hstep =>
      cases hstep with
      | acted | began | asked | arrived => cases hlive.symm.trans hended
  | @move exchanges lane other hstarted _ hmoves =>
      by_cases hother : direction = other
      · subst hother
        exact ⟨exchanges, lane, hstarted, hmoves, rfl⟩
      · have hsame := congrArg Lane.stage (state.lane_moved_other exchanges lane hother)
        cases hlive.symm.trans ((congrArg EventLoop.Stage.isEnded hsame).symm.trans hended)

/-- What holds in one direction of a reactor, as long as its loop goes on and afterwards. -/
structure CleanLane (state : State σ) (direction : Direction)
    (history : List (Lane.Event (Numbered σ))) : Prop where
  chronicle : state.Chronicle direction history
  /-- A slot is in flight only while the loop has its operation in its hands. -/
  inFlight : (state.stage direction).isEnded = false → ∀ fd,
    (∃ successor, (state.reactor.side direction).table.slots.get? fd =
        some (.inFlight successor)) ↔
      ∃ record, (state.stage direction).held? = some record ∧ record.ticket.fd = fd
  /-- A loop that has ended well has put everything down. -/
  putDown : ∀ ending, state.stage direction = .ended ending → Lane.EndsWell history ending →
    ∀ fd successor, (state.reactor.side direction).table.slots.get? fd ≠
      some (.inFlight successor)
  /-- As long as the system keeps to the limits that it is given, loops end well. -/
  endsWell : (state.reactor.loopSetup direction).batch * Source.eventSize ≤ Source.memoryLimit →
    (∀ exchange ∈ state.trace, exchange.Bounded) →
    ∀ ending, state.stage direction = .ended ending → Lane.EndsWell history ending
  /-- While a completion is delivered, its operation is in the table no more. -/
  delivering : ∀ delivery resolved batch,
    state.stage direction = .delivering delivery resolved batch →
    ∀ operation ∈ (state.reactor.side direction).table.picked Slot.stored?,
      operation.ticket.number ≠ delivery.sink.target.1
  /-- If a submission is refused meanwhile, it is so because of another operation. -/
  refused : ∀ delivery resolved batch,
    state.stage direction = .delivering delivery resolved batch →
    state.reactor.settings.overlap = .reject →
    ∀ fd buffer sink exchanges reactor, (state.reactor.submit direction fd buffer sink).Returns
      exchanges (.error (.busy fd direction), reactor) →
    ∃ current, (state.reactor.side direction).table.slots.get? fd = some (.pending current) ∧
      current.ticket.number ≠ delivery.sink.target.1
  /-- The flag of a side is up as long as its loop goes on. -/
  dispatching : state.point.isConstructed = true →
    (state.reactor.isDispatching direction = true ↔ (state.stage direction).isEnded = false)
  /-- The end of a loop changes nothing but its flag, and asks for no change of a registration. -/
  last : ∀ next, state.Step next → (state.stage direction).isEnded = false →
    (next.stage direction).isEnded = true →
    (∀ other, other ≠ direction → next.lane other = state.lane other) ∧
    next.reactor.side direction =
      { state.reactor.side direction with dispatching := false } ∧
    ∃ exchanges, next.trace = state.trace ++ exchanges ∧
      ∀ exchange ∈ exchanges, ∀ source change, exchange.request ≠ .control source change

/-- The step with which a loop ends lowers its flag and leaves everything else as it is. -/
theorem Chronicle.last (h : state.Chronicle direction history) (hstep : state.Step next)
    (hlive : (state.stage direction).isEnded = false)
    (hended : (next.stage direction).isEnded = true) :
    (∀ other, other ≠ direction → next.lane other = state.lane other) ∧
    next.reactor.side direction =
      { state.reactor.side direction with dispatching := false } ∧
    ∃ exchanges, next.trace = state.trace ++ exchanges ∧
      ∀ exchange ∈ exchanges, ∀ source change, exchange.request ≠ .control source change := by
  obtain ⟨exchanges, lane, hstarted, hmoves, rfl⟩ := hstep.ends hlive hended
  have hlane := state.lane_moved_same direction exchanges lane
  have hover : lane.stage.isEnded = true := by
    rw [← hlane]
    exact hended
  obtain ⟨htable, hcontrol⟩ := h.run.last_move hlive hmoves hover
  have hflag := hmoves.isFlagged hlive (h.flagged hstarted)
  rw [Lane.IsFlagged, hover] at hflag
  refine ⟨fun other hother => state.lane_moved_other exchanges lane hother, ?_,
    exchanges, rfl, hcontrol⟩
  calc (state.moved direction exchanges lane).reactor.side direction
      = ⟨lane.side.source, lane.side.table, lane.side.dispatching⟩ := congrArg Lane.side hlane
    _ = { state.reactor.side direction with dispatching := false } := by
        rw [hmoves.source_eq, htable, hflag]
        rfl

/-- The lanes of a reactor are clean. -/
theorem Chronicle.cleanLane (h : state.Chronicle direction history)
    (hmanaged : state.Managed) : state.CleanLane direction history := by
  constructor
  case chronicle => exact h
  case inFlight =>
    intro hlive fd
    obtain ⟨lending, hinUse⟩ := h.run.inUse
    exact (hinUse.mirrors hlive).inFlight_iff fd
  case putDown =>
    intro ending hstage hwell fd successor hslot
    obtain ⟨lending, hmirrors⟩ := hwell.mirrors h.run hstage
    obtain ⟨record, hheld, -⟩ := (hmirrors.inFlight_iff fd).mp ⟨successor, hslot⟩
    rw [show (state.lane direction).stage = _ from hstage] at hheld
    cases hheld
  case endsWell =>
    intro hfits hbounded ending hstage
    refine h.run.endsWell hfits (fun event hevent exchange hexchange => ?_) hstage
    exact hbounded exchange (h.traced event hevent exchange hexchange)
  case delivering =>
    intro delivery resolved batch hstage
    exact h.run.number_ne_delivered hstage
  case refused =>
    intro delivery resolved batch hstage hpolicy fd buffer sink exchanges reactor hsubmit
    obtain ⟨answer, side, calls, logs, -, hcalls, -, -, hresult⟩ := submit_side hsubmit
    rw [hpolicy] at hcalls
    cases answer with
    | ok displaced => cases hresult
    | error error =>
        cases hresult
        have hrefused : ((state.lane direction).side.submit (.submitted fd buffer sink)
            .reject).Returns calls
              (.error (.busy fd (state.lane direction).side.table.direction), side) := by
          rw [h.run.table_direction]
          exact hcalls
        exact h.run.busy_elsewhere hstage hrefused
  case dispatching =>
    intro hconstructed
    have hstarted := hmanaged.loops _ (Lifecycle.loops?_of_constructed hconstructed)
    have hflag : state.reactor.isDispatching direction = !(state.stage direction).isEnded :=
      h.flagged (by rw [hstarted]; cases direction <;> simp)
    rw [hflag, Bool.not_eq_true']
  case last => exact fun next hstep => h.last hstep

/-- A reactor that is none the worse for the end of a loop. -/
structure Clean (state : State σ) : Prop where
  lanes : ∀ direction, ∃ history, state.CleanLane direction history
  /-- The owner waits for the loops when both have been told to stop. -/
  signalled : state.point.isSignalled = true → state.Signalled
  /-- It does not wait for ever. -/
  comesTo_gone : ∀ purpose, state.point.purpose? = some purpose → ∀ limit,
    state.ComesTo limit (IsGoneBy purpose)
  /-- All loops have been waited for in the end, and both sources have been closed, whatever came
  of closing the first. -/
  gone : ∀ purpose result, state.point = .gone purpose result →
    (purpose.abandons = false → state.reactor.started = [.read, .write]) ∧ state.Joined ∧
      state.Dissolved result

end State

namespace Life

/-- Whatever a loop comes to, what it leaves behind is clean. -/
theorem Reachable.clean {state : State σ} (h : Reachable (.led state)) : state.Clean := by
  have hmanaged := h.managed
  constructor
  case lanes =>
    intro direction
    obtain ⟨history, hchronicle⟩ := h.chronicle direction
    exact ⟨history, hchronicle.cleanLane hmanaged⟩
  case signalled => exact hmanaged.signalled
  case comesTo_gone => exact fun purpose hpurpose => h.comesTo_gone hpurpose
  case gone =>
    intro purpose result hpoint
    refine ⟨fun hpurpose => hmanaged.loops _ (Lifecycle.loops?_of_constructed ?_),
      hmanaged.joined (by rw [hpoint]; rfl), h.sourced.dissolved purpose result hpoint⟩
    rw [hpoint, Lifecycle.isConstructed, hpurpose]
    rfl

/-- A reactor is closed after a sink has panicked. The other loop has just been woken. -/
theorem clean_after_panic :
    ∃ state : State Unit, Reachable (.led state) ∧
      state.stage .read = .ended (.panicked (.foreign none)) ∧
      state.reactor.isDispatching .read = false ∧
      state.point = .gone .closing (.ok ()) ∧ state.Clean := by
  let reads : Source := ⟨⟨3⟩, ⟨⟨4⟩, ⟨5⟩⟩, false⟩
  let writes : Source := ⟨⟨6⟩, ⟨⟨7⟩, ⟨8⟩⟩, false⟩
  let settings : Settings := .build [.eventsCapacity 4]
  let reactor : Reactor (Numbered Unit) :=
    ⟨⟨reads, .empty .read, false⟩, ⟨writes, .empty .write, false⟩, .empty, settings, []⟩
  have hcreate : (create settings).Returns _ (.ok reactor) :=
    ⟨.ok ⟨3⟩, _, rfl, .ok (⟨4⟩, ⟨5⟩), _, rfl, .ok (), _, rfl,
      .ok ⟨6⟩, _, rfl, .ok (⟨7⟩, ⟨8⟩), _, rfl, .ok (), _, rfl, rfl, rfl⟩
  have hopened := Reachable.opened hcreate
  have hreading := hopened.step (State.startable rfl (by decide))
  have hrunning := hreading.step (State.startable rfl (by decide))
  have hsubmitted := hrunning.step (.submit rfl .read ⟨9⟩ [0, 0] ⟨(), false⟩
    ⟨.ok (), _, rfl, (), _, rfl, rfl, rfl⟩)
  have hstarted := hsubmitted.step (.move .read (by decide) rfl (.shared rfl ⟨rfl, rfl⟩))
  have hready := hstarted.step (.move .read (by decide) rfl
    (.shared rfl ⟨.ok [⟨Fd.key ⟨9⟩, EventMask.input⟩], _, rfl, rfl, rfl⟩))
  have hchecked := hready.step (.move .read (by decide) rfl
    (.exclusive rfl ⟨(), _, rfl, rfl, rfl⟩))
  have hattempted := hchecked.step (.move .read (by decide) rfl
    (.shared rfl ⟨.ok [1], _, rfl, rfl, rfl⟩))
  have hsettled := hattempted.step (.move .read (by decide) rfl
    (.exclusive rfl ⟨.ok (), _, rfl, rfl, rfl⟩))
  have hannounced := hsettled.step (.move .read (by decide) rfl
    (.shared rfl ⟨(), _, rfl, rfl, rfl⟩))
  have hpanicked := hannounced.step (.move .read (by decide) rfl
    (.sharedPanic rfl ⟨.panicked (.foreign none), _, rfl, rfl, rfl⟩))
  have hjoining := hpanicked.toJoining rfl .closing rfl
  have hwriting := hjoining.step (.move .write (by decide) rfl (.shared rfl ⟨rfl, rfl⟩))
  have hnoticed := hwriting.step (.move .write (by decide) rfl
    (.shared rfl ⟨.ok [⟨notifyKey, EventMask.input⟩], _, rfl, rfl, rfl⟩))
  have hstopped := hnoticed.step (.move .write (by decide) rfl
    (.shared rfl ⟨true, _, rfl, (), _, rfl, rfl, rfl⟩))
  have hwaiting := hstopped.step (.owner (.began rfl rfl))
  have hfirst := hwaiting.step
    (.owner (@State.OwnerStep.asked _ _ _ (.join .read) _ rfl true ⟨rfl, rfl⟩))
  have hlogged := hfirst.step
    (.owner (@State.OwnerStep.asked _ _ _ (.log .loopPanicked) _ rfl () trivial))
  have hsecond := hlogged.step
    (.owner (@State.OwnerStep.asked _ _ _ (.join .write) _ rfl false ⟨rfl, rfl⟩))
  have hjoined := hsecond.step (.owner (.arrived rfl))
  have hgone := hjoined.step (.owner (.acted rfl rfl
    ⟨.ok (), _, rfl, .ok (), _, rfl, rfl, rfl⟩))
  exact ⟨_, hgone, rfl, rfl, rfl, hgone.clean⟩

end Life

end Reactor

end Proactor
