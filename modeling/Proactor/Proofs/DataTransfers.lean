import Proactor.Proofs.Requests

/-!
# Where data is moved

Only two kinds of moves ask the system to move data: attempts, which ask for the
descriptor of their operation, and the draining of the wake pipe. Everything
else is quiet.
-/

namespace Proactor

variable {σ : Type}

namespace Request

/-- The request moves no data. -/
def Quiet (request : Request σ) : Prop :=
  request.transferOn? = none

variable {request : Request σ}

/-- Telling the log something moves no data. -/
theorem Logs.quiet (h : request.Logs) : request.Quiet := by
  obtain ⟨record, rfl⟩ := h
  rfl

/-- Tending a registration moves no data. -/
theorem Tends.quiet {source : Source} {fd : Fd} {event : RawEvent}
    (h : request.Tends source fd event) : request.Quiet := by
  cases h <;> rfl

/-- Offering a completion to a sink moves no data. -/
theorem Delivers.quiet (h : request.Delivers) : request.Quiet := by
  cases h <;> rfl

end Request

/-- A source that is closed has asked for it once, if it was not closed before. -/
theorem Source.close_returns {source closed : Source} {exchanges : List (Exchange σ)}
    {result : Except Fault Unit} (h : source.close.Returns exchanges (result, closed)) :
    closed = { source with closed := true } ∧
      (source.closed = true ∧ exchanges = [] ∧ result = .ok () ∨
        source.closed = false ∧ ∃ answer,
          exchanges = [⟨.close source.descriptor, answer⟩] ∧ result = Fault.ofCall answer) := by
  unfold close at h
  split at h
  · rename_i hclosed
    obtain ⟨rfl, hanswer⟩ := Program.returns_pure.mp h
    cases hanswer
    exact ⟨by rw [← hclosed], .inl ⟨hclosed, rfl, rfl⟩⟩
  · rename_i hopen
    obtain ⟨answer, rest, rfl, hrest⟩ := Program.returns_ask_bind.mp h
    obtain ⟨rfl, hanswer⟩ := Program.returns_pure.mp hrest
    cases hanswer
    exact ⟨rfl, .inr ⟨Bool.eq_false_iff.mpr hopen, answer, rfl, rfl⟩⟩

/-- A side whose source is closed is otherwise as before. -/
theorem Side.close_returns {side closed : Side σ} {exchanges : List (Exchange σ)}
    {result : Except Fault Unit} (h : side.close.Returns exchanges (result, closed)) :
    closed = { side with source := { side.source with closed := true } } ∧
      (side.source.closed = true ∧ exchanges = [] ∧ result = .ok () ∨
        side.source.closed = false ∧ ∃ answer,
          exchanges = [⟨.close side.source.descriptor, answer⟩] ∧
            result = Fault.ofCall answer) := by
  obtain ⟨⟨answer, source⟩, calls, none, rfl, hsource, hpure⟩ := Program.returns_bind.mp h
  obtain ⟨rfl, hvalue⟩ := Program.returns_pure.mp hpure
  cases hvalue
  obtain ⟨rfl, hcases⟩ := Source.close_returns hsource
  rw [List.append_nil]
  exact ⟨rfl, hcases⟩

/-- To close a side again does nothing. -/
theorem Side.close_shut {side : Side σ} (h : side.source.closed = true) :
    side.close = pure (.ok (), side) := by
  unfold close Source.close
  rw [if_pos h]
  rfl

namespace Lane

/-- What a loop asks for is quiet, or moves data of the operation at hand or out of the wake
pipe. -/
theorem transfer_of_mayAsk {setup : EventLoop.Setup} {lane : Lane σ} {request : Request σ}
    (h : lane.stage.MayAsk setup lane.side request) :
    request.Quiet ∨
      (∃ operation batch, lane.stage = .attempting operation batch ∧
        request.transferOn? = some operation.fd) ∨
      ∃ count, request = .read lane.side.source.wakePipe.readEnd count := by
  generalize lane.stage = stage at h
  cases stage with
  | starting | ended => exact h.elim
  | waiting =>
      rcases h with ⟨millis, rfl⟩ | hlogs
      · exact .inl rfl
      · exact .inl hlogs.quiet
  | handling =>
      rcases h with rfl | hlogs
      · exact .inl rfl
      · exact .inl hlogs.quiet
  | draining => exact .inr (.inr h)
  | attempting operation batch =>
      rcases h with htransfer | hlogs
      · exact .inr (.inl ⟨operation, batch, rfl, htransfer⟩)
      · exact .inl hlogs.quiet
  | settling => exact .inl (Request.Tends.quiet h)
  | announcing => exact .inl (Request.Logs.quiet h)
  | delivering => exact .inl (Request.Delivers.quiet h)

/-! ## Runs -/

/-- Exclusive moves leave the source of their side alone. -/
theorem exclusive_source {setup : EventLoop.Setup} {stage : EventLoop.Stage σ}
    {act : Side σ → Program σ (EventLoop.Stage σ × Side σ)}
    (hmove : stage.move setup = .exclusive act) (side : Side σ) :
    (act side).Yields fun answer => answer.2.source = side.source := by
  rcases exclusive_cases hmove with ⟨event, batch, -, hready⟩ | ⟨operation, attempt, batch, rfl⟩
  · cases hready
    refine .bind fun _ => ?_
    cases hcheck : side.checkOut event.fd with
    | none => exact .bind fun _ => rfl
    | some checked =>
        obtain ⟨⟨operation, table⟩, -, rfl⟩ := Option.map_eq_some_iff.mp hcheck
        exact rfl
  · cases hmove
    have hsettle : (side.settle operation attempt).Yields fun answer =>
        answer.2.source = side.source := .bind fun _ => rfl
    refine hsettle.chain fun answer hanswer => ?_
    obtain ⟨result, settled⟩ := answer
    cases result <;> exact hanswer

/-- A move leaves the source of its side as it was. -/
theorem Moves.source_eq {setup : EventLoop.Setup} {lane next : Lane σ}
    {exchanges : List (Exchange σ)} (h : Moves setup lane exchanges next) :
    next.side.source = lane.side.source := by
  cases h with
  | exclusive hmove hact =>
      rw [source_afterStage]
      exact (exclusive_source hmove _).of_returns hact
  | shared | exclusivePanic | sharedPanic => exact source_afterStage _ _

/-- In every run data is moved only by attempts, on the descriptors of their operations, and out
of the wake pipe. -/
theorem Run.transfers {setup : EventLoop.Setup} {history : List (Event (Numbered σ))}
    {lane : Lane (Numbered σ)} (h : Run setup history lane) :
    ∀ event ∈ history, ∀ exchange ∈ event.exchanges,
      exchange.request.Quiet ∨
        (∃ operation, event.attempted? = some operation ∧
          exchange.request.transferOn? = some operation.fd) ∨
        ∃ count, exchange.request = .read lane.side.source.wakePipe.readEnd count := by
  induction h with
  | opened => exact List.forall_mem_nil _
  | submit hrun fd buffer sink policy hsubmit ih =>
      obtain ⟨⟨result, table⟩, calls, none, rfl, hcalls, hside⟩ := Program.returns_bind.mp hsubmit
      obtain ⟨rfl, hanswer⟩ := Program.returns_pure.mp hside
      cases hanswer
      refine List.forall_mem_cons.mpr ⟨fun exchange hexchange => .inl ?_, ih⟩
      rw [Event.exchanges, List.append_nil] at hexchange
      exact (Outstanding.submit_tends.request hcalls exchange hexchange).quiet
  | close hrun hclose ih =>
      obtain ⟨⟨result, source⟩, calls, none, rfl, hcalls, hside⟩ := Program.returns_bind.mp hclose
      obtain ⟨rfl, hanswer⟩ := Program.returns_pure.mp hside
      cases hanswer
      -- a closed source still names the ends of its wake pipe
      obtain ⟨rfl, -⟩ := Source.close_returns hcalls
      rw [List.append_nil]
      refine List.forall_mem_cons.mpr ⟨fun exchange hexchange => .inl ?_, ih⟩
      have hrequest := Source.close_asks.request hcalls exchange hexchange
      rw [hrequest]
      rfl
  | @move history lane next exchanges hrun hmoves ih =>
      rw [hmoves.source_eq]
      refine List.forall_mem_cons.mpr ⟨fun exchange hexchange => ?_, ih⟩
      rcases transfer_of_mayAsk (hmoves.mayAsk exchange hexchange) with hquiet |
        ⟨operation, batch, hstage, htransfer⟩ | hdrain
      · exact .inl hquiet
      · exact .inr (.inl ⟨operation, Event.attempted?_moved hstage, htransfer⟩)
      · exact .inr (.inr hdrain)

end Lane

end Proactor
