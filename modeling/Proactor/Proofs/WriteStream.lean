import Proactor.Proofs.DataTransfers
import Proactor.Proofs.Invariant

/-!
# Writes put exactly their buffers on the stream

A write is spread over any number of attempts, and each of them continues where
the last one stopped. At every point of every run the chunks that the system has
accepted for a write add up to the front of its buffer, as long as the number of
bytes on its record says. `Run.streamed` draws the conclusions: a write that
resolves without a fault has put its whole buffer on the stream, once and in
order, and it resolves as soon as it has.
-/

namespace Proactor.Lane

variable {σ : Type}

/-! ## Chunks of a write -/

/-- The chunks that the system has accepted in the attempts on one operation. -/
def Event.chunksOut (number : Nat) (event : Event (Numbered σ)) : List Bytes :=
  match event.attempted? with
  | some operation =>
      if operation.ticket.number = number then accepted operation.fd event.exchanges else []
  | none => []

/-- The chunks of a whole history, in the order in which they were accepted. -/
def chunksOut (number : Nat) : List (Event (Numbered σ)) → List Bytes
  | [] => []
  | event :: history => chunksOut number history ++ event.chunksOut number

/-- An event that attempts another operation or none accepts no chunk for this one. -/
theorem chunksOut_elsewhere {number : Nat} {event : Event (Numbered σ)}
    {history : List (Event (Numbered σ))}
    (h : ∀ operation, event.attempted? = some operation → operation.ticket.number ≠ number) :
    chunksOut number (event :: history) = chunksOut number history := by
  have hevent : event.chunksOut number = [] := by
    unfold Event.chunksOut
    cases hattempted : event.attempted? with
    | none => rfl
    | some operation => exact if_neg (h operation hattempted)
  rw [chunksOut, hevent, List.append_nil]

/-- A number that has not been given out has no chunks. -/
theorem chunksOut_fresh {history : List (Event (Numbered σ))} {number : Nat}
    (h : ∀ event ∈ history, ∀ operation, event.attempted? = some operation →
      operation.ticket.number < number) : chunksOut number history = [] := by
  induction history with
  | nil => rfl
  | cons event history ih =>
      obtain ⟨hevent, hearlier⟩ := List.forall_mem_cons.mp h
      rw [chunksOut_elsewhere fun operation hoperation =>
        Nat.ne_of_lt (hevent operation hoperation)]
      exact ih hearlier

/-- An attempt adds the chunks of its own calls. -/
theorem chunksOut_attempt {history : List (Event (Numbered σ))} {before after : Lane (Numbered σ)}
    {calls logs : List (Exchange (Numbered σ))} {operation : Operation (Numbered σ)}
    {batch : List Proactor.Event} (hstage : before.stage = .attempting operation batch)
    (hlogs : ∀ exchange ∈ logs, exchange.request.transferOn? = none) :
    chunksOut operation.ticket.number (.moved before (calls ++ logs) after :: history) =
      chunksOut operation.ticket.number history ++ accepted operation.fd calls := by
  have hquiet : ∀ exchange ∈ logs, exchange.request.transferOn? ≠ some operation.fd := by
    intro exchange hexchange heq
    cases (hlogs exchange hexchange).symm.trans heq
  rw [chunksOut, Event.chunksOut, Event.attempted?_moved hstage]
  simp only [if_true, Event.exchanges]
  rw [accepted, List.flatMap_append, ← accepted, ← accepted, accepted_quiet hquiet,
    List.append_nil]

/-! ## Records of writes -/

/-- The record of a write agrees with its submission and with the chunks accepted for it. -/
structure Written (history : List (Event (Numbered σ))) (record : Record (Numbered σ)) :
    Prop where
  /-- The ticket and the buffer are those of an accepted submission. -/
  submitted : ∃ operation policy exchanges displaced,
    .submitted operation policy exchanges (.ok displaced) ∈ history ∧
      operation.ticket = record.ticket ∧ operation.buffer = record.buffer
  bound : record.transferred ≤ record.buffer.length
  /-- The accepted chunks are the front of the buffer. -/
  front : (chunksOut (number record) history).flatten = record.buffer.take record.transferred
  /-- Success means that everything is out. -/
  complete : record.progress.succeeded = true → record.transferred = record.buffer.length
  /-- As long as there is no success, bytes are left, or no call has been accepted yet. -/
  incomplete : record.progress.succeeded = false →
    record.transferred < record.buffer.length ∨ chunksOut (number record) history = []

section Written

variable {history : List (Event (Numbered σ))} {record : Record (Numbered σ)}

/-- A record that has not succeeded may go on in any way without success. -/
theorem Written.become (h : Written history record) {progress : Progress}
    (hprogress : progress.succeeded = record.progress.succeeded) :
    Written history (record.become progress) where
  submitted := h.submitted
  bound := h.bound
  front := h.front
  complete hsucceeded := h.complete (hprogress ▸ hsucceeded)
  incomplete hfailed := h.incomplete (hprogress ▸ hfailed)

/-- Without a new chunk nothing changes. -/
theorem Written.quiet (h : Written history record) {event : Event (Numbered σ)}
    (hchunks : chunksOut (number record) (event :: history) =
      chunksOut (number record) history) : Written (event :: history) record := by
  obtain ⟨operation, policy, exchanges, displaced, hmem, hsame⟩ := h.submitted
  constructor
  case submitted =>
    exact ⟨operation, policy, exchanges, displaced, List.mem_cons_of_mem _ hmem, hsame⟩
  case bound => exact h.bound
  case front => rw [hchunks]; exact h.front
  case complete => exact h.complete
  case incomplete => rw [hchunks]; exact h.incomplete

/-- Once everything is out the write has ended well. -/
theorem Written.succeeded (h : Written history record)
    (hchunks : chunksOut (number record) history ≠ [])
    (htransferred : record.transferred = record.buffer.length) :
    record.progress.succeeded = true := by
  refine Bool.of_not_eq_false fun hfailed => ?_
  rcases h.incomplete hfailed with hleft | hnone
  · omega
  · exact hchunks hnone

/-- The record of a write that was just submitted. -/
theorem Written.fresh {operation : Operation σ} {policy : OverlapPolicy}
    {exchanges : List (Exchange (Numbered σ))} {displaced : Option (Operation (Numbered σ))}
    (hnumbering : Numbering history) (htransferred : operation.transferred = 0) :
    Written
      (.submitted (operation.numbered (submissions history)) policy exchanges (.ok displaced) ::
        history)
      ((operation.numbered (submissions history)).record .unfinished) := by
  -- the number is new, so no attempt was made under it
  have hnone : chunksOut (submissions history)
      (.submitted (operation.numbered (submissions history)) policy exchanges (.ok displaced) ::
        history) = [] := by
    rw [chunksOut_elsewhere fun other hother => by cases hother]
    exact chunksOut_fresh hnumbering
  have hzero : ((operation.numbered (submissions history)).record .unfinished).transferred = 0 :=
    htransferred
  constructor
  case submitted => exact ⟨_, policy, exchanges, displaced, List.mem_cons_self, rfl, rfl⟩
  case bound => rw [hzero]; exact Nat.zero_le _
  case front =>
    rw [hzero, List.take_zero]
    exact congrArg List.flatten hnone
  case complete => exact Bool.noConfusion
  case incomplete => exact fun _ => .inr hnone

/-- A call that accepts some of the bytes that are left. -/
theorem Written.accept {event : Event (Numbered σ)} {operation : Operation (Numbered σ)}
    {count : Nat} (h : Written history (operation.record .unfinished))
    (hcount : count ≤ (operation.buffer.drop operation.transferred).length)
    (hchunks : chunksOut operation.ticket.number (event :: history) =
      chunksOut operation.ticket.number history ++
        [(operation.buffer.drop operation.transferred).take count]) :
    Written (event :: history)
      ⟨operation.ticket, operation.buffer, operation.transferred + count,
        .attempted (if operation.transferred + count = operation.buffer.length then .finished none
          else .retry)⟩ := by
  have hbound : operation.transferred ≤ operation.buffer.length := h.bound
  rw [List.length_drop] at hcount
  obtain ⟨submission, policy, exchanges, displaced, hmem, hsame⟩ := h.submitted
  constructor
  case submitted =>
    exact ⟨submission, policy, exchanges, displaced, List.mem_cons_of_mem _ hmem, hsame⟩
  case bound =>
    dsimp only
    omega
  case front =>
    have hfront : (chunksOut operation.ticket.number history).flatten =
        operation.buffer.take operation.transferred := h.front
    show (chunksOut operation.ticket.number (event :: history)).flatten = _
    -- the new chunk begins where the front ends
    rw [hchunks, List.flatten_append, hfront, List.flatten_singleton, List.take_add]
  case complete =>
    intro hsucceeded
    dsimp only at hsucceeded ⊢
    split at hsucceeded
    · assumption
    · cases hsucceeded
  case incomplete =>
    intro hfailed
    left
    dsimp only at hfailed ⊢
    split at hfailed
    · cases hfailed
    · omega

/-- An attempt keeps the record of its write in agreement with the accepted chunks. -/
theorem Written.attempt {before after : Lane (Numbered σ)}
    {calls logs : List (Exchange (Numbered σ))} {operation changed : Operation (Numbered σ)}
    {batch : List Proactor.Event} {attempt : Attempt}
    (h : Written history (operation.record .unfinished))
    (hstage : before.stage = .attempting operation batch)
    (hattempt : (Transfer.write operation).Returns calls (changed, attempt))
    (hlogs : ∀ exchange ∈ logs, exchange.request.transferOn? = none)
    (hsound : ∀ exchange ∈ calls, exchange.AcceptsAtMost) :
    Written (.moved before (calls ++ logs) after :: history)
      (changed.record (.attempted attempt)) := by
  have hchunks : chunksOut operation.ticket.number (.moved before (calls ++ logs) after ::
      history) = chunksOut operation.ticket.number history ++ accepted operation.fd calls :=
    chunksOut_attempt hstage hlogs
  generalize hanswer : (changed, attempt) = answer at hattempt
  cases Transfer.write_cases hattempt with
  | @accepted pushed count hpushed =>
      cases hanswer
      obtain ⟨hticket, hbuffer, -⟩ := hpushed.same
      rw [hpushed.accepted_of_ok] at hchunks
      have haccept := h.accept (hpushed.count_le hsound) hchunks
      show Written _ ⟨pushed.ticket, pushed.buffer, _, _⟩
      rw [hticket, hbuffer]
      exact haccept
  | @refused _ errno hpushed =>
      cases hanswer
      obtain ⟨hticket, hbuffer, htransferred⟩ := hpushed.same
      rw [hpushed.accepted_of_error, List.append_nil] at hchunks
      show Written _ ⟨changed.ticket, changed.buffer, changed.transferred, _⟩
      rw [hticket, hbuffer, htransferred]
      exact (h.quiet hchunks).become (Progress.succeeded_failed _)

end Written

/-- If the system accepts no more than it was given, every record of a lane that writes agrees with
the chunks accepted for it. -/
theorem written_invariant {setup : EventLoop.Setup} (hdirection : setup.direction = .write) :
    Invariant (σ := σ) setup Exchange.AcceptsAtMost Written where
  submitted _ _ _ _ _ _ _ hnumbering := .fresh hnumbering rfl
  elsewhere _ _ _ h hevent := h.quiet (chunksOut_elsewhere hevent)
  attempted _ _ _ _ _ _ _ _ _ h hstage hattempt hlogs hsound := by
    rw [hdirection] at hattempt
    exact h.attempt hstage hattempt hlogs hsound
  settled _ _ _ _ hprogress h hsettled := by
    obtain ⟨progress, rfl, hsucceeded⟩ := hsettled.become hprogress
    exact h.become hsucceeded
  lost _ _ _ hprogress h := h.become (by rw [hprogress]; rfl)
  safe _ _ h := by
    rw [hdirection]
    exact Transfer.write_neverPanics h.bound

/-! ## All runs -/

/-- Every accepted write has put on the stream what its record says. -/
structure Streamed (setup : EventLoop.Setup) (history : List (Event (Numbered σ)))
    (lane : Lane (Numbered σ)) : Prop where
  /-- Each accepted operation has one record. -/
  once : ∀ ticket ∈ Lending.accepted (tableHistory history),
    ticket ∈ (records history lane).map Record.ticket ∧
      ((records history lane).map number).count ticket.number = 1
  written : ∀ record ∈ records history lane, Written history record
  /-- The number on a record is the number of bytes that the system has accepted. -/
  counted : ∀ record ∈ records history lane,
    record.transferred = (chunksOut (number record) history).flatten.length
  /-- A write that has resolved without a fault has put its buffer on the stream. -/
  whole : ∀ record ∈ records history lane, record.progress = .resolved none →
    (chunksOut (number record) history).flatten = record.buffer
  /-- When all bytes of a write are out, it has resolved or is about to be settled. -/
  ended : ∀ record ∈ records history lane, chunksOut (number record) history ≠ [] →
    record.transferred = record.buffer.length →
      record.progress = .resolved none ∨
        ∃ operation batch, lane.stage = .settling operation (.finished none) batch ∧
          record = operation.record (.attempted (.finished none))
  /-- Nothing else is put on any stream. -/
  alone : ∀ event ∈ history, ∀ exchange ∈ event.exchanges, ∀ fd, exchange.accepted fd ≠ [] →
    ∃ operation, event.attempted? = some operation ∧ operation.fd = fd
  /-- The move that follows the end of a write resolves it. -/
  resolves : ∀ operation fault batch,
    lane.stage = .settling operation (.finished fault) batch →
      ∀ exchanges next, Moves setup lane exchanges next →
        ∃ others, next.stage =
          .announcing (operation.resolve setup.direction fault :: others) batch

variable {setup : EventLoop.Setup} {history : List (Event (Numbered σ))}
  {lane : Lane (Numbered σ)}

/-- Only attempts put bytes on a stream, and only on that of their operation. -/
theorem Run.accepted_in_attempt (h : Run setup history lane) {event : Event (Numbered σ)}
    (hevent : event ∈ history) {exchange : Exchange (Numbered σ)}
    (hexchange : exchange ∈ event.exchanges) {fd : Fd} (haccepted : exchange.accepted fd ≠ []) :
    ∃ operation, event.attempted? = some operation ∧ operation.fd = fd := by
  obtain ⟨htarget, hwrites⟩ := Exchange.transferOn?_of_accepted haccepted
  rcases h.transfers event hevent exchange hexchange with hquiet |
    ⟨operation, hoperation, htransfer⟩ | ⟨count, hread⟩
  · cases hquiet.symm.trans htarget
  · exact ⟨operation, hoperation, Option.some.inj (htransfer.symm.trans htarget)⟩
  · exact absurd hread (hwrites _ _)

/-- In every run of a writing lane, exactly the buffers of the writes are put on the stream. -/
theorem Run.streamed (h : Run setup history lane) (hdirection : setup.direction = .write)
    (hsound : ∀ event ∈ history, ∀ exchange ∈ event.exchanges, exchange.AcceptsAtMost) :
    Streamed setup history lane := by
  have hkept := h.kept (written_invariant hdirection) hsound
  constructor
  case once => exact hkept.once
  case written => exact hkept.facts
  case counted =>
    intro record hrecord
    have hwritten := hkept.facts record hrecord
    rw [hwritten.front, List.length_take, Nat.min_eq_left hwritten.bound]
  case whole =>
    intro record hrecord hprogress
    have hwritten := hkept.facts record hrecord
    have hcomplete := hwritten.complete (by rw [hprogress]; rfl)
    rw [hwritten.front, hcomplete, List.take_length]
  case ended =>
    intro record hrecord hchunks htransferred
    have hsucceeded := (hkept.facts record hrecord).succeeded hchunks htransferred
    rcases Progress.succeeded_iff.mp hsucceeded with hattempted | hresolved
    · exact .inr (settling_of_attempted hrecord hattempted)
    · exact .inl hresolved
  case alone =>
    intro event hevent exchange hexchange fd haccepted
    exact h.accepted_in_attempt hevent hexchange haccepted
  case resolves =>
    intro operation fault batch hstage exchanges next hmoves
    exact hkept.resolves hstage hmoves

/-- A write of three bytes to something that is no socket. The first attempt puts two bytes out and
the second one, with a plain write, the rest. -/
theorem streamed_in_two_chunks :
    ∃ (setup : EventLoop.Setup) (history : List (Event (Numbered Unit)))
      (lane : Lane (Numbered Unit)),
      Run setup history lane ∧ setup.direction = .write ∧
        (∀ event ∈ history, ∀ exchange ∈ event.exchanges, exchange.AcceptsAtMost) ∧
        chunksOut 0 history = [[1, 2], [3]] ∧ Streamed setup history lane := by
  let setup : EventLoop.Setup := ⟨.write, .dropWhenFull, 4⟩
  let source : Source := ⟨⟨3⟩, ⟨⟨4⟩, ⟨5⟩⟩, false⟩
  let ready : RawEvent := ⟨Fd.key ⟨7⟩, EventMask.output⟩
  obtain ⟨history, lane, hrun, hsound, hchunks⟩ :
      ∃ history lane, Run (σ := Unit) setup history lane ∧
        (∀ event ∈ history, ∀ exchange ∈ event.exchanges, exchange.AcceptsAtMost) ∧
        chunksOut 0 history = [[1, 2], [3]] := by
    have hopened : Run (σ := Unit) setup [] ⟨⟨source, .empty .write, true⟩, .starting⟩ :=
      .opened source true
    have hsubmitted := hopened.submit ⟨7⟩ [1, 2, 3] ⟨(), false⟩ .overwrite
      ⟨.ok (), [], rfl, rfl, rfl⟩
    have hstarted := hsubmitted.move (.shared rfl ⟨rfl, rfl⟩)
    have hwaited := hstarted.move (.shared rfl ⟨.ok [ready, ready], _, rfl, rfl, rfl⟩)
    have hchecked := hwaited.move (.exclusive rfl ⟨(), _, rfl, rfl, rfl⟩)
    have hfirst := hchecked.move (.shared rfl ⟨.ok 2, _, rfl, (), _, rfl, rfl, rfl⟩)
    have hkept := hfirst.move (.exclusive rfl ⟨.ok (), _, rfl, rfl, rfl⟩)
    have hannounced := hkept.move (.shared rfl ⟨rfl, rfl⟩)
    have hagain := hannounced.move (.exclusive rfl ⟨(), _, rfl, rfl, rfl⟩)
    have hsecond := hagain.move
      (.shared rfl ⟨.error .notSocket, _, rfl, .ok 1, _, rfl, rfl, rfl⟩)
    have hresolved := hsecond.move (.exclusive rfl ⟨.ok (), _, rfl, rfl, rfl⟩)
    refine ⟨_, _, hresolved, ?_, rfl⟩
    simp only [List.mem_cons, List.not_mem_nil, or_false, Event.exchanges,
      Exchange.AcceptsAtMost, forall_eq_or_imp, forall_eq, IsEmpty.forall_iff, implies_true,
      and_true, true_and]
    decide
  exact ⟨setup, history, lane, hrun, rfl, hsound, hchunks, hrun.streamed rfl hsound⟩

end Proactor.Lane
