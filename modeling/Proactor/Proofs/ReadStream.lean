import Proactor.Proofs.DataTransfers
import Proactor.Proofs.Invariant

/-!
# Reads hand over exactly what arrived

A read is finished by the first call that returns data. From then on the data
are only in the buffer of the operation, which may have been overwritten in the
meantime. `Run.handedOver` says that they come back all the same: the reads of a
descriptor that resolve without a fault hand over what the successful calls on
it have returned, call by call and in the same order. It also says that a read
changes nothing else in its buffer.
-/

namespace Proactor.Lane

variable {σ : Type}

/-! ## Arrivals and completions -/

/-- What has arrived from a descriptor in a history, call by call. -/
def arrivals (fd : Fd) : List (Event (Numbered σ)) → List Bytes
  | [] => []
  | event :: history => arrivals fd history ++ arrived fd event.exchanges

/-- What has arrived from a descriptor in the attempts of an event, with the number of the
operation that it was read for. -/
def Event.reads (fd : Fd) (event : Event (Numbered σ)) : List (Nat × Bytes) :=
  match event.attempted? with
  | some operation =>
      if operation.fd = fd then
        (arrived fd event.exchanges).map fun bytes => (operation.ticket.number, bytes)
      else []
  | none => []

/-- The successful reads of a history from a descriptor. -/
def reads (fd : Fd) : List (Event (Numbered σ)) → List (Nat × Bytes)
  | [] => []
  | event :: history => reads fd history ++ event.reads fd

/-- What a completion of a descriptor hands over, if it is one without a fault. -/
def handsOver (fd : Fd) (resolved : Resolved (Numbered σ)) : List (Nat × Bytes) :=
  if resolved.completion.fd = fd ∧ resolved.completion.isOk = true then
    [(resolved.ticket.number, resolved.completion.filled)]
  else []

/-- What the completions of an event hand over. -/
def Event.completions (fd : Fd) (event : Event (Numbered σ)) : List (Nat × Bytes) :=
  (event.onTable.flatMap Lending.Event.resolved).flatMap (handsOver fd)

/-- What the completions of a descriptor have handed over, in the order of their settlements. -/
def completions (fd : Fd) : List (Event (Numbered σ)) → List (Nat × Bytes)
  | [] => []
  | event :: history => completions fd history ++ event.completions fd

/-- What has arrived for the operation at hand and is about to be settled. -/
def inHand (fd : Fd) : EventLoop.Stage (Numbered σ) → List (Nat × Bytes)
  | .settling operation (.finished none) _ => handsOver fd (operation.resolve .read none)
  | _ => []

/-- A completion with a fault hands nothing over. -/
theorem handsOver_fault {fd : Fd} (operation : Operation (Numbered σ)) (direction : Direction)
    (fault : Fault) : handsOver fd (operation.resolve direction (some fault)) = [] :=
  if_neg fun h => Bool.noConfusion h.2

/-- A completion without a fault hands over what its operation has read, on the descriptor of the
operation. -/
theorem handsOver_ok {fd : Fd} (operation : Operation (Numbered σ)) (direction : Direction) :
    handsOver fd (operation.resolve direction none) =
      if operation.fd = fd then
        [(operation.ticket.number, operation.buffer.take operation.transferred)]
      else [] := by
  by_cases hfd : operation.fd = fd
  · rw [if_pos hfd]
    exact if_pos ⟨hfd, rfl⟩
  · rw [if_neg hfd]
    exact if_neg fun h => hfd h.1

/-- An event without an attempt reads nothing. -/
theorem reads_idle {fd : Fd} {event : Event (Numbered σ)} (h : event.attempted? = none) :
    event.reads fd = [] := by
  rw [Event.reads, h]

/-- A loop with empty hands has read nothing that is about to be settled. -/
theorem inHand_idle {fd : Fd} {stage : EventLoop.Stage (Numbered σ)} (h : stage.held? = none) :
    inHand fd stage = [] := by
  cases stage with
  | settling => cases h
  | _ => rfl

/-- A settlement hands over what was at hand and nothing else. -/
theorem handsOver_aftermath {fd : Fd} {operation : Operation (Numbered σ)} {attempt : Attempt}
    {successor kept : Option (Operation (Numbered σ))} {resolved : List (Resolved (Numbered σ))}
    (batch : List Proactor.Event)
    (h : Outstanding.Aftermath .read operation attempt successor resolved kept) :
    resolved.flatMap (handsOver fd) = inHand fd (.settling operation attempt batch) := by
  cases h with
  | finished fault | succeeded fault =>
      cases fault with
      | none => exact List.append_nil _
      | some fault => simp [handsOver_fault, inHand]
  | succeeded_lost fault next lost =>
      cases fault with
      | none => simp [handsOver_fault, inHand]
      | some fault => simp [handsOver_fault, inHand]
  | dropped | continued => rfl
  | dropped_lost | continued_lost => simp [handsOver_fault, inHand]

/-- An attempt brings to hand what has arrived in it. -/
theorem inHand_attempt {fd : Fd} {before after : Lane (Numbered σ)}
    {calls logs : List (Exchange (Numbered σ))} {operation changed : Operation (Numbered σ)}
    {attempt : Attempt} {batch : List Proactor.Event}
    (hstage : before.stage = .attempting operation batch)
    (hattempt : (Transfer.read operation).Returns calls (changed, attempt))
    (hlogs : ∀ exchange ∈ logs, exchange.request.transferOn? = none) :
    inHand fd (.settling changed attempt batch) =
      (Event.moved before (calls ++ logs) after).reads fd := by
  have hquiet : ∀ exchange ∈ logs, ∀ count, exchange.request ≠ .read fd count := by
    intro exchange hexchange count hrequest
    have hlog := hlogs exchange hexchange
    rw [hrequest] at hlog
    cases hlog
  rw [Event.reads, Event.attempted?_moved hstage]
  simp only [Event.exchanges]
  rw [arrived, List.flatMap_append, ← arrived, ← arrived, arrived_quiet hquiet, List.append_nil]
  generalize hanswer : (changed, attempt) = answer at hattempt
  cases Transfer.read_cases hattempt with
  | arrived bytes =>
      cases hanswer
      show handsOver fd (Operation.resolve _ .read none) = _
      rw [handsOver_ok]
      by_cases hfd : operation.fd = fd
      · simp [hfd, arrived, Exchange.arrived, Operation.ticket]
      · simp [hfd]
  | refused errno =>
      cases hanswer
      have hnothing : inHand fd
          (.settling operation (Transfer.failed (.system errno)) batch) = [] := by
        unfold Transfer.failed
        split <;> rfl
      rw [hnothing]
      simp [arrived, Exchange.arrived]

/-! ## Records of reads -/

/-- The record of a read agrees with its submission. -/
structure ReadInto (history : List (Event (Numbered σ))) (record : Record (Numbered σ)) :
    Prop where
  bound : record.transferred ≤ record.buffer.length
  /-- The buffer is that of an accepted submission from the bytes on that were read, and as a whole
  if the operation has not succeeded. -/
  submitted : ∃ operation policy exchanges displaced,
    .submitted operation policy exchanges (.ok displaced) ∈ history ∧
      operation.ticket = record.ticket ∧
      record.buffer.length = operation.buffer.length ∧
      record.buffer.drop record.transferred = operation.buffer.drop record.transferred ∧
      (record.progress.succeeded = false →
        record.transferred = 0 ∧ record.buffer = operation.buffer)

section ReadInto

variable {history : List (Event (Numbered σ))} {record : Record (Numbered σ)}

/-- A record still agrees with its submission when its operation gets further without a change of
success. -/
theorem ReadInto.become (h : ReadInto history record) {progress : Progress}
    (hprogress : progress.succeeded = record.progress.succeeded) :
    ReadInto history (record.become progress) where
  bound := h.bound
  submitted := by
    obtain ⟨operation, policy, exchanges, displaced, hmem, hticket, hlength, hrest, hfailed⟩ :=
      h.submitted
    exact ⟨operation, policy, exchanges, displaced, hmem, hticket, hlength, hrest,
      fun hfailure => hfailed (hprogress ▸ hfailure)⟩

/-- A record still agrees with its submission after another event. -/
theorem ReadInto.later (h : ReadInto history record) (event : Event (Numbered σ)) :
    ReadInto (event :: history) record where
  bound := h.bound
  submitted := by
    obtain ⟨operation, policy, exchanges, displaced, hmem, hsame⟩ := h.submitted
    exact ⟨operation, policy, exchanges, displaced, List.mem_cons_of_mem _ hmem, hsame⟩

/-- The record of a read that was just submitted. -/
theorem ReadInto.fresh {operation : Operation (Numbered σ)} {policy : OverlapPolicy}
    {exchanges : List (Exchange (Numbered σ))} {displaced : Option (Operation (Numbered σ))}
    (htransferred : operation.transferred = 0) :
    ReadInto (.submitted operation policy exchanges (.ok displaced) :: history)
      (operation.record .unfinished) where
  bound := by
    show operation.transferred ≤ _
    rw [htransferred]
    exact Nat.zero_le _
  submitted :=
    ⟨operation, policy, exchanges, displaced, List.mem_cons_self, rfl, rfl, rfl,
      fun _ => ⟨htransferred, rfl⟩⟩

/-- An attempt changes the front of the buffer, or nothing. -/
theorem ReadInto.attempt {calls : List (Exchange (Numbered σ))}
    {operation changed : Operation (Numbered σ)} {attempt : Attempt}
    (h : ReadInto history (operation.record .unfinished))
    (hattempt : (Transfer.read operation).Returns calls (changed, attempt))
    (hsound : ∀ exchange ∈ calls, exchange.ArrivesAtMost) :
    ReadInto history (changed.record (.attempted attempt)) := by
  generalize hanswer : (changed, attempt) = answer at hattempt
  cases Transfer.read_cases hattempt with
  | arrived bytes =>
      cases hanswer
      have hfits : bytes.length ≤ operation.buffer.length :=
        hsound _ (List.mem_singleton_self _)
      obtain ⟨submission, policy, exchanges, displaced, hmem, hticket, -, -, hfailed⟩ :=
        h.submitted
      -- the operation waited until now, so its buffer is still the submitted one
      have hbuffer : operation.buffer = submission.buffer := (hfailed rfl).2
      rw [hbuffer] at hfits ⊢
      refine ⟨?_, submission, policy, exchanges, displaced, hmem, hticket, ?_, ?_, ?_⟩
      · show bytes.length ≤ (bytes ++ submission.buffer.drop bytes.length).length
        rw [List.length_append]
        exact Nat.le_add_right _ _
      · show (bytes ++ submission.buffer.drop bytes.length).length = submission.buffer.length
        rw [List.length_append, List.length_drop]
        exact Nat.add_sub_cancel' hfits
      · exact List.drop_left
      · exact Bool.noConfusion
  | refused errno =>
      cases hanswer
      exact h.become (Progress.succeeded_failed _)

end ReadInto

/-- If no more bytes arrive than were asked for, every record of a lane that reads agrees with its
submission. -/
theorem readInto_invariant {setup : EventLoop.Setup} (hdirection : setup.direction = .read) :
    Invariant (σ := σ) setup Exchange.ArrivesAtMost ReadInto where
  submitted _ _ _ _ _ _ _ _ := .fresh rfl
  elsewhere _ event _ h _ := h.later event
  attempted _ _ _ _ _ _ _ _ _ h _ hattempt _ hsound := by
    rw [hdirection] at hattempt
    exact (h.attempt hattempt hsound).later _
  settled _ _ _ _ hprogress h hsettled := by
    obtain ⟨progress, rfl, hsucceeded⟩ := hsettled.become hprogress
    exact h.become hsucceeded
  lost _ _ _ hprogress h := h.become (by rw [hprogress]; rfl)
  safe _ _ _ := by
    rw [hdirection]
    exact Transfer.read_neverPanics _

/-! ## Every read once -/

/-- A completion hands over the filled part of its buffer, or nothing. -/
theorem handsOver_cases (fd : Fd) (resolved : Resolved (Numbered σ)) :
    handsOver fd resolved = [] ∨
      handsOver fd resolved = [(resolved.ticket.number, resolved.completion.filled)] := by
  unfold handsOver
  split
  · exact .inr rfl
  · exact .inl rfl

/-- No more is handed over for an operation than it has completions. -/
theorem count_handsOver (fd : Fd) (resolved : List (Resolved (Numbered σ))) (number : Nat) :
    ((resolved.flatMap (handsOver fd)).map Prod.fst).count number ≤
      (resolved.map (Lane.number ∘ Resolved.record)).count number := by
  induction resolved with
  | nil => exact Nat.le_refl _
  | cons first resolved ih =>
      rw [List.flatMap_cons, List.map_append, List.count_append, List.map_cons, List.count_cons]
      have hfirst : (Lane.number ∘ Resolved.record) first = first.ticket.number := rfl
      rw [hfirst]
      rcases handsOver_cases fd first with hnone | hone
      · rw [hnone, List.map_nil, List.count_nil]
        omega
      · rw [hone, List.map_singleton, List.count_singleton]
        dsimp only
        omega

/-- No more is handed over for an operation in a history than it has completions there. -/
theorem count_completions (fd : Fd) (history : List (Event (Numbered σ))) (number : Nat) :
    ((completions fd history).map Prod.fst).count number ≤
      (((tableHistory history).flatMap Lending.Event.resolved).map
        (Lane.number ∘ Resolved.record)).count number := by
  induction history with
  | nil => exact Nat.le_refl _
  | cons event history ih =>
      have hevent := count_handsOver fd (event.onTable.flatMap Lending.Event.resolved) number
      rw [completions, tableHistory, List.flatMap_cons, List.flatMap_append, ← tableHistory,
        List.map_append, List.map_append, List.count_append, List.count_append, Event.completions]
      omega

/-- Something is about to be settled for the operation in the hands of the loop only. -/
theorem count_inHand (fd : Fd) (stage : EventLoop.Stage (Numbered σ)) (number : Nat) :
    ((inHand fd stage).map Prod.fst).count number ≤
      (stage.held?.toList.map Lane.number).count number := by
  unfold inHand
  split
  · rename_i operation batch
    have hcount := count_handsOver fd [operation.resolve .read none] number
    rw [List.flatMap_singleton] at hcount
    exact hcount
  · exact Nat.zero_le _

/-- What completions have handed over and what is at hand belongs to different operations. -/
theorem nodup_completions {setup : EventLoop.Setup} {history : List (Event (Numbered σ))}
    {lane : Lane (Numbered σ)} {lending : Lending (Numbered σ)}
    (h : Mirrors setup history lane lending) (fd : Fd) :
    ((completions fd history ++ inHand fd lane.stage).map Prod.fst).Nodup := by
  -- a number occurs among the records at least as often as among completions and at hand
  have hrecords := h.nodup_records
  rw [List.nodup_iff_count_le_one] at hrecords ⊢
  intro number
  have hrecord := hrecords number
  have hcompletions := count_completions fd history number
  have hhand := count_inHand fd lane.stage number
  rw [records, Lending.aside, List.map_append, List.map_append, List.map_map, List.map_map,
    List.count_append, List.count_append] at hrecord
  rw [List.map_append, List.count_append]
  omega

/-! ## All runs -/

section Runs

variable {setup : EventLoop.Setup} {history : List (Event (Numbered σ))}
  {lane next : Lane (Numbered σ)} {exchanges : List (Exchange (Numbered σ))}

/-- A move brings to hand what arrives in it, or hands over what was at hand. -/
theorem Kept.handed_move {fact : List (Event (Numbered σ)) → Record (Numbered σ) → Prop}
    (hkept : Kept setup fact history lane) (hdirection : setup.direction = .read)
    (hmoves : Moves setup lane exchanges next) (fd : Fd) :
    (Event.moved lane exchanges next).completions fd ++ inHand fd next.stage =
      inHand fd lane.stage ++ (Event.moved lane exchanges next).reads fd := by
  cases hmoves.step with
  | idle hbefore hafter =>
      rw [Event.completions, onTable_idle hbefore hafter, inHand_idle hbefore, inHand_idle hafter,
        reads_idle (attempted?_idle hbefore)]
      rfl
  | checkedOut hstage hcheck hnext =>
      have hnone : lane.stage.held? = none := by rw [hstage]; rfl
      rw [Event.completions, reads_idle (attempted?_idle hnone), inHand_idle hnone, hnext]
      simp only [Event.onTable, hstage, hnext]
      rfl
  | attempted hstage hattempt hlogs hnext =>
      rw [hdirection] at hattempt
      rw [hnext, inHand_attempt hstage hattempt hlogs, hstage]
      simp only [Event.completions, Event.onTable, hstage]
      rfl
  | gaveUp hstage hpanics =>
      rw [hdirection] at hpanics
      exact absurd (Transfer.read_neverPanics _) hpanics
  | misplaced hstage hsettle =>
      obtain ⟨completions, kept, hresult, -⟩ := hkept.settles hstage hsettle
      cases hresult
  | @settled _ _ _ operation attempt resolved hstage hsettle hnext =>
      obtain ⟨completions, kept, hresult, haftermath⟩ := hkept.settles hstage hsettle
      cases hresult
      rw [hdirection] at haftermath
      have hnone : ∀ operation batch, lane.stage ≠ .attempting operation batch := by
        rw [hstage]
        rintro operation batch ⟨⟩
      have hcompletions : (Event.moved lane exchanges next).completions fd =
          resolved.flatMap (handsOver fd) := by
        simp only [Event.completions, Event.onTable, hstage, hnext, List.flatMap_singleton]
        rfl
      rw [hcompletions, reads_idle (Event.attempted?_eq_none hnone), hnext, hstage,
        handsOver_aftermath _ haftermath, List.append_nil]
      exact List.append_nil _

/-- What completions hand over are the successful reads. -/
theorem Run.handed {fact : List (Event (Numbered σ)) → Record (Numbered σ) → Prop}
    {sound : Exchange (Numbered σ) → Prop} (h : Run setup history lane)
    (hdirection : setup.direction = .read) (hinvariant : Invariant setup sound fact)
    (hsound : ∀ event ∈ history, ∀ exchange ∈ event.exchanges, sound exchange) (fd : Fd) :
    completions fd history ++ inHand fd lane.stage = reads fd history := by
  induction h with
  | opened => rfl
  | @submit history lane _ _ _ _ _ _ _ _ _ ih | @close history lane _ _ _ _ _ ih =>
      obtain ⟨-, hearlier⟩ := List.forall_mem_cons.mp hsound
      show completions fd history ++ [] ++ inHand fd lane.stage = reads fd history ++ []
      rw [List.append_nil, List.append_nil]
      exact ih hearlier
  | move hrun hmoves ih =>
      obtain ⟨-, hearlier⟩ := List.forall_mem_cons.mp hsound
      have hmoved := (hrun.kept hinvariant hearlier).handed_move hdirection hmoves fd
      rw [completions, reads, List.append_assoc, hmoved, ← List.append_assoc, ih hearlier]

/-- Except for the wake pipe, nothing is read from a descriptor but in attempts. -/
theorem Run.arrived_eq (h : Run setup history lane) {fd : Fd}
    (hfd : fd ≠ lane.side.source.wakePipe.readEnd) {event : Event (Numbered σ)}
    (hevent : event ∈ history) :
    arrived fd event.exchanges = (event.reads fd).map Prod.snd := by
  -- the only other calls that read are those that drain the wake pipe
  by_cases hattempted : ∃ operation, event.attempted? = some operation ∧ operation.fd = fd
  · obtain ⟨operation, hoperation, rfl⟩ := hattempted
    simp [Event.reads, hoperation, Function.comp_def]
  · have hnothing : event.reads fd = [] := by
      unfold Event.reads
      split
      · rename_i operation hoperation
        exact if_neg fun heq => hattempted ⟨operation, hoperation, heq⟩
      · rfl
    rw [hnothing]
    refine arrived_quiet fun exchange hexchange count hrequest => ?_
    rcases h.transfers event hevent exchange hexchange with hquiet |
      ⟨operation, hoperation, htransfer⟩ | ⟨drained, hdrain⟩
    · rw [hrequest] at hquiet
      cases hquiet
    · rw [hrequest] at htransfer
      exact hattempted ⟨operation, hoperation, (Option.some.inj htransfer).symm⟩
    · rw [hrequest] at hdrain
      cases hdrain
      exact hfd rfl

/-- If all that arrives at each event is read for an operation, what has arrived is what has been
read. -/
theorem arrivals_eq {fd : Fd}
    (h : ∀ event ∈ history, arrived fd event.exchanges = (event.reads fd).map Prod.snd) :
    arrivals fd history = (reads fd history).map Prod.snd := by
  induction history with
  | nil => rfl
  | cons event history ih =>
      obtain ⟨hevent, hearlier⟩ := List.forall_mem_cons.mp h
      rw [arrivals, reads, List.map_append, ih hearlier, hevent]

/-- The completions of reads hand over what has arrived. -/
structure HandedOver (setup : EventLoop.Setup) (history : List (Event (Numbered σ)))
    (lane : Lane (Numbered σ)) : Prop where
  /-- Each accepted operation has one record. -/
  once : ∀ ticket ∈ Lending.accepted (tableHistory history),
    ticket ∈ (records history lane).map Record.ticket ∧
      ((records history lane).map number).count ticket.number = 1
  /-- The completions without a fault are the successful reads, in the same order. One more may be
  at hand. -/
  handed : ∀ fd, completions fd history ++ inHand fd lane.stage = reads fd history
  /-- No two successful reads are made for the same operation. -/
  single : ∀ fd, ((reads fd history).map Prod.fst).Nodup
  /-- What they hand over is what has arrived, call by call. The wake pipe is drained besides. -/
  stream : ∀ fd, fd ≠ lane.side.source.wakePipe.readEnd →
    (completions fd history ++ inHand fd lane.stage).map Prod.snd = arrivals fd history
  /-- The buffers are the submitted ones but for the bytes that were read. -/
  readInto : ∀ record ∈ records history lane, ReadInto history record
  /-- The move that follows the end of a read resolves it. -/
  resolves : ∀ operation fault batch,
    lane.stage = .settling operation (.finished fault) batch →
      ∀ exchanges next, Moves setup lane exchanges next →
        ∃ others, next.stage =
          .announcing (operation.resolve setup.direction fault :: others) batch

/-- In every run of a reading lane, no byte is lost, duplicated or reordered. -/
theorem Run.handedOver (h : Run setup history lane) (hdirection : setup.direction = .read)
    (hsound : ∀ event ∈ history, ∀ exchange ∈ event.exchanges, exchange.ArrivesAtMost) :
    HandedOver setup history lane := by
  have hinvariant := readInto_invariant (σ := σ) hdirection
  have hkept := h.kept hinvariant hsound
  have hhanded := h.handed hdirection hinvariant hsound
  constructor
  case once => exact hkept.once
  case handed => exact hhanded
  case single =>
    intro fd
    obtain ⟨lending, hmirrors⟩ := hkept.mirrors
    rw [← hhanded fd]
    exact nodup_completions hmirrors fd
  case stream =>
    intro fd hfd
    rw [hhanded fd, arrivals_eq fun event hevent => h.arrived_eq hfd hevent]
  case readInto => exact hkept.facts
  case resolves =>
    intro operation fault batch hstage exchanges next hmoves
    exact hkept.resolves hstage hmoves

/-- A read that is overwritten in flight. The bytes it gets come back in its own completion. -/
theorem handedOver_overwritten :
    ∃ (setup : EventLoop.Setup) (history : List (Event (Numbered Unit)))
      (lane : Lane (Numbered Unit)),
      Run setup history lane ∧ setup.direction = .read ∧
        (∀ event ∈ history, ∀ exchange ∈ event.exchanges, exchange.ArrivesAtMost) ∧
        completions ⟨7⟩ history = [(0, [1, 2, 3])] ∧ HandedOver setup history lane := by
  let setup : EventLoop.Setup := ⟨.read, .dropWhenFull, 4⟩
  let source : Source := ⟨⟨3⟩, ⟨⟨4⟩, ⟨5⟩⟩, false⟩
  let ready : RawEvent := ⟨Fd.key ⟨7⟩, EventMask.input⟩
  obtain ⟨history, lane, hrun, hsound, hcompletions⟩ :
      ∃ history lane, Run (σ := Unit) setup history lane ∧
        (∀ event ∈ history, ∀ exchange ∈ event.exchanges, exchange.ArrivesAtMost) ∧
        completions ⟨7⟩ history = [(0, [1, 2, 3])] := by
    have hopened : Run (σ := Unit) setup [] ⟨⟨source, .empty .read, true⟩, .starting⟩ :=
      .opened source true
    have hsubmitted := hopened.submit ⟨7⟩ [0, 0, 0, 0] ⟨(), false⟩ .overwrite
      ⟨.ok (), [], rfl, rfl, rfl⟩
    have hstarted := hsubmitted.move (.shared rfl ⟨rfl, rfl⟩)
    have hwaited := hstarted.move (.shared rfl ⟨.ok [ready], _, rfl, rfl, rfl⟩)
    have hchecked := hwaited.move (.exclusive rfl ⟨(), _, rfl, rfl, rfl⟩)
    have hoverwritten := hchecked.submit ⟨7⟩ [0, 0] ⟨(), false⟩ .overwrite ⟨rfl, rfl⟩
    have harrived := hoverwritten.move (.shared rfl ⟨.ok [1, 2, 3], _, rfl, rfl, rfl⟩)
    have hresolved := harrived.move (.exclusive rfl ⟨.ok (), _, rfl, rfl, rfl⟩)
    refine ⟨_, _, hresolved, ?_, rfl⟩
    simp only [List.mem_cons, List.not_mem_nil, or_false, Event.exchanges,
      Exchange.ArrivesAtMost, forall_eq_or_imp, forall_eq, IsEmpty.forall_iff, implies_true,
      and_true, true_and]
    decide
  exact ⟨setup, history, lane, hrun, rfl, hsound, hcompletions, hrun.handedOver rfl hsound⟩

end Runs

end Proactor.Lane
