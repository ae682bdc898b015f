import Proactor.Proofs.Attempts
import Proactor.Proofs.Endings

/-!
# End of stream

A read that returns nothing says that the peer has closed its side, unless it has asked for nothing.
A completion keeps neither the answer of its last read nor what was asked for, only a count and a
buffer. This module recovers the read from the history of the lane: `ReadAs` says that the record of
an operation agrees with the last read that was made for it, and `Run.eofs` what it therefore means
that a completion reports the end of the stream.

For operations with room in their buffer that is the end of the stream. An operation with an empty
buffer reports it whenever it is read without a fault, as `eof_without_room` shows.
-/

namespace Proactor

variable {σ : Type}

/-- The end of the stream is reported by exactly those reads that moved nothing and had no fault. -/
theorem Completion.isEof_iff {completion : Completion} :
    completion.isEof = true ↔
      completion.direction = .read ∧ completion.fault = none ∧ completion.transferred = 0 := by
  simp [isEof, and_assoc]

/-! ## The direction of completions -/

namespace Outstanding

variable {table left : Outstanding σ} {source : Source} {operation : Operation σ}
  {exchanges : List (Exchange σ)} {completions : List (Resolved σ)} {resolved : Resolved σ}

/-- An operation that resolves because it could not be kept is of the direction of the table. -/
theorem Retention.completion_direction {fd : Fd}
    (h : table.Retention fd operation source exchanges (completions, left))
    (hresolved : resolved ∈ completions) : resolved.completion.direction = table.direction := by
  cases h with
  | kept => cases hresolved
  | lost =>
      cases List.mem_singleton.mp hresolved
      rfl

/-- All operations that resolve in a settlement are of the direction of the table. -/
theorem Settlement.completion_direction {attempt : Attempt}
    (h : table.Settlement operation source attempt exchanges (.ok completions, left))
    (hresolved : resolved ∈ completions) : resolved.completion.direction = table.direction := by
  cases h with
  | finished =>
      cases List.mem_singleton.mp hresolved
      rfl
  | succeeded hcheck hkeep =>
      rcases List.mem_cons.mp hresolved with rfl | hlost
      · rfl
      · exact (hkeep.completion_direction hlost).trans (checkIn_direction hcheck)
  | dropped hcheck hkeep | continued hcheck hkeep =>
      exact (hkeep.completion_direction hresolved).trans (checkIn_direction hcheck)

end Outstanding

namespace Lane

variable {setup : EventLoop.Setup} {history : List (Event (Numbered σ))}
  {lane next : Lane (Numbered σ)} {exchanges : List (Exchange (Numbered σ))}

/-- The completions of a lane, the last ones first. -/
def resolutions (history : List (Event (Numbered σ))) : List (Resolved (Numbered σ)) :=
  (tableHistory history).flatMap Lending.Event.resolved

/-- The completions of the last event come before the earlier ones. -/
theorem resolutions_cons (event : Event (Numbered σ)) :
    resolutions (event :: history) =
      event.onTable.flatMap Lending.Event.resolved ++ resolutions history := by
  rw [resolutions, tableHistory, List.flatMap_cons, List.flatMap_append]
  rfl

/-- All operations that resolve in a move are of the direction of the table. -/
theorem Moves.completion_direction (h : Moves setup lane exchanges next)
    {resolved : Resolved (Numbered σ)}
    (hresolved : resolved ∈
      (Event.moved lane exchanges next).onTable.flatMap Lending.Event.resolved) :
    resolved.completion.direction = lane.side.table.direction := by
  cases h.step with
  | idle hbefore hafter =>
      rw [onTable_idle hbefore hafter] at hresolved
      cases hresolved
  | checkedOut hstage _ hnext =>
      simp only [Event.onTable, hstage, hnext] at hresolved
      cases hresolved
  | attempted hstage | gaveUp hstage =>
      simp only [Event.onTable, hstage] at hresolved
      cases hresolved
  | misplaced hstage _ hnext =>
      simp only [Event.onTable, hstage, hnext] at hresolved
      cases hresolved
  | settled hstage hsettle hnext =>
      simp only [Event.onTable, hstage, hnext] at hresolved
      rw [List.flatMap_singleton] at hresolved
      exact (Outstanding.settle_cases hsettle).completion_direction hresolved

/-- All completions of a lane are of its direction. -/
theorem Run.completion_direction (h : Run setup history lane) {resolved : Resolved (Numbered σ)}
    (hresolved : resolved ∈ resolutions history) :
    resolved.completion.direction = setup.direction := by
  induction h with
  | opened => cases hresolved
  | submit _ _ _ _ _ _ ih | close _ _ ih => exact ih hresolved
  | move hrun hmoves ih =>
      rw [resolutions_cons] at hresolved
      rcases List.mem_append.mp hresolved with hnow | hearlier
      · exact (hmoves.completion_direction hnow).trans hrun.table_direction
      · exact ih hearlier

/-! ## The last read -/

/-- The calls that have moved data in the attempts on an operation, the first one first. -/
def transfers (number : Nat) (history : List (Event (Numbered σ))) :
    List (Exchange (Numbered σ)) :=
  (tries number history).flatten.filter fun exchange => exchange.request.transferOn?.isSome

/-- An event that attempts another operation or none moves no data for this one. -/
theorem transfers_elsewhere {number : Nat} {event : Event (Numbered σ)}
    (h : ∀ operation, event.attempted? = some operation → operation.ticket.number ≠ number) :
    transfers number (event :: history) = transfers number history := by
  rw [transfers, tries_elsewhere h]
  rfl

/-- An attempt adds its calls. What it tells the log moves no data. -/
theorem transfers_attempted {before after : Lane (Numbered σ)}
    {made logs : List (Exchange (Numbered σ))} {operation : Operation (Numbered σ)}
    {answer : Operation (Numbered σ) × Attempt} {batch : List Proactor.Event}
    (hstage : before.stage = .attempting operation batch)
    (hattempt : (Transfer.attempt setup.direction operation).Returns made answer)
    (hlogs : ∀ exchange ∈ logs, exchange.request.transferOn? = none) :
    transfers operation.ticket.number (.moved before (made ++ logs) after :: history) =
      transfers operation.ticket.number history ++ made := by
  have hmade : made.filter (fun exchange => exchange.request.transferOn?.isSome) = made := by
    refine List.filter_eq_self.mpr fun exchange hexchange => ?_
    rw [Transfer.attempt_asks.request hattempt exchange hexchange]
    rfl
  have hnone : (Proactor.calls logs).filter
      (fun exchange => exchange.request.transferOn?.isSome) = [] := by
    refine List.filter_eq_nil_iff.mpr fun exchange hexchange => ?_
    rw [hlogs exchange (List.mem_filter.mp hexchange).1]
    exact Bool.false_ne_true
  rw [transfers, tries_same (Event.attempted?_moved hstage), List.flatten_append,
    List.filter_append, List.flatten_singleton, Event.exchanges, Proactor.calls_append,
    Transfer.calls_attempt hattempt, List.filter_append, hmade, hnone, List.append_nil]
  rfl

/-- The last read for an operation, if there was one, had this answer. It was a read of the whole
buffer. -/
def LastRead (history : List (Event (Numbered σ))) (operation : Operation (Numbered σ))
    (answer : Except Errno Bytes) : Prop :=
  (transfers operation.ticket.number history).getLast? =
    some ⟨.read operation.fd operation.buffer.length, answer⟩

/-- The record of a read agrees with its submission and with the last read that was made for it. -/
structure ReadAs (history : List (Event (Numbered σ))) (operation : Operation (Numbered σ))
    (record : Record (Numbered σ)) : Prop where
  accepted : Accepted history operation
  ticket_eq : operation.ticket = record.ticket
  buffer_eq : record.progress.succeeded = false → record.buffer = operation.buffer
  succeeded : record.progress.succeeded = true →
    ∃ bytes, LastRead history operation (.ok bytes) ∧ record.transferred = bytes.length
  failed : record.progress.succeeded = false →
    transfers operation.ticket.number history = [] ∨
      ∃ errno, LastRead history operation (.error errno)

section ReadAs

variable {operation : Operation (Numbered σ)} {record : Record (Numbered σ)}

/-- A record still agrees with its last read when its operation gets further without a change of
success. -/
theorem ReadAs.become (h : ReadAs history operation record) {progress : Progress}
    (hprogress : progress.succeeded = record.progress.succeeded) :
    ReadAs history operation (record.become progress) where
  accepted := h.accepted
  ticket_eq := h.ticket_eq
  buffer_eq hfailed := h.buffer_eq (hprogress ▸ hfailed)
  succeeded hsucceeded := h.succeeded (hprogress ▸ hsucceeded)
  failed hfailed := h.failed (hprogress ▸ hfailed)

/-- What has been accepted stays accepted. -/
theorem Accepted.later (h : Accepted history operation) (event : Event (Numbered σ)) :
    Accepted (event :: history) operation := by
  obtain ⟨policy, made, displaced, hmem⟩ := h
  exact ⟨policy, made, displaced, List.mem_cons_of_mem _ hmem⟩

/-- A record still agrees with its last read after an event that attempts another operation or none.
-/
theorem ReadAs.elsewhere (h : ReadAs history operation record) {event : Event (Numbered σ)}
    (hevent : ∀ other, event.attempted? = some other → other.ticket.number ≠ number record) :
    ReadAs (event :: history) operation record := by
  have hnumber : operation.ticket.number = number record := by
    rw [h.ticket_eq]
    rfl
  have hsame : transfers operation.ticket.number (event :: history) =
      transfers operation.ticket.number history := transfers_elsewhere (hnumber ▸ hevent)
  constructor
  case accepted => exact h.accepted.later event
  case ticket_eq => exact h.ticket_eq
  case buffer_eq => exact h.buffer_eq
  case succeeded =>
    unfold LastRead
    rw [hsame]
    exact h.succeeded
  case failed =>
    unfold LastRead
    rw [hsame]
    exact h.failed

/-- Nothing has been read for an operation that was just submitted. -/
theorem ReadAs.fresh {policy : OverlapPolicy} {made : List (Exchange (Numbered σ))}
    {displaced : Option (Operation (Numbered σ))} (hnumbering : Numbering history)
    (hnumber : operation.ticket.number = submissions history) :
    ReadAs (.submitted operation policy made (.ok displaced) :: history) operation
      (operation.record .unfinished) := by
  constructor
  case accepted => exact ⟨policy, made, displaced, List.mem_cons_self⟩
  case ticket_eq => rfl
  case buffer_eq => exact fun _ => rfl
  case succeeded => exact nofun
  case failed =>
    intro _
    rw [transfers, tries_idle rfl, hnumber, tries_fresh hnumbering]
    exact .inl rfl

/-- An attempt makes one more read, and succeeds as this read does. -/
theorem ReadAs.attempt {before after : Lane (Numbered σ)}
    {made logs : List (Exchange (Numbered σ))} {held changed : Operation (Numbered σ)}
    {attempt : Attempt} {batch : List Proactor.Event}
    (h : ReadAs history operation (held.record .unfinished)) (hdirection : setup.direction = .read)
    (hstage : before.stage = .attempting held batch)
    (hattempt : (Transfer.attempt setup.direction held).Returns made (changed, attempt))
    (hlogs : ∀ exchange ∈ logs, exchange.request.transferOn? = none) :
    ReadAs (.moved before (made ++ logs) after :: history) operation
      (changed.record (.attempted attempt)) := by
  have hticket : operation.ticket = held.ticket := h.ticket_eq
  have hfd : operation.fd = held.fd := congrArg Ticket.fd hticket
  have hbuffer : held.buffer = operation.buffer := h.buffer_eq rfl
  have htransfers : transfers held.ticket.number (.moved before (made ++ logs) after :: history) =
      transfers held.ticket.number history ++ made :=
    transfers_attempted hstage hattempt hlogs
  rw [← hticket] at htransfers
  have hchanged := Transfer.attempt_ticket hattempt
  rw [hdirection] at hattempt
  -- the operation waited until now, so the read was one of the whole submitted buffer
  have hlast : ∀ answer, made = [⟨.read held.fd held.buffer.length, answer⟩] →
      LastRead (.moved before (made ++ logs) after :: history) operation answer := by
    rintro answer rfl
    rw [LastRead, htransfers, List.getLast?_concat, hfd, hbuffer]
  generalize hanswer : (changed, attempt) = answer at hattempt
  cases Transfer.read_cases hattempt with
  | arrived bytes =>
      cases hanswer
      exact ⟨h.accepted.later _, hticket.trans hchanged.symm, nofun,
        fun _ => ⟨bytes, hlast _ rfl, rfl⟩, nofun⟩
  | refused errno =>
      cases hanswer
      exact ⟨h.accepted.later _, hticket, fun _ => hbuffer,
        fun hsucceeded => absurd hsucceeded (Bool.eq_false_iff.mp (Progress.succeeded_failed _)),
        fun _ => .inr ⟨errno, hlast _ rfl⟩⟩

end ReadAs

/-- In a lane that reads, every record agrees with the last read that was made for it. -/
theorem readAs_invariant (hdirection : setup.direction = .read) :
    Invariant (σ := σ) setup (fun _ => True) fun history record =>
      ∃ operation, ReadAs history operation record where
  submitted _ _ _ _ _ _ _ hnumbering := ⟨_, .fresh hnumbering rfl⟩
  elsewhere _ _ _ := fun ⟨operation, h⟩ hevent => ⟨operation, h.elsewhere hevent⟩
  attempted _ _ _ _ _ _ _ _ _ := fun ⟨operation, h⟩ hstage hattempt hlogs _ =>
    ⟨operation, h.attempt hdirection hstage hattempt hlogs⟩
  settled _ _ _ _ hprogress := fun ⟨operation, h⟩ hsettled => by
    obtain ⟨progress, rfl, hsucceeded⟩ := hsettled.become hprogress
    exact ⟨operation, h.become hsucceeded⟩
  lost _ _ _ hprogress := fun ⟨operation, h⟩ => ⟨operation, h.become (by rw [hprogress]; rfl)⟩
  safe _ _ _ := by
    rw [hdirection]
    exact Transfer.read_neverPanics _

/-! ## What completions report -/

/-- The last read for an operation had room for data and returned nothing: the peer has closed its
side. -/
def PeerClosed (history : List (Event (Numbered σ))) (operation : Operation (Numbered σ)) : Prop :=
  ∃ fd count, 0 < count ∧
    (transfers operation.ticket.number history).getLast? = some ⟨.read fd count, .ok []⟩

/-- What it means that the completion of a read reports the end of the stream. -/
structure ReadsEof (history : List (Event (Numbered σ))) (operation : Operation (Numbered σ))
    (completion : Completion) : Prop where
  /-- The last read was without a fault and returned nothing. -/
  eof_iff : completion.isEof = true ↔ LastRead history operation (.ok [])
  /-- If the submitted buffer has room, the peer has closed its side. -/
  roomy : operation.buffer ≠ [] → (completion.isEof = true ↔ PeerClosed history operation)
  /-- Without room the peer may not have closed its side. The end of the stream is reported all
  the same, unless there is a fault. -/
  roomless : operation.buffer = [] → ¬ PeerClosed history operation ∧
    ((∀ event ∈ history, ∀ exchange ∈ event.exchanges, exchange.ArrivesAtMost) →
      (completion.isEof = true ↔ completion.fault = none))

/-- What it means that a completion reports the end of the stream. -/
structure ReportsEof (setup : EventLoop.Setup) (history : List (Event (Numbered σ)))
    (resolved : Resolved (Numbered σ)) : Prop where
  /-- No write reports it. -/
  writes : setup.direction = .write → resolved.completion.isEof = false
  /-- Nor does an operation that ends with a fault, of its last read or of rearming. -/
  faulty : ∀ fault, resolved.completion.fault = some fault → resolved.completion.isEof = false
  /-- A read reports what its last call has returned. -/
  reads : setup.direction = .read → ∃ operation, Accepted history operation ∧
    operation.ticket = resolved.ticket ∧ ReadsEof history operation resolved.completion

section Completions

variable {operation : Operation (Numbered σ)} {resolved : Resolved (Numbered σ)}

/-- A completion without a fault has the count of its last read. -/
theorem ReadAs.of_fault_none (h : ReadAs history operation resolved.record)
    (hfault : resolved.completion.fault = none) :
    ∃ bytes, LastRead history operation (.ok bytes) ∧
      resolved.completion.transferred = bytes.length := by
  refine h.succeeded ?_
  show (Progress.resolved resolved.completion.fault).succeeded = true
  rw [hfault]
  rfl

/-- With a fault the last read has failed, if there was one. -/
theorem ReadAs.of_fault_some (h : ReadAs history operation resolved.record) {fault : Fault}
    (hfault : resolved.completion.fault = some fault) :
    transfers operation.ticket.number history = [] ∨
      ∃ errno, LastRead history operation (.error errno) := by
  refine h.failed ?_
  show (Progress.resolved resolved.completion.fault).succeeded = false
  rw [hfault]
  rfl

/-- A last read that has returned something was one of the whole buffer, and the operation has ended
without a fault. -/
theorem ReadAs.of_last (h : ReadAs history operation resolved.record) {fd : Fd} {count : Nat}
    {bytes : Bytes} (hlast : (transfers operation.ticket.number history).getLast? =
      some ⟨.read fd count, .ok bytes⟩) :
    count = operation.buffer.length ∧ resolved.completion.fault = none ∧
      LastRead history operation (.ok bytes) := by
  cases hfault : resolved.completion.fault with
  | none =>
      obtain ⟨others, hread, -⟩ := h.of_fault_none hfault
      cases hread.symm.trans hlast
      exact ⟨rfl, rfl, hread⟩
  | some fault =>
      rcases h.of_fault_some hfault with hnone | ⟨errno, hread⟩
      · rw [hnone] at hlast
        cases hlast
      · cases hread.symm.trans hlast

/-- A completion reports the end of the stream if and only if the last read returned nothing. -/
theorem ReadAs.eof_iff (h : ReadAs history operation resolved.record)
    (hdirection : resolved.completion.direction = .read) :
    resolved.completion.isEof = true ↔ LastRead history operation (.ok []) := by
  rw [Completion.isEof_iff, hdirection]
  constructor
  · rintro ⟨-, hfault, hcount⟩
    obtain ⟨bytes, hread, hlength⟩ := h.of_fault_none hfault
    obtain rfl := List.eq_nil_of_length_eq_zero (hlength.symm.trans hcount)
    exact hread
  · intro hlast
    obtain ⟨-, hfault, -⟩ := h.of_last hlast
    obtain ⟨bytes, hread, hlength⟩ := h.of_fault_none hfault
    cases hread.symm.trans hlast
    exact ⟨rfl, hfault, hlength⟩

/-- The last read for an operation is among the exchanges of the lane. -/
theorem LastRead.mem {answer : Except Errno Bytes} (h : LastRead history operation answer) :
    ∃ event ∈ history,
      ⟨.read operation.fd operation.buffer.length, answer⟩ ∈ event.exchanges := by
  obtain ⟨hmem, -⟩ := List.mem_filter.mp (List.mem_of_getLast? h)
  obtain ⟨made, hmade, hexchange⟩ := List.mem_flatten.mp hmem
  exact mem_tries hmade hexchange

/-- A completion that agrees with its last read says about the end of the stream what that read
said. -/
theorem ReadAs.readsEof (h : ReadAs history operation resolved.record)
    (hdirection : resolved.completion.direction = .read) :
    ReadsEof history operation resolved.completion := by
  constructor
  case eof_iff => exact h.eof_iff hdirection
  case roomy =>
    intro hroom
    rw [h.eof_iff hdirection]
    constructor
    · exact fun hlast => ⟨_, _, List.length_pos_iff.mpr hroom, hlast⟩
    · rintro ⟨fd, count, -, hlast⟩
      exact (h.of_last hlast).2.2
  case roomless =>
    intro hempty
    constructor
    · rintro ⟨fd, count, hcount, hlast⟩
      obtain ⟨rfl, -⟩ := h.of_last hlast
      rw [hempty] at hcount
      exact absurd hcount (Nat.lt_irrefl 0)
    · intro hsound
      rw [h.eof_iff hdirection]
      constructor
      · exact fun hlast => (h.of_last hlast).2.1
      · intro hfault
        obtain ⟨bytes, hread, -⟩ := h.of_fault_none hfault
        -- no more arrives than there is room for, and here that is nothing
        obtain ⟨event, hevent, hexchange⟩ := hread.mem
        have hfits : bytes.length ≤ operation.buffer.length := hsound event hevent _ hexchange
        rw [hempty] at hfits
        obtain rfl := List.eq_nil_of_length_eq_zero (Nat.le_zero.mp hfits)
        exact hread

/-- In every run a completion that reports the end of the stream does so because its last read has
returned nothing. For operations with room in their buffer that is because the peer has closed its
side, and for no other reason. -/
theorem Run.eofs (h : Run setup history lane) :
    ∀ resolved ∈ resolutions history, ReportsEof setup history resolved := by
  intro resolved hresolved
  have hcompletion := h.completion_direction hresolved
  constructor
  case writes =>
    intro hdirection
    refine Bool.eq_false_iff.mpr fun heof => ?_
    cases (Completion.isEof_iff.mp heof).1.symm.trans (hcompletion.trans hdirection)
  case faulty =>
    intro fault hfault
    refine Bool.eq_false_iff.mpr fun heof => ?_
    cases (Completion.isEof_iff.mp heof).2.1.symm.trans hfault
  case reads =>
    intro hdirection
    have hkept := h.kept (readAs_invariant hdirection) fun _ _ _ _ => trivial
    have hrecord : resolved.record ∈ records history lane :=
      aside_mem_records (Lending.mem_aside.mpr (.inr ⟨resolved, hresolved, rfl⟩))
    obtain ⟨operation, hread⟩ := hkept.facts _ hrecord
    exact ⟨operation, hread.accepted, hread.ticket_eq,
      hread.readsEof (hcompletion.trans hdirection)⟩

end Completions

/-- A read with room for two bytes is tried twice. The second time the peer has closed its side. -/
theorem eofs_at_second_try :
    ∃ (setup : EventLoop.Setup) (history : List (Event (Numbered Unit)))
      (lane : Lane (Numbered Unit)) (resolved : Resolved (Numbered Unit)),
      Run setup history lane ∧ resolutions history = [resolved] ∧
        transfers 0 history =
          [⟨.read ⟨7⟩ 2, .error .wouldBlock⟩, ⟨.read ⟨7⟩ 2, .ok []⟩] ∧
        resolved.completion.isEof = true ∧ ReportsEof setup history resolved := by
  let setup : EventLoop.Setup := ⟨.read, .dropWhenFull, 4⟩
  let source : Source := ⟨⟨3⟩, ⟨⟨4⟩, ⟨5⟩⟩, false⟩
  let ready : RawEvent := ⟨Fd.key ⟨7⟩, EventMask.input⟩
  have hopened : Run (σ := Unit) setup [] ⟨⟨source, .empty .read, true⟩, .starting⟩ :=
    .opened source true
  have hsubmitted := hopened.submit ⟨7⟩ [0, 0] ⟨(), false⟩ .overwrite ⟨.ok (), [], rfl, rfl, rfl⟩
  have hstarted := hsubmitted.move (.shared rfl ⟨rfl, rfl⟩)
  have hwaited := hstarted.move (.shared rfl ⟨.ok [ready, ready], _, rfl, rfl, rfl⟩)
  have hchecked := hwaited.move (.exclusive rfl ⟨(), _, rfl, rfl, rfl⟩)
  have hfirst := hchecked.move (.shared rfl ⟨.error .wouldBlock, _, rfl, (), _, rfl, rfl, rfl⟩)
  have hkept := hfirst.move (.exclusive rfl ⟨.ok (), _, rfl, rfl, rfl⟩)
  have hannounced := hkept.move (.shared rfl ⟨rfl, rfl⟩)
  have hagain := hannounced.move (.exclusive rfl ⟨(), _, rfl, rfl, rfl⟩)
  have hsecond := hagain.move (.shared rfl ⟨.ok [], _, rfl, rfl, rfl⟩)
  have hresolved := hsecond.move (.exclusive rfl ⟨.ok (), _, rfl, rfl, rfl⟩)
  exact ⟨setup, _, _, _, hresolved, rfl, rfl, rfl, hresolved.eofs _ (List.mem_singleton_self _)⟩

/-- A read without room has returned nothing, as it had to. Its completion reports the end of the
stream, although the system has not said that the peer has closed its side. -/
theorem eof_without_room :
    ∃ (setup : EventLoop.Setup) (history : List (Event (Numbered Unit)))
      (lane : Lane (Numbered Unit)) (operation : Operation (Numbered Unit))
      (resolved : Resolved (Numbered Unit)),
      Run setup history lane ∧ setup.direction = .read ∧
        (∀ event ∈ history, ∀ exchange ∈ event.exchanges, exchange.ArrivesAtMost) ∧
        Accepted history operation ∧ operation.ticket = resolved.ticket ∧
        transfers 0 history = [⟨.read ⟨7⟩ 0, .ok []⟩] ∧ resolutions history = [resolved] ∧
        resolved.completion.isEof = true ∧ ¬ PeerClosed history operation := by
  let setup : EventLoop.Setup := ⟨.read, .dropWhenFull, 4⟩
  let source : Source := ⟨⟨3⟩, ⟨⟨4⟩, ⟨5⟩⟩, false⟩
  let operation : Operation Unit := .submitted ⟨7⟩ [] ⟨(), false⟩
  have hopened : Run (σ := Unit) setup [] ⟨⟨source, .empty .read, true⟩, .starting⟩ :=
    .opened source true
  have hsubmitted := hopened.submit ⟨7⟩ [] ⟨(), false⟩ .overwrite ⟨.ok (), [], rfl, rfl, rfl⟩
  have hstarted := hsubmitted.move (.shared rfl ⟨rfl, rfl⟩)
  have hwaited := hstarted.move
    (.shared rfl ⟨.ok [⟨Fd.key ⟨7⟩, EventMask.input⟩], _, rfl, rfl, rfl⟩)
  have hchecked := hwaited.move (.exclusive rfl ⟨(), _, rfl, rfl, rfl⟩)
  have hread := hchecked.move (.shared rfl ⟨.ok [], _, rfl, rfl, rfl⟩)
  have hresolved := hread.move (.exclusive rfl ⟨.ok (), _, rfl, rfl, rfl⟩)
  refine ⟨setup, _, _, operation.numbered 0, _, hresolved, rfl, ?_, ?_, rfl, rfl, rfl, rfl, ?_⟩
  · simp only [List.mem_cons, List.not_mem_nil, or_false, Event.exchanges,
      Exchange.ArrivesAtMost, forall_eq_or_imp, forall_eq, IsEmpty.forall_iff, implies_true,
      and_true, true_and]
    decide
  · exact ⟨.overwrite, _, none, List.mem_of_getLast? rfl⟩
  · rintro ⟨fd, count, hcount, hlast⟩
    cases hlast
    exact Nat.lt_irrefl 0 hcount

end Lane

end Proactor
