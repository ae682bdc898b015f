import Proactor.Proofs.Records

/-!
# Facts about the records of all runs

A fact about the record of an operation is established when the operation is
submitted. It has to survive the attempts on the operation, its settlement, and
whatever happens to other operations. `Run.kept` concludes that it then
holds of every record in every run. The other operations are known by their
numbers, of which no two are the same.
-/

namespace Proactor.Lane

variable {σ : Type}

/-- All attempts of a history were made on operations with numbers that had been given out. -/
def Numbering (history : List (Event (Numbered σ))) : Prop :=
  ∀ event ∈ history, ∀ operation, event.attempted? = some operation →
    operation.ticket.number < submissions history

/-- A fact about records that is established by submissions and preserved by everything else, if
the exchanges of attempts are sound. -/
structure Invariant (setup : EventLoop.Setup) (sound : Exchange (Numbered σ) → Prop)
    (fact : List (Event (Numbered σ)) → Record (Numbered σ) → Prop) : Prop where
  submitted : ∀ history fd buffer (sink : Sink σ) policy exchanges displaced,
    Numbering history →
      fact (.submitted ((Operation.submitted fd buffer sink).numbered (submissions history))
          policy exchanges (.ok displaced) :: history)
        (((Operation.submitted fd buffer sink).numbered (submissions history)).record .unfinished)
  elsewhere : ∀ history event record, fact history record →
    (∀ operation, event.attempted? = some operation →
      operation.ticket.number ≠ number record) → fact (event :: history) record
  attempted : ∀ history before calls logs after operation batch changed attempt,
    fact history (operation.record .unfinished) →
      before.stage = .attempting operation batch →
      (Transfer.attempt setup.direction operation).Returns calls (changed, attempt) →
      (∀ exchange ∈ logs, exchange.request.transferOn? = none) →
      (∀ exchange ∈ calls, sound exchange) →
      fact (.moved before (calls ++ logs) after :: history) (changed.record (.attempted attempt))
  settled : ∀ history record attempt after, record.progress = .attempted attempt →
    fact history record → Settled record attempt after → fact history after
  lost : ∀ history record fault, record.progress = .unfinished → fact history record →
    fact history (record.become (.resolved (some fault)))
  safe : ∀ history operation, fact history (operation.record .unfinished) →
    (Transfer.attempt setup.direction operation).NeverPanics

/-- What is known of a run whose records satisfy a fact. -/
structure Kept (setup : EventLoop.Setup)
    (fact : List (Event (Numbered σ)) → Record (Numbered σ) → Prop)
    (history : List (Event (Numbered σ))) (lane : Lane (Numbered σ)) : Prop where
  mirrors : ∃ lending, Mirrors setup history lane lending
  numbering : Numbering history
  facts : ∀ record ∈ records history lane, fact history record

variable {setup : EventLoop.Setup} {sound : Exchange (Numbered σ) → Prop}
  {fact : List (Event (Numbered σ)) → Record (Numbered σ) → Prop}
  {history : List (Event (Numbered σ))} {lane next : Lane (Numbered σ)}
  {exchanges : List (Exchange (Numbered σ))}

/-- A fact holds under stronger assumptions on the exchanges as well. -/
theorem Invariant.mono {stricter : Exchange (Numbered σ) → Prop} (h : Invariant setup sound fact)
    (hstricter : ∀ exchange, stricter exchange → sound exchange) :
    Invariant setup stricter fact where
  submitted := h.submitted
  elsewhere := h.elsewhere
  attempted history before calls logs after operation batch changed attempt hfact hstage hattempt
      hlogs hsound :=
    h.attempted history before calls logs after operation batch changed attempt hfact hstage
      hattempt hlogs fun exchange hexchange => hstricter exchange (hsound exchange hexchange)
  settled := h.settled
  lost := h.lost
  safe := h.safe

/-- A history with one event more still attempts only numbers given out if that event does. -/
theorem Numbering.cons {event : Event (Numbered σ)} (h : Numbering history)
    (hevent : ∀ operation, event.attempted? = some operation →
      operation.ticket.number < submissions (event :: history)) :
    Numbering (event :: history) := by
  refine List.forall_mem_cons.mpr ⟨hevent, fun earlier hearlier operation hoperation => ?_⟩
  have hlt := h earlier hearlier operation hoperation
  have hle : submissions history ≤ submissions (event :: history) := by
    simp only [submissions, Lending.submissions, Lending.offered, tableHistory,
      List.flatMap_cons, List.flatMap_append, Lending.tickets_append, List.length_append]
    omega
  omega

/-- An event without an attempt leaves the numbers alone. -/
theorem Numbering.idle {event : Event (Numbered σ)} (h : Numbering history)
    (hattempted : event.attempted? = none) : Numbering (event :: history) := by
  refine h.cons fun operation hoperation => ?_
  cases hattempted.symm.trans hoperation

/-- An event without an attempt leaves the facts about records alone. -/
theorem Invariant.idle (h : Invariant setup sound fact) {event : Event (Numbered σ)}
    {record : Record (Numbered σ)} (hattempted : event.attempted? = none)
    (hrecord : fact history record) : fact (event :: history) record := by
  refine h.elsewhere history event record hrecord fun operation hoperation => ?_
  cases hattempted.symm.trans hoperation

/-- A loop with empty hands attempts nothing. -/
theorem attempted?_idle (hbefore : lane.stage.held? = none) :
    (Event.moved lane exchanges next).attempted? = none := by
  refine Event.attempted?_eq_none fun operation batch hstage => ?_
  rw [hstage] at hbefore
  cases hbefore

/-- An event that changes neither the table nor what the loop has in its hands. -/
theorem Kept.idle (hinvariant : Invariant setup sound fact) {event : Event (Numbered σ)}
    (h : Kept setup fact history lane) (htable : event.onTable = [])
    (hattempted : event.attempted? = none) (hside : next.side.table = lane.side.table)
    (hstage : next.stage.held? = lane.stage.held?) : Kept setup fact (event :: history) next := by
  obtain ⟨lending, hmirrors⟩ := h.mirrors
  have hhistory : tableHistory (event :: history) = tableHistory history := by
    rw [tableHistory, List.flatMap_cons, htable]
    rfl
  constructor
  case mirrors => exact ⟨lending, hmirrors.idle htable hside hstage⟩
  case numbering => exact h.numbering.idle hattempted
  case facts =>
    intro record hrecord
    rw [records, hhistory, hside, hstage] at hrecord
    exact hinvariant.idle hattempted (h.facts record hrecord)

/-- A submission adds a record if it is accepted. -/
theorem Kept.submit (hinvariant : Invariant setup sound fact) (h : Kept setup fact history lane)
    {fd : Fd} {buffer : Bytes} {sink : Sink σ} {policy : OverlapPolicy}
    {result : Except ReactorError (Option (Operation (Numbered σ)))}
    {side : Side (Numbered σ)}
    (hsubmit : (lane.side.submit
      ((Operation.submitted fd buffer sink).numbered (submissions history)) policy).Returns
        exchanges (result, side)) :
    Kept setup fact
      (.submitted ((Operation.submitted fd buffer sink).numbered (submissions history)) policy
        exchanges result :: history)
      { lane with side } := by
  obtain ⟨lending, hmirrors⟩ := h.mirrors
  have hmirrored := hmirrors.submit hsubmit
  obtain ⟨⟨answer, table⟩, calls, none, rfl, htable, hside⟩ := Program.returns_bind.mp hsubmit
  obtain ⟨rfl, hanswer⟩ := Program.returns_pure.mp hside
  cases hanswer
  rw [List.append_nil] at hmirrored ⊢
  constructor
  case mirrors => exact ⟨_, hmirrored⟩
  case numbering => exact h.numbering.idle rfl
  case facts =>
    intro record hrecord
    have hcases := Outstanding.submit_cases htable
    rcases List.mem_append.mp hrecord with hheld | haside
    · exact hinvariant.idle rfl (h.facts record (List.mem_append_left _ hheld))
    · cases result with
      | error error =>
          obtain rfl := hcases.refusal
          exact hinvariant.idle rfl (h.facts record (aside_mem_records haside))
      | ok displaced =>
          obtain ⟨slot, hadmission, rfl⟩ := hcases.admission
          rcases Lending.mem_aside_submit hadmission haside with rfl | hbefore
          · exact hinvariant.submitted history fd buffer sink policy calls displaced h.numbering
          · exact hinvariant.idle rfl (h.facts record (aside_mem_records hbefore))

/-- The readiness of a descriptor moves an operation into the hands of the loop. -/
theorem Kept.checkOut (hinvariant : Invariant setup sound fact)
    (h : Kept setup fact history lane) {event : Proactor.Event} {batch : List Proactor.Event}
    {operation : Operation (Numbered σ)} (hstage : lane.stage = .handling (event :: batch))
    (hcheck : lane.side.table.checkOut event.fd = some (operation, next.side.table))
    (hnext : next.stage = .attempting operation batch) :
    Kept setup fact (.moved lane exchanges next :: history) next := by
  obtain ⟨lending, hmirrors⟩ := h.mirrors
  have hevent : (Event.moved lane exchanges next).onTable =
      [.checkedOut event.fd (some operation)] := by
    simp only [Event.onTable, hstage, hnext]
  have hattempted : (Event.moved lane exchanges next).attempted? = none :=
    attempted?_idle (by rw [hstage]; rfl)
  obtain ⟨hslot, htable⟩ := Outstanding.checkOut_eq_some.mp hcheck
  have hstored : (lane.side.table.slots.get? event.fd).bind Slot.stored? = some operation := by
    rw [hslot]
    rfl
  constructor
  case mirrors => exact ⟨_, hmirrors.checkOut hstage hcheck hnext⟩
  case numbering => exact h.numbering.idle hattempted
  case facts =>
    intro record hrecord
    apply hinvariant.idle hattempted
    apply h.facts record
    rw [records, tableHistory, List.flatMap_cons, hevent, hnext, htable] at hrecord
    rcases List.mem_append.mp hrecord with hheld | haside
    · obtain rfl := List.mem_singleton.mp hheld
      exact aside_mem_records (Lending.aside_of_slot hstored)
    · exact aside_mem_records (Lending.mem_aside_checkOut haside)

/-- An attempt changes the record of the operation that the loop has in its hands. -/
theorem Kept.attempt (hinvariant : Invariant setup sound fact)
    (h : Kept setup fact history lane) {batch : List Proactor.Event}
    {operation changed : Operation (Numbered σ)} {attempt : Attempt}
    {calls logs : List (Exchange (Numbered σ))}
    (hstage : lane.stage = .attempting operation batch)
    (hattempt : (Transfer.attempt setup.direction operation).Returns calls (changed, attempt))
    (hlogs : ∀ exchange ∈ logs, exchange.request.transferOn? = none)
    (hnext : next.stage = .settling changed attempt batch)
    (htable : next.side.table = lane.side.table) (hsound : ∀ exchange ∈ calls, sound exchange) :
    Kept setup fact (.moved lane (calls ++ logs) next :: history) next := by
  obtain ⟨lending, hmirrors⟩ := h.mirrors
  have hhistory : tableHistory (.moved lane (calls ++ logs) next :: history) =
      tableHistory history := by
    rw [tableHistory, List.flatMap_cons]
    simp only [Event.onTable, hstage]
    rfl
  have hattempted : (Event.moved lane (calls ++ logs) next).attempted? = some operation :=
    Event.attempted?_moved hstage
  have hheld : lane.stage.held? = some (operation.record .unfinished) := by rw [hstage]; rfl
  have hnow : operation.record .unfinished ∈ records history lane := held_mem_records hheld
  constructor
  case mirrors => exact ⟨lending, hmirrors.attempt hstage hattempt hnext htable⟩
  case numbering =>
    refine h.numbering.cons fun other hother => ?_
    rw [hattempted] at hother
    cases hother
    rw [submissions, hhistory]
    exact hmirrors.number_lt hnow
  case facts =>
    intro record hrecord
    rw [records, hhistory, htable, hnext] at hrecord
    -- the attempt is on the operation in hand, and every other record has another number
    rcases List.mem_append.mp hrecord with hchanged | haside
    · obtain rfl := List.mem_singleton.mp hchanged
      exact hinvariant.attempted history lane calls logs next operation batch changed attempt
        (h.facts _ hnow) hstage hattempt hlogs hsound
    · refine hinvariant.elsewhere _ _ _ (h.facts record (aside_mem_records haside)) ?_
      intro other hother
      rw [hattempted] at hother
      cases hother
      exact hmirrors.number_ne hheld haside

/-- A settlement puts the operation aside that the loop had in its hands. -/
theorem Kept.settle (hinvariant : Invariant setup sound fact)
    (h : Kept setup fact history lane) {batch : List Proactor.Event}
    {operation : Operation (Numbered σ)} {attempt : Attempt}
    {resolved : List (Resolved (Numbered σ))}
    (hstage : lane.stage = .settling operation attempt batch)
    (hsettle : (lane.side.table.settle operation attempt lane.side.source).Returns exchanges
      (.ok resolved, next.side.table))
    (hnext : next.stage = .announcing resolved batch) :
    Kept setup fact (.moved lane exchanges next :: history) next := by
  obtain ⟨lending, hmirrors⟩ := h.mirrors
  have hevent : (Event.moved lane exchanges next).onTable =
      [.settled operation attempt (lane.side.table.parkedOn operation.fd) exchanges
        (.ok resolved)] := by
    simp only [Event.onTable, hstage, hnext]
  have hattempted : (Event.moved lane exchanges next).attempted? = none := by
    refine Event.attempted?_eq_none fun operation batch hother => ?_
    cases hstage.symm.trans hother
  have hheld : lane.stage.held? = some (operation.record (.attempted attempt)) := by
    rw [hstage]
    rfl
  obtain ⟨completions, kept, hresult, haftermath, hleft⟩ := hmirrors.aftermath hstage hsettle
  cases hresult
  -- the loop has empty hands afterwards, so all records are aside
  constructor
  case mirrors => exact ⟨_, hmirrors.settle hstage hsettle hnext⟩
  case numbering => exact h.numbering.idle hattempted
  case facts =>
    intro record hrecord
    apply hinvariant.idle hattempted
    rw [records, tableHistory, List.flatMap_cons, hevent, hnext, hleft] at hrecord
    rcases Lending.mem_aside_settle haftermath hrecord with hbefore | hsettled |
      ⟨earlier, hearlier, fault, hprogress, rfl⟩
    · exact h.facts record (aside_mem_records hbefore)
    · exact hinvariant.settled _ _ _ _ rfl (h.facts _ (held_mem_records hheld)) hsettled
    · exact hinvariant.lost _ _ _ hprogress (h.facts earlier (aside_mem_records hearlier))

/-- An operation in the hands of the loop can be settled. -/
theorem Kept.settles (h : Kept setup fact history lane) {operation : Operation (Numbered σ)}
    {attempt : Attempt} {batch : List Proactor.Event}
    {result : Except Panic (List (Resolved (Numbered σ)))} {table : Outstanding (Numbered σ)}
    (hstage : lane.stage = .settling operation attempt batch)
    (hsettle : (lane.side.table.settle operation attempt lane.side.source).Returns exchanges
      (result, table)) :
    ∃ completions kept, result = .ok completions ∧
      Outstanding.Aftermath setup.direction operation attempt
        (lane.side.table.parkedOn operation.fd) completions kept := by
  obtain ⟨lending, hmirrors⟩ := h.mirrors
  obtain ⟨completions, kept, hresult, haftermath, -⟩ := hmirrors.aftermath hstage hsettle
  exact ⟨completions, kept, hresult, haftermath⟩

/-- A finished operation in the hands of the loop resolves in the next move. -/
theorem Kept.resolves (h : Kept setup fact history lane) {operation : Operation (Numbered σ)}
    {fault : Option Fault} {batch : List Proactor.Event}
    (hstage : lane.stage = .settling operation (.finished fault) batch)
    (hmoves : Moves setup lane exchanges next) :
    ∃ others, next.stage =
      .announcing (operation.resolve setup.direction fault :: others) batch := by
  obtain ⟨lending, hmirrors⟩ := h.mirrors
  obtain ⟨completions, kept, hnext, haftermath⟩ := hmirrors.announces hstage hmoves
  obtain ⟨others, rfl⟩ := haftermath.finished_resolved
  exact ⟨others, hnext⟩

/-- The accepted operations have one record each. -/
theorem Kept.once (h : Kept setup fact history lane) :
    ∀ ticket ∈ Lending.accepted (tableHistory history),
      ticket ∈ (records history lane).map Record.ticket ∧
        ((records history lane).map number).count ticket.number = 1 := by
  intro ticket hticket
  obtain ⟨lending, hmirrors⟩ := h.mirrors
  have hmem := hmirrors.records_perm.mem_iff.mpr hticket
  refine ⟨hmem, List.count_eq_one_of_mem hmirrors.nodup_records ?_⟩
  obtain ⟨record, hrecord, rfl⟩ := List.mem_map.mp hmem
  exact List.mem_map_of_mem hrecord

/-- A fact that everything preserves holds of all records in every run. -/
theorem Run.kept (hinvariant : Invariant setup sound fact) (h : Run setup history lane)
    (hsound : ∀ event ∈ history, ∀ exchange ∈ event.exchanges, sound exchange) :
    Kept setup fact history lane := by
  induction h with
  | opened source dispatching =>
      exact ⟨⟨_, .opened, rfl, rfl⟩, List.forall_mem_nil _, List.forall_mem_nil _⟩
  | submit hrun fd buffer sink policy hsubmit ih =>
      obtain ⟨-, hearlier⟩ := List.forall_mem_cons.mp hsound
      exact (ih hearlier).submit hinvariant hsubmit
  | close hrun hclose ih =>
      obtain ⟨-, hearlier⟩ := List.forall_mem_cons.mp hsound
      obtain ⟨⟨result, source⟩, calls, none, rfl, -, hside⟩ := Program.returns_bind.mp hclose
      obtain ⟨-, hanswer⟩ := Program.returns_pure.mp hside
      cases hanswer
      exact (ih hearlier).idle hinvariant rfl rfl rfl rfl
  | @move history lane next exchanges hrun hmoves ih =>
      obtain ⟨hnow, hearlier⟩ := List.forall_mem_cons.mp hsound
      have hkept := ih hearlier
      cases hmoves.step with
      | idle hbefore hafter htable =>
          exact hkept.idle hinvariant (onTable_idle hbefore hafter) (attempted?_idle hbefore)
            htable (hafter.trans hbefore.symm)
      | checkedOut hstage hcheck hnext => exact hkept.checkOut hinvariant hstage hcheck hnext
      | attempted hstage hattempt hlogs hnext htable =>
          exact hkept.attempt hinvariant hstage hattempt hlogs hnext htable
            fun exchange hexchange => hnow exchange (List.mem_append_left _ hexchange)
      | @gaveUp _ _ _ operation _ hstage hpanics =>
          -- what is known of the record rules the panic out
          have hheld : lane.stage.held? = some (operation.record .unfinished) := by
            rw [hstage]
            rfl
          have hfact := hkept.facts _ (held_mem_records hheld)
          exact absurd (hinvariant.safe history operation hfact) hpanics
      | settled hstage hsettle hnext => exact hkept.settle hinvariant hstage hsettle hnext
      | misplaced hstage hsettle hnext =>
          obtain ⟨completions, kept, hresult, -⟩ := hkept.settles hstage hsettle
          cases hresult

end Proactor.Lane
