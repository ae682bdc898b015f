import Proactor.Proofs.Lane

/-!
# Records of all operations

Wherever an operation of a lane has got to, the history shows its buffer and the
number of bytes moved: in its slot, in the hands of the loop, among those that
were given up, or in its completion. The records of a run are those of the
accepted operations, each of them once.
-/

namespace Proactor

/-- The operation in a slot, whether it waits for readiness or is parked. -/
def Slot.stored? {σ : Type} : Slot σ → Option (Operation σ)
  | .pending operation => some operation
  | .inFlight successor => successor

namespace Outstanding

variable {σ : Type} {table : Outstanding σ} {pick : Slot σ → Option (Operation σ)} {fd : Fd}
  {operation : Operation σ}

/-- What is picked from a slot is among what is picked from the table. -/
theorem mem_picked_of_slot (h : (table.slots.get? fd).bind pick = some operation) :
    operation ∈ table.picked pick := by
  rw [(table.picked_perm pick fd).mem_iff, List.mem_append, h]
  exact .inl (List.mem_singleton_self operation)

/-- What is picked from the other slots is among what is picked from the table. -/
theorem mem_picked_of_erase (h : operation ∈ (table.erase fd).picked pick) :
    operation ∈ table.picked pick := by
  rw [(table.picked_perm pick fd).mem_iff, List.mem_append]
  exact .inr h

/-- What is in the slots after one has been changed is in that slot or was there before. -/
theorem mem_picked_put {slot : Slot σ} (h : operation ∈ (table.put fd slot).picked pick) :
    pick slot = some operation ∨ operation ∈ table.picked pick := by
  rw [picked_put, List.mem_append, Option.mem_toList] at h
  exact h.imp_right mem_picked_of_erase

/-- The operations in the slots of a table wait or are parked. -/
theorem picked_stored_perm (table : Outstanding σ) :
    (table.picked Slot.stored?).Perm (table.waiting ++ table.parked) := by
  unfold waiting parked picked
  induction table.slots.values with
  | nil => exact .nil
  | cons slot slots ih =>
      cases slot with
      | pending operation => exact ih.cons operation
      | inFlight successor =>
          cases successor with
          | none => exact ih
          | some operation =>
              simp only [List.filterMap_cons, Slot.stored?, Slot.waiting?, Slot.parked?]
              exact (ih.cons operation).trans List.perm_middle.symm

/-- A submission takes the slot of its descriptor over from what it displaces. -/
theorem Admission.takes_over {found : Option (Slot σ)} {displaced : Option (Operation σ)}
    {slot : Slot σ} (h : Admission operation found displaced slot) :
    slot.stored? = some operation ∧ found.bind Slot.stored? = displaced := by
  cases h <;> exact ⟨rfl, rfl⟩

/-- What waits after a settlement has come back unfinished or was parked behind what came back. -/
theorem Aftermath.kept_cases {direction : Direction} {attempt : Attempt}
    {successor kept : Option (Operation σ)} {completions : List (Resolved σ)}
    {waiting : Operation σ}
    (h : Aftermath direction operation attempt successor completions kept)
    (hkept : kept = some waiting) :
    (attempt = .retry ∧ waiting = operation) ∨ successor = some waiting := by
  cases h with
  | finished | succeeded_lost | dropped_lost | continued_lost => cases hkept
  | succeeded | dropped =>
      cases hkept
      exact .inr rfl
  | continued =>
      cases hkept
      exact .inl ⟨rfl, rfl⟩

/-- What resolves in a settlement has come back, finished or not, or was parked behind it. -/
theorem Aftermath.resolved_cases {direction : Direction} {attempt : Attempt}
    {successor kept : Option (Operation σ)} {completions : List (Resolved σ)}
    {resolved : Resolved σ}
    (h : Aftermath direction operation attempt successor completions kept)
    (hresolved : resolved ∈ completions) :
    (∃ fault, attempt = .finished fault ∧ resolved = operation.resolve direction fault) ∨
      (∃ fault, attempt = .retry ∧ resolved = operation.resolve direction (some fault)) ∨
      ∃ next fault, successor = some next ∧ resolved = next.resolve direction (some fault) := by
  cases h with
  | dropped | continued => cases hresolved
  | finished fault | succeeded fault =>
      obtain rfl := List.mem_singleton.mp hresolved
      exact .inl ⟨fault, rfl, rfl⟩
  | succeeded_lost fault next lost =>
      rcases List.mem_cons.mp hresolved with rfl | hlast
      · exact .inl ⟨fault, rfl, rfl⟩
      · obtain rfl := List.mem_singleton.mp hlast
        exact .inr (.inr ⟨next, lost, rfl, rfl⟩)
  | dropped_lost next lost =>
      obtain rfl := List.mem_singleton.mp hresolved
      exact .inr (.inr ⟨next, lost, rfl, rfl⟩)
  | continued_lost lost =>
      obtain rfl := List.mem_singleton.mp hresolved
      exact .inr (.inl ⟨lost, rfl, rfl⟩)

/-- What has come back finished resolves first. -/
theorem Aftermath.finished_resolved {direction : Direction} {fault : Option Fault}
    {successor kept : Option (Operation σ)} {completions : List (Resolved σ)}
    (h : Aftermath direction operation (.finished fault) successor completions kept) :
    ∃ others, completions = operation.resolve direction fault :: others := by
  cases h <;> exact ⟨_, rfl⟩

/-- What is parked on a descriptor is in its slot. -/
theorem stored_of_parkedOn (h : table.parkedOn fd = some operation) :
    (table.slots.get? fd).bind Slot.stored? = some operation := by
  rw [parkedOn_eq_some.mp h]
  rfl

/-- What is in the slots after a checked-in operation is kept is that one or was there before. -/
theorem Retention.stored {source : Source} {exchanges : List (Exchange σ)}
    {resolved : List (Resolved σ)} {left : Outstanding σ} {kept : Operation σ}
    (h : table.Retention fd kept source exchanges (resolved, left))
    (hstored : operation ∈ left.picked Slot.stored?) :
    operation = kept ∨ operation ∈ table.picked Slot.stored? := by
  cases h with
  | lost => exact .inr hstored
  | kept =>
      rcases mem_picked_put hstored with heq | hbefore
      · exact .inl (Option.some.inj heq).symm
      · exact .inr hbefore

/-- A settlement puts nothing into the slots but the operation that comes back. -/
theorem Settlement.stored {source : Source} {settled : Operation σ} {attempt : Attempt}
    {exchanges : List (Exchange σ)} {result : Except Panic (List (Resolved σ))}
    {left : Outstanding σ}
    (h : table.Settlement settled source attempt exchanges (result, left))
    (hstored : operation ∈ left.picked Slot.stored?) :
    operation = settled ∨ operation ∈ table.picked Slot.stored? := by
  have hcleared : ∀ successor cleared, table.checkIn settled.fd = (.ok successor, cleared) →
      (∀ next, successor = some next → next ∈ table.picked Slot.stored?) ∧
        ∀ other, other ∈ cleared.picked Slot.stored? → other ∈ table.picked Slot.stored? := by
    intro successor cleared hcheck
    rcases checkIn_ok hcheck with ⟨hslot, rfl⟩ | ⟨rfl, rfl⟩
    · refine ⟨?_, fun other hother => mem_picked_of_erase hother⟩
      rintro next rfl
      exact mem_picked_of_slot (stored_of_parkedOn (parkedOn_eq_some.mpr hslot))
    · refine ⟨fun next hnext => ?_, fun other hother => hother⟩
      cases hnext
  cases h with
  | misplaced => exact .inr (mem_picked_of_erase hstored)
  | finished hcheck => exact .inr ((hcleared _ _ hcheck).2 _ hstored)
  | succeeded hcheck hkeep | dropped hcheck hkeep =>
      obtain ⟨hnext, hothers⟩ := hcleared _ _ hcheck
      rcases hkeep.stored hstored with rfl | hother
      · exact .inr (hnext _ rfl)
      · exact .inr (hothers _ hother)
  | continued hcheck hkeep =>
      exact (hkeep.stored hstored).imp_right ((hcleared _ _ hcheck).2 _)

/-- What is in the slots after a settlement was kept there or was there before. -/
theorem mem_picked_keep {kept : Option (Operation σ)}
    (h : operation ∈ ((table.erase fd).keep fd kept).picked Slot.stored?) :
    kept = some operation ∨ operation ∈ table.picked Slot.stored? := by
  cases kept with
  | none => exact .inr (mem_picked_of_erase h)
  | some waiting =>
      rcases mem_picked_put h with heq | hbefore
      · exact .inl heq
      · exact .inr (mem_picked_of_erase hbefore)

end Outstanding

/-- What may become of a record when its operation is settled after an attempt. -/
inductive Settled {σ : Type} (record : Record σ) : Attempt → Record σ → Prop where
  | again : Settled record .retry (record.become .unfinished)
  | lost (fault : Fault) : Settled record .retry (record.become (.resolved (some fault)))
  | ended (fault : Option Fault) :
      Settled record (.finished fault) (record.become (.resolved fault))

/-- A settlement changes nothing but the progress, and leaves a success a success. -/
theorem Settled.become {σ : Type} {record after : Record σ} {attempt : Attempt}
    (h : Settled record attempt after) (hprogress : record.progress = .attempted attempt) :
    ∃ progress, after = record.become progress ∧
      progress.succeeded = record.progress.succeeded := by
  rw [hprogress]
  cases h with
  | again | lost => exact ⟨_, rfl, rfl⟩
  | ended fault => exact ⟨_, rfl, by cases fault <;> rfl⟩

namespace Lending

variable {σ : Type}

/-- The operations of a table and its history that are neither on loan nor resolved. -/
def unfinished (history : List (Event σ)) (table : Outstanding σ) : List (Operation σ) :=
  table.picked Slot.stored? ++ history.flatMap Event.displaced ++ history.flatMap Event.dropped

/-- The records of all operations that are not on loan. -/
def aside (history : List (Event σ)) (table : Outstanding σ) : List (Record σ) :=
  (unfinished history table).map (Operation.record · .unfinished) ++
    (history.flatMap Event.resolved).map Resolved.record

section Aside

variable {history : List (Event σ)} {table : Outstanding σ} {operation : Operation σ}
  {record : Record σ}

/-- The operations that are not on loan are those in slots, those displaced, those dropped and those
resolved. -/
theorem map_ticket_aside :
    (aside history table).map Record.ticket =
      tickets (table.picked Slot.stored?) ++ displaced history ++ dropped history ++
        resolved history := by
  simp only [aside, unfinished, List.map_append, List.map_map]
  rfl

/-- A record that is aside is that of an unfinished operation or that of a resolved one. -/
theorem mem_aside :
    record ∈ aside history table ↔
      (∃ operation ∈ unfinished history table, operation.record .unfinished = record) ∨
        ∃ resolved ∈ history.flatMap Event.resolved, resolved.record = record := by
  rw [aside, List.mem_append, List.mem_map, List.mem_map]

/-- An unfinished operation is in a slot, or it has been displaced or dropped. -/
theorem mem_unfinished :
    operation ∈ unfinished history table ↔
      operation ∈ table.picked Slot.stored? ∨ operation ∈ history.flatMap Event.displaced ∨
        operation ∈ history.flatMap Event.dropped := by
  rw [unfinished, List.mem_append, List.mem_append, or_assoc]

/-- Only an operation that comes back unfinished is dropped. -/
theorem dropped_eq {other : Operation σ} {attempt : Attempt} {successor : Option (Operation σ)}
    {exchanges : List (Exchange σ)} {result : Except Panic (List (Resolved σ))}
    (h : other ∈ (Event.settled operation attempt successor exchanges result).dropped) :
    attempt = .retry ∧ other = operation := by
  cases attempt with
  | finished => cases h
  | retry =>
      cases successor with
      | none => cases h
      | some next => exact ⟨rfl, List.mem_singleton.mp h⟩

/-- What is in a slot is aside. -/
theorem aside_of_slot {fd : Fd}
    (h : (table.slots.get? fd).bind Slot.stored? = some operation) :
    operation.record .unfinished ∈ aside history table :=
  mem_aside.mpr (.inl ⟨operation, mem_unfinished.mpr (.inl (Outstanding.mem_picked_of_slot h)),
    rfl⟩)

/-- What a submission leaves aside was there before or is what was submitted. -/
theorem mem_aside_submit {policy : OverlapPolicy} {exchanges : List (Exchange σ)}
    {displaced : Option (Operation σ)} {slot : Slot σ}
    (hadmission : Outstanding.Admission operation (table.slots.get? operation.fd) displaced slot)
    (h : record ∈ aside (.submitted operation policy exchanges (.ok displaced) :: history)
      (table.put operation.fd slot)) :
    record = operation.record .unfinished ∨ record ∈ aside history table := by
  obtain ⟨hslot, hdisplaced⟩ := hadmission.takes_over
  rcases mem_aside.mp h with ⟨other, hother, rfl⟩ | ⟨resolved, hresolved, rfl⟩
  · rcases mem_unfinished.mp hother with hstored | hmem | hdropped
    · rcases Outstanding.mem_picked_put hstored with heq | hbefore
      · rw [hslot] at heq
        cases heq
        exact .inl rfl
      · exact .inr (mem_aside.mpr (.inl ⟨other, mem_unfinished.mpr (.inl hbefore), rfl⟩))
    · rcases List.mem_append.mp hmem with hnew | hbefore
      · rw [← hdisplaced] at hnew
        exact .inr (aside_of_slot (Option.mem_toList.mp hnew))
      · exact .inr (mem_aside.mpr (.inl ⟨other, mem_unfinished.mpr (.inr (.inl hbefore)), rfl⟩))
    · exact .inr (mem_aside.mpr (.inl ⟨other, mem_unfinished.mpr (.inr (.inr hdropped)), rfl⟩))
  · exact .inr (mem_aside.mpr (.inr ⟨resolved, hresolved, rfl⟩))

/-- Checking an operation out puts nothing aside. -/
theorem mem_aside_checkOut {fd : Fd} {checked : Option (Operation σ)}
    (h : record ∈ aside (.checkedOut fd checked :: history) (table.put fd (.inFlight none))) :
    record ∈ aside history table := by
  rcases mem_aside.mp h with ⟨other, hother, rfl⟩ | ⟨resolved, hresolved, rfl⟩
  · rcases mem_unfinished.mp hother with hstored | hbefore
    · rcases Outstanding.mem_picked_put hstored with hnone | hbefore
      · cases hnone
      · exact mem_aside.mpr (.inl ⟨other, mem_unfinished.mpr (.inl hbefore), rfl⟩)
    · exact mem_aside.mpr (.inl ⟨other, mem_unfinished.mpr (.inr hbefore), rfl⟩)
  · exact mem_aside.mpr (.inr ⟨resolved, hresolved, rfl⟩)

/-- What a settlement leaves aside was there before, belongs to the operation that came back, or
belonged to the one behind it, which is lost. -/
theorem mem_aside_settle {direction : Direction} {attempt : Attempt}
    {kept : Option (Operation σ)} {completions : List (Resolved σ)}
    {exchanges : List (Exchange σ)}
    (haftermath : Outstanding.Aftermath direction operation attempt
      (table.parkedOn operation.fd) completions kept)
    (h : record ∈ aside
      (.settled operation attempt (table.parkedOn operation.fd) exchanges (.ok completions) ::
        history)
      ((table.erase operation.fd).keep operation.fd kept)) :
    record ∈ aside history table ∨
      Settled (operation.record (.attempted attempt)) attempt record ∨
      ∃ earlier ∈ aside history table, ∃ fault, earlier.progress = .unfinished ∧
        record = earlier.become (.resolved (some fault)) := by
  have hbehind : ∀ next, table.parkedOn operation.fd = some next →
      next.record .unfinished ∈ aside history table :=
    fun next hnext => aside_of_slot (Outstanding.stored_of_parkedOn hnext)
  -- from here on only `hbehind` matters of what was parked
  generalize table.parkedOn operation.fd = successor at haftermath h hbehind
  have hbefore : ∀ other, other ∈ unfinished history table →
      other.record .unfinished ∈ aside history table :=
    fun other hother => mem_aside.mpr (.inl ⟨other, hother, rfl⟩)
  rcases mem_aside.mp h with ⟨other, hother, rfl⟩ | ⟨resolved, hresolved, rfl⟩
  · rcases mem_unfinished.mp hother with hstored | hdisplaced | hdropped
    · rcases Outstanding.mem_picked_keep hstored with hkept | hstored
      · rcases haftermath.kept_cases hkept with ⟨rfl, rfl⟩ | hnext
        · exact .inr (.inl .again)
        · exact .inl (hbehind other hnext)
      · exact .inl (hbefore other (mem_unfinished.mpr (.inl hstored)))
    · exact .inl (hbefore other (mem_unfinished.mpr (.inr (.inl hdisplaced))))
    · rcases List.mem_append.mp hdropped with hnow | hdropped
      · obtain ⟨rfl, rfl⟩ := dropped_eq hnow
        exact .inr (.inl .again)
      · exact .inl (hbefore other (mem_unfinished.mpr (.inr (.inr hdropped))))
  · rcases List.mem_append.mp hresolved with hnow | hearlier
    · rcases haftermath.resolved_cases hnow with ⟨fault, rfl, rfl⟩ | ⟨fault, rfl, rfl⟩ |
        ⟨next, fault, hnext, rfl⟩
      · exact .inr (.inl (.ended fault))
      · exact .inr (.inl (.lost fault))
      · exact .inr (.inr ⟨_, hbehind next hnext, fault, rfl, rfl⟩)
    · exact .inl (mem_aside.mpr (.inr ⟨resolved, hearlier, rfl⟩))

end Aside

end Lending

namespace Lane

variable {σ : Type}

/-- The records of all operations of a lane. -/
def records (history : List (Event σ)) (lane : Lane σ) : List (Record σ) :=
  lane.stage.held?.toList ++ Lending.aside (tableHistory history) lane.side.table

/-- The operation in the hands of the loop has a record. -/
theorem held_mem_records {history : List (Event σ)} {lane : Lane σ} {record : Record σ}
    (hheld : lane.stage.held? = some record) : record ∈ records history lane := by
  rw [records, hheld]
  exact List.mem_append_left _ (List.mem_singleton_self _)

/-- What is not in the hands of the loop has a record, too. -/
theorem aside_mem_records {history : List (Event σ)} {lane : Lane σ} {record : Record σ}
    (haside : record ∈ Lending.aside (tableHistory history) lane.side.table) :
    record ∈ records history lane :=
  List.mem_append_right _ haside

/-- Only what the loop has in its hands is about to be settled. -/
theorem settling_of_attempted {history : List (Event σ)} {lane : Lane σ} {record : Record σ}
    {attempt : Attempt} (hrecord : record ∈ records history lane)
    (hprogress : record.progress = .attempted attempt) :
    ∃ operation batch, lane.stage = .settling operation attempt batch ∧
      record = operation.record (.attempted attempt) := by
  rcases List.mem_append.mp hrecord with hheld | haside
  · have hstage := Option.mem_toList.mp hheld
    cases hlane : lane.stage with
    | settling operation made batch =>
        rw [hlane] at hstage
        cases hstage
        cases hprogress
        exact ⟨operation, batch, rfl, rfl⟩
    | attempting operation batch =>
        rw [hlane] at hstage
        cases hstage
        cases hprogress
    | _ =>
        rw [hlane] at hstage
        cases hstage
  · rcases Lending.mem_aside.mp haside with ⟨operation, -, rfl⟩ | ⟨resolved, -, rfl⟩
    · cases hprogress
    · cases hprogress

/-- The table of a lane is in use as a table in its own right, and what is on loan from it is in
the hands of the loop. -/
structure Mirrors (setup : EventLoop.Setup) (history : List (Event (Numbered σ)))
    (lane : Lane (Numbered σ)) (lending : Lending (Numbered σ)) : Prop where
  run : Lending.Run (fun _ => True) setup.direction (tableHistory history) lending
  table_eq : lending.table = lane.side.table
  onLoan : Lending.tickets lending.onLoan = lane.stage.held?.toList.map Record.ticket

/-- The number of the submission that a record belongs to. -/
def number (record : Record (Numbered σ)) : Nat :=
  record.ticket.number

section Mirrors

variable {setup : EventLoop.Setup} {history : List (Event (Numbered σ))}
  {lane : Lane (Numbered σ)} {lending : Lending (Numbered σ)}

/-- The records are those of the accepted operations. -/
theorem Mirrors.records_perm (h : Mirrors setup history lane lending) :
    ((records history lane).map Record.ticket).Perm
      (Lending.accepted (tableHistory history)) := by
  -- the operation in hand is on loan, and those in slots wait or are parked
  refine List.Perm.trans ?_ h.run.whereabouts_perm
  have hstored := lane.side.table.picked_stored_perm.map Operation.ticket
  classical
  rw [List.perm_iff_count] at hstored ⊢
  intro ticket
  have hcount := hstored ticket
  rw [records, List.map_append, Lending.map_ticket_aside, ← h.onLoan, ← h.table_eq]
  rw [← h.table_eq] at hcount
  simp only [Lending.whereabouts, Lending.outstanding, Lending.tickets, List.map_append,
    List.count_append] at hcount ⊢
  omega

/-- No two records have the same number. -/
theorem Mirrors.nodup_records (h : Mirrors setup history lane lending) :
    ((records history lane).map number).Nodup := by
  have hperm := h.records_perm.map Ticket.number
  rw [List.map_map] at hperm
  have hsublist := (Lending.accepted_sublist_offered (tableHistory history)).map Ticket.number
  exact hperm.symm.nodup (h.run.nodup_offered.sublist hsublist)

/-- What the loop has in its hands does not have the number of a record that is aside. -/
theorem Mirrors.number_ne (h : Mirrors setup history lane lending)
    {record other : Record (Numbered σ)} (hheld : lane.stage.held? = some record)
    (haside : other ∈ Lending.aside (tableHistory history) lane.side.table) :
    number record ≠ number other := by
  intro heq
  have hnodup := h.nodup_records
  rw [records, hheld, List.map_append] at hnodup
  refine (List.nodup_cons.mp hnodup).1 ?_
  rw [heq]
  exact List.mem_map_of_mem haside

/-- All records have numbers that have been given out. -/
theorem Mirrors.number_lt (h : Mirrors setup history lane lending) {record : Record (Numbered σ)}
    (hrecord : record ∈ records history lane) : number record < submissions history := by
  have haccepted := h.records_perm.subset (List.mem_map_of_mem (f := Record.ticket) hrecord)
  have hoffered := (Lending.accepted_sublist_offered _).subset haccepted
  have hnumber := List.mem_map_of_mem (f := Ticket.number) hoffered
  rw [h.run.number_offered, List.mem_reverse, List.mem_range] at hnumber
  exact hnumber

/-- What the loop has in its hands is the one operation on loan. -/
theorem Mirrors.loan (h : Mirrors setup history lane lending) {record : Record (Numbered σ)}
    (hheld : lane.stage.held? = some record) :
    ∃ loan, lending.onLoan = [] ++ loan :: [] ∧ record.ticket = loan.ticket := by
  have honLoan := h.onLoan
  rw [hheld] at honLoan
  obtain ⟨loan, hloan, hticket⟩ := List.map_eq_singleton_iff.mp honLoan
  exact ⟨loan, hloan, hticket.symm⟩

/-- A slot is in flight exactly when the loop has the operation of its descriptor in its hands. -/
theorem Mirrors.inFlight_iff (h : Mirrors setup history lane lending) (fd : Fd) :
    (∃ successor, lane.side.table.slots.get? fd = some (.inFlight successor)) ↔
      ∃ record, lane.stage.held? = some record ∧ record.ticket.fd = fd := by
  have hloans : lending.onLoan.map Operation.fd =
      lane.stage.held?.toList.map fun record => record.ticket.fd := by
    have htickets := congrArg (List.map Ticket.fd) h.onLoan
    rw [Lending.tickets, List.map_map, List.map_map] at htickets
    exact htickets
  rw [← h.table_eq, h.run.orderly.inFlight_iff, hloans, List.mem_map]
  simp only [Option.mem_toList]

end Mirrors

/-! ## Events of a lane as calls on its table -/

/-- A move that finds and leaves the loop with empty hands does not touch the table. -/
theorem onTable_idle {lane next : Lane σ} {exchanges : List (Exchange σ)}
    (hbefore : lane.stage.held? = none) (hafter : next.stage.held? = none) :
    (Event.moved lane exchanges next).onTable = [] := by
  dsimp only [Event.onTable]
  split
  · rename_i hattempting
    rw [hattempting] at hafter
    cases hafter
  · rename_i hsettling _
    rw [hsettling] at hbefore
    cases hbefore
  · rfl

/-- The table of a lane is in use as a table in its own right. What is on loan from it is in the
hands of the loop as long as the loop goes on. -/
structure InUse (setup : EventLoop.Setup) (history : List (Event (Numbered σ)))
    (lane : Lane (Numbered σ)) (lending : Lending (Numbered σ)) : Prop where
  run : Lending.Run (fun _ => True) setup.direction (tableHistory history) lending
  table_eq : lending.table = lane.side.table
  onLoan : lane.stage.isEnded = false →
    Lending.tickets lending.onLoan = lane.stage.held?.toList.map Record.ticket

section Events

variable {setup : EventLoop.Setup} {history : List (Event (Numbered σ))}
  {lane next : Lane (Numbered σ)} {lending : Lending (Numbered σ)}
  {exchanges : List (Exchange (Numbered σ))}

/-- As long as the loop goes on, all that is on loan from the table is in its hands. -/
theorem InUse.mirrors (h : InUse setup history lane lending)
    (hlive : lane.stage.isEnded = false) : Mirrors setup history lane lending :=
  ⟨h.run, h.table_eq, h.onLoan hlive⟩

/-- A lane whose loan is in the hands of its loop has its table in use. -/
theorem Mirrors.inUse (h : Mirrors setup history lane lending) :
    InUse setup history lane lending :=
  ⟨h.run, h.table_eq, fun _ => h.onLoan⟩

/-- A submission is one on the table. -/
theorem InUse.submit (h : InUse setup history lane lending) {fd : Fd} {buffer : Bytes}
    {sink : Sink σ} {policy : OverlapPolicy}
    {result : Except ReactorError (Option (Operation (Numbered σ)))} {side : Side (Numbered σ)}
    (hsubmit : (lane.side.submit
      ((Operation.submitted fd buffer sink).numbered (submissions history)) policy).Returns
        exchanges (result, side)) :
    InUse setup
      (.submitted ((Operation.submitted fd buffer sink).numbered (submissions history)) policy
        exchanges result :: history)
      { lane with side } { lending with table := side.table } := by
  obtain ⟨⟨answer, table⟩, calls, none, rfl, htable, hside⟩ := Program.returns_bind.mp hsubmit
  obtain ⟨rfl, hanswer⟩ := Program.returns_pure.mp hside
  cases hanswer
  rw [List.append_nil]
  rw [← h.table_eq] at htable
  exact ⟨h.run.submit (Operation.submitted fd buffer sink) policy lane.side.source trivial htable,
    rfl, h.onLoan⟩

/-- A submission is one to the table, and the loop keeps what it has in its hands. -/
theorem Mirrors.submit (h : Mirrors setup history lane lending) {fd : Fd} {buffer : Bytes}
    {sink : Sink σ} {policy : OverlapPolicy}
    {result : Except ReactorError (Option (Operation (Numbered σ)))} {side : Side (Numbered σ)}
    (hsubmit : (lane.side.submit
      ((Operation.submitted fd buffer sink).numbered (submissions history)) policy).Returns
        exchanges (result, side)) :
    Mirrors setup
      (.submitted ((Operation.submitted fd buffer sink).numbered (submissions history)) policy
        exchanges result :: history)
      { lane with side } { lending with table := side.table } :=
  ⟨(h.inUse.submit hsubmit).run, rfl, h.onLoan⟩

/-- An event without a call on the table. -/
theorem InUse.idle (h : InUse setup history lane lending) {event : Event (Numbered σ)}
    (htable : event.onTable = []) (hside : next.side.table = lane.side.table)
    (honLoan : next.stage.isEnded = false →
      lane.stage.isEnded = false ∧ next.stage.held? = lane.stage.held?) :
    InUse setup (event :: history) next lending := by
  constructor
  case run =>
    rw [tableHistory, List.flatMap_cons, htable]
    exact h.run
  case table_eq => rw [hside, h.table_eq]
  case onLoan =>
    intro hlive
    obtain ⟨hbefore, hheld⟩ := honLoan hlive
    rw [hheld, h.onLoan hbefore]

/-- The table of a lane stays in use as it was when an event leaves it and the hands of the loop
alone. -/
theorem Mirrors.idle (h : Mirrors setup history lane lending) {event : Event (Numbered σ)}
    (htable : event.onTable = []) (hside : next.side.table = lane.side.table)
    (hheld : next.stage.held? = lane.stage.held?) :
    Mirrors setup (event :: history) next lending := by
  constructor
  case run =>
    rw [tableHistory, List.flatMap_cons, htable]
    exact h.run
  case table_eq => rw [hside, h.table_eq]
  case onLoan => rw [hheld, h.onLoan]

/-- The readiness of a descriptor has its operation checked out of the table. -/
theorem Mirrors.checkOut (h : Mirrors setup history lane lending) {event : Proactor.Event}
    {batch : List Proactor.Event} {operation : Operation (Numbered σ)}
    (hstage : lane.stage = .handling (event :: batch))
    (hcheck : lane.side.table.checkOut event.fd = some (operation, next.side.table))
    (hnext : next.stage = .attempting operation batch) :
    Mirrors setup (.moved lane exchanges next :: history) next
      ⟨next.side.table, operation :: lending.onLoan⟩ := by
  have hevent : (Event.moved lane exchanges next).onTable =
      [.checkedOut event.fd (some operation)] := by
    simp only [Event.onTable, hstage, hnext]
  have hnone : Lending.tickets lending.onLoan = [] := by
    rw [h.onLoan, hstage]
    rfl
  rw [← h.table_eq] at hcheck
  constructor
  case run =>
    rw [tableHistory, List.flatMap_cons, hevent]
    exact h.run.checkOut event.fd hcheck
  case table_eq => rfl
  case onLoan =>
    rw [Lending.tickets_cons, hnone, hnext]
    rfl

/-- An attempt is no call on the table. -/
theorem Mirrors.attempt (h : Mirrors setup history lane lending) {batch : List Proactor.Event}
    {operation changed : Operation (Numbered σ)} {attempt : Attempt}
    {calls : List (Exchange (Numbered σ))} (hstage : lane.stage = .attempting operation batch)
    (hattempt : (Transfer.attempt setup.direction operation).Returns calls (changed, attempt))
    (hnext : next.stage = .settling changed attempt batch)
    (htable : next.side.table = lane.side.table) :
    Mirrors setup (.moved lane exchanges next :: history) next lending := by
  have hevent : (Event.moved lane exchanges next).onTable = [] := by
    simp only [Event.onTable, hstage]
  constructor
  case run =>
    rw [tableHistory, List.flatMap_cons, hevent]
    exact h.run
  case table_eq => rw [htable, h.table_eq]
  case onLoan =>
    rw [h.onLoan, hstage, hnext]
    exact congrArg (fun ticket => [ticket]) (Transfer.attempt_ticket hattempt).symm

/-- An operation in the hands of the loop can be settled. -/
theorem Mirrors.aftermath (h : Mirrors setup history lane lending)
    {operation : Operation (Numbered σ)} {attempt : Attempt} {batch : List Proactor.Event}
    {result : Except Panic (List (Resolved (Numbered σ)))} {left : Outstanding (Numbered σ)}
    (hstage : lane.stage = .settling operation attempt batch)
    (hsettle : (lane.side.table.settle operation attempt lane.side.source).Returns exchanges
      (result, left)) :
    ∃ completions kept, result = .ok completions ∧
      Outstanding.Aftermath setup.direction operation attempt
        (lane.side.table.parkedOn operation.fd) completions kept ∧
      left = (lane.side.table.erase operation.fd).keep operation.fd kept := by
  have hheld : lane.stage.held? = some (operation.record (.attempted attempt)) := by
    rw [hstage]
    rfl
  obtain ⟨loan, hloan, hticket⟩ := h.loan hheld
  rw [← h.table_eq] at hsettle ⊢
  obtain ⟨completions, kept, hresult, haftermath, hleft⟩ :=
    h.run.orderly.aftermath hloan hticket hsettle
  rw [h.run.direction_eq] at haftermath
  exact ⟨completions, kept, hresult, haftermath, hleft⟩

/-- The loop goes on to announce what has resolved after every settlement. -/
theorem Mirrors.announces (h : Mirrors setup history lane lending)
    {operation : Operation (Numbered σ)} {attempt : Attempt} {batch : List Proactor.Event}
    (hstage : lane.stage = .settling operation attempt batch)
    (hmoves : Moves setup lane exchanges next) :
    ∃ completions kept, next.stage = .announcing completions batch ∧
      Outstanding.Aftermath setup.direction operation attempt
        (lane.side.table.parkedOn operation.fd) completions kept := by
  cases hmoves.step with
  | idle hbefore =>
      rw [hstage] at hbefore
      cases hbefore
  | checkedOut hother | attempted hother | gaveUp hother => cases hstage.symm.trans hother
  | misplaced hother hsettle =>
      cases hstage.symm.trans hother
      obtain ⟨completions, kept, hresult, -⟩ := h.aftermath hstage hsettle
      cases hresult
  | settled hother hsettle hnext =>
      cases hstage.symm.trans hother
      obtain ⟨completions, kept, hresult, haftermath, -⟩ := h.aftermath hstage hsettle
      cases hresult
      exact ⟨_, kept, hnext, haftermath⟩

/-- A settlement is one on the table, and the loop has empty hands afterwards. -/
theorem Mirrors.settle (h : Mirrors setup history lane lending)
    {operation : Operation (Numbered σ)} {attempt : Attempt} {batch : List Proactor.Event}
    {resolved : List (Resolved (Numbered σ))}
    (hstage : lane.stage = .settling operation attempt batch)
    (hsettle : (lane.side.table.settle operation attempt lane.side.source).Returns exchanges
      (.ok resolved, next.side.table))
    (hnext : next.stage = .announcing resolved batch) :
    Mirrors setup (.moved lane exchanges next :: history) next ⟨next.side.table, []⟩ := by
  have hevent : (Event.moved lane exchanges next).onTable =
      [.settled operation attempt (lane.side.table.parkedOn operation.fd) exchanges
        (.ok resolved)] := by
    simp only [Event.onTable, hstage, hnext]
  have hheld : lane.stage.held? = some (operation.record (.attempted attempt)) := by
    rw [hstage]
    rfl
  obtain ⟨loan, hloan, hticket⟩ := h.loan hheld
  rw [← h.table_eq] at hsettle
  have hrun := h.run.settle operation attempt lane.side.source trivial hloan hticket hsettle
  rw [h.table_eq] at hrun
  constructor
  case run =>
    rw [tableHistory, List.flatMap_cons, hevent]
    exact hrun
  case table_eq => rfl
  case onLoan =>
    rw [hnext]
    rfl

end Events

end Lane

end Proactor
