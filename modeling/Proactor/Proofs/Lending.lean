import Proactor.Proofs.Outstanding

/-!
# Tables in use

A table lends operations to those who attempt their transfers, and they return
each of them once. A history lists the calls on a table with the exchanges and
the result of each, the last call first. `Run` says which histories are
possible: the calls come in any order, the answers to their requests are
arbitrary, and an operation that comes back may have changed in everything but
its descriptor and its sink.

An operation owns its sink, so its sink tells it apart from all others. In a run
every submission is numbered through the target of its sink. Programs pass
targets on without looking at them, so the numbers change nothing.
-/

namespace Proactor

/-! ## Tickets -/

/-- A sink's target together with the number of the submission that it was given with. -/
abbrev Numbered (σ : Type) := Nat × σ

/-- What an operation keeps from its submission to its end. -/
structure Ticket (σ : Type) where
  fd : Fd
  sink : Sink σ

/-- The number of the submission that a ticket belongs to. -/
def Ticket.number {σ : Type} (ticket : Ticket (Numbered σ)) : Nat :=
  ticket.sink.target.1

namespace Operation

variable {σ : Type}

/-- The ticket of an operation. -/
def ticket (operation : Operation σ) : Ticket σ :=
  ⟨operation.fd, operation.sink⟩

/-- The operation with its submission numbered. -/
def numbered (operation : Operation σ) (number : Nat) : Operation (Numbered σ) :=
  { operation with sink := ⟨(number, operation.sink.target), operation.sink.waitsForRoom⟩ }

end Operation

/-- The ticket of the operation that a completion and its sink belong to. -/
def Resolved.ticket {σ : Type} (resolved : Resolved σ) : Ticket σ :=
  ⟨resolved.completion.fd, resolved.sink⟩

/-- An operation keeps its ticket when it resolves. -/
@[simp]
theorem Operation.ticket_resolve {σ : Type} (operation : Operation σ) (direction : Direction)
    (fault : Option Fault) : (operation.resolve direction fault).ticket = operation.ticket :=
  rfl

/-! ## What a table holds -/

namespace Slot

variable {σ : Type}

/-- The operation that waits for readiness in a slot. -/
def waiting? : Slot σ → Option (Operation σ)
  | .pending operation => some operation
  | .inFlight _ => none

/-- The operation that is parked in a slot. -/
def parked? : Slot σ → Option (Operation σ)
  | .pending _ => none
  | .inFlight successor => successor

end Slot

namespace Outstanding

variable {σ : Type}

/-- The operations that are picked from the slots of a table. -/
def picked (table : Outstanding σ) (pick : Slot σ → Option (Operation σ)) :
    List (Operation σ) :=
  table.slots.values.filterMap pick

/-- The operations that wait for readiness. -/
def waiting (table : Outstanding σ) : List (Operation σ) :=
  table.picked Slot.waiting?

/-- The operations that are parked behind a transfer. -/
def parked (table : Outstanding σ) : List (Operation σ) :=
  table.picked Slot.parked?

/-- The operation that is parked on a descriptor. -/
def parkedOn (table : Outstanding σ) (fd : Fd) : Option (Operation σ) :=
  (table.slots.get? fd).bind Slot.parked?

/-- An operation is parked on a descriptor if and only if the slot there is checked out with that
operation behind it. -/
theorem parkedOn_eq_some {table : Outstanding σ} {fd : Fd} {operation : Operation σ} :
    table.parkedOn fd = some operation ↔
      table.slots.get? fd = some (.inFlight (some operation)) := by
  unfold parkedOn
  cases hslot : table.slots.get? fd with
  | none => simp
  | some slot => cases slot <;> simp [Slot.parked?]

/-- What is picked from a table is picked from one slot and from the others. -/
theorem picked_perm (table : Outstanding σ) (pick : Slot σ → Option (Operation σ)) (fd : Fd) :
    (table.picked pick).Perm
      (((table.slots.get? fd).bind pick).toList ++ (table.erase fd).picked pick) := by
  have h := (table.slots.values_perm fd).filterMap pick
  rw [List.filterMap_append] at h
  cases hslot : table.slots.get? fd with
  | none =>
      rw [hslot] at h
      exact h
  | some slot =>
      rw [hslot, Option.toList_some, List.filterMap_cons] at h
      rw [Option.bind_some]
      cases hpick : pick slot with
      | none =>
          simp only [hpick] at h
          exact h
      | some operation =>
          simp only [hpick] at h
          exact h

/-- What is picked from a table with a new slot is what is picked from that slot and from all
others. -/
theorem picked_put (table : Outstanding σ) (pick : Slot σ → Option (Operation σ)) (fd : Fd)
    (slot : Slot σ) :
    (table.put fd slot).picked pick = (pick slot).toList ++ (table.erase fd).picked pick := by
  show (slot :: (table.slots.erase fd).values).filterMap pick = _
  rw [List.filterMap_cons]
  cases pick slot <;> rfl

end Outstanding

/-! ## Histories -/

/-- A table together with the operations that are checked out of it. -/
structure Lending (σ : Type) where
  table : Outstanding σ
  onLoan : List (Operation σ)

namespace Lending

/-- A call on a table and what came of it. Of a settlement the history also keeps what was parked
behind the operation that came back. -/
inductive Event (σ : Type) where
  | submitted (operation : Operation σ) (policy : OverlapPolicy) (exchanges : List (Exchange σ))
      (result : Except ReactorError (Option (Operation σ)))
  | checkedOut (fd : Fd) (result : Option (Operation σ))
  | settled (operation : Operation σ) (attempt : Attempt) (successor : Option (Operation σ))
      (exchanges : List (Exchange σ)) (result : Except Panic (List (Resolved σ)))

namespace Event

variable {σ : Type}

/-- The operation that the call has offered to the table. -/
def offered : Event σ → List (Operation σ)
  | submitted operation _ _ _ => [operation]
  | _ => []

/-- The operation that the call has added to the table. -/
def accepted : Event σ → List (Operation σ)
  | submitted operation _ _ (.ok _) => [operation]
  | _ => []

/-- The operation that a submission has handed back. -/
def displaced : Event σ → List (Operation σ)
  | submitted _ _ _ (.ok displaced) => displaced.toList
  | _ => []

/-- The operation that a settlement has dropped: it was not finished, and another one was parked
behind it. -/
def dropped : Event σ → List (Operation σ)
  | settled operation .retry (some _) _ _ => [operation]
  | _ => []

/-- The completions that a settlement has handed back, each with its sink. -/
def resolved : Event σ → List (Resolved σ)
  | settled _ _ _ _ (.ok resolved) => resolved
  | _ => []

end Event

variable {σ : Type}

/-- The tickets of some operations. -/
def tickets (operations : List (Operation σ)) : List (Ticket σ) :=
  operations.map Operation.ticket

/-- No operations have no tickets. -/
@[simp]
theorem tickets_nil : tickets ([] : List (Operation σ)) = [] :=
  rfl

/-- The ticket of the first operation comes first. -/
@[simp]
theorem tickets_cons (operation : Operation σ) (operations : List (Operation σ)) :
    tickets (operation :: operations) = operation.ticket :: tickets operations :=
  rfl

/-- The tickets of two lists are those of the first and then those of the second. -/
@[simp]
theorem tickets_append (first second : List (Operation σ)) :
    tickets (first ++ second) = tickets first ++ tickets second :=
  List.map_append

/-- The tickets of all submissions, accepted or not. -/
def offered (history : List (Event σ)) : List (Ticket σ) :=
  tickets (history.flatMap Event.offered)

/-- The number of submissions in a history. It is the number of the next one. -/
def submissions (history : List (Event σ)) : Nat :=
  (offered history).length

/-- The tickets of the accepted submissions. -/
def accepted (history : List (Event σ)) : List (Ticket σ) :=
  tickets (history.flatMap Event.accepted)

/-- The tickets of the operations that submissions have handed back. -/
def displaced (history : List (Event σ)) : List (Ticket σ) :=
  tickets (history.flatMap Event.displaced)

/-- The tickets of the operations that settlements have dropped. -/
def dropped (history : List (Event σ)) : List (Ticket σ) :=
  tickets (history.flatMap Event.dropped)

/-- The tickets of the completions that settlements have handed back. -/
def resolved (history : List (Event σ)) : List (Ticket σ) :=
  (history.flatMap Event.resolved).map Resolved.ticket

/-- What the last call has offered comes before what was offered earlier. -/
theorem offered_cons (event : Event σ) (history : List (Event σ)) :
    offered (event :: history) = tickets event.offered ++ offered history :=
  tickets_append _ _

/-- What the last call has added comes before what was added earlier. -/
theorem accepted_cons (event : Event σ) (history : List (Event σ)) :
    accepted (event :: history) = tickets event.accepted ++ accepted history :=
  tickets_append _ _

/-- What the last submission has handed back comes before what was handed back earlier. -/
theorem displaced_cons (event : Event σ) (history : List (Event σ)) :
    displaced (event :: history) = tickets event.displaced ++ displaced history :=
  tickets_append _ _

/-- What the last settlement has dropped comes before what was dropped earlier. -/
theorem dropped_cons (event : Event σ) (history : List (Event σ)) :
    dropped (event :: history) = tickets event.dropped ++ dropped history :=
  tickets_append _ _

/-- What has resolved in the last settlement comes before what resolved earlier. -/
theorem resolved_cons (event : Event σ) (history : List (Event σ)) :
    resolved (event :: history) = event.resolved.map Resolved.ticket ++ resolved history :=
  List.map_append

/-- The possible histories of a table of a direction, whose calls use sources of the given kind,
and what they lead to. -/
inductive Run (sources : Source → Prop) (direction : Direction) :
    List (Event (Numbered σ)) → Lending (Numbered σ) → Prop where
  | opened : Run sources direction [] ⟨.empty direction, []⟩
  | submit {history : List (Event (Numbered σ))} {lending : Lending (Numbered σ)}
      {exchanges : List (Exchange (Numbered σ))}
      {result : Except ReactorError (Option (Operation (Numbered σ)))}
      {table : Outstanding (Numbered σ)} (hrun : Run sources direction history lending)
      (operation : Operation σ) (policy : OverlapPolicy) (source : Source)
      (hsource : sources source)
      (hsubmit : (lending.table.submit (operation.numbered (submissions history)) policy
        source).Returns exchanges (result, table)) :
      Run sources direction
        (.submitted (operation.numbered (submissions history)) policy exchanges result :: history)
        { lending with table }
  | checkOut {history : List (Event (Numbered σ))} {lending : Lending (Numbered σ)}
      {operation : Operation (Numbered σ)} {table : Outstanding (Numbered σ)}
      (hrun : Run sources direction history lending) (fd : Fd)
      (hcheck : lending.table.checkOut fd = some (operation, table)) :
      Run sources direction (.checkedOut fd (some operation) :: history)
        ⟨table, operation :: lending.onLoan⟩
  | passOver {history : List (Event (Numbered σ))} {lending : Lending (Numbered σ)}
      (hrun : Run sources direction history lending) (fd : Fd)
      (hcheck : lending.table.checkOut fd = none) :
      Run sources direction (.checkedOut fd none :: history) lending
  | settle {history : List (Event (Numbered σ))} {lending : Lending (Numbered σ)}
      {before after : List (Operation (Numbered σ))} {loan : Operation (Numbered σ)}
      {exchanges : List (Exchange (Numbered σ))}
      {result : Except Panic (List (Resolved (Numbered σ)))} {table : Outstanding (Numbered σ)}
      (hrun : Run sources direction history lending) (operation : Operation (Numbered σ))
      (attempt : Attempt) (source : Source) (hsource : sources source)
      (hloan : lending.onLoan = before ++ loan :: after)
      (hticket : operation.ticket = loan.ticket)
      (hsettle : (lending.table.settle operation attempt source).Returns exchanges
        (result, table)) :
      Run sources direction
        (.settled operation attempt (lending.table.parkedOn operation.fd) exchanges result ::
          history)
        ⟨table, before ++ after⟩

/-! ## Loans and slots -/

/-- The loans agree with the slots: every operation is in a slot of its own descriptor, and a slot
is in flight exactly when one operation of its descriptor is on loan. -/
structure Orderly (lending : Lending σ) : Prop where
  waiting_fd : ∀ fd operation,
    lending.table.slots.get? fd = some (.pending operation) → operation.fd = fd
  parked_fd : ∀ fd operation,
    lending.table.slots.get? fd = some (.inFlight (some operation)) → operation.fd = fd
  inFlight_iff : ∀ fd,
    (∃ successor, lending.table.slots.get? fd = some (.inFlight successor)) ↔
      fd ∈ lending.onLoan.map Operation.fd
  single : (lending.onLoan.map Operation.fd).Nodup

namespace Orderly

variable {lending : Lending σ}

/-- Nothing is on loan from a new table. -/
theorem opened (direction : Direction) : Orderly (⟨.empty direction, []⟩ : Lending σ) where
  waiting_fd _ _ h := by cases h
  parked_fd _ _ h := by cases h
  inFlight_iff fd := by simp [Outstanding.empty]
  single := List.nodup_nil

/-- The loans still agree with the slots after a change on one descriptor, if they agree there. -/
theorem change {next : Lending σ} {fd : Fd} (h : lending.Orderly)
    (hslots : ∀ other, other ≠ fd →
      next.table.slots.get? other = lending.table.slots.get? other)
    (hloans : ∀ other, other ≠ fd →
      (other ∈ next.onLoan.map Operation.fd ↔ other ∈ lending.onLoan.map Operation.fd))
    (hwaiting : ∀ operation, next.table.slots.get? fd = some (.pending operation) →
      operation.fd = fd)
    (hparked : ∀ operation, next.table.slots.get? fd = some (.inFlight (some operation)) →
      operation.fd = fd)
    (hinFlight : (∃ successor, next.table.slots.get? fd = some (.inFlight successor)) ↔
      fd ∈ next.onLoan.map Operation.fd)
    (hsingle : (next.onLoan.map Operation.fd).Nodup) : next.Orderly where
  waiting_fd other operation hslot := by
    by_cases hother : other = fd
    · subst hother
      exact hwaiting operation hslot
    · rw [hslots other hother] at hslot
      exact h.waiting_fd other operation hslot
  parked_fd other operation hslot := by
    by_cases hother : other = fd
    · subst hother
      exact hparked operation hslot
    · rw [hslots other hother] at hslot
      exact h.parked_fd other operation hslot
  inFlight_iff other := by
    by_cases hother : other = fd
    · subst hother
      exact hinFlight
    · rw [hslots other hother, hloans other hother]
      exact h.inFlight_iff other
  single := hsingle

/-- An accepted submission leaves the loans alone. -/
theorem accept (h : lending.Orderly) {operation : Operation σ} {displaced : Option (Operation σ)}
    {slot : Slot σ}
    (hadmission : Outstanding.Admission operation (lending.table.slots.get? operation.fd)
      displaced slot) :
    Orderly { lending with table := lending.table.put operation.fd slot } := by
  have hbefore := h.inFlight_iff operation.fd
  refine h.change (fun other hother => Outstanding.get?_put_other _ _ hother)
    (fun _ _ => Iff.rfl) ?_ ?_ ?_ h.single
  all_goals
    rw [Outstanding.get?_put_same]
    generalize lending.table.slots.get? operation.fd = found at hadmission hbefore
  · intro waiting hslot
    cases hadmission <;> cases hslot <;> rfl
  · intro parked hslot
    cases hadmission <;> cases hslot
    rfl
  · rw [← hbefore]
    cases hadmission <;> simp

/-- An operation that is checked out is on loan from then on. -/
theorem checkOut (h : lending.Orderly) {fd : Fd} {operation : Operation σ}
    (hslot : lending.table.slots.get? fd = some (.pending operation)) :
    Orderly ⟨lending.table.put fd (.inFlight none), operation :: lending.onLoan⟩ := by
  obtain rfl : operation.fd = fd := h.waiting_fd _ _ hslot
  -- a slot that waits is not in flight, so nothing of its descriptor is on loan
  have hfree : operation.fd ∉ lending.onLoan.map Operation.fd := by
    rw [← h.inFlight_iff, hslot]
    rintro ⟨successor, hsuccessor⟩
    cases hsuccessor
  refine h.change (fun other hother => Outstanding.get?_put_other _ _ hother) ?_ ?_ ?_ ?_ ?_
  · intro other hother
    simp [hother]
  · intro waiting hslot
    simp at hslot
  · intro parked hslot
    simp at hslot
  · simp
  · exact List.nodup_cons.mpr ⟨hfree, h.single⟩

/-- An operation on loan has a slot in flight. -/
theorem slot_inFlight (h : lending.Orderly) {before after : List (Operation σ)}
    {loan : Operation σ} (hloan : lending.onLoan = before ++ loan :: after) :
    ∃ successor, lending.table.slots.get? loan.fd = some (.inFlight successor) := by
  rw [h.inFlight_iff, hloan]
  simp

/-- An operation that comes back is on loan no more. -/
theorem giveBack (h : lending.Orderly) {before after : List (Operation σ)} {loan : Operation σ}
    {fd : Fd} {kept : Option (Operation σ)} (hloan : lending.onLoan = before ++ loan :: after)
    (hfd : fd = loan.fd) (hkept : ∀ operation, kept = some operation → operation.fd = fd) :
    Orderly ⟨(lending.table.erase fd).keep fd kept, before ++ after⟩ := by
  subst hfd
  have hperm : (lending.onLoan.map Operation.fd).Perm
      (loan.fd :: (before ++ after).map Operation.fd) := by
    rw [hloan]
    exact List.perm_middle.map _
  obtain ⟨hfree, hsingle⟩ := List.nodup_cons.mp (hperm.nodup h.single)
  refine h.change (fun other hother => Outstanding.get?_erase_keep_other _ _ hother)
    ?_ ?_ ?_ ?_ hsingle
  · intro other hother
    rw [hperm.mem_iff, List.mem_cons, or_iff_right hother]
  all_goals rw [Outstanding.get?_erase_keep_same]
  · intro waiting hslot
    obtain ⟨operation, hoperation, hpending⟩ := Option.map_eq_some_iff.mp hslot
    cases hpending
    exact hkept waiting hoperation
  · intro parked hslot
    cases kept <;> cases hslot
  · cases kept <;> simpa using hfree

/-- An operation that comes back is settled: nothing else can happen to it. -/
theorem aftermath (h : lending.Orderly) {before after : List (Operation σ)}
    {loan operation : Operation σ} {attempt : Attempt} {source : Source}
    {exchanges : List (Exchange σ)} {result : Except Panic (List (Resolved σ))}
    {table : Outstanding σ} (hloan : lending.onLoan = before ++ loan :: after)
    (hticket : operation.ticket = loan.ticket)
    (hsettle : (lending.table.settle operation attempt source).Returns exchanges
      (result, table)) :
    ∃ resolved kept, result = .ok resolved ∧
      Outstanding.Aftermath lending.table.direction operation attempt
        (lending.table.parkedOn operation.fd) resolved kept ∧
      table = (lending.table.erase operation.fd).keep operation.fd kept := by
  have hfd : operation.fd = loan.fd := congrArg Ticket.fd hticket
  obtain ⟨successor, hslot⟩ := h.slot_inFlight hloan
  rw [← hfd] at hslot
  have hparked : lending.table.parkedOn operation.fd = successor := by
    rw [Outstanding.parkedOn, hslot]
    rfl
  rw [hparked]
  exact (Outstanding.settle_cases hsettle).aftermath hslot

/-- What is parked on a descriptor belongs there. -/
theorem parkedOn_fd (h : lending.Orderly) {fd : Fd} {operation : Operation σ}
    (hparked : lending.table.parkedOn fd = some operation) : operation.fd = fd :=
  h.parked_fd fd operation (Outstanding.parkedOn_eq_some.mp hparked)

end Orderly

/-! ## Facts about all runs -/

section Runs

variable {sources : Source → Prop} {direction : Direction}
  {history : List (Event (Numbered σ))} {lending : Lending (Numbered σ)}

/-- In every run the loans agree with the slots. -/
theorem Run.orderly (h : Run sources direction history lending) : lending.Orderly := by
  induction h with
  | opened => exact .opened direction
  | @submit _ _ _ result _ _ _ _ _ _ hsubmit ih =>
      have hcases := Outstanding.submit_cases hsubmit
      cases result with
      | error error =>
          obtain rfl := hcases.refusal
          exact ih
      | ok displaced =>
          obtain ⟨slot, hadmission, rfl⟩ := hcases.admission
          exact ih.accept hadmission
  | checkOut _ _ hcheck ih =>
      obtain ⟨hslot, rfl⟩ := Outstanding.checkOut_eq_some.mp hcheck
      exact ih.checkOut hslot
  | passOver _ _ _ ih => exact ih
  | settle _ _ _ _ _ hloan hticket hsettle ih =>
      obtain ⟨resolved, kept, -, haftermath, rfl⟩ := ih.aftermath hloan hticket hsettle
      exact ih.giveBack hloan (congrArg Ticket.fd hticket) fun operation hkept =>
        haftermath.kept_fd (fun next hnext => ih.parkedOn_fd hnext) hkept

/-- A table keeps its direction. -/
theorem Run.direction_eq (h : Run sources direction history lending) :
    lending.table.direction = direction := by
  induction h with
  | opened => rfl
  | @submit _ _ _ result _ _ _ _ _ _ hsubmit ih =>
      have hcases := Outstanding.submit_cases hsubmit
      cases result with
      | error error =>
          obtain rfl := hcases.refusal
          exact ih
      | ok displaced =>
          obtain ⟨slot, -, rfl⟩ := hcases.admission
          exact ih
  | checkOut _ _ hcheck ih =>
      obtain ⟨-, rfl⟩ := Outstanding.checkOut_eq_some.mp hcheck
      exact ih
  | passOver _ _ _ ih => exact ih
  | settle hrun _ _ _ _ hloan hticket hsettle ih =>
      obtain ⟨resolved, kept, -, -, rfl⟩ := hrun.orderly.aftermath hloan hticket hsettle
      rw [Outstanding.direction_keep]
      exact ih

/-- The submissions of a run are numbered in their order. -/
theorem Run.number_offered (h : Run sources direction history lending) :
    (offered history).map Ticket.number = (List.range (submissions history)).reverse := by
  induction h with
  | opened => rfl
  | @submit history _ exchanges result _ _ operation policy _ _ _ ih =>
      have hnext : submissions (.submitted (operation.numbered (submissions history)) policy
          exchanges result :: history) = submissions history + 1 := rfl
      rw [hnext, List.range_succ, List.reverse_append, offered_cons, List.map_append, ih]
      rfl
  | checkOut _ _ _ ih => exact ih
  | passOver _ _ _ ih => exact ih
  | settle _ _ _ _ _ _ _ _ ih => exact ih

/-- Different submissions have different numbers. -/
theorem Run.nodup_offered (h : Run sources direction history lending) :
    ((offered history).map Ticket.number).Nodup := by
  rw [h.number_offered]
  exact (List.reverse_perm _).symm.nodup List.nodup_range

/-- What is accepted has been offered. -/
theorem accepted_sublist_offered {τ : Type} (history : List (Event τ)) :
    (accepted history).Sublist (offered history) := by
  induction history with
  | nil => exact .slnil
  | cons event history ih =>
      rw [accepted_cons, offered_cons]
      refine List.Sublist.append ?_ ih
      cases event with
      | submitted operation policy exchanges result =>
          cases result with
          | error error => exact List.nil_sublist _
          | ok displaced => exact List.Sublist.refl _
      | checkedOut | settled => exact List.Sublist.refl _

/-- A refused submission changes nothing. -/
theorem Run.of_refused {operation : Operation (Numbered σ)} {policy : OverlapPolicy}
    {exchanges : List (Exchange (Numbered σ))} {error : ReactorError}
    (h : Run sources direction
      (.submitted operation policy exchanges (.error error) :: history) lending) :
    Run sources direction history lending := by
  cases h with
  | submit hrun _ _ _ _ hsubmit =>
      obtain rfl := (Outstanding.submit_cases hsubmit).refusal
      exact hrun

/-- The number of a refused submission is not that of an accepted one. -/
theorem Run.number_refused (h : Run sources direction history lending)
    {operation : Operation (Numbered σ)} {policy : OverlapPolicy}
    {exchanges : List (Exchange (Numbered σ))} {error : ReactorError}
    (hevent : .submitted operation policy exchanges (.error error) ∈ history) :
    operation.ticket.number ∉ (accepted history).map Ticket.number := by
  -- refused submissions are numbered as well, and no number is given twice
  obtain ⟨later, earlier, rfl⟩ := List.append_of_mem hevent
  have hoffered : offered (later ++ .submitted operation policy exchanges (.error error) ::
      earlier) = offered later ++ operation.ticket :: offered earlier := by
    simp [offered, Event.offered]
  have haccepted : accepted (later ++ .submitted operation policy exchanges (.error error) ::
      earlier) = accepted later ++ accepted earlier := by
    simp [accepted, Event.accepted]
  have hnodup := h.nodup_offered
  rw [hoffered, List.map_append, List.map_cons] at hnodup
  have hfresh := (List.nodup_cons.mp (List.perm_middle.nodup hnodup)).1
  rw [haccepted]
  intro hmem
  refine hfresh (List.Sublist.subset ?_ hmem)
  rw [← List.map_append]
  exact ((accepted_sublist_offered later).append (accepted_sublist_offered earlier)).map _

end Runs

end Lending

end Proactor
