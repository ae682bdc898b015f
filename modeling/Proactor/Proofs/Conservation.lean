import Proactor.Proofs.Lending
import Mathlib.Data.List.Nodup

/-!
# Conservation of operations

No operation is lost and none is completed twice. `Run.accounted` says that at
every point of every history of a table, the accepted operations are exactly
those that wait, are on loan, are parked, were displaced by a submission, were
dropped by a settlement, or have resolved, and that each of them is in one of
these places once.

Each call moves operations between the places. The steps are therefore proved as
equations between the numbers of times that a ticket occurs.
-/

namespace Proactor.Lending

variable {σ : Type}

/-- The tickets of the operations that a table in use still answers for. -/
def outstanding (lending : Lending σ) : List (Ticket σ) :=
  tickets lending.table.waiting ++ tickets lending.onLoan ++ tickets lending.table.parked

/-- The tickets of all operations, wherever they have got to. -/
def whereabouts (history : List (Event σ)) (lending : Lending σ) : List (Ticket σ) :=
  lending.outstanding ++ displaced history ++ dropped history ++ resolved history

/-! ## Counting tickets -/

section Counting

variable [DecidableEq (Ticket σ)]

/-- How often a ticket is picked from a table is how often it is picked from one slot and from all
others. -/
theorem count_picked (table : Outstanding σ) (pick : Slot σ → Option (Operation σ)) (fd : Fd)
    (ticket : Ticket σ) :
    (tickets (table.picked pick)).count ticket =
      (tickets ((table.slots.get? fd).bind pick).toList).count ticket +
        (tickets ((table.erase fd).picked pick)).count ticket := by
  rw [← List.count_append, ← tickets_append]
  exact ((table.picked_perm pick fd).map Operation.ticket).count_eq ticket

/-- Storing a slot changes how often a ticket is picked only by what is picked from that slot. -/
theorem count_picked_put (table : Outstanding σ) (pick : Slot σ → Option (Operation σ))
    (fd : Fd) (slot : Slot σ) (ticket : Ticket σ) :
    (tickets ((table.put fd slot).picked pick)).count ticket =
      (tickets (pick slot).toList).count ticket +
        (tickets ((table.erase fd).picked pick)).count ticket := by
  rw [table.picked_put pick fd slot, tickets_append, List.count_append]

/-- The tickets outstanding are those that wait, those on loan and those parked behind a loan. -/
theorem count_outstanding (lending : Lending σ) (ticket : Ticket σ) :
    lending.outstanding.count ticket =
      (tickets (lending.table.picked Slot.waiting?)).count ticket +
        (tickets lending.onLoan).count ticket +
        (tickets (lending.table.picked Slot.parked?)).count ticket := by
  simp only [outstanding, Outstanding.waiting, Outstanding.parked, List.count_append]

/-- An accepted submission adds its operation and takes away the one that it displaces. -/
theorem count_accept {lending : Lending σ} {operation : Operation σ}
    {displaced : Option (Operation σ)} {slot : Slot σ}
    (hadmission : Outstanding.Admission operation (lending.table.slots.get? operation.fd)
      displaced slot) (ticket : Ticket σ) :
    ({ lending with table := lending.table.put operation.fd slot } : Lending σ).outstanding.count
        ticket + (tickets displaced.toList).count ticket =
      lending.outstanding.count ticket + (tickets [operation]).count ticket := by
  have hwaiting := count_picked lending.table Slot.waiting? operation.fd ticket
  have hparked := count_picked lending.table Slot.parked? operation.fd ticket
  rw [count_outstanding, count_outstanding, hwaiting, hparked, count_picked_put, count_picked_put]
  generalize lending.table.slots.get? operation.fd = found at hadmission
  cases hadmission with
  | stored => simp [Slot.waiting?, Slot.parked?]; omega
  | replaced current => simp [Slot.waiting?, Slot.parked?]; omega
  | parked successor => simp [Slot.waiting?, Slot.parked?]; omega

/-- Checking an operation out moves it from the table to the loans. -/
theorem count_checkOut {lending : Lending σ} {fd : Fd} {operation : Operation σ}
    (hslot : lending.table.slots.get? fd = some (.pending operation)) (ticket : Ticket σ) :
    (⟨lending.table.put fd (.inFlight none), operation :: lending.onLoan⟩ :
        Lending σ).outstanding.count ticket = lending.outstanding.count ticket := by
  have hwaiting := count_picked lending.table Slot.waiting? fd ticket
  have hparked := count_picked lending.table Slot.parked? fd ticket
  rw [count_outstanding, count_outstanding, hwaiting, hparked, count_picked_put,
    count_picked_put, hslot]
  simp [Slot.waiting?, Slot.parked?, List.count_cons]
  omega

/-- The operation that comes back and its successor are afterwards waiting, dropped or resolved. -/
theorem count_aftermath {direction : Direction} {operation : Operation σ} {attempt : Attempt}
    {successor kept : Option (Operation σ)} {completions : List (Resolved σ)}
    (h : Outstanding.Aftermath direction operation attempt successor completions kept)
    (exchanges : List (Exchange σ)) (ticket : Ticket σ) :
    (tickets [operation]).count ticket + (tickets successor.toList).count ticket =
      (tickets kept.toList).count ticket +
        (tickets (Event.settled operation attempt successor exchanges
          (.ok completions)).dropped).count ticket +
        (completions.map Resolved.ticket).count ticket := by
  cases h <;> simp [Event.dropped, List.count_cons] <;> omega

/-- A settlement moves the operation that comes back and its successor to where they end up. -/
theorem count_giveBack {lending : Lending σ} (horderly : lending.Orderly)
    {before after : List (Operation σ)} {loan operation : Operation σ} {attempt : Attempt}
    {kept : Option (Operation σ)} {completions : List (Resolved σ)}
    (hloan : lending.onLoan = before ++ loan :: after) (hticket : operation.ticket = loan.ticket)
    (haftermath : Outstanding.Aftermath lending.table.direction operation attempt
      (lending.table.parkedOn operation.fd) completions kept)
    (exchanges : List (Exchange σ)) (ticket : Ticket σ) :
    lending.outstanding.count ticket =
      (⟨(lending.table.erase operation.fd).keep operation.fd kept, before ++ after⟩ :
          Lending σ).outstanding.count ticket +
        (tickets (Event.settled operation attempt (lending.table.parkedOn operation.fd) exchanges
          (.ok completions)).dropped).count ticket +
        (completions.map Resolved.ticket).count ticket := by
  -- only the slot of one descriptor changes: the others cancel out on both sides
  have hmoved := count_aftermath haftermath exchanges ticket
  have hwaiting := count_picked lending.table Slot.waiting? operation.fd ticket
  have hparked := count_picked lending.table Slot.parked? operation.fd ticket
  have hfd : operation.fd = loan.fd := congrArg Ticket.fd hticket
  obtain ⟨successor, hslot⟩ := horderly.slot_inFlight hloan
  rw [← hfd] at hslot
  rw [hslot] at hwaiting
  rw [← Outstanding.parkedOn] at hparked
  rw [count_outstanding, count_outstanding, hwaiting, hparked, hloan]
  cases kept with
  | none =>
      simp only [Outstanding.keep, tickets_append, tickets_cons, List.count_append,
        List.count_cons, ← hticket] at hmoved ⊢
      simp [Slot.waiting?] at hmoved ⊢
      omega
  | some waiting =>
      simp only [Outstanding.keep, Outstanding.put_erase, count_picked_put, tickets_append,
        tickets_cons, List.count_append, List.count_cons, ← hticket] at hmoved ⊢
      simp [Slot.waiting?, Slot.parked?] at hmoved ⊢
      omega

end Counting

/-! ## Every history is accounted for -/

variable {sources : Source → Prop} {direction : Direction}
  {history : List (Event (Numbered σ))} {lending : Lending (Numbered σ)}

/-- The operations that are anywhere are those that were accepted. -/
theorem Run.whereabouts_perm (h : Run sources direction history lending) :
    (whereabouts history lending).Perm (accepted history) := by
  classical
  rw [List.perm_iff_count]
  intro ticket
  simp only [whereabouts, List.count_append]
  -- that tickets differ is not needed here: they are counted
  induction h with
  | opened => rfl
  | @submit _ _ _ result _ _ _ _ _ _ hsubmit ih =>
      have hcases := Outstanding.submit_cases hsubmit
      simp only [displaced_cons, dropped_cons, resolved_cons, accepted_cons, List.count_append]
      cases result with
      | error error =>
          obtain rfl := hcases.refusal
          simpa [Event.displaced, Event.dropped, Event.resolved, Event.accepted] using ih
      | ok displaced =>
          obtain ⟨slot, hadmission, rfl⟩ := hcases.admission
          have hcount := count_accept hadmission ticket
          simp only [Event.displaced, Event.dropped, Event.resolved, Event.accepted,
            tickets_nil, List.map_nil, List.count_nil]
          omega
  | checkOut _ _ hcheck ih =>
      obtain ⟨hslot, rfl⟩ := Outstanding.checkOut_eq_some.mp hcheck
      rw [count_checkOut hslot]
      exact ih
  | passOver _ _ _ ih => exact ih
  | @settle _ _ _ _ _ exchanges _ _ hrun _ _ _ _ hloan hticket hsettle ih =>
      obtain ⟨completions, kept, rfl, haftermath, rfl⟩ :=
        hrun.orderly.aftermath hloan hticket hsettle
      have hcount := count_giveBack hrun.orderly hloan hticket haftermath exchanges ticket
      simp only [displaced_cons, dropped_cons, resolved_cons, accepted_cons, List.count_append]
      simp only [Event.displaced, Event.resolved, Event.accepted, tickets_nil,
        List.count_nil]
      omega

/-- Every settlement of a history resolves, keeps or drops the operation that came back and the
one behind it. -/
theorem Run.settled_aftermath (h : Run sources direction history lending)
    {operation : Operation (Numbered σ)} {attempt : Attempt}
    {successor : Option (Operation (Numbered σ))} {exchanges : List (Exchange (Numbered σ))}
    {result : Except Panic (List (Resolved (Numbered σ)))}
    (hevent : .settled operation attempt successor exchanges result ∈ history) :
    ∃ completions kept, result = .ok completions ∧
      Outstanding.Aftermath direction operation attempt successor completions kept := by
  induction h with
  | opened => cases hevent
  | submit _ _ _ _ _ _ ih | checkOut _ _ _ ih | passOver _ _ _ ih =>
      rcases List.mem_cons.mp hevent with heq | hevent
      · cases heq
      · exact ih hevent
  | settle hrun _ _ _ _ hloan hticket hsettle ih =>
      rcases List.mem_cons.mp hevent with heq | hevent
      · cases heq
        obtain ⟨completions, kept, hresult, haftermath, -⟩ :=
          hrun.orderly.aftermath hloan hticket hsettle
        exact ⟨completions, kept, hresult, hrun.direction_eq ▸ haftermath⟩
      · exact ih hevent

/-- The books of a table are in order. -/
structure Accounted (sources : Source → Prop) (direction : Direction)
    (history : List (Event (Numbered σ))) (lending : Lending (Numbered σ)) : Prop where
  /-- Each accepted operation is in one place, and there once. -/
  once : ∀ ticket ∈ accepted history, ticket ∈ whereabouts history lending ∧
    ((whereabouts history lending).map Ticket.number).count ticket.number = 1
  /-- No other operation is in any place. -/
  only : ∀ ticket ∈ whereabouts history lending, ticket ∈ accepted history
  /-- A refused operation is nowhere. -/
  refused : ∀ operation policy exchanges error,
    .submitted operation policy exchanges (.error error) ∈ history →
      operation.ticket.number ∉ (whereabouts history lending).map Ticket.number
  /-- A refusal changes nothing. -/
  unchanged : ∀ operation policy exchanges error earlier,
    history = .submitted operation policy exchanges (.error error) :: earlier →
      Run sources direction earlier lending
  /-- Operations wait and are parked on their own descriptors, and a slot is in flight exactly
  when one operation of its descriptor is on loan. -/
  orderly : lending.Orderly
  /-- A settlement never fails. What it hands back are the completions of the operation that came
  back and of its successor, each paired with the sink of its own operation. -/
  settled : ∀ operation attempt successor exchanges result,
    .settled operation attempt successor exchanges result ∈ history →
      ∃ completions kept, result = .ok completions ∧
        Outstanding.Aftermath direction operation attempt successor completions kept
  /-- The next call returns, whatever it is. -/
  returns : ∀ operation policy attempt source,
    (lending.table.submit operation policy source).NeverPanics ∧
      (lending.table.settle operation attempt source).NeverPanics

/-- No operation is lost and none is completed twice. -/
theorem Run.accounted (h : Run sources direction history lending) :
    Accounted sources direction history lending := by
  have hperm := h.whereabouts_perm
  have hnumbers := hperm.map Ticket.number
  have hsublist := (accepted_sublist_offered history).map Ticket.number
  constructor
  case once =>
    intro ticket hticket
    refine ⟨hperm.mem_iff.mpr hticket, ?_⟩
    rw [hnumbers.count_eq]
    exact List.count_eq_one_of_mem (h.nodup_offered.sublist hsublist)
      (List.mem_map_of_mem hticket)
  case only =>
    intro ticket hticket
    exact hperm.mem_iff.mp hticket
  case refused =>
    intro operation policy exchanges error hevent hmem
    exact h.number_refused hevent (hnumbers.mem_iff.mp hmem)
  case unchanged =>
    intro operation policy exchanges error earlier heq
    exact (heq ▸ h).of_refused
  case orderly => exact h.orderly
  case settled =>
    intro operation attempt successor exchanges result hevent
    exact h.settled_aftermath hevent
  case returns =>
    intro operation policy attempt source
    exact ⟨Outstanding.submit_neverPanics, Outstanding.settle_neverPanics⟩

/-- While an operation is on loan, one submission parks an operation behind it and the next one
displaces that. The first operation comes back unfinished and is dropped, and the last one
resolves because its descriptor cannot be rearmed. -/
theorem accounted_overtaken :
    ∃ (history : List (Event (Numbered Unit))) (lending : Lending (Numbered Unit)),
      Run (fun _ => True) .read history lending ∧
        (accepted history).map Ticket.number = [2, 1, 0] ∧
        (displaced history).map Ticket.number = [1] ∧
        (dropped history).map Ticket.number = [0] ∧
        (resolved history).map Ticket.number = [2] ∧
        Accounted (fun _ => True) .read history lending := by
  let source : Source := ⟨⟨3⟩, ⟨⟨4⟩, ⟨5⟩⟩, false⟩
  let operation : Operation Unit := .submitted ⟨7⟩ [1, 2] ⟨(), false⟩
  have hopened : Run (fun _ => True) .read [] (⟨.empty .read, []⟩ : Lending (Numbered Unit)) :=
    .opened
  have hstored := hopened.submit operation .overwrite source trivial ⟨.ok (), [], rfl, rfl, rfl⟩
  have hout := hstored.checkOut ⟨7⟩ rfl
  have hparked := hout.submit operation .overwrite source trivial ⟨rfl, rfl⟩
  have hdisplaced := hparked.submit operation .overwrite source trivial ⟨rfl, rfl⟩
  have hback := hdisplaced.settle (operation.numbered 0) .retry source trivial
    (rfl : _ = [] ++ operation.numbered 0 :: []) rfl
    ⟨.error ⟨5⟩, _, rfl, .ok (), _, rfl, (), _, rfl, rfl, rfl⟩
  exact ⟨_, _, hback, rfl, rfl, rfl, rfl, hback.accounted⟩

end Proactor.Lending
