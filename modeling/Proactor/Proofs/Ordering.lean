import Proactor.Proofs.Conservation
import Proactor.Proofs.Records

/-!
# The order of operations on a descriptor

The operations of a descriptor stand in line: first those that have resolved, in
the order in which they have, then the one on loan, then the one in the slot.
`Run.inLine` says that this is the order of their submissions at every point of
every history, and that the line ends with the operation that was accepted last.
Whoever is missing from the line was displaced or dropped.
-/

namespace Proactor

/-- Every operation that is picked from a table is picked from the slot of a descriptor. -/
theorem Outstanding.exists_slot_of_mem_picked {σ : Type} {table : Outstanding σ}
    {pick : Slot σ → Option (Operation σ)} {operation : Operation σ}
    (h : operation ∈ table.picked pick) :
    ∃ fd, (table.slots.get? fd).bind pick = some operation := by
  obtain ⟨slot, hslot, hpick⟩ := List.mem_filterMap.mp h
  obtain ⟨fd, hfd⟩ := FdMap.exists_get?_of_mem_values hslot
  exact ⟨fd, by rw [hfd]; exact hpick⟩

namespace Lending

variable {σ : Type}

/-! ## Lines -/

/-- The tickets of one descriptor. -/
def onFd (fd : Fd) (tickets : List (Ticket σ)) : List (Ticket σ) :=
  tickets.filter fun ticket => ticket.fd = fd

section OnFd

variable {fd : Fd} {tickets more : List (Ticket σ)} {ticket : Ticket σ}

/-- The tickets of a descriptor in two lists are those in the first and then those in the second. -/
@[simp]
theorem onFd_append : onFd fd (tickets ++ more) = onFd fd tickets ++ onFd fd more :=
  List.filter_append _ _

/-- The tickets of a descriptor are those tickets that name it. -/
@[simp]
theorem mem_onFd : ticket ∈ onFd fd tickets ↔ ticket ∈ tickets ∧ ticket.fd = fd := by
  simp [onFd]

/-- Tickets that are all of one descriptor are the tickets of that descriptor. -/
theorem onFd_same (h : ∀ ticket ∈ tickets, ticket.fd = fd) : onFd fd tickets = tickets :=
  List.filter_eq_self.mpr fun ticket hticket => decide_eq_true (h ticket hticket)

/-- Tickets that are all of other descriptors are none of this one. -/
theorem onFd_other (h : ∀ ticket ∈ tickets, ticket.fd ≠ fd) : onFd fd tickets = [] :=
  List.filter_eq_nil_iff.mpr fun ticket hticket => by simpa using h ticket hticket

end OnFd

/-- The operations accepted on a descriptor, in the order of their submissions. -/
def acceptedOn (fd : Fd) (history : List (Event σ)) : List (Ticket σ) :=
  onFd fd (accepted history).reverse

/-- The completions that settlements have handed back, in the order in which they have. -/
def completed : List (Event σ) → List (Resolved σ)
  | [] => []
  | event :: history => completed history ++ event.resolved

/-- The completions of a longer history are the earlier ones and then the later ones. -/
theorem completed_append (later earlier : List (Event σ)) :
    completed (later ++ earlier) = completed earlier ++ completed later := by
  induction later with
  | nil => exact (List.append_nil _).symm
  | cons event later ih => rw [List.cons_append, completed, ih, completed, List.append_assoc]

/-- They are the completions of the history in another order. -/
theorem completed_perm (history : List (Event σ)) :
    ((completed history).map Resolved.ticket).Perm (resolved history) := by
  induction history with
  | nil => exact .nil
  | cons event history ih =>
      rw [completed, List.map_append, resolved_cons]
      exact (ih.append_right _).trans List.perm_append_comm

/-- The operations of a descriptor that have not ended: the one on loan before the one in the
slot. -/
def remaining (fd : Fd) (lending : Lending σ) : List (Ticket σ) :=
  onFd fd (tickets lending.onLoan) ++
    tickets ((lending.table.slots.get? fd).bind Slot.stored?).toList

/-- The operations of a descriptor that have neither been displaced nor dropped. -/
def line (fd : Fd) (history : List (Event σ)) (lending : Lending σ) : List (Ticket σ) :=
  onFd fd ((completed history).map Resolved.ticket) ++ remaining fd lending

/-- Some may be missing from a line, but not the last one. -/
structure Thins (after before : List (Ticket σ)) : Prop where
  sublist : after.Sublist before
  last : after.getLast? = before.getLast?

namespace Thins

variable {before after last front : List (Ticket σ)} {ticket : Ticket σ}

/-- Nothing is missing from a line that stays as it is. -/
theorem refl (tickets : List (Ticket σ)) : Thins tickets tickets :=
  ⟨.refl _, rfl⟩

/-- What is left of what was left is left of the whole line, and its last one is still the same. -/
theorem trans (h : Thins after before) (hlast : Thins last after) : Thins last before :=
  ⟨hlast.sublist.trans h.sublist, hlast.last.trans h.last⟩

/-- Putting the same before two lines changes nothing about what is missing. -/
theorem append_left (h : Thins after before) : Thins (front ++ after) (front ++ before) where
  sublist := (List.Sublist.refl front).append h.sublist
  last := by rw [List.getLast?_append, List.getLast?_append, h.last]

/-- Whoever joins a line is its last one, whoever leaves it. -/
theorem join (h : front.Sublist before) : Thins (front ++ [ticket]) (before ++ [ticket]) where
  sublist := h.append (.refl _)
  last := by rw [List.getLast?_concat, List.getLast?_concat]

end Thins

/-- What a settlement hands back and keeps was on loan or parked, in this order, and an operation
is missing only if it had a successor. -/
theorem thins_of_aftermath {direction : Direction} {operation : Operation σ} {attempt : Attempt}
    {successor kept : Option (Operation σ)} {resolved : List (Resolved σ)}
    (h : Outstanding.Aftermath direction operation attempt successor resolved kept) :
    Thins (resolved.map Resolved.ticket ++ tickets kept.toList)
      (operation.ticket :: tickets successor.toList) := by
  cases h with
  | finished | succeeded | succeeded_lost | continued | continued_lost => exact .refl _
  | dropped next | dropped_lost next => exact ⟨.cons _ (.refl _), rfl⟩

/-- A line keeps the order of the submissions and ends with the last one that was accepted. -/
def InLine (fd : Fd) (history : List (Event σ)) (lending : Lending σ) : Prop :=
  Thins (line fd history lending) (acceptedOn fd history)

namespace InLine

variable {fd : Fd} {history : List (Event σ)} {lending next : Lending σ} {event : Event σ}

/-- What happens on other descriptors changes nothing in the line. -/
theorem elsewhere (h : InLine fd history lending)
    (haccepted : ∀ ticket ∈ tickets event.accepted, ticket.fd ≠ fd)
    (hresolved : ∀ ticket ∈ event.resolved.map Resolved.ticket, ticket.fd ≠ fd)
    (hremaining : remaining fd next = remaining fd lending) :
    InLine fd (event :: history) next := by
  have hline : line fd (event :: history) next = line fd history lending := by
    rw [line, completed, List.map_append, onFd_append, onFd_other hresolved, List.append_nil,
      hremaining]
    rfl
  have hnew : onFd fd (tickets event.accepted).reverse = [] :=
    onFd_other fun ticket hticket => haccepted ticket (List.mem_reverse.mp hticket)
  unfold InLine
  rw [hline, acceptedOn, accepted_cons, List.reverse_append, onFd_append, hnew, List.append_nil]
  exact h

/-- Operations that have not ended may resolve. -/
theorem advance (h : InLine fd history lending) (haccepted : event.accepted = [])
    (hremaining : Thins (onFd fd (event.resolved.map Resolved.ticket) ++ remaining fd next)
      (remaining fd lending)) : InLine fd (event :: history) next := by
  have hsame : accepted (event :: history) = accepted history := by
    rw [accepted_cons, haccepted]
    rfl
  have hline : line fd (event :: history) next =
      onFd fd ((completed history).map Resolved.ticket) ++
        (onFd fd (event.resolved.map Resolved.ticket) ++ remaining fd next) := by
    rw [line, completed, List.map_append, onFd_append, List.append_assoc]
  unfold InLine
  rw [acceptedOn, hsame, hline]
  exact h.trans hremaining.append_left

/-- An accepted submission takes the last place. What it displaces leaves the line. -/
theorem submit (h : InLine fd history lending) {operation : Operation σ} {policy : OverlapPolicy}
    {exchanges : List (Exchange σ)} {displaced : Option (Operation σ)} {slot : Slot σ}
    (hfd : operation.fd = fd) (hstored : slot.stored? = some operation) :
    InLine fd (.submitted operation policy exchanges (.ok displaced) :: history)
      { lending with table := lending.table.put fd slot } := by
  have hnew : onFd fd [operation.ticket] = [operation.ticket] := by
    refine onFd_same fun ticket hticket => ?_
    obtain rfl := List.mem_singleton.mp hticket
    exact hfd
  have haccepted : acceptedOn fd (.submitted operation policy exchanges (.ok displaced) ::
      history) = acceptedOn fd history ++ [operation.ticket] := by
    rw [acceptedOn, accepted_cons, List.reverse_append, onFd_append]
    exact congrArg _ hnew
  have hline : line fd (.submitted operation policy exchanges (.ok displaced) :: history)
      { lending with table := lending.table.put fd slot } =
        (onFd fd ((completed history).map Resolved.ticket) ++ onFd fd (tickets lending.onLoan)) ++
          [operation.ticket] := by
    show onFd fd ((completed history ++ []).map Resolved.ticket) ++ (onFd fd _ ++
      tickets (((lending.table.put fd slot).slots.get? fd).bind Slot.stored?).toList) = _
    rw [List.append_nil, Outstanding.get?_put_same, Option.bind_some, hstored,
      ← List.append_assoc]
    rfl
  unfold InLine
  rw [haccepted, hline]
  refine .join (List.Sublist.trans ?_ h.sublist)
  rw [line, remaining, ← List.append_assoc]
  exact List.sublist_append_left _ _

end InLine

/-! ## Operations that have not ended -/

section Remaining

variable {fd : Fd} {lending next : Lending σ}

/-- What remains of a descriptor depends on the loans there and on its slot only. -/
theorem remaining_congr (honLoan : onFd fd (tickets next.onLoan) = onFd fd (tickets lending.onLoan))
    (hslot : next.table.slots.get? fd = lending.table.slots.get? fd) :
    remaining fd next = remaining fd lending := by
  rw [remaining, remaining, honLoan, hslot]

/-- On a descriptor whose slot is not in flight nothing is on loan. -/
theorem Orderly.onFd_nil (h : lending.Orderly)
    (hslot : ¬ ∃ successor, lending.table.slots.get? fd = some (.inFlight successor)) :
    onFd fd (tickets lending.onLoan) = [] := by
  rw [h.inFlight_iff] at hslot
  refine onFd_other fun ticket hticket heq => hslot ?_
  obtain ⟨operation, hoperation, rfl⟩ := List.mem_map.mp hticket
  exact heq ▸ List.mem_map_of_mem hoperation

/-- Checking an operation out keeps its place. -/
theorem Orderly.remaining_checkOut (h : lending.Orderly) {other : Fd} {operation : Operation σ}
    (hslot : lending.table.slots.get? other = some (.pending operation)) (fd : Fd) :
    remaining fd ⟨lending.table.put other (.inFlight none), operation :: lending.onLoan⟩ =
      remaining fd lending := by
  obtain rfl : operation.fd = other := h.waiting_fd _ _ hslot
  by_cases hfd : operation.fd = fd
  · subst hfd
    have hfree : onFd operation.fd (tickets lending.onLoan) = [] :=
      h.onFd_nil fun ⟨successor, hsuccessor⟩ => by cases hslot.symm.trans hsuccessor
    have hhead : onFd operation.fd (tickets (operation :: lending.onLoan)) =
        operation.ticket :: onFd operation.fd (tickets lending.onLoan) :=
      List.filter_cons_of_pos (decide_eq_true rfl)
    rw [remaining, remaining, hhead, hfree, Outstanding.get?_put_same, hslot]
    rfl
  · refine remaining_congr ?_ (Outstanding.get?_put_other _ _ (Ne.symm hfd))
    exact List.filter_cons_of_neg fun heq => hfd (of_decide_eq_true heq)

section Loan

variable {before after : List (Operation σ)} {loan : Operation σ}

/-- Nothing else of its descriptor is on loan together with an operation. -/
theorem Orderly.onFd_others (h : lending.Orderly)
    (hloan : lending.onLoan = before ++ loan :: after) :
    onFd loan.fd (tickets (before ++ after)) = [] := by
  have hsingle := h.single
  rw [hloan, List.map_append, List.map_cons] at hsingle
  have hfree := (List.nodup_cons.mp (List.perm_middle.nodup hsingle)).1
  refine onFd_other fun ticket hticket heq => hfree ?_
  obtain ⟨operation, hoperation, rfl⟩ := List.mem_map.mp hticket
  rw [← List.map_append]
  exact heq ▸ List.mem_map_of_mem hoperation

/-- An operation on loan and the one that is parked behind it are all that remains of their
descriptor. -/
theorem Orderly.remaining_loan (h : lending.Orderly)
    (hloan : lending.onLoan = before ++ loan :: after) :
    remaining loan.fd lending =
      loan.ticket :: tickets (lending.table.parkedOn loan.fd).toList := by
  have hothers := h.onFd_others hloan
  rw [tickets_append, onFd_append, List.append_eq_nil_iff] at hothers
  have hloans : onFd loan.fd (tickets lending.onLoan) = [loan.ticket] := by
    have hhead : onFd loan.fd (tickets (loan :: after)) =
        loan.ticket :: onFd loan.fd (tickets after) :=
      List.filter_cons_of_pos (decide_eq_true rfl)
    rw [hloan, tickets_append, onFd_append, hhead, hothers.1, hothers.2]
    rfl
  obtain ⟨successor, hslot⟩ := h.slot_inFlight hloan
  rw [remaining, hloans, Outstanding.parkedOn, hslot]
  rfl

/-- Giving back a loan leaves the loans on other descriptors as they are. -/
theorem remaining_others {fd : Fd} (hloan : lending.onLoan = before ++ loan :: after)
    (hfd : loan.fd ≠ fd) :
    onFd fd (tickets (before ++ after)) = onFd fd (tickets lending.onLoan) := by
  have hdropped : onFd fd (tickets (loan :: after)) = onFd fd (tickets after) :=
    List.filter_cons_of_neg fun heq => hfd (of_decide_eq_true heq)
  rw [hloan, tickets_append, tickets_append, onFd_append, onFd_append, hdropped]

/-- A settlement takes what resolves out of the front of what remains. -/
theorem InLine.settle {history : List (Event σ)} (h : InLine fd history lending)
    (horderly : lending.Orderly) (hloan : lending.onLoan = before ++ loan :: after)
    {operation : Operation σ} (hticket : operation.ticket = loan.ticket) {direction : Direction}
    {attempt : Attempt} {exchanges : List (Exchange σ)} {resolved : List (Resolved σ)}
    {kept : Option (Operation σ)}
    (haftermath : Outstanding.Aftermath direction operation attempt
      (lending.table.parkedOn operation.fd) resolved kept) :
    InLine fd
      (.settled operation attempt (lending.table.parkedOn operation.fd) exchanges (.ok resolved) ::
        history)
      ⟨(lending.table.erase operation.fd).keep operation.fd kept, before ++ after⟩ := by
  have hthins := thins_of_aftermath haftermath
  have hsame : operation.fd = loan.fd := congrArg Ticket.fd hticket
  -- only the descriptor of the operation is affected
  have hresolved : ∀ ticket ∈ resolved.map Resolved.ticket, ticket.fd = operation.fd := by
    intro ticket hresolved
    rcases List.mem_cons.mp (hthins.sublist.subset (List.mem_append_left _ hresolved)) with
      rfl | hparked
    · rfl
    · obtain ⟨next, hnext, rfl⟩ := List.mem_map.mp hparked
      exact horderly.parkedOn_fd (Option.mem_toList.mp hnext)
  by_cases hfd : operation.fd = fd
  · subst hfd
    refine h.advance rfl ?_
    have hnext : remaining operation.fd
        ⟨(lending.table.erase operation.fd).keep operation.fd kept, before ++ after⟩ =
          tickets kept.toList := by
      rw [remaining, Outstanding.get?_erase_keep_same, hsame, horderly.onFd_others hloan]
      cases kept <;> rfl
    rw [hnext]
    show Thins (onFd operation.fd (resolved.map Resolved.ticket) ++ _) _
    rw [onFd_same hresolved, hsame, horderly.remaining_loan hloan, ← hticket, ← hsame]
    exact hthins
  · refine h.elsewhere (List.forall_mem_nil _) (fun ticket hmem heq => hfd ?_) ?_
    · exact (hresolved ticket hmem).symm.trans heq
    · exact remaining_congr (remaining_others hloan (hsame ▸ hfd))
        (Outstanding.get?_erase_keep_other _ _ (Ne.symm hfd))

end Loan

end Remaining

/-! ## Lines of all runs -/

section Runs

variable {sources : Source → Prop} {direction : Direction}
  {history : List (Event (Numbered σ))} {lending : Lending (Numbered σ)} {fd : Fd}

/-- In every run the operations of a descriptor stand in line. -/
theorem Run.inLine (h : Run sources direction history lending) (fd : Fd) :
    InLine fd history lending := by
  induction h with
  | opened => exact .refl _
  | @submit _ lending _ result _ hrun operation policy source hsource hsubmit ih =>
      have hcases := Outstanding.submit_cases hsubmit
      cases result with
      | error error =>
          obtain rfl := hcases.refusal
          exact ih.advance rfl (.refl _)
      | ok displaced =>
          obtain ⟨slot, hadmission, rfl⟩ := hcases.admission
          by_cases hfd : operation.fd = fd
          · subst hfd
            exact ih.submit rfl hadmission.takes_over.1
          · refine ih.elsewhere ?_ (List.forall_mem_nil _) (remaining_congr rfl ?_)
            · intro ticket hticket
              obtain rfl := List.mem_singleton.mp hticket
              exact hfd
            · exact Outstanding.get?_put_other _ _ (Ne.symm hfd)
  | @checkOut _ lending _ _ hrun other hcheck ih =>
      obtain ⟨hslot, rfl⟩ := Outstanding.checkOut_eq_some.mp hcheck
      refine ih.advance rfl ?_
      rw [hrun.orderly.remaining_checkOut hslot fd]
      exact .refl _
  | passOver _ _ _ ih => exact ih.advance rfl (.refl _)
  | settle hrun operation attempt _ _ hloan hticket hsettle ih =>
      obtain ⟨resolved, kept, rfl, haftermath, rfl⟩ :=
        hrun.orderly.aftermath hloan hticket hsettle
      exact ih.settle hrun.orderly hloan hticket haftermath

/-! ## Who is missing from a line -/

/-- What is stored on a descriptor belongs there. -/
theorem Orderly.stored_fd {lending : Lending σ} (h : lending.Orderly) {operation : Operation σ}
    (hstored : (lending.table.slots.get? fd).bind Slot.stored? = some operation) :
    operation.fd = fd := by
  obtain ⟨slot, hslot, hoperation⟩ := Option.bind_eq_some_iff.mp hstored
  cases slot with
  | pending waiting =>
      cases hoperation
      exact h.waiting_fd _ _ hslot
  | inFlight successor =>
      obtain rfl : successor = some operation := hoperation
      exact h.parked_fd _ _ hslot

/-- The operations in the slots of a table and those on loan are the ones that it answers for. -/
theorem mem_outstanding {lending : Lending σ} {ticket : Ticket σ} :
    ticket ∈ lending.outstanding ↔
      ticket ∈ tickets lending.onLoan ∨
        ticket ∈ tickets (lending.table.picked Slot.stored?) := by
  have hstored := (lending.table.picked_stored_perm.map Operation.ticket).mem_iff (a := ticket)
  rw [List.map_append, List.mem_append] at hstored
  rw [outstanding, List.mem_append, List.mem_append]
  constructor
  · rintro ((hwaiting | hloan) | hparked)
    · exact .inr (hstored.mpr (.inl hwaiting))
    · exact .inl hloan
    · exact .inr (hstored.mpr (.inr hparked))
  · rintro (hloan | hslot)
    · exact .inl (.inr hloan)
    · exact (hstored.mp hslot).imp .inl id

/-- The operations of a descriptor stand in line unless they have been displaced or dropped. -/
theorem Orderly.mem_line {lending : Lending σ} {history : List (Event σ)} {ticket : Ticket σ}
    (h : lending.Orderly) :
    ticket ∈ line fd history lending ↔
      ticket.fd = fd ∧ (ticket ∈ resolved history ∨ ticket ∈ lending.outstanding) := by
  rw [line, remaining, List.mem_append, List.mem_append, mem_onFd, mem_onFd,
    (completed_perm history).mem_iff, mem_outstanding]
  have hstored : ticket ∈ tickets ((lending.table.slots.get? fd).bind Slot.stored?).toList ↔
      ticket ∈ tickets (lending.table.picked Slot.stored?) ∧ ticket.fd = fd := by
    constructor
    · intro hticket
      obtain ⟨operation, hoperation, rfl⟩ := List.mem_map.mp hticket
      have hslot := Option.mem_toList.mp hoperation
      exact ⟨List.mem_map_of_mem (Outstanding.mem_picked_of_slot hslot), h.stored_fd hslot⟩
    · rintro ⟨hticket, hfd⟩
      obtain ⟨operation, hoperation, rfl⟩ := List.mem_map.mp hticket
      obtain ⟨other, hslot⟩ := Outstanding.exists_slot_of_mem_picked hoperation
      obtain rfl : other = fd := (h.stored_fd hslot).symm.trans hfd
      exact List.mem_map_of_mem (Option.mem_toList.mpr hslot)
  rw [hstored, ← or_and_right, ← or_and_right, and_comm]

/-- The accepted operations of a descriptor are numbered in the order in which they are listed. -/
theorem Run.accepted_increasing (h : Run sources direction history lending) (fd : Fd) :
    ((acceptedOn fd history).map Ticket.number).Pairwise (· < ·) := by
  have hsublist := ((accepted_sublist_offered history).map Ticket.number).reverse
  rw [h.number_offered, List.reverse_reverse, ← List.map_reverse] at hsublist
  exact (List.pairwise_lt_range.sublist hsublist).sublist (List.filter_sublist.map _)

/-- The operations in a line are numbered in its order. -/
theorem Run.line_increasing (h : Run sources direction history lending) (fd : Fd) :
    ((line fd history lending).map Ticket.number).Pairwise (· < ·) :=
  (h.accepted_increasing fd).sublist ((h.inLine fd).sublist.map _)

/-- An accepted operation stands in line, or was displaced or dropped. -/
theorem Run.mem_line_or_lost (h : Run sources direction history lending)
    {ticket : Ticket (Numbered σ)} (hticket : ticket ∈ accepted history) (hfd : ticket.fd = fd) :
    ticket ∈ line fd history lending ∨ ticket ∈ displaced history ∨ ticket ∈ dropped history := by
  have hwhere := h.whereabouts_perm.mem_iff.mpr hticket
  rw [whereabouts, List.mem_append, List.mem_append, List.mem_append] at hwhere
  rw [h.orderly.mem_line]
  rcases hwhere with ((houtstanding | hdisplaced) | hdropped) | hresolved
  · exact .inl ⟨hfd, .inr houtstanding⟩
  · exact .inr (.inl hdisplaced)
  · exact .inr (.inr hdropped)
  · exact .inl ⟨hfd, .inl hresolved⟩

/-- No operation is in two places. -/
theorem Run.nodup_whereabouts (h : Run sources direction history lending) :
    ((whereabouts history lending).map Ticket.number).Nodup :=
  (h.whereabouts_perm.map Ticket.number).nodup_iff.mpr
    (h.nodup_offered.sublist ((accepted_sublist_offered history).map Ticket.number))

/-- Who stands in line has been neither displaced nor dropped. -/
theorem Run.not_lost (h : Run sources direction history lending)
    {ticket : Ticket (Numbered σ)} (hticket : ticket ∈ line fd history lending) :
    ticket ∉ displaced history ∧ ticket ∉ dropped history := by
  have hsplit : (whereabouts history lending).Perm
      ((resolved history ++ lending.outstanding) ++ (displaced history ++ dropped history)) := by
    rw [whereabouts, List.append_assoc lending.outstanding, List.append_assoc (resolved history)]
    exact List.perm_append_comm
  have hapart := (hsplit.map Ticket.number).nodup h.nodup_whereabouts
  rw [List.map_append, List.nodup_append] at hapart
  have hplace := (h.orderly.mem_line.mp hticket).2
  have hnumber := List.mem_map_of_mem (f := Ticket.number) (List.mem_append.mpr hplace)
  constructor
  · intro hlost
    exact hapart.2.2 _ hnumber _ (List.mem_map_of_mem (List.mem_append_left _ hlost)) rfl
  · intro hlost
    exact hapart.2.2 _ hnumber _ (List.mem_map_of_mem (List.mem_append_right _ hlost)) rfl

/-- Whoever was accepted before one in a line stands in front of it, or was displaced or
dropped. -/
theorem Run.in_front_or_lost (h : Run sources direction history lending)
    {front rest : List (Ticket (Numbered σ))} {ticket : Ticket (Numbered σ)}
    (hline : line fd history lending = front ++ ticket :: rest) :
    ∃ before behind, acceptedOn fd history = before ++ ticket :: behind ∧
      ∀ other ∈ before, other ∈ front ∨ other ∈ displaced history ∨ other ∈ dropped history := by
  have hmem : ticket ∈ acceptedOn fd history := by
    refine (h.inLine fd).sublist.subset ?_
    rw [hline]
    exact List.mem_append_right _ List.mem_cons_self
  obtain ⟨before, behind, haccepted⟩ := List.append_of_mem hmem
  refine ⟨before, behind, haccepted, fun other hother => ?_⟩
  have hlisted : other ∈ acceptedOn fd history := haccepted ▸ List.mem_append_left _ hother
  obtain ⟨hreversed, hfd⟩ := mem_onFd.mp hlisted
  rcases h.mem_line_or_lost (List.mem_reverse.mp hreversed) hfd with hstands | hlost
  · -- both lists are in the order of their numbers
    have hnumbers := h.accepted_increasing fd
    rw [haccepted, List.map_append, List.pairwise_append] at hnumbers
    have hearlier := hnumbers.2.2 _ (List.mem_map_of_mem hother) _ List.mem_cons_self
    have hincreasing := h.line_increasing fd
    rw [hline, List.map_append, List.map_cons, List.pairwise_append] at hincreasing
    rw [hline, List.mem_append, List.mem_cons] at hstands
    rcases hstands with hfront | rfl | hrest
    · exact .inl hfront
    · exact absurd hearlier (Nat.lt_irrefl _)
    · have hlater := List.rel_of_pairwise_cons hincreasing.2.1 (List.mem_map_of_mem hrest)
      exact absurd (Nat.lt_trans hearlier hlater) (Nat.lt_irrefl _)
  · exact .inr hlost

/-! ## Loans -/

/-- The operations that have been checked out and have not come back, the last one first. -/
def lent : List (Event (Numbered σ)) → List (Ticket (Numbered σ))
  | [] => []
  | .checkedOut _ (some operation) :: history => operation.ticket :: lent history
  | .settled operation _ _ _ _ :: history =>
      (lent history).filter fun ticket => ticket.number ≠ operation.ticket.number
  | _ :: history => lent history

/-- They are the ones on loan. -/
theorem Run.lent_eq (h : Run sources direction history lending) :
    lent history = tickets lending.onLoan := by
  induction h with
  | opened => rfl
  | submit _ _ _ _ _ _ ih | passOver _ _ _ ih => exact ih
  | checkOut _ _ _ ih =>
      rw [lent, ih]
      rfl
  | @settle history lending before after loan _ _ _ hrun operation _ _ _ hloan hticket _ ih =>
      have honLoan : (tickets lending.onLoan).Sublist (whereabouts history lending) := by
        simp only [whereabouts, outstanding, List.append_assoc]
        exact (List.sublist_append_left _ _).trans (List.sublist_append_right _ _)
      have hsingle := hrun.nodup_whereabouts.sublist (honLoan.map Ticket.number)
      rw [hloan, tickets_append, tickets_cons, List.map_append, List.map_cons] at hsingle
      have hfree := (List.nodup_cons.mp (List.perm_middle.nodup hsingle)).1
      rw [← List.map_append] at hfree
      -- no other loan has the number of the one that has come back
      have hothers : (tickets before ++ tickets after).filter
          (fun ticket => ticket.number ≠ loan.ticket.number) =
            tickets before ++ tickets after := by
        refine List.filter_eq_self.mpr fun ticket hmem => decide_eq_true fun heq => hfree ?_
        exact heq ▸ List.mem_map_of_mem hmem
      rw [lent, ih, hloan, hticket, tickets_append, tickets_append, tickets_cons,
        List.filter_append, List.filter_cons_of_neg (by simp), ← List.filter_append]
      exact hothers

/-! ## The operation that was accepted last -/

/-- Where the operation of a descriptor is that was accepted last. -/
inductive Placed (fd : Fd) (history : List (Event (Numbered σ))) (table : Outstanding (Numbered σ))
    (ticket : Ticket (Numbered σ)) : Prop where
  | resolved (hresolved : ticket ∈ Lending.resolved history)
  | waits {operation : Operation (Numbered σ)} (hticket : operation.ticket = ticket)
      (hslot : table.slots.get? fd = some (.pending operation))
  | parked {operation : Operation (Numbered σ)} (hticket : operation.ticket = ticket)
      (hslot : table.slots.get? fd = some (.inFlight (some operation)))
  | onLoan (hloan : ticket ∈ lent history) (hslot : table.slots.get? fd = some (.inFlight none))

/-- The operation that was accepted last has resolved or is stored in the slot of its descriptor,
or it is on loan and nothing is parked behind it. -/
theorem Run.newest_placed (h : Run sources direction history lending)
    {ticket : Ticket (Numbered σ)}
    (hnewest : (acceptedOn fd history).getLast? = some ticket) :
    ticket ∉ displaced history ∧ ticket ∉ dropped history ∧
      Placed fd history lending.table ticket := by
  have hlast : (line fd history lending).getLast? = some ticket := (h.inLine fd).last.trans hnewest
  obtain ⟨hdisplaced, hdropped⟩ := h.not_lost (List.mem_of_getLast? hlast)
  refine ⟨hdisplaced, hdropped, ?_⟩
  have horderly := h.orderly
  have hstored : ∀ operation, (lending.table.slots.get? fd).bind Slot.stored? = some operation →
      operation.ticket = ticket := by
    intro operation hoperation
    rw [line, remaining, hoperation, ← List.append_assoc] at hlast
    exact Option.some.inj (List.getLast?_concat.symm.trans hlast)
  cases hslot : lending.table.slots.get? fd with
  | none =>
      -- nothing of the descriptor remains, so the last one in line has resolved
      have hloans : onFd fd (tickets lending.onLoan) = [] :=
        horderly.onFd_nil fun ⟨successor, hsuccessor⟩ => by cases hslot.symm.trans hsuccessor
      rw [line, remaining, hloans, hslot, List.nil_append] at hlast
      have hcompleted := List.mem_of_getLast? hlast
      rw [Option.bind_none, Option.toList_none, tickets_nil, List.append_nil, mem_onFd,
        (completed_perm history).mem_iff] at hcompleted
      exact .resolved hcompleted.1
  | some slot =>
      rw [hslot] at hstored
      cases slot with
      | pending operation => exact .waits (hstored operation rfl) hslot
      | inFlight successor =>
          cases successor with
          | some operation => exact .parked (hstored operation rfl) hslot
          | none =>
              obtain ⟨loan, hmem, rfl⟩ := List.mem_map.mp ((horderly.inFlight_iff fd).mp ⟨_, hslot⟩)
              obtain ⟨before, after, hloan⟩ := List.append_of_mem hmem
              have hparked : lending.table.parkedOn loan.fd = none := by
                rw [Outstanding.parkedOn, hslot]
                rfl
              rw [line, horderly.remaining_loan hloan, hparked] at hlast
              have hticket : loan.ticket = ticket :=
                Option.some.inj (List.getLast?_concat.symm.trans hlast)
              refine .onLoan ?_ hslot
              rw [h.lent_eq, ← hticket]
              exact List.mem_map_of_mem hmem

end Runs

end Lending

end Proactor
