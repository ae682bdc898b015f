import Proactor.Proofs.Ordering

/-!
# Tables where nothing is overwritten

A submission under the policy `reject` takes only a slot that is free, or one
whose operation can never complete because its registration has vanished.
`Run.honoured` says what this comes to when all submissions of a history are
under that policy: nothing is ever parked or dropped, and an accepted operation
is alone on its descriptor until it resolves or its registration vanishes.
-/

namespace Proactor

/-! ## Single submissions -/

namespace Source

variable {σ : Type} {source : Source} {change : Fd → RawEvent → Control} {fd : Fd}
  {event : RawEvent} {exchanges : List (Exchange σ)}

/-- A change that succeeds has made its call. -/
theorem Changed.eq_of_ok (h : source.Changed change fd event exchanges (.ok ())) :
    exchanges = [⟨.control source.descriptor (change fd event), .ok ()⟩] := by
  generalize hresult : (.ok () : Except Fault Unit) = result at h
  cases h with
  | refused => cases hresult
  | asked _ _ answer =>
      cases answer with
      | ok value => rfl
      | error errno => cases hresult

/-- A change that fails has made its call, unless the descriptor or the source is a bad one. -/
theorem Changed.of_error {errno : Errno}
    (h : source.Changed change fd event exchanges (.error (.system errno))) :
    exchanges = [⟨.control source.descriptor (change fd event), .error errno⟩] ∨
      exchanges = [] ∧ errno = .badDescriptor := by
  generalize hresult : (.error (.system errno) : Except Fault Unit) = result at h
  cases h with
  | refused =>
      cases hresult
      exact .inr ⟨rfl, rfl⟩
  | asked _ _ answer =>
      cases answer with
      | ok value => cases hresult
      | error errno =>
          cases hresult
          exact .inl rfl

/-- A change without an entry has made its call. -/
theorem Changed.eq_of_noEntry
    (h : source.Changed change fd event exchanges (.error (.system .noEntry))) :
    exchanges = [⟨.control source.descriptor (change fd event), .error .noEntry⟩] := by
  rcases h.of_error with hasked | ⟨-, hrefused⟩
  · exact hasked
  · cases hrefused

end Source

namespace Outstanding

variable {σ : Type} {table left : Outstanding σ} {operation : Operation σ} {source : Source}
  {exchanges : List (Exchange σ)}

/-- The call that asks for a registration that is to be there already, and its answer. -/
def examined (table : Outstanding σ) (fd : Fd) (source : Source) (answer : Except Errno Unit) :
    Exchange σ :=
  ⟨.control source.descriptor (.modify fd (table.event fd)), answer⟩

/-- A submission that is accepted without overwriting finds a slot that is free or holds the
operation that it displaces. -/
theorem Submission.admission_reject {displaced : Option (Operation σ)}
    (h : table.Submission operation .reject source exchanges (.ok displaced, left)) :
    table.slots.get? operation.fd = displaced.map .pending ∧
      left = table.put operation.fd (.pending operation) := by
  cases h with
  | stored hslot => exact ⟨hslot, rfl⟩
  | replaced _ _ hpolicy => cases hpolicy
  | reused hslot => exact ⟨hslot, rfl⟩
  | parked _ hpolicy => cases hpolicy

/-- It displaces only an operation whose registration has vanished, and only after it has armed
the descriptor anew. -/
theorem Submission.displaces_reject {displaced : Operation σ}
    (h : table.Submission operation .reject source exchanges (.ok (some displaced), left)) :
    ∃ armed, source.Tried .add .modify .alreadyExists operation.fd (table.event operation.fd)
        armed (.ok ()) ∧
      exchanges = table.examined operation.fd source (.error .noEntry) :: armed ++
        [⟨.log (.descriptorReused operation.fd table.direction), ()⟩] := by
  cases h with
  | replaced _ _ hpolicy => cases hpolicy
  | reused _ hmodify harm =>
      rw [hmodify.eq_of_noEntry]
      exact ⟨_, harm, rfl⟩
  | parked _ hpolicy => cases hpolicy

/-- A descriptor is busy while a transfer is under way on it, and while an operation waits there
whose registration is found. -/
theorem Submission.busy_iff {result : Except ReactorError (Option (Operation σ))}
    (h : table.Submission operation .reject source exchanges (result, left)) :
    result = .error (.busy operation.fd table.direction) ↔
      (∃ successor, table.slots.get? operation.fd = some (.inFlight successor)) ∨
        (∃ current, table.slots.get? operation.fd = some (.pending current)) ∧
          exchanges.head? = some (table.examined operation.fd source (.ok ())) := by
  cases h with
  | stored hslot harm => simp [hslot]
  | unarmed hslot harm => simp [hslot]
  | busy hslot hmodify =>
      rw [hmodify.eq_of_ok]
      simp [hslot, examined]
  | replaced _ _ hpolicy => cases hpolicy
  | reused hslot hmodify =>
      rw [hmodify.eq_of_noEntry]
      simp [hslot, examined]
  | vanished hslot hmodify =>
      rw [hmodify.eq_of_noEntry]
      simp [hslot, examined]
  | failed hslot hmodify herrno =>
      rcases hmodify.of_error with rfl | ⟨rfl, -⟩
      · simp [hslot, examined]
      · simp [hslot]
  | occupied hslot => simp [hslot]
  | parked _ hpolicy => cases hpolicy

/-- A submission on a free slot is accepted when its descriptor can be armed. -/
theorem submit_returns_of_arm {policy : OverlapPolicy}
    (hslot : table.slots.get? operation.fd = none)
    (harm : (source.arm operation.fd operation.fd.key table.interest).Returns exchanges (.ok ())) :
    (table.submit operation policy source).Returns exchanges
      (.ok none, table.put operation.fd (.pending operation)) := by
  have harmFor : (table.armFor operation.fd source).Returns exchanges (.ok ()) := by
    refine Program.returns_bind.mpr ⟨_, _, _, (List.append_nil _).symm, harm, ?_⟩
    exact Program.returns_pure.mpr ⟨rfl, rfl⟩
  unfold submit
  rw [hslot]
  refine Program.returns_bind.mpr ⟨_, _, _, (List.append_nil _).symm, harmFor, ?_⟩
  exact Program.returns_pure.mpr ⟨rfl, rfl⟩

/-! ### Tables where nothing is parked -/

/-- Nothing is parked on any descriptor. -/
def Unparked (table : Outstanding σ) : Prop :=
  ∀ fd, table.parkedOn fd = none

namespace Unparked

/-- In an empty table nothing is parked. -/
theorem empty (direction : Direction) : (Outstanding.empty direction : Outstanding σ).Unparked :=
  fun _ => rfl

/-- Nothing is parked in a table after a slot was put into it that parks nothing. -/
theorem put (h : table.Unparked) {fd : Fd} {slot : Slot σ} (hslot : slot.parked? = none) :
    (table.put fd slot).Unparked := by
  intro other
  by_cases hother : other = fd
  · subst hother
    rw [parkedOn, get?_put_same]
    exact hslot
  · rw [parkedOn, get?_put_other _ _ hother]
    exact h other

/-- Nothing is parked in a table after one of its slots was emptied. -/
theorem erase (h : table.Unparked) {fd : Fd} : (table.erase fd).Unparked := by
  intro other
  by_cases hother : other = fd
  · subst hother
    rw [parkedOn, get?_erase_same]
    rfl
  · rw [parkedOn, get?_erase_other _ hother]
    exact h other

/-- Nothing is parked in a table after it has kept an operation, or none. -/
theorem keep (h : table.Unparked) {fd : Fd} (kept : Option (Operation σ)) :
    ((table.erase fd).keep fd kept).Unparked := by
  cases kept with
  | none => exact h.erase
  | some operation => exact h.erase.put rfl

end Unparked

end Outstanding

/-! ## Histories without overwriting -/

namespace Lending

variable {σ : Type}

/-- A call that is no submission which might overwrite an operation. -/
def Event.Rejects : Event σ → Prop
  | submitted _ policy _ _ => policy = .reject
  | _ => True

/-- All submissions of a history are under the policy `reject`. -/
def Rejecting (history : List (Event σ)) : Prop :=
  ∀ event ∈ history, event.Rejects

/-- A history rejects if its last event and all earlier ones do. -/
theorem rejecting_cons {event : Event σ} {history : List (Event σ)} :
    Rejecting (event :: history) ↔ event.Rejects ∧ Rejecting history :=
  List.forall_mem_cons

/-- The earlier part of a history that rejects does so, too. -/
theorem Rejecting.of_append {later earlier : List (Event σ)} (h : Rejecting (later ++ earlier)) :
    Rejecting earlier :=
  (List.forall_mem_append.mp h).2

/-- A descriptor of which nothing remains has no slot. -/
theorem Orderly.slot_free {lending : Lending σ} (h : lending.Orderly) {fd : Fd}
    (hnothing : remaining fd lending = []) : lending.table.slots.get? fd = none := by
  cases hslot : lending.table.slots.get? fd with
  | none => rfl
  | some slot =>
      cases slot with
      | pending operation =>
          rw [remaining, hslot] at hnothing
          simp [Slot.stored?] at hnothing
      | inFlight successor =>
          obtain ⟨loan, hmem, rfl⟩ := List.mem_map.mp ((h.inFlight_iff fd).mp ⟨_, hslot⟩)
          obtain ⟨before, after, hloan⟩ := List.append_of_mem hmem
          rw [h.remaining_loan hloan] at hnothing
          cases hnothing

/-- What two parts of a history have added is what the later and what the earlier one have. -/
theorem accepted_append (later earlier : List (Event σ)) :
    accepted (later ++ earlier) = accepted later ++ accepted earlier := by
  simp [accepted]

/-- What two parts of a history have handed back is what the later and what the earlier one have. -/
theorem displaced_append (later earlier : List (Event σ)) :
    displaced (later ++ earlier) = displaced later ++ displaced earlier := by
  simp [displaced]

/-- What has resolved in two parts of a history is what has in the later and in the earlier one. -/
theorem resolved_append (later earlier : List (Event σ)) :
    resolved (later ++ earlier) = resolved later ++ resolved earlier := by
  simp [resolved]

section Runs

variable {sources : Source → Prop} {direction : Direction}
  {history : List (Event (Numbered σ))} {lending : Lending (Numbered σ)} {fd : Fd}

/-- Every history has begun with each of its earlier parts. -/
theorem Run.earlier {later earlier : List (Event (Numbered σ))}
    (h : Run sources direction (later ++ earlier) lending) :
    ∃ before, Run sources direction earlier before := by
  induction later generalizing lending with
  | nil => exact ⟨lending, h⟩
  | cons event later ih =>
      cases h with
      | submit hrun => exact ih hrun
      | checkOut hrun => exact ih hrun
      | passOver hrun => exact ih hrun
      | settle hrun => exact ih hrun

/-- Without overwriting nothing is parked. -/
theorem Run.unparked (h : Run sources direction history lending) (hreject : Rejecting history) :
    lending.table.Unparked := by
  induction h with
  | opened => exact .empty direction
  | @submit _ _ _ result _ _ _ _ _ _ hsubmit ih =>
      obtain ⟨rfl, hearlier⟩ := rejecting_cons.mp hreject
      have hbefore := ih hearlier
      have hcases := Outstanding.submit_cases hsubmit
      cases result with
      | error error =>
          obtain rfl := hcases.refusal
          exact hbefore
      | ok displaced =>
          obtain ⟨-, rfl⟩ := hcases.admission_reject
          exact hbefore.put rfl
  | checkOut _ _ hcheck ih =>
      obtain ⟨-, rfl⟩ := Outstanding.checkOut_eq_some.mp hcheck
      exact (ih (rejecting_cons.mp hreject).2).put rfl
  | passOver _ _ _ ih => exact ih (rejecting_cons.mp hreject).2
  | settle hrun _ _ _ _ hloan hticket hsettle ih =>
      obtain ⟨_, kept, -, -, rfl⟩ := hrun.orderly.aftermath hloan hticket hsettle
      exact (ih (rejecting_cons.mp hreject).2).keep kept

/-- Without overwriting nothing takes over from an operation that comes back. -/
theorem Run.settled_unparked (h : Run sources direction history lending)
    (hreject : Rejecting history) {operation : Operation (Numbered σ)} {attempt : Attempt}
    {successor : Option (Operation (Numbered σ))} {exchanges : List (Exchange (Numbered σ))}
    {result : Except Panic (List (Resolved (Numbered σ)))}
    (hevent : .settled operation attempt successor exchanges result ∈ history) :
    successor = none := by
  obtain ⟨later, earlier, rfl⟩ := List.append_of_mem hevent
  obtain ⟨after, hafter⟩ := h.earlier
  cases hafter with
  | settle hrun => exact hrun.unparked (rejecting_cons.mp hreject.of_append).2 _

/-- Without overwriting nothing is dropped. -/
theorem Run.undropped (h : Run sources direction history lending) (hreject : Rejecting history) :
    dropped history = [] := by
  have hevents : history.flatMap Event.dropped = [] := by
    refine List.flatMap_eq_nil_iff.mpr fun event hevent => ?_
    cases event with
    | submitted | checkedOut => rfl
    | settled operation attempt successor exchanges result =>
        obtain rfl := h.settled_unparked hreject hevent
        cases attempt <;> rfl
  rw [dropped, hevents]
  rfl

/-- Without overwriting at most one operation of a descriptor remains. -/
theorem Run.remaining_single (h : Run sources direction history lending)
    (hreject : Rejecting history) (fd : Fd) : (remaining fd lending).length ≤ 1 := by
  have horderly := h.orderly
  cases hslot : lending.table.slots.get? fd with
  | none =>
      have hidle : ¬ ∃ successor, lending.table.slots.get? fd = some (.inFlight successor) := by
        simp [hslot]
      simp [remaining, hslot, horderly.onFd_nil hidle]
  | some slot =>
      cases slot with
      | pending operation =>
          have hidle : ¬ ∃ successor, lending.table.slots.get? fd = some (.inFlight successor) := by
            simp [hslot]
          simp [remaining, hslot, horderly.onFd_nil hidle, Slot.stored?]
      | inFlight successor =>
          obtain ⟨loan, hmem, rfl⟩ := List.mem_map.mp ((horderly.inFlight_iff fd).mp ⟨_, hslot⟩)
          obtain ⟨before, after, hloan⟩ := List.append_of_mem hmem
          rw [horderly.remaining_loan hloan, h.unparked hreject]
          exact Nat.le_refl 1

/-- What remains of a descriptor is what its table answers for there. -/
theorem Orderly.mem_remaining (h : lending.Orderly) {ticket : Ticket (Numbered σ)} :
    ticket ∈ remaining fd lending ↔ ticket.fd = fd ∧ ticket ∈ lending.outstanding := by
  have hline : line fd [] lending = remaining fd lending := rfl
  have hresolved : ticket ∉ resolved ([] : List (Event (Numbered σ))) := List.not_mem_nil
  rw [← hline, h.mem_line, or_iff_right hresolved]

/-- An operation on loan remains. -/
theorem Orderly.loan_remains (h : lending.Orderly) {before after : List (Operation (Numbered σ))}
    {loan : Operation (Numbered σ)} (hloan : lending.onLoan = before ++ loan :: after) :
    loan.ticket ∈ remaining loan.fd lending := by
  rw [h.remaining_loan hloan]
  exact List.mem_cons_self

/-- What a table answers for has neither been displaced nor resolved. -/
theorem Run.number_ne_ended (h : Run sources direction history lending)
    {ticket other : Ticket (Numbered σ)} (hticket : ticket ∈ lending.outstanding)
    (hended : other ∈ displaced history ∨ other ∈ resolved history) :
    ticket.number ≠ other.number := by
  have hnodup := h.nodup_whereabouts
  rw [whereabouts, List.append_assoc, List.append_assoc, List.map_append,
    List.nodup_append] at hnodup
  refine hnodup.2.2 _ (List.mem_map_of_mem hticket) _ (List.mem_map_of_mem ?_)
  rcases hended with hdisplaced | hresolved
  · exact List.mem_append_left _ hdisplaced
  · exact List.mem_append_right _ (List.mem_append_right _ hresolved)

/-- What has been displaced or has resolved does not remain. -/
theorem Run.not_remaining (h : Run sources direction history lending)
    {ticket : Ticket (Numbered σ)}
    (hended : ticket ∈ displaced history ∨ ticket ∈ resolved history) :
    ticket ∉ remaining fd lending := by
  intro hremains
  obtain ⟨-, houtstanding⟩ := h.orderly.mem_remaining.mp hremains
  exact h.number_ne_ended houtstanding hended rfl

/-- Without overwriting an accepted operation is alone on its descriptor until it is displaced or
has resolved. -/
theorem Run.stays (h : Run sources direction history lending) (hreject : Rejecting history)
    {ticket : Ticket (Numbered σ)} (haccepted : ticket ∈ accepted history)
    (hdisplaced : ticket ∉ displaced history) (hresolved : ticket ∉ resolved history) :
    remaining ticket.fd lending = [ticket] := by
  have hwhere := h.whereabouts_perm.mem_iff.mpr haccepted
  rw [whereabouts, h.undropped hreject, List.append_nil] at hwhere
  have houtstanding : ticket ∈ lending.outstanding := by
    simpa [hdisplaced, hresolved] using hwhere
  have hremains := h.orderly.mem_remaining.mpr ⟨rfl, houtstanding⟩
  obtain ⟨single, hsingle⟩ : ∃ single, remaining ticket.fd lending = [single] :=
    List.length_eq_one_iff.mp (Nat.le_antisymm (h.remaining_single hreject _)
      (List.length_pos_of_mem hremains))
  rw [hsingle, List.mem_singleton] at hremains
  rw [hsingle, hremains]

/-- Without overwriting the slot of an operation that has resolved is free until another one is
accepted. -/
theorem Run.free_after (h : Run sources direction history lending) (hreject : Rejecting history)
    {later earlier : List (Event (Numbered σ))} {operation : Operation (Numbered σ)}
    {attempt : Attempt} {successor : Option (Operation (Numbered σ))}
    {exchanges : List (Exchange (Numbered σ))} {completions : List (Resolved (Numbered σ))}
    (hhistory : history =
      later ++ .settled operation attempt successor exchanges (.ok completions) :: earlier)
    (hresolved : operation.ticket ∈ completions.map Resolved.ticket)
    (hlater : ∀ ticket ∈ accepted later, ticket.fd ≠ operation.fd) :
    lending.table.slots.get? operation.fd = none := by
  subst hhistory
  refine h.orderly.slot_free (List.eq_nil_iff_forall_not_mem.mpr fun ticket hremains => ?_)
  obtain ⟨hfd, houtstanding⟩ := h.orderly.mem_remaining.mp hremains
  -- another operation that remains was accepted before the settlement and has not ended since
  have haccepted : ticket ∈ accepted earlier := by
    have hall : ticket ∈ accepted (later ++
        .settled operation attempt successor exchanges (.ok completions) :: earlier) :=
      h.whereabouts_perm.mem_iff.mp (by simp [whereabouts, houtstanding])
    rw [accepted_append, List.mem_append] at hall
    exact hall.resolve_left fun hnew => hlater ticket hnew hfd
  have hended : ticket ∉ displaced earlier ∧ ticket ∉ resolved earlier := by
    constructor
    · intro hdisplaced
      refine h.not_remaining (.inl ?_) hremains
      rw [displaced_append]
      exact List.mem_append_right _ hdisplaced
    · intro hbefore
      refine h.not_remaining (.inr ?_) hremains
      rw [resolved_append, resolved_cons]
      exact List.mem_append_right _ (List.mem_append_right _ hbefore)
  obtain ⟨after, hafter⟩ := h.earlier
  cases hafter with
  | @settle _ _ _ _ loan _ _ _ hrun _ _ _ _ hloan hticket =>
      have halone := hrun.stays (rejecting_cons.mp hreject.of_append).2 haccepted hended.1 hended.2
      have hback := hrun.orderly.loan_remains hloan
      have hsame : operation.ticket = ticket := by
        have hplace : loan.fd = ticket.fd := (congrArg Ticket.fd hticket).symm.trans hfd.symm
        rw [hplace, halone, List.mem_singleton] at hback
        exact hticket.trans hback
      refine h.not_remaining (.inr ?_) hremains
      rw [resolved_append, resolved_cons, ← hsame]
      exact List.mem_append_right _ (List.mem_append_left _ hresolved)

/-- What a table is worth to those who submit without overwriting. -/
structure Honoured (direction : Direction) (history : List (Event (Numbered σ)))
    (lending : Lending (Numbered σ)) : Prop where
  /-- Nothing is parked. -/
  unparked : lending.table.Unparked
  /-- No settlement drops an operation. -/
  undropped : dropped history = []
  /-- A settlement finds nothing parked behind the operation that comes back, and hands back that
  one or nothing. -/
  settled : ∀ operation attempt successor exchanges result,
    .settled operation attempt successor exchanges result ∈ history →
      successor = none ∧
        (result = .ok [] ∨ ∃ fault, result = .ok [operation.resolve direction fault])
  /-- A descriptor is busy while a transfer is under way on it, and while an operation waits there
  whose registration is found. -/
  busy : ∀ operation source exchanges result left,
    (lending.table.submit operation .reject source).Returns exchanges (result, left) →
      (result = .error (.busy operation.fd direction) ↔
        (∃ successor, lending.table.slots.get? operation.fd = some (.inFlight successor)) ∨
          (∃ current, lending.table.slots.get? operation.fd = some (.pending current)) ∧
            exchanges.head? = some (lending.table.examined operation.fd source (.ok ())))
  /-- A submission displaces an operation only after the registration of that one was found to be
  missing and the descriptor has been armed anew. It then takes the slot. -/
  displaces : ∀ operation source exchanges displaced left,
    (lending.table.submit operation .reject source).Returns exchanges (.ok (some displaced), left) →
      lending.table.slots.get? operation.fd = some (.pending displaced) ∧
        left = lending.table.put operation.fd (.pending operation) ∧
        ∃ armed, source.Tried .add .modify .alreadyExists operation.fd
            (lending.table.event operation.fd) armed (.ok ()) ∧
          exchanges = lending.table.examined operation.fd source (.error .noEntry) :: armed ++
            [⟨.log (.descriptorReused operation.fd direction), ()⟩]
  /-- An accepted operation that has neither been displaced nor has resolved is the only one that
  remains of its descriptor. -/
  stays : ∀ ticket ∈ accepted history, ticket ∉ displaced history → ticket ∉ resolved history →
    remaining ticket.fd lending = [ticket]
  /-- No operation is displaced or resolves more than once, and none does both. -/
  once : ((displaced history ++ resolved history).map Ticket.number).Nodup
  /-- What has been displaced or has resolved does not remain. -/
  ended : ∀ ticket, ticket ∈ displaced history ∨ ticket ∈ resolved history →
    ticket ∉ remaining ticket.fd lending
  /-- After an operation has resolved, the next submission on its descriptor is accepted if it can
  arm it. -/
  released : ∀ later operation attempt successor exchanges completions earlier,
    history =
        later ++ .settled operation attempt successor exchanges (.ok completions) :: earlier →
      operation.ticket ∈ completions.map Resolved.ticket →
      (∀ ticket ∈ accepted later, ticket.fd ≠ operation.fd) →
      ∀ next source armed, next.fd = operation.fd →
        (source.arm next.fd next.fd.key lending.table.interest).Returns armed (.ok ()) →
        (lending.table.submit next .reject source).Returns armed
          (.ok none, lending.table.put next.fd (.pending next))

/-- Without overwriting, no accepted operation is given up for another one while its registration
is there. -/
theorem Run.honoured (h : Run sources direction history lending) (hreject : Rejecting history) :
    Honoured direction history lending := by
  constructor
  case unparked => exact h.unparked hreject
  case undropped => exact h.undropped hreject
  case settled =>
    intro operation attempt successor exchanges result hevent
    obtain rfl := h.settled_unparked hreject hevent
    obtain ⟨completions, kept, rfl, haftermath⟩ := h.settled_aftermath hevent
    refine ⟨rfl, ?_⟩
    cases haftermath with
    | finished fault => exact .inr ⟨fault, rfl⟩
    | continued => exact .inl rfl
    | continued_lost lost => exact .inr ⟨some lost, rfl⟩
  case busy =>
    intro operation source exchanges result left hsubmit
    rw [← h.direction_eq]
    exact (Outstanding.submit_cases hsubmit).busy_iff
  case displaces =>
    intro operation source exchanges displaced left hsubmit
    have hcases := Outstanding.submit_cases hsubmit
    obtain ⟨hslot, hleft⟩ := hcases.admission_reject
    rw [← h.direction_eq]
    exact ⟨hslot, hleft, hcases.displaces_reject⟩
  case stays =>
    intro ticket haccepted hdisplaced hresolved
    exact h.stays hreject haccepted hdisplaced hresolved
  case once =>
    have hnodup := h.nodup_whereabouts
    rw [whereabouts, h.undropped hreject, List.append_nil, List.append_assoc] at hnodup
    exact hnodup.sublist ((List.sublist_append_right _ _).map _)
  case ended =>
    intro ticket hended
    exact h.not_remaining hended
  case released =>
    intro later operation attempt successor exchanges completions earlier hhistory hresolved
      hlater next source armed hfd harm
    refine Outstanding.submit_returns_of_arm ?_ harm
    rw [hfd]
    exact h.free_after hreject hhistory hresolved hlater

/-- The first operation of a descriptor keeps its place until its registration is lost. The one
that displaces it is attempted, resolves, and leaves the slot to the next one. -/
theorem honoured_reused :
    ∃ (history : List (Event (Numbered Unit))) (lending : Lending (Numbered Unit)),
      Run (fun _ => True) .read history lending ∧ Rejecting history ∧
        (accepted history).map Ticket.number = [4, 2, 0] ∧
        (displaced history).map Ticket.number = [0] ∧
        (resolved history).map Ticket.number = [2] ∧
        Honoured .read history lending := by
  let source : Source := ⟨⟨3⟩, ⟨⟨4⟩, ⟨5⟩⟩, false⟩
  let operation : Operation Unit := .submitted ⟨7⟩ [1, 2] ⟨(), false⟩
  have hopened : Run (fun _ => True) .read [] (⟨.empty .read, []⟩ : Lending (Numbered Unit)) :=
    .opened
  have hstored := hopened.submit operation .reject source trivial ⟨.ok (), [], rfl, rfl, rfl⟩
  have hbusy := hstored.submit operation .reject source trivial ⟨.ok (), [], rfl, rfl, rfl⟩
  have hreused := hbusy.submit operation .reject source trivial
    ⟨.error .noEntry, _, rfl, .ok (), _, rfl, (), [], rfl, rfl, rfl⟩
  have hout := hreused.checkOut ⟨7⟩ rfl
  have hoccupied := hout.submit operation .reject source trivial ⟨rfl, rfl⟩
  have hback := hoccupied.settle (operation.numbered 2) (.finished none) source trivial
    (rfl : _ = [] ++ operation.numbered 2 :: []) rfl ⟨.ok (), [], rfl, rfl, rfl⟩
  have hnext := hback.submit operation .reject source trivial ⟨.ok (), [], rfl, rfl, rfl⟩
  refine ⟨_, _, hnext, ?hreject, rfl, rfl, rfl, hnext.honoured ?hreject⟩
  simp only [rejecting_cons, Event.Rejects, true_and]
  exact List.forall_mem_nil _

end Runs

end Lending

end Proactor
