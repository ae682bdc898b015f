import Proactor.Outstanding
import Proactor.Proofs.Registration

/-!
# What calls on a table come to

`submit_cases` and `settle_cases` list everything that a submission and a
settlement can do, with the calls that they make on the way. Later arguments
about tables go through these cases and do not look at the programs again.
-/

namespace Proactor

namespace Outstanding

variable {σ : Type} {table : Outstanding σ} {source : Source}

/-- The registration that the operations of a table ask for. -/
def event (table : Outstanding σ) (fd : Fd) : RawEvent :=
  ⟨fd.key, table.interest.mask⟩

/-- A table always waits for some side of its descriptors. -/
@[simp]
theorem isEmpty_interest (table : Outstanding σ) : table.interest.isEmpty = false :=
  Interest.isEmpty_ofDirection table.direction

/-- What a submission can come to: its exchanges, its result and the table that it leaves. -/
inductive Submission (table : Outstanding σ) (operation : Operation σ) (policy : OverlapPolicy)
    (source : Source) : List (Exchange σ) →
      Except ReactorError (Option (Operation σ)) × Outstanding σ → Prop where
  /-- Nothing waited on the descriptor, which could be armed. -/
  | stored {exchanges : List (Exchange σ)}
      (hslot : table.slots.get? operation.fd = none)
      (harm : source.Tried .add .modify .alreadyExists operation.fd (table.event operation.fd)
        exchanges (.ok ())) :
      Submission table operation policy source exchanges
        (.ok none, table.put operation.fd (.pending operation))
  /-- Nothing waited on the descriptor, which could not be armed. -/
  | unarmed {exchanges : List (Exchange σ)} {fault : Fault}
      (hslot : table.slots.get? operation.fd = none)
      (harm : source.Tried .add .modify .alreadyExists operation.fd (table.event operation.fd)
        exchanges (.error fault)) :
      Submission table operation policy source exchanges
        (.error (.submit operation.fd table.direction fault), table)
  /-- An operation waits on the descriptor and is not to be overwritten. -/
  | busy {exchanges : List (Exchange σ)} {current : Operation σ}
      (hslot : table.slots.get? operation.fd = some (.pending current))
      (hmodify : source.Changed .modify operation.fd (table.event operation.fd) exchanges (.ok ()))
      (hpolicy : policy = .reject) :
      Submission table operation policy source exchanges
        (.error (.busy operation.fd table.direction), table)
  /-- An operation that waited on the descriptor is overwritten. -/
  | replaced {exchanges : List (Exchange σ)} {current : Operation σ}
      (hslot : table.slots.get? operation.fd = some (.pending current))
      (hmodify : source.Changed .modify operation.fd (table.event operation.fd) exchanges (.ok ()))
      (hpolicy : policy = .overwrite) :
      Submission table operation policy source exchanges
        (.ok (some current), table.put operation.fd (.pending operation))
  /-- The registration of a waiting operation was gone and has been made again. -/
  | reused {exchanges others : List (Exchange σ)} {current : Operation σ}
      (hslot : table.slots.get? operation.fd = some (.pending current))
      (hmodify : source.Changed .modify operation.fd (table.event operation.fd) exchanges
        (.error (.system .noEntry)))
      (harm : source.Tried .add .modify .alreadyExists operation.fd (table.event operation.fd)
        others (.ok ())) :
      Submission table operation policy source
        (exchanges ++ others ++
          [⟨.log (.descriptorReused operation.fd table.direction), ()⟩])
        (.ok (some current), table.put operation.fd (.pending operation))
  /-- The registration of a waiting operation was gone and could not be made again. -/
  | vanished {exchanges others : List (Exchange σ)} {current : Operation σ} {fault : Fault}
      (hslot : table.slots.get? operation.fd = some (.pending current))
      (hmodify : source.Changed .modify operation.fd (table.event operation.fd) exchanges
        (.error (.system .noEntry)))
      (harm : source.Tried .add .modify .alreadyExists operation.fd (table.event operation.fd)
        others (.error fault)) :
      Submission table operation policy source (exchanges ++ others)
        (.error (.submit operation.fd table.direction fault), table)
  /-- The registration of a waiting operation could not be examined. -/
  | failed {exchanges : List (Exchange σ)} {current : Operation σ} {errno : Errno}
      (hslot : table.slots.get? operation.fd = some (.pending current))
      (hmodify : source.Changed .modify operation.fd (table.event operation.fd) exchanges
        (.error (.system errno)))
      (herrno : errno ≠ .noEntry) :
      Submission table operation policy source exchanges
        (.error (.submit operation.fd table.direction (.system errno)), table)
  /-- A transfer is under way on the descriptor and nothing is to be parked. -/
  | occupied {successor : Option (Operation σ)}
      (hslot : table.slots.get? operation.fd = some (.inFlight successor))
      (hpolicy : policy = .reject) :
      Submission table operation policy source []
        (.error (.busy operation.fd table.direction), table)
  /-- A transfer is under way on the descriptor and the operation is parked behind it. -/
  | parked {successor : Option (Operation σ)}
      (hslot : table.slots.get? operation.fd = some (.inFlight successor))
      (hpolicy : policy = .overwrite) :
      Submission table operation policy source []
        (.ok successor, table.put operation.fd (.inFlight (some operation)))

/-- What keeping an operation can come to: its exchanges, what has resolved and the table. -/
inductive Retention (table : Outstanding σ) (fd : Fd) (operation : Operation σ)
    (source : Source) : List (Exchange σ) → List (Resolved σ) × Outstanding σ → Prop where
  | kept {exchanges : List (Exchange σ)}
      (hrearm : source.Tried .modify .add .noEntry fd (table.event fd) exchanges (.ok ())) :
      Retention table fd operation source exchanges ([], table.put fd (.pending operation))
  | lost {exchanges others : List (Exchange σ)} {fault : Fault} {deletion : Except Fault Unit}
      (hrearm : source.Tried .modify .add .noEntry fd (table.event fd) exchanges (.error fault))
      (hdelete : source.Deleted fd others deletion) :
      Retention table fd operation source (exchanges ++ others)
        ([operation.resolve table.direction (some fault)], table)

/-- What disarming a descriptor can come to. -/
inductive Disarming (table : Outstanding σ) (fd : Fd) (source : Source) :
    List (Exchange σ) → Prop where
  | quiet {exchanges : List (Exchange σ)} {deletion : Except Fault Unit}
      (hdelete : source.Deleted fd exchanges deletion)
      (hresult : deletion = .ok () ∨ deletion = .error (.system .noEntry)) :
      Disarming table fd source exchanges
  | logged {exchanges : List (Exchange σ)} {errno : Errno}
      (hdelete : source.Deleted fd exchanges (.error (.system errno)))
      (herrno : errno ≠ .noEntry) :
      Disarming table fd source
        (exchanges ++ [⟨.log (.disarmFailed fd table.direction (.system errno)), ()⟩])

/-- What a settlement can come to: its exchanges, its result and the table that it leaves. -/
inductive Settlement (table : Outstanding σ) (operation : Operation σ) (source : Source) :
    Attempt → List (Exchange σ) → Except Panic (List (Resolved σ)) × Outstanding σ → Prop where
  /-- The operation was not checked out of the table. -/
  | misplaced {attempt : Attempt} {current : Operation σ}
      (hslot : table.slots.get? operation.fd = some (.pending current)) :
      Settlement table operation source attempt []
        (.error (.slotPending operation.fd), table.erase operation.fd)
  /-- A finished operation makes room for its successor. -/
  | succeeded {fault : Option Fault} {next : Operation σ} {cleared left : Outstanding σ}
      {exchanges : List (Exchange σ)} {resolved : List (Resolved σ)}
      (hslot : table.checkIn operation.fd = (.ok (some next), cleared))
      (hkeep : cleared.Retention operation.fd next source exchanges (resolved, left)) :
      Settlement table operation source (.finished fault) exchanges
        (.ok (operation.resolve table.direction fault :: resolved), left)
  /-- A finished operation leaves nothing behind. -/
  | finished {fault : Option Fault} {cleared : Outstanding σ} {exchanges : List (Exchange σ)}
      (hslot : table.checkIn operation.fd = (.ok none, cleared))
      (hdisarm : cleared.Disarming operation.fd source exchanges) :
      Settlement table operation source (.finished fault) exchanges
        (.ok [operation.resolve table.direction fault], cleared)
  /-- An unfinished operation is dropped in favour of its successor. -/
  | dropped {next : Operation σ} {cleared left : Outstanding σ} {exchanges : List (Exchange σ)}
      {resolved : List (Resolved σ)}
      (hslot : table.checkIn operation.fd = (.ok (some next), cleared))
      (hkeep : cleared.Retention operation.fd next source exchanges (resolved, left)) :
      Settlement table operation source .retry
        (exchanges ++ [⟨.log (.replacedInFlight operation.fd left.direction), ()⟩])
        (.ok resolved, left)
  /-- An unfinished operation goes back to waiting. -/
  | continued {cleared left : Outstanding σ} {exchanges : List (Exchange σ)}
      {resolved : List (Resolved σ)}
      (hslot : table.checkIn operation.fd = (.ok none, cleared))
      (hkeep : cleared.Retention operation.fd operation source exchanges (resolved, left)) :
      Settlement table operation source .retry exchanges (.ok resolved, left)

/-! ## Slots -/

/-- What has just been put into a slot is there. -/
@[simp]
theorem get?_put_same (table : Outstanding σ) (fd : Fd) (slot : Slot σ) :
    (table.put fd slot).slots.get? fd = some slot :=
  FdMap.get?_insert_same _ _ _

/-- Putting something into a slot leaves all other slots alone. -/
theorem get?_put_other (table : Outstanding σ) {fd other : Fd} (slot : Slot σ)
    (hne : other ≠ fd) : (table.put fd slot).slots.get? other = table.slots.get? other :=
  FdMap.get?_insert_other _ _ hne

/-- A slot that has been emptied is free. -/
@[simp]
theorem get?_erase_same (table : Outstanding σ) (fd : Fd) :
    (table.erase fd).slots.get? fd = none :=
  FdMap.get?_erase_same _ _

/-- Emptying a slot leaves all other slots alone. -/
theorem get?_erase_other (table : Outstanding σ) {fd other : Fd} (hne : other ≠ fd) :
    (table.erase fd).slots.get? other = table.slots.get? other :=
  FdMap.get?_erase_other _ hne

/-- What is put into a slot does not depend on whether the slot was emptied before. -/
theorem put_erase (table : Outstanding σ) (fd : Fd) (slot : Slot σ) :
    (table.erase fd).put fd slot = table.put fd slot := by
  simp only [put, erase, FdMap.insert_erase]

/-- The table with an operation waiting on a descriptor, if there is one. -/
def keep (table : Outstanding σ) (fd : Fd) : Option (Operation σ) → Outstanding σ
  | some operation => table.put fd (.pending operation)
  | none => table

/-- A table that keeps an operation is still of the same direction. -/
@[simp]
theorem direction_keep (table : Outstanding σ) (fd : Fd) (kept : Option (Operation σ)) :
    (table.keep fd kept).direction = table.direction := by
  cases kept <;> rfl

/-- What a settlement leaves in the slot of its descriptor. -/
@[simp]
theorem get?_erase_keep_same (table : Outstanding σ) (fd : Fd) (kept : Option (Operation σ)) :
    ((table.erase fd).keep fd kept).slots.get? fd = kept.map .pending := by
  cases kept with
  | none => exact get?_erase_same _ _
  | some operation => exact get?_put_same _ _ _

/-- Keeping an operation leaves the slots of other descriptors alone. -/
theorem get?_erase_keep_other (table : Outstanding σ) {fd other : Fd}
    (kept : Option (Operation σ)) (hne : other ≠ fd) :
    ((table.erase fd).keep fd kept).slots.get? other = table.slots.get? other := by
  cases kept with
  | none => exact get?_erase_other _ hne
  | some operation => exact (get?_put_other _ _ hne).trans (get?_erase_other _ hne)

/-- Exactly the operations that wait for readiness can be checked out. -/
theorem checkOut_eq_some {fd : Fd} {operation : Operation σ} {left : Outstanding σ} :
    table.checkOut fd = some (operation, left) ↔
      table.slots.get? fd = some (.pending operation) ∧ left = table.put fd (.inFlight none) := by
  unfold checkOut
  split
  · rename_i current hslot
    simp only [hslot, Option.some.injEq, Prod.mk.injEq, Slot.pending.injEq]
    exact ⟨fun ⟨hoperation, hleft⟩ => ⟨hoperation, hleft.symm⟩,
      fun ⟨hoperation, hleft⟩ => ⟨hoperation, hleft.symm⟩⟩
  · rename_i hslot
    constructor
    · intro h
      cases h
    · rintro ⟨h, -⟩
      exact absurd h (hslot operation)

/-! ## Submissions -/

/-- Arming for a submission ends as arming the descriptor does. -/
theorem armFor_returns {fd : Fd} {exchanges : List (Exchange σ)}
    {result : Except ReactorError Unit}
    (h : (table.armFor fd source).Returns exchanges result) :
    ∃ armed, source.Tried .add .modify .alreadyExists fd (table.event fd) exchanges armed ∧
      result = armed.mapError (.submit fd table.direction) := by
  obtain ⟨armed, before, after, rfl, harm, hrest⟩ := Program.returns_bind.mp h
  rw [Source.arm_eq_changeOr] at harm
  have htried := Source.changeOr_returns table.isEmpty_interest harm
  cases armed with
  | ok value =>
      obtain ⟨rfl, rfl⟩ := Program.returns_pure.mp hrest
      rw [List.append_nil]
      exact ⟨_, htried, rfl⟩
  | error fault =>
      obtain ⟨rfl, rfl⟩ := Program.returns_pure.mp hrest
      rw [List.append_nil]
      exact ⟨_, htried, rfl⟩

/-- A submission on a descriptor without a slot. -/
theorem submitFresh_cases {operation : Operation σ} {policy : OverlapPolicy}
    {exchanges : List (Exchange σ)}
    {answer : Except ReactorError (Option (Operation σ)) × Outstanding σ}
    (hslot : table.slots.get? operation.fd = none)
    (h : (table.submitFresh operation source).Returns exchanges answer) :
    table.Submission operation policy source exchanges answer := by
  obtain ⟨result, before, after, rfl, harm, hrest⟩ := Program.returns_bind.mp h
  obtain ⟨armed, htried, rfl⟩ := armFor_returns harm
  cases armed with
  | ok value =>
      obtain ⟨rfl, rfl⟩ := Program.returns_pure.mp hrest
      rw [List.append_nil]
      exact .stored hslot htried
  | error fault =>
      obtain ⟨rfl, rfl⟩ := Program.returns_pure.mp hrest
      rw [List.append_nil]
      exact .unarmed hslot htried

/-- A submission on a descriptor where an operation waits. -/
theorem submitOver_cases {operation current : Operation σ} {policy : OverlapPolicy}
    {exchanges : List (Exchange σ)}
    {answer : Except ReactorError (Option (Operation σ)) × Outstanding σ}
    (hslot : table.slots.get? operation.fd = some (.pending current))
    (h : (table.submitOver operation current policy source).Returns exchanges answer) :
    table.Submission operation policy source exchanges answer := by
  obtain ⟨modified, before, after, rfl, hmodify, hrest⟩ := Program.returns_bind.mp h
  have hchanged := Source.control_returns table.isEmpty_interest hmodify
  cases modified with
  | ok value =>
      cases policy with
      | reject =>
          obtain ⟨rfl, rfl⟩ := Program.returns_pure.mp hrest
          rw [List.append_nil]
          exact .busy hslot hchanged rfl
      | overwrite =>
          obtain ⟨rfl, rfl⟩ := Program.returns_pure.mp hrest
          rw [List.append_nil]
          exact .replaced hslot hchanged rfl
  | error fault =>
      obtain ⟨errno, rfl⟩ := hchanged.fault_system
      -- without an entry the file was closed and the descriptor may stand for another one now
      by_cases herrno : errno = .noEntry
      · subst herrno
        simp only [Fault.errno?_system, if_true] at hrest
        obtain ⟨result, others, rest, rfl, harm, hlast⟩ := Program.returns_bind.mp hrest
        obtain ⟨armed, htried, rfl⟩ := armFor_returns harm
        cases armed with
        | ok value =>
            obtain ⟨_, _, rfl, hpure⟩ := Program.returns_ask_bind.mp hlast
            obtain ⟨rfl, rfl⟩ := Program.returns_pure.mp hpure
            rw [← List.append_assoc]
            exact .reused hslot hchanged htried
        | error fault =>
            obtain ⟨rfl, rfl⟩ := Program.returns_pure.mp hlast
            rw [List.append_nil]
            exact .vanished hslot hchanged htried
      · simp only [Fault.errno?_system, Option.some.injEq, herrno, if_false] at hrest
        obtain ⟨rfl, rfl⟩ := Program.returns_pure.mp hrest
        rw [List.append_nil]
        exact .failed hslot hchanged herrno

/-- Everything that a submission can come to. -/
theorem submit_cases {operation : Operation σ} {policy : OverlapPolicy}
    {exchanges : List (Exchange σ)}
    {answer : Except ReactorError (Option (Operation σ)) × Outstanding σ}
    (h : (table.submit operation policy source).Returns exchanges answer) :
    table.Submission operation policy source exchanges answer := by
  unfold submit at h
  split at h
  · rename_i hslot
    exact submitFresh_cases hslot h
  · rename_i current hslot
    exact submitOver_cases hslot h
  · rename_i successor hslot
    cases policy with
    | reject =>
        obtain ⟨rfl, rfl⟩ := Program.returns_pure.mp h
        exact .occupied hslot rfl
    | overwrite =>
        obtain ⟨rfl, rfl⟩ := Program.returns_pure.mp h
        exact .parked hslot rfl

/-! ## Settlements -/

/-- Everything that keeping an operation can come to. -/
theorem retain_cases {fd : Fd} {operation : Operation σ} {exchanges : List (Exchange σ)}
    {answer : List (Resolved σ) × Outstanding σ}
    (h : (table.retain fd operation source).Returns exchanges answer) :
    table.Retention fd operation source exchanges answer := by
  obtain ⟨rearmed, before, after, rfl, hrearm, hrest⟩ := Program.returns_bind.mp h
  rw [Source.rearm_eq_changeOr] at hrearm
  have htried := Source.changeOr_returns table.isEmpty_interest hrearm
  cases rearmed with
  | ok value =>
      obtain ⟨rfl, rfl⟩ := Program.returns_pure.mp hrest
      rw [List.append_nil]
      exact .kept htried
  | error fault =>
      obtain ⟨deletion, others, last, rfl, hdelete, hlast⟩ := Program.returns_bind.mp hrest
      obtain ⟨rfl, rfl⟩ := Program.returns_pure.mp hlast
      rw [List.append_nil]
      exact .lost htried (Source.delete_returns hdelete)

/-- Keeping an operation leaves the direction of a table alone. -/
theorem Retention.direction_eq {fd : Fd} {operation : Operation σ}
    {exchanges : List (Exchange σ)} {resolved : List (Resolved σ)} {left : Outstanding σ}
    (h : table.Retention fd operation source exchanges (resolved, left)) :
    left.direction = table.direction := by
  cases h <;> rfl

/-- Everything that disarming a descriptor can come to. -/
theorem disarm_cases {fd : Fd} {exchanges : List (Exchange σ)} {answer : Unit}
    (h : (table.disarm fd source).Returns exchanges answer) :
    table.Disarming fd source exchanges := by
  obtain ⟨deletion, before, after, rfl, hdelete, hrest⟩ := Program.returns_bind.mp h
  have hdeleted := Source.delete_returns hdelete
  cases deletion with
  | ok value =>
      obtain ⟨rfl, -⟩ := Program.returns_pure.mp hrest
      rw [List.append_nil]
      exact .quiet hdeleted (.inl rfl)
  | error fault =>
      obtain ⟨errno, rfl⟩ := hdeleted.fault_system
      by_cases herrno : errno = .noEntry
      · subst herrno
        simp only [Fault.errno?_system, if_true] at hrest
        obtain ⟨rfl, -⟩ := Program.returns_pure.mp hrest
        rw [List.append_nil]
        exact .quiet hdeleted (.inr rfl)
      · simp only [Fault.errno?_system, Option.some.injEq, herrno, if_false] at hrest
        obtain rfl := Program.returns_ask.mp hrest
        exact .logged hdeleted herrno

/-- Checking in removes at most the slot of the descriptor. -/
theorem checkIn_direction {fd : Fd} {result : Except Panic (Option (Operation σ))}
    {left : Outstanding σ} (h : table.checkIn fd = (result, left)) :
    left.direction = table.direction := by
  unfold checkIn at h
  split at h <;> cases h <;> rfl

/-- Checking in a slot that is in flight yields the operation that is parked there. -/
theorem checkIn_inFlight {fd : Fd} {successor : Option (Operation σ)}
    (hslot : table.slots.get? fd = some (.inFlight successor)) :
    table.checkIn fd = (.ok successor, table.erase fd) := by
  simp [checkIn, hslot]

/-- What can be checked in was in flight or has no slot. -/
theorem checkIn_ok {fd : Fd} {successor : Option (Operation σ)} {left : Outstanding σ}
    (h : table.checkIn fd = (.ok successor, left)) :
    (table.slots.get? fd = some (.inFlight successor) ∧ left = table.erase fd) ∨
      (successor = none ∧ left = table) := by
  unfold checkIn at h
  split at h
  · rename_i hslot
    cases h
    exact .inl ⟨hslot, rfl⟩
  · cases h
  · cases h
    exact .inr ⟨rfl, rfl⟩

/-- Only a slot that waits for readiness cannot be checked in. -/
theorem checkIn_error {fd : Fd} {cause : Panic} {left : Outstanding σ}
    (h : table.checkIn fd = (.error cause, left)) :
    ∃ current, table.slots.get? fd = some (.pending current) ∧ cause = .slotPending fd ∧
      left = table.erase fd := by
  unfold checkIn at h
  split at h
  · cases h
  · rename_i current hslot
    cases h
    exact ⟨current, hslot, rfl, rfl⟩
  · cases h

/-- Everything that a settlement can come to. -/
theorem settle_cases {operation : Operation σ} {attempt : Attempt}
    {exchanges : List (Exchange σ)}
    {answer : Except Panic (List (Resolved σ)) × Outstanding σ}
    (h : (table.settle operation attempt source).Returns exchanges answer) :
    table.Settlement operation source attempt exchanges answer := by
  unfold settle at h
  dsimp only at h
  split at h
  · rename_i cause left hcheck
    obtain ⟨rfl, rfl⟩ := Program.returns_pure.mp h
    obtain ⟨current, hslot, rfl, rfl⟩ := checkIn_error hcheck
    exact .misplaced hslot
  · rename_i successor cleared hcheck
    -- finished with a successor, finished without one, unfinished with one, unfinished without
    split at h
    · rename_i fault next
      obtain ⟨⟨failed, left⟩, before, after, rfl, hretain, hrest⟩ := Program.returns_bind.mp h
      obtain ⟨rfl, rfl⟩ := Program.returns_pure.mp hrest
      have hkeep := retain_cases hretain
      rw [List.append_nil, hkeep.direction_eq, checkIn_direction hcheck]
      exact .succeeded hcheck hkeep
    · rename_i fault
      obtain ⟨answer, before, after, rfl, hdisarm, hrest⟩ := Program.returns_bind.mp h
      obtain ⟨rfl, rfl⟩ := Program.returns_pure.mp hrest
      rw [List.append_nil, checkIn_direction hcheck]
      exact .finished hcheck (disarm_cases hdisarm)
    · rename_i next
      obtain ⟨⟨failed, left⟩, before, after, rfl, hretain, hrest⟩ := Program.returns_bind.mp h
      obtain ⟨_, _, rfl, hlast⟩ := Program.returns_ask_bind.mp hrest
      obtain ⟨rfl, rfl⟩ := Program.returns_pure.mp hlast
      exact .dropped hcheck (retain_cases hretain)
    · obtain ⟨⟨failed, left⟩, before, after, rfl, hretain, hrest⟩ := Program.returns_bind.mp h
      obtain ⟨rfl, rfl⟩ := Program.returns_pure.mp hrest
      rw [List.append_nil]
      exact .continued hcheck (retain_cases hretain)

/-! ## No panic of a call -/

/-- Arming for a submission does not panic. -/
theorem armFor_neverPanics {fd : Fd} : (table.armFor fd source : Program σ _).NeverPanics := by
  refine (Source.changeOr_neverPanics table.isEmpty_interest).bind fun armed => ?_
  cases armed <;> exact Program.neverPanics_pure _

/-- A submission does not panic. -/
theorem submit_neverPanics {operation : Operation σ} {policy : OverlapPolicy} :
    (table.submit operation policy source).NeverPanics := by
  unfold submit
  split
  · refine armFor_neverPanics.bind fun armed => ?_
    cases armed <;> exact Program.neverPanics_pure _
  · refine (Source.control_neverPanics table.isEmpty_interest).bind fun modified => ?_
    cases modified with
    | ok value => cases policy <;> exact Program.neverPanics_pure _
    | error fault =>
        dsimp only
        split
        · refine armFor_neverPanics.bind fun armed => ?_
          cases armed with
          | error error => exact Program.neverPanics_pure _
          | ok value => exact (Program.neverPanics_ask _).bind fun _ => Program.neverPanics_pure _
        · exact Program.neverPanics_pure _
  · cases policy <;> exact Program.neverPanics_pure _

/-- Keeping an operation does not panic. -/
theorem retain_neverPanics {fd : Fd} {operation : Operation σ} :
    (table.retain fd operation source).NeverPanics := by
  refine (Source.changeOr_neverPanics table.isEmpty_interest).bind fun rearmed => ?_
  cases rearmed with
  | ok value => exact Program.neverPanics_pure _
  | error fault =>
      exact Source.delete_neverPanics.bind fun _ => Program.neverPanics_pure _

/-- Disarming a descriptor does not panic. -/
theorem disarm_neverPanics {fd : Fd} : (table.disarm fd source : Program σ _).NeverPanics := by
  refine Source.delete_neverPanics.bind fun deletion => ?_
  cases deletion with
  | ok value => exact Program.neverPanics_pure _
  | error fault =>
      dsimp only
      split
      · exact Program.neverPanics_pure _
      · exact Program.neverPanics_ask _

/-- A settlement reports a misplaced operation in its result and does not panic otherwise. -/
theorem settle_neverPanics {operation : Operation σ} {attempt : Attempt} :
    (table.settle operation attempt source).NeverPanics := by
  unfold settle
  dsimp only
  split
  · exact Program.neverPanics_pure _
  · split
    · exact retain_neverPanics.bind fun _ => Program.neverPanics_pure _
    · exact disarm_neverPanics.bind fun _ => Program.neverPanics_pure _
    · exact retain_neverPanics.bind fun _ =>
        (Program.neverPanics_ask _).bind fun _ => Program.neverPanics_pure _
    · exact retain_neverPanics.bind fun _ => Program.neverPanics_pure _

/-! ## What becomes of the operations -/

/-- How an accepted submission changes the slot of its descriptor and what it displaces. -/
inductive Admission (operation : Operation σ) :
    Option (Slot σ) → Option (Operation σ) → Slot σ → Prop where
  | stored : Admission operation none none (.pending operation)
  | replaced (current : Operation σ) :
      Admission operation (some (.pending current)) (some current) (.pending operation)
  | parked (successor : Option (Operation σ)) :
      Admission operation (some (.inFlight successor)) successor (.inFlight (some operation))

/-- An accepted submission puts a slot in the place of the one that it found. -/
theorem Submission.admission {operation : Operation σ} {policy : OverlapPolicy}
    {exchanges : List (Exchange σ)} {displaced : Option (Operation σ)} {left : Outstanding σ}
    (h : table.Submission operation policy source exchanges (.ok displaced, left)) :
    ∃ slot, Admission operation (table.slots.get? operation.fd) displaced slot ∧
      left = table.put operation.fd slot := by
  cases h with
  | stored hslot => exact ⟨_, hslot ▸ .stored, rfl⟩
  | replaced hslot => exact ⟨_, hslot ▸ .replaced _, rfl⟩
  | reused hslot => exact ⟨_, hslot ▸ .replaced _, rfl⟩
  | parked hslot => exact ⟨_, hslot ▸ .parked _, rfl⟩

/-- A refused submission leaves the table as it was. -/
theorem Submission.refusal {operation : Operation σ} {policy : OverlapPolicy}
    {exchanges : List (Exchange σ)} {error : ReactorError} {left : Outstanding σ}
    (h : table.Submission operation policy source exchanges (.error error, left)) :
    left = table := by
  cases h <;> rfl

/-- What an attempt's outcome and a successor make of a checked-out operation: the operations
that resolve, in order, and the one that waits from then on. Keeping an operation fails when its
descriptor cannot be rearmed. -/
inductive Aftermath (direction : Direction) (operation : Operation σ) :
    Attempt → Option (Operation σ) → List (Resolved σ) → Option (Operation σ) → Prop where
  | finished (fault : Option Fault) :
      Aftermath direction operation (.finished fault) none
        [operation.resolve direction fault] none
  | succeeded (fault : Option Fault) (next : Operation σ) :
      Aftermath direction operation (.finished fault) (some next)
        [operation.resolve direction fault] (some next)
  | succeeded_lost (fault : Option Fault) (next : Operation σ) (lost : Fault) :
      Aftermath direction operation (.finished fault) (some next)
        [operation.resolve direction fault, next.resolve direction (some lost)] none
  | dropped (next : Operation σ) :
      Aftermath direction operation .retry (some next) [] (some next)
  | dropped_lost (next : Operation σ) (lost : Fault) :
      Aftermath direction operation .retry (some next) [next.resolve direction (some lost)] none
  | continued :
      Aftermath direction operation .retry none [] (some operation)
  | continued_lost (lost : Fault) :
      Aftermath direction operation .retry none [operation.resolve direction (some lost)] none

/-- The operation that waits after a settlement belongs to the settled descriptor. -/
theorem Aftermath.kept_fd {direction : Direction} {operation kept : Operation σ}
    {attempt : Attempt} {successor waiting : Option (Operation σ)} {resolved : List (Resolved σ)}
    (h : Aftermath direction operation attempt successor resolved waiting)
    (hsuccessor : ∀ next, successor = some next → next.fd = operation.fd)
    (hkept : waiting = some kept) : kept.fd = operation.fd := by
  cases h with
  | finished | succeeded_lost | dropped_lost | continued_lost => cases hkept
  | succeeded fault next =>
      cases hkept
      exact hsuccessor _ rfl
  | dropped next =>
      cases hkept
      exact hsuccessor _ rfl
  | continued =>
      cases hkept
      rfl

/-- A settlement of an operation whose slot is checked out. -/
theorem Settlement.aftermath {operation : Operation σ} {attempt : Attempt}
    {successor : Option (Operation σ)} {exchanges : List (Exchange σ)}
    {result : Except Panic (List (Resolved σ))} {left : Outstanding σ}
    (h : table.Settlement operation source attempt exchanges (result, left))
    (hslot : table.slots.get? operation.fd = some (.inFlight successor)) :
    ∃ resolved kept, result = .ok resolved ∧
      Aftermath table.direction operation attempt successor resolved kept ∧
      left = (table.erase operation.fd).keep operation.fd kept := by
  have hcheck := checkIn_inFlight hslot
  cases h with
  | misplaced hpending => simp [hpending] at hslot
  | succeeded hfound hkeep =>
      rw [hcheck] at hfound
      cases hfound
      cases hkeep with
      | kept => exact ⟨_, some _, rfl, .succeeded _ _, rfl⟩
      | lost => exact ⟨_, none, rfl, .succeeded_lost _ _ _, rfl⟩
  | finished hfound =>
      rw [hcheck] at hfound
      cases hfound
      exact ⟨_, none, rfl, .finished _, rfl⟩
  | dropped hfound hkeep =>
      rw [hcheck] at hfound
      cases hfound
      cases hkeep with
      | kept => exact ⟨_, some _, rfl, .dropped _, rfl⟩
      | lost => exact ⟨_, none, rfl, .dropped_lost _ _, rfl⟩
  | continued hfound hkeep =>
      rw [hcheck] at hfound
      cases hfound
      cases hkeep with
      | kept => exact ⟨_, some _, rfl, .continued, rfl⟩
      | lost => exact ⟨_, none, rfl, .continued_lost _, rfl⟩

end Outstanding

end Proactor
