import Proactor.Proofs.Attendance
import Proactor.Proofs.Rejecting

/-!
# Refused submissions

A submission can make up to three calls before it is refused: the registration
that it finds may have vanished, it may be back when it is to be made anew, and
the call that is to change it then may fail. `Run.refused_unchanged` says that none of
this leaves a trace. The table is as it was, and so is every registration: the
one call that can have succeeded rearms a registration for the event that it
was made for. The error says why the submission was refused.

Registrations are followed as the system keeps them. A registration vanishes
when its file is closed, which can happen between any two calls.
-/

namespace Proactor

/-! ## Registrations as the system keeps them -/

/-- What a call and its answer do to the registration of a descriptor with a source. Only a
registration that is there can be changed or deleted, and only one that is not there added. -/
inductive Granted (source fd : Fd) : Option RawEvent → ControlCall → Option RawEvent → Prop where
  | elsewhere {call : ControlCall} (helsewhere : ¬ call.Concerns source fd)
      (registration : Option RawEvent) : Granted source fd registration call registration
  | denied (change : Control) (errno : Errno) (registration : Option RawEvent) :
      Granted source fd registration ⟨source, change, .error errno⟩ registration
  | added (event : RawEvent) :
      Granted source fd none ⟨source, .add fd event, .ok ()⟩ (some event)
  | modified (former event : RawEvent) :
      Granted source fd (some former) ⟨source, .modify fd event, .ok ()⟩ (some event)
  | deleted (former : RawEvent) :
      Granted source fd (some former) ⟨source, .delete fd, .ok ()⟩ none

/-- The same for a list of calls. If files are being closed, the registration can vanish before
each of the calls and after the last one. -/
inductive AllGranted (closing : Prop) (source fd : Fd) :
    Option RawEvent → List ControlCall → Option RawEvent → Prop where
  | nil (registration : Option RawEvent) :
      AllGranted closing source fd registration [] registration
  | cons {first between last : Option RawEvent} {call : ControlCall} {calls : List ControlCall}
      (hcall : Granted source fd first call between)
      (hcalls : AllGranted closing source fd between calls last) :
      AllGranted closing source fd first (call :: calls) last
  | vanished {first last : Option RawEvent} {calls : List ControlCall} (hclosing : closing)
      (hcalls : AllGranted closing source fd none calls last) :
      AllGranted closing source fd first calls last

/-- If the descriptor is registered at all, then for this event. -/
def RegisteredOnly (event : RawEvent) (registration : Option RawEvent) : Prop :=
  ∀ other, registration = some other → other = event

section Granted

variable {closing : Prop} {source fd : Fd} {event : RawEvent} {first last : Option RawEvent}
  {call : ControlCall} {calls more : List ControlCall}

/-- A descriptor without a registration is registered for no other event. -/
theorem RegisteredOnly.none : RegisteredOnly event none := by
  rintro other ⟨⟩

/-- A descriptor that is registered for an event is registered for no other one. -/
theorem RegisteredOnly.some : RegisteredOnly event (some event) := by
  rintro other ⟨⟩
  rfl

/-- After a call that registers it, a descriptor is registered for the event of that call. -/
theorem Granted.of_registers (h : Granted source fd first call last)
    (hregisters : call.Registers source fd event) : last = some event := by
  cases h with
  | elsewhere helsewhere => exact absurd hregisters.concerns helsewhere
  | denied | deleted => rcases hregisters with hcall | hcall <;> cases hcall
  | added | modified =>
      rcases hregisters with hcall | hcall <;> cases hcall
      rfl

/-- A call that tries to register a descriptor for an event leaves it registered for no other. -/
theorem Granted.of_registering (h : Granted source fd first call last)
    (hchange : call.change = .add fd event ∨ call.change = .modify fd event)
    (hfirst : RegisteredOnly event first) : RegisteredOnly event last := by
  cases h with
  | elsewhere | denied => exact hfirst
  | added | modified =>
      rcases hchange with hcall | hcall <;> cases hcall
      exact .some
  | deleted => rcases hchange with hcall | hcall <;> cases hcall

/-- What a list of calls comes to, its first part and then the rest come to. -/
theorem AllGranted.split (h : AllGranted closing source fd first (calls ++ more) last) :
    ∃ between, AllGranted closing source fd first calls between ∧
      AllGranted closing source fd between more last := by
  generalize hall : calls ++ more = all at h
  induction h generalizing calls with
  | nil registration =>
      obtain ⟨rfl, rfl⟩ := List.append_eq_nil_iff.mp hall
      exact ⟨registration, .nil registration, .nil registration⟩
  | @cons first _ last call _ hcall hcalls ih =>
      cases calls with
      | nil =>
          subst hall
          exact ⟨first, .nil first, .cons hcall hcalls⟩
      | cons _ calls =>
          obtain ⟨rfl, hrest⟩ := List.cons.inj hall
          obtain ⟨between, hbefore, hafter⟩ := ih hrest
          exact ⟨between, .cons hcall hbefore, hafter⟩
  | vanished hclosing _ ih =>
      obtain ⟨between, hbefore, hafter⟩ := ih hall
      exact ⟨between, .vanished hclosing hbefore, hafter⟩

/-- Calls that are about other descriptors, or that only try to register a descriptor for an
event, leave it registered for no other one. -/
theorem AllGranted.only (h : AllGranted closing source fd first calls last)
    (hcalls : ∀ call ∈ calls, ¬ call.Concerns source fd ∨
      call.change = .add fd event ∨ call.change = .modify fd event)
    (hfirst : RegisteredOnly event first) : RegisteredOnly event last := by
  induction h with
  | nil => exact hfirst
  | cons hcall _ ih =>
      obtain ⟨hchange, hcalls⟩ := List.forall_mem_cons.mp hcalls
      refine ih hcalls ?_
      rcases hchange with helsewhere | hchange
      · cases hcall with
        | elsewhere | denied => exact hfirst
        | added | modified | deleted => exact absurd ⟨rfl, rfl⟩ helsewhere
      · exact hcall.of_registering hchange hfirst
  | vanished _ _ ih => exact ih hcalls .none

/-- The first of some calls finds a registration, and the others go on from what it leaves. -/
theorem AllGranted.uncons (h : AllGranted closing source fd first (call :: calls) last) :
    ∃ found between, Granted source fd found call between ∧
      AllGranted closing source fd between calls last := by
  generalize hall : call :: calls = all at h
  induction h with
  | nil => cases hall
  | cons hcall hcalls =>
      cases hall
      exact ⟨_, _, hcall, hcalls⟩
  | vanished _ _ ih => exact ih hall

/-- Calls that arm a descriptor for an event leave it registered for no other one, whatever it was
registered for before. -/
theorem AllGranted.only_of_armed (h : AllGranted closing source fd first calls last)
    (hregistering : Registering calls source fd event) (harmed : Armed calls source fd event) :
    RegisteredOnly event last := by
  obtain ⟨earlier, call, later, rfl, hregisters, -⟩ := harmed
  obtain ⟨_, -, hrest⟩ := h.split
  obtain ⟨_, _, hcall, hlater⟩ := hrest.uncons
  obtain rfl := hcall.of_registers hregisters
  refine hlater.only (fun other hother => .inr ?_) .some
  exact (hregistering other (by simp [hother])).2

/-- Calls that fail, or that rearm a descriptor for the event that it is registered for, leave
every registration as it was. -/
theorem AllGranted.unchanged {other : Fd} (h : AllGranted closing source other first calls last)
    (hcalls : ∀ call ∈ calls, call.answer ≠ .ok () ∨ call = ⟨source, .modify fd event, .ok ()⟩)
    (hfirst : ¬ Failing calls → other = fd → RegisteredOnly event first) :
    last = first ∨ closing ∧ last = none := by
  induction h with
  | nil => exact .inl rfl
  | @cons first between _ call calls hcall _ ih =>
      obtain ⟨hanswer, hrest⟩ := List.forall_mem_cons.mp hcalls
      have hsame : between = first := by
        cases hcall with
        | elsewhere | denied => rfl
        | added | deleted =>
            rcases hanswer with hfailed | hcall
            · exact absurd rfl hfailed
            · cases hcall
        | modified former =>
            rcases hanswer with hfailed | hcall
            · exact absurd rfl hfailed
            · cases hcall
              have hgranted : ¬ Failing (⟨source, .modify fd event, .ok ()⟩ :: calls) :=
                fun hfailing => hfailing _ List.mem_cons_self rfl
              rw [hfirst hgranted rfl former rfl]
      subst hsame
      exact ih hrest fun hgranted => hfirst fun hfailing =>
        hgranted (List.forall_mem_cons.mp hfailing).2
  | vanished hclosing _ ih =>
      rcases ih hcalls fun _ _ => .none with hlast | hlast
      · exact .inr ⟨hclosing, hlast⟩
      · exact .inr hlast

end Granted

/-! ## Why a registration is denied -/

namespace Source

variable {σ : Type} {source : Source} {fd : Fd} {event : RawEvent}
  {exchanges others : List (Exchange σ)} {errno : Errno}

/-- Why a descriptor was not registered: the last call has failed, or none could be made. -/
inductive Denied (source : Source) (fd : Fd) : List (Exchange σ) → Errno → Prop where
  | answered (hopen : source.closed = false) (hfd : fd.isNegative = false)
      (earlier : List (Exchange σ)) (change : Control) (errno : Errno) :
      Denied source fd (earlier ++ [⟨.control source.descriptor change, .error errno⟩]) errno
  | unasked (hbad : source.closed = true ∨ fd.isNegative = true) :
      Denied source fd [] .badDescriptor

/-- No more than so many calls, all of which try to register a descriptor for an event. -/
def TriesAtMost (limit : Nat) (source : Source) (fd : Fd) (event : RawEvent)
    (exchanges : List (Exchange σ)) : Prop :=
  exchanges.length ≤ limit ∧ ∀ exchange ∈ exchanges, ∃ change answer,
    exchange = ⟨.control source.descriptor change, answer⟩ ∧
      (change = .add fd event ∨ change = .modify fd event)

/-- A list without calls stays within every limit. -/
theorem TriesAtMost.nil {limit : Nat} :
    TriesAtMost limit source fd event ([] : List (Exchange σ)) :=
  ⟨Nat.zero_le limit, List.forall_mem_nil _⟩

/-- Calls in two parts stay within the sum of their limits. -/
theorem TriesAtMost.append {limit more : Nat} (h : TriesAtMost limit source fd event exchanges)
    (hothers : TriesAtMost more source fd event others) :
    TriesAtMost (limit + more) source fd event (exchanges ++ others) := by
  refine ⟨?_, List.forall_mem_append.mpr ⟨h.2, hothers.2⟩⟩
  rw [List.length_append]
  exact Nat.add_le_add h.1 hothers.1

/-- Calls within a limit stay within every greater one. -/
theorem TriesAtMost.mono {limit more : Nat} (h : TriesAtMost limit source fd event exchanges)
    (hmore : limit ≤ more) : TriesAtMost more source fd event exchanges :=
  ⟨Nat.le_trans h.1 hmore, h.2⟩

section Changed

variable {change : Fd → RawEvent → Control} {result : Except Fault Unit}

/-- A change that registers makes one call at most. -/
theorem Changed.triesAtMost (hchange : Control.Sets change)
    (h : source.Changed change fd event exchanges result) :
    TriesAtMost 1 source fd event exchanges := by
  cases h with
  | refused => exact .nil
  | asked _ _ answer =>
      refine ⟨Nat.le_refl 1, List.forall_mem_singleton.mpr ⟨_, answer, rfl, ?_⟩⟩
      obtain rfl | rfl := hchange
      · exact .inl rfl
      · exact .inr rfl

/-- A bad descriptor and a closed source are not asked about. -/
theorem Changed.unasked (h : source.Changed change fd event exchanges result)
    (hbad : source.closed = true ∨ fd.isNegative = true) : exchanges = [] := by
  cases h with
  | refused => rfl
  | asked hopen hfd => simp [hopen, hfd] at hbad

/-- A change that fails was denied by its call, or no call could be made. -/
theorem Changed.denied
    (h : source.Changed change fd event exchanges (.error (.system errno))) :
    source.Denied fd exchanges errno := by
  generalize hresult : (.error (.system errno) : Except Fault Unit) = result at h
  cases h with
  | refused hrefused =>
      cases hresult
      exact .unasked hrefused
  | asked hopen hfd answer =>
      cases answer with
      | ok value => cases hresult
      | error errno =>
          cases hresult
          exact .answered hopen hfd [] _ _

/-- What is denied after another change has failed is denied for the same reason. -/
theorem Changed.denied_after (h : source.Changed change fd event exchanges result)
    (hothers : source.Denied fd others errno) : source.Denied fd (exchanges ++ others) errno := by
  cases hothers with
  | answered hopen hfd earlier last errno =>
      rw [← List.append_assoc]
      exact .answered hopen hfd _ last errno
  | unasked hbad =>
      rw [h.unasked hbad]
      exact .unasked hbad

end Changed

section Tried

variable {first second : Fd → RawEvent → Control} {fallback : Errno}

/-- A change and its fallback make two calls at most. -/
theorem Tried.triesAtMost {result : Except Fault Unit} (hfirst : Control.Sets first)
    (hsecond : Control.Sets second)
    (h : source.Tried first second fallback fd event exchanges result) :
    TriesAtMost 2 source fd event exchanges := by
  cases h with
  | once h => exact (h.triesAtMost hfirst).mono (by decide)
  | twice h hothers => exact (h.triesAtMost hfirst).append (hothers.triesAtMost hsecond)

/-- No call is made for a closed source or a negative descriptor. -/
theorem Tried.unasked {result : Except Fault Unit}
    (h : source.Tried first second fallback fd event exchanges result)
    (hbad : source.closed = true ∨ fd.isNegative = true) : exchanges = [] := by
  cases h with
  | once h => exact h.unasked hbad
  | twice h hothers => rw [h.unasked hbad, hothers.unasked hbad, List.append_nil]

/-- A change that fails together with its fallback was denied by the last of its calls, or no call
could be made. -/
theorem Tried.denied {fault : Fault}
    (h : source.Tried first second fallback fd event exchanges (.error fault)) :
    ∃ errno, fault = .system errno ∧ source.Denied fd exchanges errno := by
  cases h with
  | once h =>
      obtain ⟨errno, rfl⟩ := h.fault_system
      exact ⟨errno, rfl, h.denied⟩
  | twice h hothers =>
      obtain ⟨errno, rfl⟩ := hothers.fault_system
      exact ⟨errno, rfl, h.denied_after hothers.denied⟩

end Tried

end Source

namespace Outstanding

variable {σ : Type} {table left : Outstanding σ} {operation : Operation σ} {source : Source}
  {policy : OverlapPolicy} {exchanges : List (Exchange σ)} {error : ReactorError}

/-- Why a submission is refused. -/
inductive Refusal (table : Outstanding σ) (operation : Operation σ) (policy : OverlapPolicy)
    (source : Source) (exchanges : List (Exchange σ)) : ReactorError → Prop where
  /-- The descriptor has a slot, and nothing is to be overwritten. -/
  | busy (hpolicy : policy = .reject) (hslot : table.slots.get? operation.fd ≠ none) :
      Refusal table operation policy source exchanges (.busy operation.fd table.direction)
  /-- The descriptor could not be registered. -/
  | denied {errno : Errno} (hdenied : source.Denied operation.fd exchanges errno) :
      Refusal table operation policy source exchanges
        (.submit operation.fd table.direction (.system errno))

/-- A submission that fails says why it is refused. -/
theorem Submission.reason
    (h : table.Submission operation policy source exchanges (.error error, left)) :
    table.Refusal operation policy source exchanges error := by
  cases h with
  | unarmed _ harm =>
      obtain ⟨errno, rfl, hdenied⟩ := harm.denied
      exact .denied hdenied
  | busy hslot _ hpolicy => exact .busy hpolicy (by simp [hslot])
  | vanished _ hmodify harm =>
      obtain ⟨errno, rfl, hdenied⟩ := harm.denied
      exact .denied (hmodify.denied_after hdenied)
  | failed _ hmodify => exact .denied hmodify.denied
  | occupied hslot hpolicy => exact .busy hpolicy (by simp [hslot])

/-- A submission that fails makes three calls at most, all of which try to register its descriptor.
-/
theorem Submission.triesAtMost
    (h : table.Submission operation policy source exchanges (.error error, left)) :
    Source.TriesAtMost 3 source operation.fd (table.event operation.fd) exchanges := by
  cases h with
  | unarmed _ harm =>
      exact (harm.triesAtMost Control.sets_add Control.sets_modify).mono (by decide)
  | busy _ hmodify | failed _ hmodify =>
      exact (hmodify.triesAtMost Control.sets_modify).mono (by decide)
  | vanished _ hmodify harm =>
      exact (hmodify.triesAtMost Control.sets_modify).append
        (harm.triesAtMost Control.sets_add Control.sets_modify)
  | occupied => exact .nil

/-- The calls of a refused submission fail, unless an operation waits on the descriptor: then one
call finds its registration and rearms it. -/
theorem Submission.failing_or_rearmed
    (h : table.Submission operation policy source exchanges (.error error, left)) :
    Failing (controlCalls exchanges) ∨
      policy = .reject ∧ (∃ current, table.slots.get? operation.fd = some (.pending current)) ∧
        exchanges = [table.examined operation.fd source (.ok ())] := by
  cases h with
  | unarmed _ harm => exact .inl harm.failing
  | busy hslot hmodify hpolicy =>
      exact .inr ⟨hpolicy, ⟨_, hslot⟩, hmodify.eq_of_ok⟩
  | vanished _ hmodify harm =>
      rw [controlCalls_append]
      exact .inl (hmodify.failing.append harm.failing)
  | failed _ hmodify => exact .inl hmodify.failing
  | occupied => exact .inl .nil

/-- Nothing is asked about a bad descriptor, nor of a closed source. -/
theorem Submission.unasked
    (h : table.Submission operation policy source exchanges (.error error, left))
    (hbad : source.closed = true ∨ operation.fd.isNegative = true) : exchanges = [] := by
  cases h with
  | unarmed _ harm => exact harm.unasked hbad
  | busy _ hmodify | failed _ hmodify => exact hmodify.unasked hbad
  | vanished _ hmodify harm => rw [hmodify.unasked hbad, harm.unasked hbad, List.append_nil]
  | occupied => rfl

end Outstanding

/-! ## What settlements leave armed -/

/-- A deletion is about its own descriptor. -/
theorem Source.Deleted.concerns {σ : Type} {source : Source} {fd : Fd}
    {exchanges : List (Exchange σ)} {result : Except Fault Unit}
    (h : source.Deleted fd exchanges result) :
    ∀ call ∈ controlCalls exchanges, call.Concerns source.descriptor fd := by
  cases h with
  | refused => exact List.forall_mem_nil _
  | removed | failed => exact List.forall_mem_singleton.mpr ⟨rfl, rfl⟩

namespace Outstanding

variable {σ : Type} {table left : Outstanding σ} {operation : Operation σ} {source : Source}
  {exchanges : List (Exchange σ)}

/-- Calls about a descriptor, which arm it for an event unless nothing is left on it. -/
def ArmedUnless (free : Prop) (source : Source) (fd : Fd) (event : RawEvent)
    (calls : List ControlCall) : Prop :=
  (∀ call ∈ calls, call.Concerns source.descriptor fd) ∧
    (free ∨ Registering calls source.descriptor fd event ∧
      Armed calls source.descriptor fd event)

/-- An operation is kept only on a descriptor that has been armed for it. -/
theorem Retention.armedUnless {fd : Fd} {resolved : List (Resolved σ)}
    (h : table.Retention fd operation source exchanges (resolved, left)) :
    ArmedUnless (left = table) source fd (table.event fd) (controlCalls exchanges) := by
  cases h with
  | kept hrearm =>
      have hregistering := hrearm.registering Control.sets_modify Control.sets_add
      exact ⟨hregistering.concerns,
        .inr ⟨hregistering, hrearm.armed Control.sets_modify Control.sets_add⟩⟩
  | lost hrearm hdelete =>
      rw [controlCalls_append]
      have hregistering := hrearm.registering Control.sets_modify Control.sets_add
      exact ⟨List.forall_mem_append.mpr ⟨hregistering.concerns, hdelete.concerns⟩, .inl rfl⟩

/-- A settlement of an operation whose slot is checked out frees the slot, or has armed the
descriptor for what waits there. The source may be closed. -/
theorem Settlement.armedUnless {attempt : Attempt} {successor : Option (Operation σ)}
    {result : Except Panic (List (Resolved σ))}
    (h : table.Settlement operation source attempt exchanges (result, left))
    (hslot : table.slots.get? operation.fd = some (.inFlight successor)) :
    ArmedUnless (left.slots.get? operation.fd = none) source operation.fd
      (table.event operation.fd) (controlCalls exchanges) := by
  have hcheck := checkIn_inFlight hslot
  have hfree : ∀ {next : Outstanding σ}, next = table.erase operation.fd →
      next.slots.get? operation.fd = none := by
    rintro next rfl
    exact get?_erase_same _ _
  cases h with
  | misplaced hpending => simp [hpending] at hslot
  | succeeded hfound hkeep | continued hfound hkeep =>
      rw [hcheck] at hfound
      cases hfound
      exact hkeep.armedUnless.imp_right fun h => h.imp_left hfree
  | finished hfound hdisarm =>
      rw [hcheck] at hfound
      cases hfound
      refine ⟨?_, .inl (hfree rfl)⟩
      cases hdisarm with
      | quiet hdelete => exact hdelete.concerns
      | logged hdelete =>
          rw [controlCalls_append, controlCalls_log, List.append_nil]
          exact hdelete.concerns
  | dropped hfound hkeep =>
      rw [hcheck] at hfound
      cases hfound
      rw [controlCalls_append, controlCalls_log, List.append_nil]
      exact hkeep.armedUnless.imp_right fun h => h.imp_left hfree

end Outstanding

namespace Lending

variable {σ : Type} {direction : Direction} {history : List (Event (Numbered σ))}
  {lending : Lending (Numbered σ)}

/-- A descriptor with a slot is registered for the event that its operations wait for, unless its
registration has vanished. The source may have been closed meanwhile. -/
theorem Run.registered_only {descriptor fd : Fd} {closing : Prop}
    {first last : Option RawEvent}
    (h : Run (fun source => source.descriptor = descriptor) direction history lending)
    (hslot : lending.table.slots.get? fd ≠ none)
    (hgranted : AllGranted closing descriptor fd first (calls [] history) last) :
    RegisteredOnly (awaited direction fd) last := by
  induction h generalizing last with
  | opened => exact absurd rfl hslot
  | submit hrun operation policy source hsource hsubmit ih =>
      subst hsource
      obtain ⟨between, hbefore, hcalls⟩ := AllGranted.split hgranted
      have hcases := Outstanding.submit_cases hsubmit
      have hregistering := hcases.registering
      by_cases hfd : fd = operation.fd
      · subst hfd
        have hsame := hcases.armed_or_same
        rw [hrun.event_eq] at hsame hregistering
        rcases hsame with harmed | ⟨-, hpresent⟩
        · exact hcalls.only_of_armed hregistering harmed
        · refine hcalls.only (fun call hcall => .inr (hregistering call hcall).2) (ih ?_ hbefore)
          exact Option.isSome_iff_ne_none.mp (hpresent (Option.isSome_iff_ne_none.mpr hslot))
      · rw [hcases.get?_other hfd] at hslot
        refine hcalls.only (fun call hcall => .inl fun hconcerns => hfd ?_) (ih hslot hbefore)
        exact hconcerns.fd_eq (hregistering.concerns call hcall)
  | checkOut _ other hcheck ih =>
      rw [calls, Event.exchanges] at hgranted
      obtain ⟨hpending, rfl⟩ := Outstanding.checkOut_eq_some.mp hcheck
      refine ih ?_ (by simpa [controlCalls] using hgranted)
      by_cases hfd : fd = other
      · subst hfd
        simp [hpending]
      · rwa [Outstanding.get?_put_other _ _ hfd] at hslot
  | passOver _ _ _ ih =>
      rw [calls, Event.exchanges] at hgranted
      exact ih hslot (by simpa [controlCalls] using hgranted)
  | @settle _ _ _ _ loan _ _ _ hrun operation attempt source hsource hloan hticket hsettle ih =>
      subst hsource
      obtain ⟨between, hbefore, hcalls⟩ := AllGranted.split hgranted
      have hloanFd : operation.fd = loan.fd := congrArg Ticket.fd hticket
      obtain ⟨successor, hinFlight⟩ := hrun.orderly.slot_inFlight hloan
      rw [← hloanFd] at hinFlight
      obtain ⟨hconcerns, hleft⟩ := (Outstanding.settle_cases hsettle).armedUnless hinFlight
      by_cases hfd : fd = operation.fd
      · subst hfd
        rw [hrun.event_eq] at hleft
        obtain ⟨hregistering, harmed⟩ := hleft.resolve_left hslot
        exact hcalls.only_of_armed hregistering harmed
      · obtain ⟨_, kept, -, -, rfl⟩ := hrun.orderly.aftermath hloan hticket hsettle
        rw [Outstanding.get?_erase_keep_other _ _ hfd] at hslot
        refine hcalls.only (fun call hcall => .inl fun hother => hfd ?_) (ih hslot hbefore)
        exact hother.fd_eq (hconcerns call hcall)

/-- What a refused submission leaves behind. -/
structure Refused (direction : Direction) (history : List (Event (Numbered σ)))
    (lending : Lending (Numbered σ)) (operation : Operation (Numbered σ))
    (policy : OverlapPolicy) (source : Source) (exchanges : List (Exchange (Numbered σ)))
    (error : ReactorError) (left : Outstanding (Numbered σ)) : Prop where
  /-- The table is as it was, with all that is stored and parked in its slots. -/
  table : left = lending.table
  /-- At most three calls were made, which would register the descriptor for the event that its
  operations wait for. -/
  calls : Source.TriesAtMost 3 source operation.fd (awaited direction operation.fd) exchanges
  /-- A call that succeeds is the only one, and it rearms the descriptor of a waiting operation. -/
  rearms : Failing (controlCalls exchanges) ∨
    policy = .reject ∧
      (∃ current, lending.table.slots.get? operation.fd = some (.pending current)) ∧
      controlCalls exchanges =
        [⟨source.descriptor, .modify operation.fd (awaited direction operation.fd), .ok ()⟩]
  /-- Whatever was registered, for whatever event, is still registered for it, unless its file was
  closed meanwhile. -/
  registrations : ∀ fd closing start before after,
    AllGranted True source.descriptor fd start (Lending.calls [] history) before →
      AllGranted closing source.descriptor fd before (controlCalls exchanges) after →
        after = before ∨ closing ∧ after = none
  /-- Nothing was asked about a negative descriptor, nor of a closed source. -/
  unasked : source.closed = true ∨ operation.fd.isNegative = true → exchanges = []
  /-- The error says why. -/
  reason : lending.table.Refusal operation policy source exchanges error

/-- A refused submission leaves everything as it was. -/
theorem Run.refused_unchanged {operation : Operation (Numbered σ)} {policy : OverlapPolicy}
    {source : Source} {exchanges : List (Exchange (Numbered σ))} {error : ReactorError}
    {left : Outstanding (Numbered σ)}
    (hrun : Run (fun other => other.descriptor = source.descriptor) direction history lending)
    (hsubmit : (lending.table.submit operation policy source).Returns exchanges
      (.error error, left)) :
    Refused direction history lending operation policy source exchanges error left := by
  have hcases := Outstanding.submit_cases hsubmit
  have hevent := hrun.event_eq operation.fd
  have hrearms := hcases.failing_or_rearmed
  constructor
  case table => exact hcases.refusal
  case calls =>
    rw [← hevent]
    exact hcases.triesAtMost
  case rearms =>
    refine hrearms.imp_right fun ⟨hpolicy, hpending, hexchanges⟩ => ⟨hpolicy, hpending, ?_⟩
    rw [hexchanges, ← hevent]
    rfl
  case registrations =>
    intro fd closing start before after hbefore hafter
    rw [Outstanding.examined, hevent] at hrearms
    have hown : ∀ call ∈ controlCalls exchanges, call.answer ≠ .ok () ∨ call =
        ⟨source.descriptor, .modify operation.fd (awaited direction operation.fd), .ok ()⟩ := by
      rcases hrearms with hfailing | ⟨-, -, rfl⟩
      · exact fun call hcall => .inl (hfailing call hcall)
      · exact List.forall_mem_singleton.mpr (.inr rfl)
    refine hafter.unchanged hown ?_
    rintro hgranted rfl
    obtain ⟨-, ⟨current, hpending⟩, -⟩ := hrearms.resolve_left hgranted
    exact hrun.registered_only (by simp [hpending]) hbefore
  case unasked => exact hcases.unasked
  case reason => exact hcases.reason

/-- An operation waits on a descriptor whose file is closed. A submission that would replace it
finds the registration vanished, then back before it is added, and is denied the change of it. -/
theorem refused_halfway :
    ∃ (history : List (Event (Numbered Unit))) (lending : Lending (Numbered Unit))
      (operation waiting : Operation (Numbered Unit)) (source : Source)
      (exchanges : List (Exchange (Numbered Unit))) (left : Outstanding (Numbered Unit)),
      Run (fun other => other.descriptor = source.descriptor) .read history lending ∧
        lending.table.slots.get? ⟨7⟩ = some (.pending waiting) ∧
        exchanges.length = 3 ∧
        (lending.table.submit operation .overwrite source).Returns exchanges
          (.error (.submit ⟨7⟩ .read (.system .badDescriptor)), left) ∧
        Refused .read history lending operation .overwrite source exchanges
          (.submit ⟨7⟩ .read (.system .badDescriptor)) left ∧
        ∃ between, AllGranted True source.descriptor ⟨7⟩ none (calls [] history) between ∧
          between = some ⟨7, 0x40002001⟩ ∧
          AllGranted True source.descriptor ⟨7⟩ between (controlCalls exchanges) none := by
  let source : Source := ⟨⟨3⟩, ⟨⟨4⟩, ⟨5⟩⟩, false⟩
  let operation : Operation Unit := .submitted ⟨7⟩ [1, 2] ⟨(), false⟩
  have hopened : Run (fun other => other.descriptor = source.descriptor) .read []
      (⟨.empty .read, []⟩ : Lending (Numbered Unit)) := .opened
  have hstored := hopened.submit operation .reject source rfl ⟨.ok (), [], rfl, rfl, rfl⟩
  have hevent : (⟨7, 0x40002001⟩ : RawEvent) = ⟨Fd.key ⟨7⟩, Interest.read.mask⟩ := by decide
  have hdenied : ((Outstanding.empty .read).put ⟨7⟩ (.pending (operation.numbered 0))).submit
      (operation.numbered 1) .overwrite source |>.Returns
      [⟨.control ⟨3⟩ (.modify ⟨7⟩ ⟨7, 0x40002001⟩), .error .noEntry⟩,
        ⟨.control ⟨3⟩ (.add ⟨7⟩ ⟨7, 0x40002001⟩), .error .alreadyExists⟩,
        ⟨.control ⟨3⟩ (.modify ⟨7⟩ ⟨7, 0x40002001⟩), .error .badDescriptor⟩]
      (.error (.submit ⟨7⟩ .read (.system .badDescriptor)),
        (Outstanding.empty .read).put ⟨7⟩ (.pending (operation.numbered 0))) := by
    rw [hevent]
    exact ⟨.error .noEntry, _, rfl, .error .alreadyExists, _, rfl, .error .badDescriptor, _, rfl,
      rfl, rfl⟩
  refine ⟨_, _, _, operation.numbered 0, source, _, _, hstored, rfl, rfl, hdenied,
    hstored.refused_unchanged hdenied, _, .cons (.added _) (.nil _), congrArg some hevent.symm, ?_⟩
  exact .vanished trivial (.cons (.denied _ _ _) (.cons (.denied _ _ _)
    (.cons (.denied _ _ _) (.nil _))))

end Lending

end Proactor
