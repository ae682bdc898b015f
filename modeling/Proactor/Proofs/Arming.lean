import Proactor.Proofs.ControlCalls

/-!
# What calls on a table do about registrations

A submission only ever tries to register its own descriptor. A settlement either
leaves its descriptor registered for the operation that waits there from then
on, or has it deleted last. Both are read off the cases of a call, whatever the
answers were.
-/

namespace Proactor

/-! ## Calls that register -/

/-- A change that registers a descriptor for an event. -/
def Control.Sets (change : Fd → RawEvent → Control) : Prop :=
  change = .add ∨ change = .modify

/-- Adding a descriptor registers it. -/
theorem Control.sets_add : Control.Sets .add :=
  .inl rfl

/-- Modifying a registration registers the descriptor for the new event. -/
theorem Control.sets_modify : Control.Sets .modify :=
  .inr rfl

/-- All of these calls try to register a descriptor with a source for an event. -/
def Registering (calls : List ControlCall) (source fd : Fd) (event : RawEvent) : Prop :=
  ∀ call ∈ calls, call.source = source ∧
    (call.change = .add fd event ∨ call.change = .modify fd event)

/-- All of these calls have failed. -/
def Failing (calls : List ControlCall) : Prop :=
  ∀ call ∈ calls, call.answer ≠ .ok ()

section Calls

variable {calls more : List ControlCall} {source fd : Fd} {event : RawEvent}

/-- A list without calls tries nothing but to register a given descriptor. -/
theorem Registering.nil : Registering [] source fd event :=
  List.forall_mem_nil _

/-- Where no call was made, none has succeeded. -/
theorem Failing.nil : Failing [] :=
  List.forall_mem_nil _

/-- Calls in two parts try to register one descriptor if those of both parts do. -/
theorem Registering.append (h : Registering calls source fd event)
    (hmore : Registering more source fd event) : Registering (calls ++ more) source fd event :=
  List.forall_mem_append.mpr ⟨h, hmore⟩

/-- Calls in two parts have failed if those of both parts have. -/
theorem Failing.append (h : Failing calls) (hmore : Failing more) : Failing (calls ++ more) :=
  List.forall_mem_append.mpr ⟨h, hmore⟩

/-- Calls that try to register a descriptor are about that descriptor. -/
theorem Registering.concerns (h : Registering calls source fd event) :
    ∀ call ∈ calls, call.Concerns source fd := by
  intro call hcall
  obtain ⟨hsource, hchange⟩ := h call hcall
  refine ⟨hsource, ?_⟩
  rcases hchange with hchange | hchange <;> rw [hchange] <;> rfl

/-- Calls that try to register something delete nothing. -/
theorem Registering.not_deletes (h : Registering calls source fd event) {other : Fd} :
    ∀ call ∈ calls, ¬ call.Deletes source other := by
  rintro call hcall ⟨-, hdelete⟩
  rcases (h call hcall).2 with hchange | hchange <;> cases hchange.symm.trans hdelete

/-- Failed calls have registered nothing. -/
theorem Failing.not_registers (h : Failing calls) :
    ∀ call ∈ calls, ∀ event, ¬ call.Registers source fd event := by
  rintro call hcall event (rfl | rfl) <;> exact h _ hcall rfl

end Calls

namespace Source

variable {σ : Type} {source : Source} {fd : Fd} {event : RawEvent} {exchanges : List (Exchange σ)}

section Changed

variable {change : Fd → RawEvent → Control}

/-- A change that registers asks, if at all, for the registration of its own descriptor. -/
theorem Changed.registering {result : Except Fault Unit} (hchange : Control.Sets change)
    (h : source.Changed change fd event exchanges result) :
    Registering (controlCalls exchanges) source.descriptor fd event := by
  cases h with
  | refused => exact .nil
  | asked _ _ answer =>
      intro call hcall
      obtain rfl := List.mem_singleton.mp hcall
      obtain rfl | rfl := hchange
      · exact ⟨rfl, .inl rfl⟩
      · exact ⟨rfl, .inr rfl⟩

/-- A change that succeeds arms its descriptor. -/
theorem Changed.armed (hchange : Control.Sets change)
    (h : source.Changed change fd event exchanges (.ok ())) :
    Armed (controlCalls exchanges) source.descriptor fd event := by
  generalize hresult : (Except.ok () : Except Fault Unit) = result at h
  cases h with
  | refused => cases hresult
  | asked _ _ answer =>
      cases answer with
      | error errno => cases hresult
      | ok value =>
          refine ⟨[], _, [], rfl, ?_, by simp⟩
          obtain rfl | rfl := hchange
          · exact .inl rfl
          · exact .inr rfl

/-- A change that fails has registered nothing. -/
theorem Changed.failing {fault : Fault}
    (h : source.Changed change fd event exchanges (.error fault)) :
    Failing (controlCalls exchanges) := by
  generalize hresult : (Except.error fault : Except Fault Unit) = result at h
  cases h with
  | refused => exact .nil
  | asked _ _ answer =>
      cases answer with
      | ok value => cases hresult
      | error errno =>
          intro call hcall
          obtain rfl := List.mem_singleton.mp hcall
          rintro ⟨⟩

end Changed

section Tried

variable {first second : Fd → RawEvent → Control} {fallback : Errno}

/-- A change and its fallback ask, if at all, for the registration of their own descriptor. -/
theorem Tried.registering {result : Except Fault Unit} (hfirst : Control.Sets first)
    (hsecond : Control.Sets second)
    (h : source.Tried first second fallback fd event exchanges result) :
    Registering (controlCalls exchanges) source.descriptor fd event := by
  cases h with
  | once h => exact h.registering hfirst
  | twice h hothers =>
      rw [controlCalls_append]
      exact (h.registering hfirst).append (hothers.registering hsecond)

/-- A change that succeeds, at once or by its fallback, arms its descriptor. -/
theorem Tried.armed (hfirst : Control.Sets first) (hsecond : Control.Sets second)
    (h : source.Tried first second fallback fd event exchanges (.ok ())) :
    Armed (controlCalls exchanges) source.descriptor fd event := by
  cases h with
  | once h => exact h.armed hfirst
  | twice h hothers =>
      rw [controlCalls_append]
      exact (hothers.armed hsecond).after

/-- A change that fails together with its fallback has registered nothing. -/
theorem Tried.failing {fault : Fault}
    (h : source.Tried first second fallback fd event exchanges (.error fault)) :
    Failing (controlCalls exchanges) := by
  cases h with
  | once h => exact h.failing
  | twice h hothers =>
      rw [controlCalls_append]
      exact h.failing.append hothers.failing

end Tried

/-- A source that is open is asked for every deletion. -/
theorem Deleted.call {result : Except Fault Unit} (hopen : source.closed = false)
    (h : source.Deleted fd exchanges result) :
    ∃ call, controlCalls exchanges = [call] ∧ call.Deletes source.descriptor fd := by
  cases h with
  | refused hclosed => cases hclosed.symm.trans hopen
  | removed | failed => exact ⟨_, rfl, rfl, rfl⟩

end Source

/-! ## Calls on a table -/

namespace Outstanding

variable {σ : Type} {table left : Outstanding σ} {operation : Operation σ} {source : Source}
  {exchanges : List (Exchange σ)}

section Submission

variable {policy : OverlapPolicy} {result : Except ReactorError (Option (Operation σ))}

/-- A submission leaves the slots of other descriptors alone. -/
theorem Submission.get?_other
    (h : table.Submission operation policy source exchanges (result, left)) {fd : Fd}
    (hfd : fd ≠ operation.fd) : left.slots.get? fd = table.slots.get? fd := by
  cases h with
  | stored | replaced | reused | parked => exact get?_put_other _ _ hfd
  | unarmed | busy | vanished | failed | occupied => rfl

/-- A submission asks for registrations of its own descriptor only. -/
theorem Submission.registering
    (h : table.Submission operation policy source exchanges (result, left)) :
    Registering (controlCalls exchanges) source.descriptor operation.fd
      (table.event operation.fd) := by
  cases h with
  | stored _ harm | unarmed _ harm => exact harm.registering Control.sets_add Control.sets_modify
  | busy _ h | replaced _ h | failed _ h => exact h.registering Control.sets_modify
  | reused _ h harm =>
      rw [controlCalls_append, controlCalls_append, controlCalls_log, List.append_nil]
      exact (h.registering Control.sets_modify).append
        (harm.registering Control.sets_add Control.sets_modify)
  | vanished _ h harm =>
      rw [controlCalls_append]
      exact (h.registering Control.sets_modify).append
        (harm.registering Control.sets_add Control.sets_modify)
  | occupied | parked => exact .nil

/-- A submission that does not arm its descriptor starts no wait there. -/
theorem Submission.armed_or_same
    (h : table.Submission operation policy source exchanges (result, left)) :
    Armed (controlCalls exchanges) source.descriptor operation.fd (table.event operation.fd) ∨
      (∀ current, left.slots.get? operation.fd = some (.pending current) →
        table.slots.get? operation.fd = some (.pending current)) ∧
      ((left.slots.get? operation.fd).isSome → (table.slots.get? operation.fd).isSome) := by
  cases h with
  | stored _ harm => exact .inl (harm.armed Control.sets_add Control.sets_modify)
  | replaced _ h => exact .inl (h.armed Control.sets_modify)
  | reused _ _ harm =>
      left
      rw [controlCalls_append, controlCalls_append, controlCalls_log, List.append_nil]
      exact (harm.armed Control.sets_add Control.sets_modify).after
  | unarmed | busy | vanished | failed | occupied => exact .inr ⟨fun _ => id, id⟩
  -- the slot stays in flight, so nothing waits there yet
  | parked hslot => exact .inr ⟨by simp, by simp [hslot]⟩

/-- A submission that leaves no slot has registered nothing. -/
theorem Submission.failing_of_none
    (h : table.Submission operation policy source exchanges (result, left))
    (hnone : left.slots.get? operation.fd = none) :
    table.slots.get? operation.fd = none ∧ Failing (controlCalls exchanges) := by
  cases h with
  | unarmed hslot harm => exact ⟨hslot, harm.failing⟩
  | stored | replaced | reused | parked => simp at hnone
  | busy hslot | vanished hslot | failed hslot | occupied hslot =>
      cases hslot.symm.trans hnone

end Submission

section Settlement

/-- The calls of a settlement, and whether an operation waits on the descriptor after them: it is
either armed for that operation or deleted last. -/
inductive Rearming (source : Source) (fd : Fd) (event : RawEvent) :
    List ControlCall → Bool → Prop where
  | armed {calls : List ControlCall}
      (hregistering : Registering calls source.descriptor fd event)
      (harmed : Armed calls source.descriptor fd event) : Rearming source fd event calls true
  | deleted {calls : List ControlCall} {call : ControlCall}
      (hregistering : Registering calls source.descriptor fd event)
      (hdeletes : call.Deletes source.descriptor fd) :
      Rearming source fd event (calls ++ [call]) false

/-- A settlement makes calls about its own descriptor only. -/
theorem Rearming.concerns {fd : Fd} {event : RawEvent} {calls : List ControlCall} {waits : Bool}
    (h : Rearming source fd event calls waits) :
    ∀ call ∈ calls, call.Concerns source.descriptor fd := by
  cases h with
  | armed hregistering => exact hregistering.concerns
  | deleted hregistering hdeletes =>
      exact List.forall_mem_append.mpr ⟨hregistering.concerns,
        List.forall_mem_singleton.mpr hdeletes.concerns⟩

/-- A settlement that leaves an operation waiting has armed the descriptor. -/
theorem Rearming.isArmed {fd : Fd} {event : RawEvent} {calls : List ControlCall}
    (h : Rearming source fd event calls true) : Armed calls source.descriptor fd event := by
  cases h
  assumption

/-- A settlement that leaves no operation waiting has the descriptor deleted after all else. -/
theorem Rearming.isCleared {fd : Fd} {event : RawEvent} {calls : List ControlCall}
    (h : Rearming source fd event calls false) (before : List ControlCall) :
    Cleared (before ++ calls) source.descriptor fd := by
  cases h with
  | deleted _ hdeletes =>
      rw [← List.append_assoc]
      exact .of_deletes hdeletes

/-- Keeping an operation arms its descriptor or deletes it. -/
theorem Retention.rearming {fd : Fd} {resolved : List (Resolved σ)}
    (hopen : source.closed = false)
    (h : table.Retention fd operation source exchanges (resolved, left)) :
    ∃ kept, left = table.keep fd kept ∧
      Rearming source fd (table.event fd) (controlCalls exchanges) kept.isSome := by
  cases h with
  | kept hrearm =>
      exact ⟨some operation, rfl,
        .armed (hrearm.registering Control.sets_modify Control.sets_add)
          (hrearm.armed Control.sets_modify Control.sets_add)⟩
  | lost hrearm hdelete =>
      obtain ⟨call, hcall, hdeletes⟩ := hdelete.call hopen
      rw [controlCalls_append, hcall]
      exact ⟨none, rfl,
        .deleted (hrearm.registering Control.sets_modify Control.sets_add) hdeletes⟩

/-- Disarming a descriptor deletes it. -/
theorem Disarming.rearming {fd : Fd} {event : RawEvent} (hopen : source.closed = false)
    (h : table.Disarming fd source exchanges) :
    Rearming source fd event (controlCalls exchanges) false := by
  cases h with
  | quiet hdelete =>
      obtain ⟨call, hcall, hdeletes⟩ := hdelete.call hopen
      rw [hcall]
      exact .deleted .nil hdeletes
  | logged hdelete =>
      obtain ⟨call, hcall, hdeletes⟩ := hdelete.call hopen
      rw [controlCalls_append, controlCalls_log, List.append_nil, hcall]
      exact .deleted .nil hdeletes

/-- A settlement of an operation whose slot is checked out arms its descriptor for the operation
that waits from then on, or deletes it. -/
theorem Settlement.rearming {attempt : Attempt} {successor : Option (Operation σ)}
    {result : Except Panic (List (Resolved σ))} (hopen : source.closed = false)
    (h : table.Settlement operation source attempt exchanges (result, left))
    (hslot : table.slots.get? operation.fd = some (.inFlight successor)) :
    ∃ kept, left = (table.erase operation.fd).keep operation.fd kept ∧
      Rearming source operation.fd (table.event operation.fd) (controlCalls exchanges)
        kept.isSome := by
  have hcheck := checkIn_inFlight hslot
  cases h with
  | misplaced hpending => simp [hpending] at hslot
  | succeeded hfound hkeep | continued hfound hkeep =>
      rw [hcheck] at hfound
      cases hfound
      exact hkeep.rearming hopen
  | finished hfound hdisarm =>
      rw [hcheck] at hfound
      cases hfound
      exact ⟨none, rfl, hdisarm.rearming hopen⟩
  | dropped hfound hkeep =>
      rw [hcheck] at hfound
      cases hfound
      obtain ⟨kept, rfl, hrearming⟩ := hkeep.rearming hopen
      refine ⟨kept, rfl, ?_⟩
      rw [controlCalls_append, controlCalls_log, List.append_nil]
      exact hrearming

end Settlement

end Outstanding

end Proactor
