import Proactor.Proofs.Outstanding

/-!
# Calls that change registrations

What a run of a program asks of a readiness source is read off its exchanges as
a list of calls, the first call first. `Armed` and `Cleared` say what such a list
has done about a descriptor, whatever the answers were. `Served` describes a
system that fails no call without need. There the list alone decides whether the
descriptor is registered.
-/

namespace Proactor

/-- A call that changes a registration, and its answer. -/
structure ControlCall where
  source : Fd
  change : Control
  answer : Except Errno Unit

/-- The descriptor whose registration is changed. -/
def Control.fd : Control → Fd
  | .add fd _ => fd
  | .modify fd _ => fd
  | .delete fd => fd

/-- The event that a descriptor is registered for from then on, if it is. -/
def Control.event? : Control → Option RawEvent
  | add _ event => some event
  | modify _ event => some event
  | delete _ => none

namespace ControlCall

/-- The call has registered a descriptor for an event, anew or again. -/
def Registers (call : ControlCall) (source fd : Fd) (event : RawEvent) : Prop :=
  call = ⟨source, .add fd event, .ok ()⟩ ∨ call = ⟨source, .modify fd event, .ok ()⟩

/-- The call asks for the end of a registration, with any answer. -/
def Deletes (call : ControlCall) (source fd : Fd) : Prop :=
  call.source = source ∧ call.change = .delete fd

/-- The call changes the registration of a descriptor with a source. -/
def Concerns (call : ControlCall) (source fd : Fd) : Prop :=
  call.source = source ∧ call.change.fd = fd

variable {call : ControlCall} {source fd : Fd} {event : RawEvent}

/-- A call concerns one descriptor at most. -/
theorem Concerns.fd_eq {other : Fd} (h : call.Concerns source fd)
    (hother : call.Concerns source other) : fd = other :=
  h.2.symm.trans hother.2

/-- A call that registers a descriptor concerns it. -/
theorem Registers.concerns (h : call.Registers source fd event) : call.Concerns source fd := by
  obtain rfl | rfl := h
  · exact ⟨rfl, rfl⟩
  · exact ⟨rfl, rfl⟩

/-- A call that deletes a descriptor concerns it. -/
theorem Deletes.concerns (h : call.Deletes source fd) : call.Concerns source fd :=
  ⟨h.1, congrArg Control.fd h.2⟩

/-- A call that deletes a descriptor registers none. -/
theorem Deletes.not_registers (h : call.Deletes source fd) : ¬ call.Registers source fd event := by
  rintro (rfl | rfl) <;> cases h.2

end ControlCall

/-- The call that an exchange makes about a registration, if it is one. -/
def Exchange.controlCalls {σ : Type} : Exchange σ → List ControlCall
  | ⟨.control source change, answer⟩ => [⟨source, change, answer⟩]
  | _ => []

/-- The calls about registrations among some exchanges. -/
def controlCalls {σ : Type} (exchanges : List (Exchange σ)) : List ControlCall :=
  exchanges.flatMap Exchange.controlCalls

/-- The calls in two parts are those of the first and then those of the second. -/
@[simp]
theorem controlCalls_append {σ : Type} (first second : List (Exchange σ)) :
    controlCalls (first ++ second) = controlCalls first ++ controlCalls second :=
  List.flatMap_append

/-- Telling the log something changes no registration. -/
@[simp]
theorem controlCalls_log {σ : Type} (record : Log) (answer : Unit) :
    controlCalls [(⟨.log record, answer⟩ : Exchange σ)] = [] :=
  rfl

/-! ## What a list of calls has done -/

/-- The descriptor has been registered for the event, and has not been deleted since. -/
def Armed (calls : List ControlCall) (source fd : Fd) (event : RawEvent) : Prop :=
  ∃ earlier call later, calls = earlier ++ call :: later ∧ call.Registers source fd event ∧
    ∀ other ∈ later, ¬ other.Deletes source fd

/-- After every registration of the descriptor it was to be deleted. -/
def Cleared (calls : List ControlCall) (source fd : Fd) : Prop :=
  ∀ earlier call later event, calls = earlier ++ call :: later →
    call.Registers source fd event → ∃ other ∈ later, other.Deletes source fd

section Lists

variable {calls more : List ControlCall} {source fd : Fd} {event : RawEvent}

/-- What was called before does not matter to an armed descriptor. -/
theorem Armed.after (h : Armed more source fd event) : Armed (calls ++ more) source fd event := by
  obtain ⟨earlier, call, later, rfl, hregisters, hlater⟩ := h
  exact ⟨calls ++ earlier, call, later, by simp, hregisters, hlater⟩

/-- A descriptor stays armed as long as it is not deleted. -/
theorem Armed.lasts (h : Armed calls source fd event)
    (hmore : ∀ call ∈ more, ¬ call.Deletes source fd) :
    Armed (calls ++ more) source fd event := by
  obtain ⟨earlier, call, later, rfl, hregisters, hlater⟩ := h
  refine ⟨earlier, call, later ++ more, by simp, hregisters, ?_⟩
  intro other hother
  rcases List.mem_append.mp hother with hmem | hmem
  · exact hlater other hmem
  · exact hmore other hmem

/-- A list of calls about other things clears every descriptor. -/
theorem Cleared.of_quiet (h : ∀ call ∈ calls, ∀ event, ¬ call.Registers source fd event) :
    Cleared calls source fd := by
  rintro earlier call later event rfl hregisters
  exact absurd hregisters (h call (by simp) event)

/-- A descriptor stays cleared as long as it is not registered. -/
theorem Cleared.lasts (h : Cleared calls source fd)
    (hmore : ∀ call ∈ more, ∀ event, ¬ call.Registers source fd event) :
    Cleared (calls ++ more) source fd := by
  intro earlier call later event hcalls hregisters
  -- the registration is one of the new calls, which is excluded, or one of the old ones
  rcases List.append_eq_append_iff.mp hcalls with ⟨middle, rfl, hmiddle⟩ | ⟨middle, rfl, hmiddle⟩
  · exact absurd hregisters (hmore call (by simp [hmiddle]) event)
  · cases middle with
    | nil =>
        have hcall : call ∈ more := by
          rw [List.nil_append] at hmiddle
          simp [← hmiddle]
        exact absurd hregisters (hmore call hcall event)
    | cons first middle =>
        obtain ⟨rfl, rfl⟩ := List.cons.inj hmiddle
        obtain ⟨other, hother, hdeletes⟩ := h earlier call middle event rfl hregisters
        exact ⟨other, List.mem_append_left more hother, hdeletes⟩

/-- A deletion at the end clears its descriptor. -/
theorem Cleared.of_deletes {call : ControlCall} (h : call.Deletes source fd) :
    Cleared (calls ++ [call]) source fd := by
  intro earlier registration later event hcalls hregisters
  -- if nothing follows the registration, it would be the deletion itself
  rcases List.eq_nil_or_concat later with rfl | ⟨others, last, rfl⟩
  · obtain ⟨-, hlast⟩ := List.append_inj' hcalls rfl
    cases hlast
    exact absurd hregisters h.not_registers
  · rw [List.concat_eq_append, ← List.cons_append, ← List.append_assoc] at hcalls
    obtain ⟨-, hlast⟩ := List.append_inj' hcalls rfl
    cases hlast
    exact ⟨call, by simp, h⟩

end Lists

/-! ## A system that fails no call without need -/

/-- How a call is answered and whether a descriptor is registered before and after it, if
registrations that are there can be changed and deleted. A registration need not be granted. -/
inductive Served (source fd : Fd) : Bool → ControlCall → Bool → Prop where
  | elsewhere {call : ControlCall} (helsewhere : ¬ call.Concerns source fd) (registered : Bool) :
      Served source fd registered call registered
  | added (event : RawEvent) : Served source fd false ⟨source, .add fd event, .ok ()⟩ true
  | notAdded (event : RawEvent) (errno : Errno) (registered : Bool) :
      Served source fd registered ⟨source, .add fd event, .error errno⟩ registered
  | modified (event : RawEvent) : Served source fd true ⟨source, .modify fd event, .ok ()⟩ true
  | notModified (event : RawEvent) (errno : Errno) :
      Served source fd false ⟨source, .modify fd event, .error errno⟩ false
  | deleted : Served source fd true ⟨source, .delete fd, .ok ()⟩ false
  | notDeleted (errno : Errno) : Served source fd false ⟨source, .delete fd, .error errno⟩ false

/-- The same for a list of calls, between which the registration is left alone. -/
inductive AllServed (source fd : Fd) : Bool → List ControlCall → Bool → Prop where
  | nil (registered : Bool) : AllServed source fd registered [] registered
  | cons {first between last : Bool} {call : ControlCall} {calls : List ControlCall}
      (hcall : Served source fd first call between)
      (hcalls : AllServed source fd between calls last) :
      AllServed source fd first (call :: calls) last

section Served

variable {source fd : Fd} {first last : Bool} {call : ControlCall} {calls : List ControlCall}
  {event : RawEvent}

/-- After a call that registers it, a descriptor is registered. -/
theorem Served.of_registers (h : Served source fd first call last)
    (hregisters : call.Registers source fd event) : last = true := by
  cases h with
  | elsewhere helsewhere => exact absurd hregisters.concerns helsewhere
  | added | modified => rfl
  | notAdded | notModified | deleted | notDeleted => rcases hregisters with h | h <;> cases h

/-- After a call that deletes it, a descriptor is not registered. -/
theorem Served.of_deletes (h : Served source fd first call last)
    (hdeletes : call.Deletes source fd) : last = false := by
  cases h with
  | elsewhere helsewhere => exact absurd hdeletes.concerns helsewhere
  | added | notAdded | modified => cases hdeletes.2
  | notModified | deleted | notDeleted => rfl

/-- A registration stays until a call deletes it. -/
theorem Served.stays_registered (h : Served source fd true call last)
    (hdeletes : ¬ call.Deletes source fd) : last = true := by
  cases h with
  | elsewhere | notAdded | modified => rfl
  | deleted => exact absurd ⟨rfl, rfl⟩ hdeletes

/-- A descriptor without a registration stays so until a call registers it. -/
theorem Served.stays_unregistered (h : Served source fd false call last)
    (hregisters : ∀ event, ¬ call.Registers source fd event) : last = false := by
  cases h with
  | elsewhere | notAdded | notModified | notDeleted => rfl
  | added event => exact absurd (.inl rfl) (hregisters event)

/-- What serves a list of calls serves its first part and then the rest. -/
theorem AllServed.split {more : List ControlCall}
    (h : AllServed source fd first (calls ++ more) last) :
    ∃ between, AllServed source fd first calls between ∧
      AllServed source fd between more last := by
  induction calls generalizing first with
  | nil => exact ⟨first, .nil first, h⟩
  | cons call calls ih =>
      cases h with
      | cons hcall hcalls =>
          obtain ⟨between, hbefore, hafter⟩ := ih hcalls
          exact ⟨between, .cons hcall hbefore, hafter⟩

/-- A registration stays through calls that do not delete it. -/
theorem AllServed.stays_registered (h : AllServed source fd true calls last)
    (hcalls : ∀ call ∈ calls, ¬ call.Deletes source fd) : last = true := by
  induction calls with
  | nil =>
      cases h
      rfl
  | cons call calls ih =>
      obtain ⟨hfirst, hrest⟩ := List.forall_mem_cons.mp hcalls
      cases h with
      | cons hcall h =>
          obtain rfl := hcall.stays_registered hfirst
          exact ih h hrest

/-- An armed descriptor is registered. -/
theorem AllServed.of_armed (h : AllServed source fd first calls last)
    (harmed : Armed calls source fd event) : last = true := by
  obtain ⟨earlier, call, later, rfl, hregisters, hlater⟩ := harmed
  obtain ⟨before, -, h⟩ := h.split
  cases h with
  | cons hcall h =>
      obtain rfl := hcall.of_registers hregisters
      exact h.stays_registered hlater

/-- A descriptor that is cleared is not registered, if also what was registered at first was to be
deleted. -/
theorem AllServed.of_cleared (h : AllServed source fd first calls last)
    (hcleared : Cleared calls source fd)
    (hfirst : first = true → ∃ call ∈ calls, call.Deletes source fd) : last = false := by
  -- the induction follows the calls; `hfirst` is there because the first of them may leave the
  -- descriptor registered for the others
  induction h with
  | nil registered =>
      cases registered with
      | false => rfl
      | true => simpa using hfirst rfl
  | @cons first between _ call calls hcall _ ih =>
      refine ih ?_ ?_
      · rintro earlier registration later event rfl hregisters
        exact hcleared (call :: earlier) registration later event rfl hregisters
      · rintro rfl
        by_cases hregisters : ∃ event, call.Registers source fd event
        · obtain ⟨event, hregisters⟩ := hregisters
          exact hcleared [] call calls event rfl hregisters
        · cases first with
          | false =>
              cases hcall.stays_unregistered (not_exists.mp hregisters)
          | true =>
              obtain ⟨other, hother, hdeletes⟩ := hfirst rfl
              rcases List.mem_cons.mp hother with rfl | hmem
              · cases hcall.of_deletes hdeletes
              · exact ⟨other, hmem, hdeletes⟩

end Served

end Proactor
