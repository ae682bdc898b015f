import Proactor.Proofs.Inert
import Proactor.Proofs.Keys
import Proactor.Proofs.Serving

/-!
# Arming and rearming are interchangeable

Operations are armed when they are submitted and rearmed when they have to go
on. The two try the same two calls in opposite orders. In a system in which no
failure is prepared the order does not show: the result is the same, and so is
all that is registered afterwards. `Interchangeable` says this, and what is left
of it when calls fail at will: each tries at most twice, for its own reason, and
a change that fails in the end has changed no registration.
-/

namespace Proactor.Simulation.Kernel

variable {σ α : Type} {kernel last : Kernel α} {source : Source} {fd : Fd} {key : UInt64}
  {interest : Interest}

/-! ## What is claimed -/

/-- What it takes to register a descriptor with a source. -/
structure Admits (kernel : Kernel α) (source : Source) (fd : Fd) : Prop where
  usable : source.closed = false
  source_open : kernel.isOpen source.descriptor = true
  nonnegative : fd.isNegative = false
  fd_open : kernel.isOpen fd = true

/-- The descriptor is registered once and for this event, and nothing else has changed in what is
registered. -/
structure Registers (kernel last : Kernel α) (source fd : Fd) (event : RawEvent) : Prop where
  registered : last.registrations.filter (·.isOf source fd) = [⟨source, fd, event⟩]
  others : last.registrations.filter (!·.isOf source fd) =
    kernel.registrations.filter (!·.isOf source fd)

/-- Two calls, as the system answers them. The second one is made when the first one fails with
the error that calls for it, and the last answer is the result. -/
inductive Tries (kernel : Kernel α) (source : Source) (first second : Control)
    (fallback : Errno) : List (Exchange σ) → Except Fault Unit → Kernel α → Prop where
  | refused (hrefused : source.closed = true ∨ (changedFd first).isNegative = true) :
      Tries kernel source first second fallback [] (.error (.system .badDescriptor)) kernel
  | once {answer : Except Errno Unit} {last : Kernel α}
      (hfirst : kernel.control source.descriptor first = (answer, last))
      (hother : answer ≠ .error fallback) :
      Tries kernel source first second fallback
        [⟨.control source.descriptor first, answer⟩] (Fault.ofCall answer) last
  | twice {answer : Except Errno Unit} {next last : Kernel α}
      (hfirst : kernel.control source.descriptor first = (.error fallback, next))
      (hsecond : next.control source.descriptor second = (answer, last)) :
      Tries kernel source first second fallback
        [⟨.control source.descriptor first, .error fallback⟩,
          ⟨.control source.descriptor second, answer⟩] (Fault.ofCall answer) last

/-- A program is served by two tries. Unless it succeeds it leaves all registrations alone. -/
def ServedByTries (kernel : Kernel α) (source : Source) (program : Program σ (Except Fault Unit))
    (first second : Control) (fallback : Errno) : Prop :=
  ∃ exchanges result last, kernel.serve program = some (result, last) ∧
    program.Returns exchanges result ∧
    kernel.Tries source first second fallback exchanges result last ∧
    (result ≠ .ok () → last.registrations = kernel.registrations)

/-- Arming and rearming a descriptor do the same in a system that fails no call without need, and
neither makes more than two calls in any other. -/
structure Interchangeable (σ : Type) (kernel : Kernel α) (source : Source) (fd : Fd)
    (key : UInt64) (interest : Interest) : Prop where
  same : kernel.failures = [] →
    kernel.serve (source.arm fd key interest : Program σ _) =
      kernel.serve (source.rearm fd key interest : Program σ _)
  succeeds : kernel.failures = [] → kernel.Admits source fd →
    ∃ last, kernel.serve (source.arm fd key interest : Program σ _) = some (.ok (), last) ∧
      kernel.Registers last source.descriptor fd ⟨key, interest.mask⟩
  fails : kernel.failures = [] → ¬ kernel.Admits source fd →
    kernel.serve (source.arm fd key interest : Program σ _) =
      some (.error (.system .badDescriptor), kernel)
  /-- The event that is registered tells what it was registered for. -/
  faithful : Event.readinessOf interest.mask = interest
  arms : kernel.ServedByTries source (source.arm fd key interest : Program σ _)
    (.add fd ⟨key, interest.mask⟩) (.modify fd ⟨key, interest.mask⟩) .alreadyExists
  rearms : kernel.ServedByTries source (source.rearm fd key interest : Program σ _)
    (.modify fd ⟨key, interest.mask⟩) (.add fd ⟨key, interest.mask⟩) .noEntry

/-! ## Calls that fail -/

/-- A change is granted, or it is refused and leaves the system as it was. -/
theorem applyChange_cases (kernel : Kernel α) (target : Fd) (change : Control) :
    (kernel.applyChange target change).1 = .ok () ∨
      ∃ errno, kernel.applyChange target change = (.error errno, kernel) := by
  unfold applyChange
  dsimp only
  split
  all_goals first
    | exact .inl rfl
    | exact .inr ⟨_, rfl⟩

/-- A call that fails changes no registration, whether it was made to fail or had to. -/
theorem control_registrations_of_error {target : Fd} {change : Control} {errno : Errno}
    (h : kernel.control target change = (.error errno, last)) :
    last.registrations = kernel.registrations := by
  unfold control at h
  split at h
  · -- only the failure that was prepared is gone
    rename_i hfailure
    cases h
    exact congrArg (·.2.registrations) hfailure.symm
  · rename_i next hfailure
    have hnext : next.registrations = kernel.registrations :=
      congrArg (·.2.registrations) hfailure.symm
    split at h
    · rcases next.applyChange_cases target change with hgranted | ⟨_, hdenied⟩
      · cases hgranted.symm.trans (congrArg Prod.fst h)
      · cases hdenied.symm.trans h
        exact hnext
    · cases h
      exact hnext

/-- Two tries that fail in the end leave all registrations alone. The first one has failed if
there was a second one. -/
theorem Tries.registrations_of_failed {first second : Control} {fallback : Errno}
    {exchanges : List (Exchange σ)} {result : Except Fault Unit}
    (h : kernel.Tries source first second fallback exchanges result last)
    (hresult : result ≠ .ok ()) : last.registrations = kernel.registrations := by
  cases h with
  | refused => rfl
  | @once answer _ hfirst hother =>
      cases answer with
      | ok => exact absurd rfl hresult
      | error errno => exact control_registrations_of_error hfirst
  | @twice answer next _ hfirst hsecond =>
      cases answer with
      | ok => exact absurd rfl hresult
      | error errno =>
          exact (control_registrations_of_error hsecond).trans
            (control_registrations_of_error hfirst)

/-! ## Programs with a fallback -/

section Fallback

variable {first second : Fd → RawEvent → Control} {fallback : Errno}

/-- A closed source refuses every change, and every source refuses one of a negative descriptor. -/
theorem changeOr_of_refused (hinterest : interest.isEmpty = false)
    (hfallback : fallback ≠ .badDescriptor)
    (hrefused : source.closed = true ∨ fd.isNegative = true) :
    (source.changeOr first second fallback fd key interest : Program σ _) =
      pure (.error (.system .badDescriptor)) := by
  obtain hclosed | hnegative := hrefused
  · exact Source.changeOr_of_closed hclosed hinterest hfallback
  · unfold Source.changeOr
    rw [Source.control_of_negative hnegative, Program.pure_bind]
    exact if_neg fun h => hfallback (Option.some.inj h).symm

/-- A source in use asks for a change of a descriptor that can be open. -/
theorem control_eq_ask (hclosed : source.closed = false) (hfd : fd.isNegative = false)
    (hinterest : interest.isEmpty = false) (change : Fd → RawEvent → Control) :
    (source.control change fd key interest : Program σ _) =
      .call (.control source.descriptor (change fd ⟨key, interest.mask⟩)) fun answer =>
        pure (Fault.ofCall answer) := by
  unfold Source.control Source.live
  rw [hfd, hinterest, hclosed]
  rfl

/-- The answer decides whether the source asks again. -/
theorem changeOr_eq_ask (hclosed : source.closed = false) (hfd : fd.isNegative = false)
    (hinterest : interest.isEmpty = false) :
    (source.changeOr first second fallback fd key interest : Program σ _) =
      .call (.control source.descriptor (first fd ⟨key, interest.mask⟩)) fun answer =>
        if answer = .error fallback then
          .call (.control source.descriptor (second fd ⟨key, interest.mask⟩)) fun answer =>
            pure (Fault.ofCall answer)
        else pure (Fault.ofCall answer) := by
  unfold Source.changeOr
  rw [control_eq_ask hclosed hfd hinterest]
  refine congrArg (Program.call _) (funext fun answer => ?_)
  cases answer with
  | ok => rfl
  | error errno =>
      rw [control_eq_ask hclosed hfd hinterest]
      show (if some errno = some fallback then _ else _ : Program σ _) = _
      simp only [Option.some.injEq, Except.error.injEq]
      rfl

/-- A program whose calls are two tries is served by them. -/
theorem ServedByTries.of_tries {program : Program σ (Except Fault Unit)}
    {exchanges : List (Exchange σ)} {result : Except Fault Unit} {change other : Control}
    (hserve : kernel.serve program = some (result, last))
    (hreturns : program.Returns exchanges result)
    (htries : kernel.Tries source change other fallback exchanges result last) :
    kernel.ServedByTries source program change other fallback :=
  ⟨exchanges, result, last, hserve, hreturns, htries, htries.registrations_of_failed⟩

/-- A change with a fallback is served by two tries. -/
theorem servedByTries_changeOr (hinterest : interest.isEmpty = false)
    (hfallback : fallback ≠ .badDescriptor)
    (hfd : changedFd (first fd ⟨key, interest.mask⟩) = fd) :
    kernel.ServedByTries source
      (source.changeOr first second fallback fd key interest : Program σ _)
      (first fd ⟨key, interest.mask⟩) (second fd ⟨key, interest.mask⟩) fallback := by
  by_cases hrefused : source.closed = true ∨ fd.isNegative = true
  · rw [changeOr_of_refused hinterest hfallback hrefused]
    exact .of_tries rfl ⟨rfl, rfl⟩ (.refused (by rwa [hfd]))
  · obtain ⟨hclosed, hnonnegative⟩ : source.closed = false ∧ fd.isNegative = false := by
      simpa using hrefused
    rw [changeOr_eq_ask hclosed hnonnegative hinterest]
    rcases hcall : kernel.control source.descriptor (first fd ⟨key, interest.mask⟩)
      with ⟨answer, next⟩
    by_cases hagain : answer = .error fallback
    · subst hagain
      rcases hother : next.control source.descriptor (second fd ⟨key, interest.mask⟩)
        with ⟨answer, last⟩
      refine .of_tries ?_ ?_ (.twice hcall hother)
      · simp [serve, hcall, hother]
      · refine ⟨_, _, rfl, ?_⟩
        dsimp only
        rw [if_pos rfl]
        exact ⟨_, [], rfl, rfl, rfl⟩
    · refine .of_tries ?_ ?_ (.once hcall hagain)
      · simp [serve, hcall, hagain]
      · refine ⟨_, [], rfl, ?_⟩
        dsimp only
        rw [if_neg hagain]
        exact ⟨rfl, rfl⟩

/-- Nothing is registered, and nothing changes, if the source or the descriptor is not open. -/
theorem serve_changeOr_of_not_admits (hinterest : interest.isEmpty = false)
    (hfallback : fallback ≠ .badDescriptor)
    (hfd : changedFd (first fd ⟨key, interest.mask⟩) = fd) (hfailures : kernel.failures = [])
    (hadmits : ¬ kernel.Admits source fd) :
    kernel.serve (source.changeOr first second fallback fd key interest : Program σ _) =
      some (.error (.system .badDescriptor), kernel) := by
  by_cases hrefused : source.closed = true ∨ fd.isNegative = true
  · rw [changeOr_of_refused hinterest hfallback hrefused]
    rfl
  · obtain ⟨hclosed, hnonnegative⟩ : source.closed = false ∧ fd.isNegative = false := by
      simpa using hrefused
    have hopen : (kernel.isOpen source.descriptor && kernel.isOpen fd) = false := by
      refine Bool.eq_false_iff.mpr fun h => hadmits ?_
      obtain ⟨hsource, hfile⟩ := Bool.and_eq_true_iff.mp h
      exact ⟨hclosed, hsource, hnonnegative, hfile⟩
    have hcall : kernel.control source.descriptor (first fd ⟨key, interest.mask⟩) =
        (.error .badDescriptor, kernel) := by
      rw [control_of_faultless hfailures, hfd, hopen]
      rfl
    rw [changeOr_eq_ask hclosed hnonnegative hinterest]
    simp [serve, hcall, Ne.symm hfallback, Fault.ofCall]

end Fallback

/-! ## Arming and rearming -/

/-- A registration that is made replaces the one that was there. -/
theorem registers_register (target : Fd) (event : RawEvent) :
    kernel.Registers (kernel.register target fd event) target fd event := by
  have hown : (⟨target, fd, event⟩ : Registration).isOf target fd = true :=
    Registration.isOf_iff.mpr ⟨rfl, rfl⟩
  constructor
  case registered => simp [register, unregister, List.filter_filter, hown]
  case others => simp [register, unregister, List.filter_filter, hown]

/-- A registration whose mask is reported back is found ready on exactly the sides that it waits
for. -/
theorem readinessOf_mask (interest : Interest) :
    Event.readinessOf interest.mask = interest := by
  obtain ⟨readable, writable⟩ := interest
  cases readable <;> cases writable <;> decide

/-- Whatever is registered and whatever fails, arming and rearming a descriptor are
interchangeable. -/
theorem arm_rearm_interchangeable (kernel : Kernel α) (source : Source) (fd : Fd) (key : UInt64)
    (hinterest : interest.isEmpty = false) :
    kernel.Interchangeable σ source fd key interest := by
  have hrefused : kernel.failures = [] → ¬ kernel.Admits source fd →
      kernel.serve (source.arm fd key interest : Program σ _) =
          some (.error (.system .badDescriptor), kernel) ∧
        kernel.serve (source.rearm fd key interest : Program σ _) =
          some (.error (.system .badDescriptor), kernel) := by
    intro hfailures hadmits
    exact ⟨serve_changeOr_of_not_admits hinterest (by decide) rfl hfailures hadmits,
      serve_changeOr_of_not_admits hinterest (by decide) rfl hfailures hadmits⟩
  have hserviceable : kernel.failures = [] → kernel.Admits source fd →
      kernel.Serviceable source fd := fun hfailures hadmits =>
    ⟨hfailures, hadmits.usable, hadmits.source_open, hadmits.fd_open⟩
  constructor
  case same =>
    intro hfailures
    by_cases hadmits : kernel.Admits source fd
    · have h := hserviceable hfailures hadmits
      rw [serve_arm h hinterest, serve_rearm h hinterest]
    · obtain ⟨harm, hrearm⟩ := hrefused hfailures hadmits
      rw [harm, hrearm]
  case succeeds =>
    intro hfailures hadmits
    exact ⟨_, serve_arm (hserviceable hfailures hadmits) hinterest, registers_register _ _⟩
  case fails => exact fun hfailures hadmits => (hrefused hfailures hadmits).1
  case faithful => exact readinessOf_mask interest
  case arms => exact servedByTries_changeOr hinterest (by decide) rfl
  case rearms => exact servedByTries_changeOr hinterest (by decide) rfl

/-- A descriptor is registered, but the system denies it when the registration is to be modified.
Adding it fails with reason then, and that is the result. -/
theorem interchangeable_despite_denial :
    ∃ (kernel : Kernel Unit) (source : Source) (fd : Fd) (interest : Interest),
      interest.isEmpty = false ∧ kernel.failures = [(.modify, 2)] ∧
        ((kernel.serve (source.rearm fd fd.key interest : Program Unit _)).map Prod.fst =
          some (.error (.system .alreadyExists))) ∧
        ((kernel.serve (source.arm fd fd.key interest : Program Unit _)).map Prod.fst =
          some (.error (.system .noEntry))) ∧
        kernel.Interchangeable Unit source fd fd.key interest := by
  let kernel : Kernel Unit :=
    ((Kernel.initial.register ⟨500⟩ ⟨7⟩ ⟨7, Interest.read.mask⟩).failNext .modify [2])
  exact ⟨kernel, ⟨⟨500⟩, ⟨⟨501⟩, ⟨502⟩⟩, false⟩, ⟨7⟩, .write, rfl, rfl, rfl, rfl,
    arm_rearm_interchangeable kernel _ _ _ rfl⟩

end Proactor.Simulation.Kernel
