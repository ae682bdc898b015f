import Proactor.Proofs.KernelCalls
import Proactor.Simulation.Answering

/-!
# Programs served by the simulated system

`Kernel.serve` runs a program whose requests change registrations or write to
the log. Apart from the trace it is what the simulation makes of such a program,
as `advance_perform` says. With no failure prepared and all files open, arming
and rearming a descriptor come to the same: both register it for the event,
whether or not it was registered before.
-/

namespace Proactor.Simulation

namespace Kernel

variable {σ α β γ : Type}

/-- What a program comes to when the system answers its requests one after the other. Nothing
comes of a program that panics, or that asks for anything but registrations and log records. -/
def serve : Kernel α → Program σ β → Option (β × Kernel α)
  | kernel, .done value => some (value, kernel)
  | _, .panic _ => none
  | kernel, .call (.control source change) next =>
      (kernel.control source change).2.serve (next (kernel.control source change).1)
  | kernel, .call (.log _) next => kernel.serve (next ())
  | _, .call _ _ => none

variable {kernel : Kernel α}

/-- A value is returned at once, and the system stays as it is. -/
@[simp]
theorem serve_pure (value : β) :
    kernel.serve (pure value : Program σ β) = some (value, kernel) :=
  rfl

/-- A log record is taken without a word, and the system stays as it is. -/
@[simp]
theorem serve_log (record : Log) (next : Unit → Program σ β) :
    kernel.serve (.call (.log record) next) = kernel.serve (next ()) :=
  rfl

/-- A change of a registration is answered, and the rest is served by the system after it. -/
theorem serve_ask_control (source : Fd) (change : Control)
    (next : Except Errno Unit → Program σ β) :
    kernel.serve (Program.ask (.control source change) >>= next) =
      (kernel.control source change).2.serve (next (kernel.control source change).1) :=
  rfl

/-- A program that goes on with another one is served until the first one has returned, and the
other one is served then. -/
theorem serve_bind {program : Program σ β} {continuation : β → Program σ γ} :
    kernel.serve (program >>= continuation) =
      (kernel.serve program).bind fun served => served.2.serve (continuation served.1) := by
  induction program generalizing kernel with
  | done value => rfl
  | panic cause => rfl
  | call request next ih =>
      cases request with
      | control source change => exact ih _
      | log record => exact ih _
      | _ => rfl

end Kernel

/-- The simulation carries out a program as its system serves it. -/
theorem Context.advance_perform {β : Type} {ctx : Context} {program : Program Target β}
    {world : World} {value : β} {last : Kernel Action}
    (h : world.kernel.serve program = some (value, last)) :
    ∃ after, (ctx.perform program).advance world = (.done value, after) ∧
      after.kernel = last := by
  induction program generalizing world with
  | done result =>
      cases h
      exact ⟨world, rfl, rfl⟩
  | panic cause => cases h
  | call request next ih =>
      cases request with
      | control source change =>
          -- the system changes, and a line is written that the system does not see
          let answered := world.kernel.control source change
          let line := Trace.line (Trace.control source change) (fun _ => "0") answered.1
          exact @ih answered.1 ((world.withKernel answered.2).say ctx.thread line) h
      | log record =>
          exact @ih () (world.say ctx.thread ("log " ++ record.text)) h
      | _ => cases h

namespace Kernel

variable {σ α : Type} {kernel : Kernel α} {source : Source} {fd : Fd}

/-! ## A system that grants what it can -/

/-- No failure is prepared, and the source and the descriptor are open. -/
structure Serviceable (kernel : Kernel α) (source : Source) (fd : Fd) : Prop where
  failures : kernel.failures = []
  usable : source.closed = false
  source_open : kernel.isOpen source.descriptor = true
  fd_open : kernel.isOpen fd = true

/-- A descriptor that is open is not negative. -/
theorem not_isNegative_of_isOpen (h : kernel.isOpen fd = true) : fd.isNegative = false := by
  unfold isOpen at h
  simp only [Bool.and_eq_true, Bool.not_eq_true'] at h
  exact h.1

namespace Serviceable

/-- Making a registration leaves a descriptor serviceable. -/
theorem register (h : kernel.Serviceable source fd) (target other : Fd) (event : RawEvent) :
    (kernel.register target other event).Serviceable source fd :=
  ⟨h.failures, h.usable, h.source_open, h.fd_open⟩

/-- Removing a registration leaves a descriptor serviceable. -/
theorem unregister (h : kernel.Serviceable source fd) (target other : Fd) :
    (kernel.unregister target other).Serviceable source fd :=
  ⟨h.failures, h.usable, h.source_open, h.fd_open⟩

end Serviceable

/-- Nothing is left to remove of a registration that is not there. -/
theorem unregister_of_none {target : Fd} (h : kernel.registration? target fd = none) :
    kernel.unregister target fd = kernel := by
  have hfilter : kernel.registrations.filter (fun entry => !entry.isOf target fd) =
      kernel.registrations := by
    refine List.filter_eq_self.mpr fun entry hentry => ?_
    simpa using List.find?_eq_none.mp h entry hentry
  unfold unregister
  rw [hfilter]

/-- What is registered does not depend on whether a former registration was removed before. -/
@[simp]
theorem register_unregister (target : Fd) (event : RawEvent) :
    (kernel.unregister target fd).register target fd event =
      kernel.register target fd event := by
  simp [register, unregister, List.filter_filter]

/-- Of two registrations of a descriptor with a source the second one remains. -/
@[simp]
theorem register_register (target : Fd) (first second : RawEvent) :
    (kernel.register target fd first).register target fd second =
      kernel.register target fd second := by
  have hown : (⟨target, fd, first⟩ : Registration).isOf target fd = true :=
    Registration.isOf_iff.mpr ⟨rfl, rfl⟩
  simp [register, unregister, List.filter_filter, hown]

/-! ## Calls about one descriptor -/

section Calls

variable (h : kernel.Serviceable source fd) {key : UInt64} {interest : Interest}

include h

/-- A system answers a change on a serviceable descriptor as its registrations are, without a
failure. -/
theorem control_serviceable {change : Control} (hfd : changedFd change = fd) :
    kernel.control source.descriptor change = kernel.applyChange source.descriptor change := by
  rw [control_of_faultless h.failures, h.source_open, hfd, h.fd_open]
  rfl

/-- A change on a serviceable descriptor comes to what its registrations make of it. -/
theorem serve_control {change : Fd → RawEvent → Control}
    (hinterest : interest.isEmpty = false)
    (hfd : changedFd (change fd ⟨key, interest.mask⟩) = fd) :
    kernel.serve (source.control change fd key interest : Program σ _) =
      some (Fault.ofCall
          (kernel.applyChange source.descriptor (change fd ⟨key, interest.mask⟩)).1,
        (kernel.applyChange source.descriptor (change fd ⟨key, interest.mask⟩)).2) := by
  unfold Source.control Source.live
  rw [not_isNegative_of_isOpen h.fd_open, hinterest, h.usable]
  rw [← control_serviceable h hfd]
  rfl

/-- Adding a registration fails if it is there already. -/
theorem serve_add (hinterest : interest.isEmpty = false) :
    kernel.serve (source.add fd key interest : Program σ _) =
      if (kernel.registration? source.descriptor fd).isSome then
        some (.error (.system .alreadyExists), kernel)
      else some (.ok (), kernel.register source.descriptor fd ⟨key, interest.mask⟩) := by
  unfold Source.add
  rw [serve_control h hinterest rfl, applyChange_add]
  split <;> rfl

/-- Modifying a registration fails if it is not there. -/
theorem serve_modify (hinterest : interest.isEmpty = false) :
    kernel.serve (source.modify fd key interest : Program σ _) =
      if (kernel.registration? source.descriptor fd).isSome then
        some (.ok (), kernel.register source.descriptor fd ⟨key, interest.mask⟩)
      else some (.error (.system .noEntry), kernel) := by
  unfold Source.modify
  rw [serve_control h hinterest rfl, applyChange_modify]
  split <;> rfl

/-- Arming registers a descriptor in any case. -/
theorem serve_arm (hinterest : interest.isEmpty = false) :
    kernel.serve (source.arm fd key interest : Program σ _) =
      some (.ok (), kernel.register source.descriptor fd ⟨key, interest.mask⟩) := by
  have hadd : kernel.serve (source.add fd key interest : Program σ _) = _ :=
    serve_add h hinterest
  have hmodify : kernel.serve (source.modify fd key interest : Program σ _) = _ :=
    serve_modify h hinterest
  unfold Source.arm
  rw [serve_bind, hadd]
  by_cases hregistered : (kernel.registration? source.descriptor fd).isSome = true
  · rw [if_pos hregistered] at hmodify ⊢
    exact hmodify
  · rw [if_neg hregistered]
    rfl

/-- Rearming registers a descriptor in any case. -/
theorem serve_rearm (hinterest : interest.isEmpty = false) :
    kernel.serve (source.rearm fd key interest : Program σ _) =
      some (.ok (), kernel.register source.descriptor fd ⟨key, interest.mask⟩) := by
  have hadd : kernel.serve (source.add fd key interest : Program σ _) = _ :=
    serve_add h hinterest
  have hmodify : kernel.serve (source.modify fd key interest : Program σ _) = _ :=
    serve_modify h hinterest
  unfold Source.rearm
  rw [serve_bind, hmodify]
  by_cases hregistered : (kernel.registration? source.descriptor fd).isSome = true
  · rw [if_pos hregistered]
    rfl
  · rw [if_neg hregistered] at hadd ⊢
    exact hadd

/-- After a deletion a descriptor is not registered, whether or not it was before. -/
theorem serve_delete :
    ∃ result, (result = .ok () ∨ result = .error (.system .noEntry)) ∧
      kernel.serve (source.delete fd : Program σ _) =
        some (result, kernel.unregister source.descriptor fd) := by
  have hcontrol : kernel.control source.descriptor (.delete fd) = _ :=
    control_serviceable h rfl
  rw [applyChange_delete] at hcontrol
  unfold Source.delete Source.live
  simp only [h.usable, Bool.false_eq_true, if_false]
  rw [serve_ask_control, hcontrol]
  by_cases hregistered : (kernel.registration? source.descriptor fd).isSome = true
  · rw [if_pos hregistered]
    exact ⟨.ok (), .inl rfl, rfl⟩
  · rw [if_neg hregistered, unregister_of_none (by simpa using hregistered)]
    exact ⟨.error (.system .noEntry), .inr rfl, rfl⟩

end Calls

end Kernel

end Proactor.Simulation
