import Proactor.Proofs.Attendance
import Proactor.Simulation.Kernel

/-!
# Registrations with the simulated operating system

Unless it was told to, the simulated system fails no change of a registration
without need: it serves the calls as `Served` describes. Whatever else it does
between the calls of a side, exactly the descriptors with a slot are registered
then, which is what `registration_iff` says.
-/

namespace Proactor.Simulation

/-- A registration is that of a descriptor with a source if and only if it names both. -/
theorem Registration.isOf_iff {entry : Registration} {source fd : Fd} :
    entry.isOf source fd = true ↔ entry.source = source ∧ entry.fd = fd := by
  simp [isOf]

namespace Kernel

variable {α : Type} {kernel : Kernel α} {source fd : Fd}

/-- The system with a registration removed. -/
def unregister (kernel : Kernel α) (source fd : Fd) : Kernel α :=
  { kernel with
    registrations := kernel.registrations.filter fun entry => !entry.isOf source fd }

/-- The system with a registration made or replaced. -/
def register (kernel : Kernel α) (source fd : Fd) (event : RawEvent) : Kernel α :=
  { kernel with
    registrations := ⟨source, fd, event⟩ :: (kernel.unregister source fd).registrations }

/-! ## Single changes -/

/-- Adding registers a descriptor that is not registered, and is refused otherwise. -/
theorem applyChange_add (event : RawEvent) :
    kernel.applyChange source (.add fd event) =
      if (kernel.registration? source fd).isSome then (.error .alreadyExists, kernel)
      else (.ok (), kernel.register source fd event) := by
  unfold applyChange
  cases h : kernel.registration? source fd <;> simp [changedFd, h, register, unregister]

/-- Modifying replaces a registration that is there, and is refused otherwise. -/
theorem applyChange_modify (event : RawEvent) :
    kernel.applyChange source (.modify fd event) =
      if (kernel.registration? source fd).isSome then (.ok (), kernel.register source fd event)
      else (.error .noEntry, kernel) := by
  unfold applyChange
  cases h : kernel.registration? source fd <;> simp [changedFd, h, register, unregister]

/-- Deleting removes a registration that is there, and is refused otherwise. -/
theorem applyChange_delete :
    kernel.applyChange source (.delete fd) =
      if (kernel.registration? source fd).isSome then (.ok (), kernel.unregister source fd)
      else (.error .noEntry, kernel) := by
  unfold applyChange
  cases h : kernel.registration? source fd <;> simp [changedFd, h, unregister]

/-- A registration that is removed is not found any more. -/
@[simp]
theorem registration?_unregister_same :
    (kernel.unregister source fd).registration? source fd = none := by
  simp [registration?, unregister, List.find?_eq_none]

/-- Removing a registration leaves all others alone. -/
theorem registration?_unregister_other {target other : Fd} (h : ¬ (target = source ∧ other = fd)) :
    (kernel.unregister target other).registration? source fd =
      kernel.registration? source fd := by
  unfold registration? unregister
  rw [List.find?_filter]
  congr
  funext entry
  cases hentry : entry.isOf source fd with
  | false => simp
  | true =>
      have hother : entry.isOf target other = false := by
        rw [Bool.eq_false_iff]
        intro hsame
        rw [Registration.isOf_iff] at hentry hsame
        exact h ⟨hsame.1.symm.trans hentry.1, hsame.2.symm.trans hentry.2⟩
      simp [hother]

/-- A registration that has been made is found. -/
@[simp]
theorem registration?_register_same (event : RawEvent) :
    (kernel.register source fd event).registration? source fd = some ⟨source, fd, event⟩ := by
  unfold registration? register
  rw [List.find?_cons_of_pos]
  exact Registration.isOf_iff.mpr ⟨rfl, rfl⟩

/-- Making a registration leaves all others alone. -/
theorem registration?_register_other {target other : Fd} (event : RawEvent)
    (h : ¬ (target = source ∧ other = fd)) :
    (kernel.register target other event).registration? source fd =
      kernel.registration? source fd := by
  refine Eq.trans ?_ (registration?_unregister_other h)
  unfold registration? register
  rw [List.find?_cons_of_neg]
  rw [Registration.isOf_iff]
  exact h

/-! ## Calls -/

/-- A system in which no failures are prepared carries out the changes that it can. -/
theorem control_of_faultless (h : kernel.failures = []) (change : Control) :
    kernel.control source change =
      if kernel.isOpen source && kernel.isOpen (changedFd change) then
        kernel.applyChange source change
      else (.error .badDescriptor, kernel) := by
  cases kernel
  cases h
  rfl

/-- A call about another registration leaves the registration of a descriptor alone. -/
theorem registration?_control_other (hfailures : kernel.failures = []) {target : Fd}
    {change : Control} (h : ¬ (target = source ∧ change.fd = fd)) :
    (kernel.control target change).2.registration? source fd =
      kernel.registration? source fd := by
  rw [control_of_faultless hfailures]
  split
  · cases change with
    | add other event =>
        rw [applyChange_add]
        split
        · rfl
        · exact registration?_register_other event h
    | modify other event =>
        rw [applyChange_modify]
        split
        · exact registration?_register_other event h
        · rfl
    | delete other =>
        rw [applyChange_delete]
        split
        · exact registration?_unregister_other h
        · rfl
  · rfl

/-- No failure is prepared, and the files of a source and of what it has registered are open. -/
structure Faultless (kernel : Kernel α) (source fd : Fd) : Prop where
  failures : kernel.failures = []
  source_open : kernel.isOpen source = true
  fd_open : (kernel.registration? source fd).isSome → kernel.isOpen fd = true

/-- A change of registrations prepares no failures and closes no files. -/
theorem applyChange_same (kernel : Kernel α) (source : Fd) (change : Control) :
    (kernel.applyChange source change).2.failures = kernel.failures ∧
      (kernel.applyChange source change).2.closed = kernel.closed := by
  cases change with
  | add fd event =>
      rw [applyChange_add]
      split <;> exact ⟨rfl, rfl⟩
  | modify fd event =>
      rw [applyChange_modify]
      split <;> exact ⟨rfl, rfl⟩
  | delete fd =>
      rw [applyChange_delete]
      split <;> exact ⟨rfl, rfl⟩

/-- A change prepares no failure and closes no file. -/
theorem Faultless.control (h : kernel.Faultless source fd) (target : Fd) (change : Control) :
    (kernel.control target change).2.Faultless source fd := by
  have hcontrol : kernel.control target change = _ := control_of_faultless h.failures change
  by_cases hopen : kernel.isOpen target && kernel.isOpen (changedFd change)
  · rw [if_pos hopen] at hcontrol
    obtain ⟨hfailures, hclosed⟩ := applyChange_same kernel target change
    have hisOpen : ∀ other, (kernel.control target change).2.isOpen other =
        kernel.isOpen other := by
      intro other
      rw [hcontrol, isOpen, hclosed, isOpen]
    constructor
    case failures => rw [hcontrol, hfailures, h.failures]
    case source_open => rw [hisOpen, h.source_open]
    case fd_open =>
      intro hregistered
      rw [hisOpen]
      by_cases hsame : target = source ∧ change.fd = fd
      · -- the change was granted for this descriptor, so its file is open
        obtain ⟨rfl, rfl⟩ := hsame
        obtain ⟨-, hfd⟩ := Bool.and_eq_true_iff.mp hopen
        cases change <;> exact hfd
      · rw [registration?_control_other h.failures hsame] at hregistered
        exact h.fd_open hregistered
  · rw [if_neg hopen] at hcontrol
    rw [hcontrol]
    exact h

section Served

variable (h : kernel.Faultless source fd)

include h

/-- A faultless system serves the adding of a descriptor. -/
theorem add_served (event : RawEvent) :
    Served source fd (kernel.registration? source fd).isSome
      ⟨source, .add fd event, (kernel.control source (.add fd event)).1⟩
      ((kernel.control source (.add fd event)).2.registration? source fd).isSome := by
  rw [control_of_faultless h.failures, h.source_open, Bool.true_and, applyChange_add]
  cases hregistered : (kernel.registration? source fd).isSome with
  | true =>
      split
      · rw [if_pos rfl, hregistered]
        exact .notAdded event _ true
      · rw [hregistered]
        exact .notAdded event _ true
  | false =>
      split
      · simpa using Served.added event
      · rw [hregistered]
        exact .notAdded event _ false

/-- A faultless system serves the modification of a registration. -/
theorem modify_served (event : RawEvent) :
    Served source fd (kernel.registration? source fd).isSome
      ⟨source, .modify fd event, (kernel.control source (.modify fd event)).1⟩
      ((kernel.control source (.modify fd event)).2.registration? source fd).isSome := by
  rw [control_of_faultless h.failures, h.source_open, Bool.true_and, applyChange_modify]
  cases hregistered : (kernel.registration? source fd).isSome with
  | true =>
      have hopen : kernel.isOpen (changedFd (.modify fd event)) = true := h.fd_open hregistered
      rw [if_pos hopen, if_pos rfl]
      simpa using Served.modified event
  | false =>
      rw [if_neg Bool.false_ne_true]
      split <;> rw [hregistered] <;> exact .notModified event _

/-- A faultless system serves the deletion of a registration. -/
theorem delete_served :
    Served source fd (kernel.registration? source fd).isSome
      ⟨source, .delete fd, (kernel.control source (.delete fd)).1⟩
      ((kernel.control source (.delete fd)).2.registration? source fd).isSome := by
  rw [control_of_faultless h.failures, h.source_open, Bool.true_and, applyChange_delete]
  cases hregistered : (kernel.registration? source fd).isSome with
  | true =>
      have hopen : kernel.isOpen (changedFd (.delete fd)) = true := h.fd_open hregistered
      rw [if_pos hopen, if_pos rfl]
      simpa using Served.deleted
  | false =>
      rw [if_neg Bool.false_ne_true]
      split <;> rw [hregistered] <;> exact .notDeleted _

/-- Without prepared failures the changes of a registration are served. -/
theorem control_served (target : Fd) (change : Control) :
    Served source fd (kernel.registration? source fd).isSome
      ⟨target, change, (kernel.control target change).1⟩
      ((kernel.control target change).2.registration? source fd).isSome := by
  by_cases hsame : target = source ∧ change.fd = fd
  · obtain ⟨rfl, rfl⟩ := hsame
    cases change with
    | add fd event => exact add_served h event
    | modify fd event => exact modify_served h event
    | delete fd => exact delete_served h
  · rw [registration?_control_other h.failures hsame]
    refine .elsewhere ?_ _
    exact hsame

end Served

/-! ## All calls of a side -/

/-- The system answers these calls in turn. In between it may do anything else that prepares no
failure, closes none of the files and leaves the registration of the descriptor alone. -/
inductive Answers (source fd : Fd) : Kernel α → List ControlCall → Kernel α → Prop where
  | done (kernel : Kernel α) : Answers source fd kernel [] kernel
  | meanwhile {kernel next last : Kernel α} {calls : List ControlCall}
      (hnext : next.Faultless source fd)
      (hsame : next.registration? source fd = kernel.registration? source fd)
      (hrest : Answers source fd next calls last) : Answers source fd kernel calls last
  | call {kernel last : Kernel α} {calls : List ControlCall} (target : Fd) (change : Control)
      (hrest : Answers source fd (kernel.control target change).2 calls last) :
      Answers source fd kernel
        (⟨target, change, (kernel.control target change).1⟩ :: calls) last

/-- A faultless system that answers a list of calls in turn serves all of them. -/
theorem Answers.allServed {last : Kernel α} {calls : List ControlCall}
    (h : Answers source fd kernel calls last) (hkernel : kernel.Faultless source fd) :
    AllServed source fd (kernel.registration? source fd).isSome calls
      (last.registration? source fd).isSome := by
  induction h with
  | done => exact .nil _
  | meanwhile hnext hsame _ ih =>
      rw [← hsame]
      exact ih hnext
  | call target change _ ih =>
      exact .cons (control_served hkernel target change) (ih (hkernel.control target change))

end Kernel

/-- With the simulated system a descriptor is registered when it has a slot, and only then. -/
theorem registration_iff {σ α : Type} {start : List (Exchange (Numbered σ))}
    {direction : Direction} {source : Source} {fd : Fd}
    {history : List (Lending.Event (Numbered σ))} {lending : Lending (Numbered σ)}
    {kernel last : Kernel α}
    (h : Lending.Attended start direction source fd history lending)
    (hkernel : kernel.Faultless source.descriptor fd)
    (hnew : kernel.registration? source.descriptor fd = none)
    (hanswers : Kernel.Answers source.descriptor fd kernel
      (Lending.calls (controlCalls start) history) last) :
    (last.registration? source.descriptor fd).isSome = true ↔
      (lending.table.slots.get? fd).isSome = true := by
  have hserved := hanswers.allServed hkernel
  rw [hnew] at hserved
  exact h.registered _ hserved

end Proactor.Simulation
