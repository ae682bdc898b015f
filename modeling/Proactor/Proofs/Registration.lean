import Proactor.Proofs.Exchange
import Proactor.Source

/-!
# What changes of registrations come to

Each change of a registration makes at most one call, and `arm` and `rearm` make
at most two: the second one only after the first has failed with the error that
calls for it. A closed source and a negative descriptor are refused without a
call.
-/

namespace Proactor

/-- The interest of a direction names a side. -/
@[simp]
theorem Interest.isEmpty_ofDirection (direction : Direction) :
    (Interest.ofDirection direction).isEmpty = false := by
  cases direction <;> rfl

/-- A registration for a direction waits for input (1) or for output (4). -/
theorem Interest.mask_ofDirection_awaits (direction : Direction) :
    (Interest.ofDirection direction).mask &&& 5 ≠ 0 := by
  cases direction with
  | read => rw [mask_ofDirection_read]; decide
  | write => rw [mask_ofDirection_write]; decide

namespace Source

variable {σ : Type} {source : Source}

/-- What one change of a registration can come to. -/
inductive Changed (source : Source) (change : Fd → RawEvent → Control) (fd : Fd)
    (event : RawEvent) : List (Exchange σ) → Except Fault Unit → Prop where
  | refused (hrefused : source.closed = true ∨ fd.isNegative = true) :
      Changed source change fd event [] (.error (.system .badDescriptor))
  | asked (hopen : source.closed = false) (hfd : fd.isNegative = false)
      (answer : Except Errno Unit) :
      Changed source change fd event
        [⟨.control source.descriptor (change fd event), answer⟩] (Fault.ofCall answer)

/-- What a change with a fallback can come to. The second change is asked for only when the
first one has failed with the error that calls for it. -/
inductive Tried (source : Source) (first second : Fd → RawEvent → Control) (fallback : Errno)
    (fd : Fd) (event : RawEvent) : List (Exchange σ) → Except Fault Unit → Prop where
  | once {exchanges : List (Exchange σ)} {result : Except Fault Unit}
      (hfirst : source.Changed first fd event exchanges result)
      (hresult : result ≠ .error (.system fallback)) :
      Tried source first second fallback fd event exchanges result
  | twice {exchanges others : List (Exchange σ)} {result : Except Fault Unit}
      (hfirst : source.Changed first fd event exchanges (.error (.system fallback)))
      (hsecond : source.Changed second fd event others result) :
      Tried source first second fallback fd event (exchanges ++ others) result

/-- What removing a registration can come to. A closed descriptor counts as not registered. -/
inductive Deleted (source : Source) (fd : Fd) :
    List (Exchange σ) → Except Fault Unit → Prop where
  | refused (hclosed : source.closed = true) :
      Deleted source fd [] (.error (.system .badDescriptor))
  | removed (hopen : source.closed = false) :
      Deleted source fd [⟨.control source.descriptor (.delete fd), .ok ()⟩] (.ok ())
  | failed (hopen : source.closed = false) (errno : Errno) :
      Deleted source fd [⟨.control source.descriptor (.delete fd), .error errno⟩]
        (.error (.system (if errno = .badDescriptor then .noEntry else errno)))

/-- Ask for one change, and for another one if it fails with the error that calls for it. -/
def changeOr (source : Source) (first second : Fd → RawEvent → Control) (fallback : Errno)
    (fd : Fd) (key : UInt64) (interest : Interest) : Program σ (Except Fault Unit) := do
  match ← source.control first fd key interest with
  | .error fault =>
      if fault.errno? = some fallback then source.control second fd key interest
      else return .error fault
  | .ok () => return .ok ()

/-- Arming adds a registration, or changes the one that is there already. -/
theorem arm_eq_changeOr (fd : Fd) (key : UInt64) (interest : Interest) :
    (source.arm fd key interest : Program σ _) =
      source.changeOr .add .modify .alreadyExists fd key interest :=
  rfl

/-- Rearming changes a registration, or adds it when it is missing. -/
theorem rearm_eq_changeOr (fd : Fd) (key : UInt64) (interest : Interest) :
    (source.rearm fd key interest : Program σ _) =
      source.changeOr .modify .add .noEntry fd key interest :=
  rfl

/-! ## The calls -/

/-- A fault of a registration call is a system fault. -/
theorem Changed.fault_system {change : Fd → RawEvent → Control} {fd : Fd} {event : RawEvent}
    {exchanges : List (Exchange σ)} {fault : Fault}
    (h : source.Changed change fd event exchanges (.error fault)) :
    ∃ errno, fault = .system errno := by
  generalize hresult : (Except.error fault : Except Fault Unit) = result at h
  cases h with
  | refused => exact ⟨_, Except.error.inj hresult⟩
  | asked _ _ answer =>
      cases answer with
      | ok => cases hresult
      | error errno => exact ⟨errno, Except.error.inj hresult⟩

/-- A fault of a deletion is a system fault. -/
theorem Deleted.fault_system {fd : Fd} {exchanges : List (Exchange σ)}
    {fault : Fault} (h : source.Deleted fd exchanges (.error fault)) :
    ∃ errno, fault = .system errno := by
  generalize hresult : (Except.error fault : Except Fault Unit) = result at h
  cases h with
  | refused | failed => exact ⟨_, Except.error.inj hresult⟩
  | removed => cases hresult

/-- One change with an interest makes at most one call. -/
theorem control_returns {change : Fd → RawEvent → Control} {fd : Fd} {key : UInt64}
    {interest : Interest} {exchanges : List (Exchange σ)} {result : Except Fault Unit}
    (hinterest : interest.isEmpty = false)
    (h : (source.control change fd key interest).Returns exchanges result) :
    source.Changed change fd ⟨key, interest.mask⟩ exchanges result := by
  unfold control live at h
  -- the descriptor is checked before the source: a negative one is refused also when it is closed
  split at h
  · rename_i hnegative
    obtain ⟨rfl, rfl⟩ := Program.returns_pure.mp h
    exact .refused (.inr hnegative)
  · rename_i hfd
    rw [hinterest] at h
    cases hclosed : source.closed with
    | true =>
        simp only [hclosed, Bool.false_eq_true, if_false, if_true, Program.returns_pure] at h
        obtain ⟨rfl, rfl⟩ := h
        exact .refused (.inl hclosed)
    | false =>
        simp only [hclosed, Bool.false_eq_true, if_false] at h
        obtain ⟨answer, rest, rfl, hrest⟩ := Program.returns_ask_bind.mp h
        obtain ⟨rfl, rfl⟩ := Program.returns_pure.mp hrest
        exact .asked hclosed (by simpa using hfd) answer

/-- A change with an interest does not panic. -/
theorem control_neverPanics {change : Fd → RawEvent → Control} {fd : Fd} {key : UInt64}
    {interest : Interest} (hinterest : interest.isEmpty = false) :
    (source.control change fd key interest : Program σ _).NeverPanics := by
  unfold control live
  rw [hinterest]
  split
  · exact Program.neverPanics_pure _
  · cases source.closed with
    | true => exact Program.neverPanics_pure _
    | false => exact Program.neverPanics_call.mpr fun _ => Program.neverPanics_pure _

/-- A change with a fallback makes at most two calls. -/
theorem changeOr_returns {first second : Fd → RawEvent → Control} {fallback : Errno} {fd : Fd}
    {key : UInt64} {interest : Interest} {exchanges : List (Exchange σ)}
    {result : Except Fault Unit} (hinterest : interest.isEmpty = false)
    (h : (source.changeOr first second fallback fd key interest).Returns exchanges result) :
    source.Tried first second fallback fd ⟨key, interest.mask⟩ exchanges result := by
  obtain ⟨answer, before, after, rfl, hanswer, hrest⟩ := Program.returns_bind.mp h
  have hfirst := control_returns hinterest hanswer
  cases answer with
  | ok value =>
      obtain ⟨rfl, rfl⟩ := Program.returns_pure.mp hrest
      rw [List.append_nil]
      exact .once hfirst (by simp)
  | error fault =>
      obtain ⟨errno, rfl⟩ := hfirst.fault_system
      -- only this error leads to the second change
      by_cases herrno : errno = fallback
      · subst herrno
        simp only [Fault.errno?_system, if_true] at hrest
        exact .twice hfirst (control_returns hinterest hrest)
      · simp only [Fault.errno?_system, Option.some.injEq, herrno, if_false] at hrest
        obtain ⟨rfl, rfl⟩ := Program.returns_pure.mp hrest
        rw [List.append_nil]
        exact .once hfirst (by simpa using herrno)

/-- A deletion makes one call unless the source is closed. -/
theorem delete_returns {fd : Fd} {exchanges : List (Exchange σ)} {result : Except Fault Unit}
    (h : (source.delete fd).Returns exchanges result) : source.Deleted fd exchanges result := by
  unfold delete live at h
  cases hclosed : source.closed with
  | true =>
      simp only [hclosed, if_true, Program.returns_pure] at h
      obtain ⟨rfl, rfl⟩ := h
      exact .refused hclosed
  | false =>
      simp only [hclosed, Bool.false_eq_true, if_false] at h
      obtain ⟨answer, rest, rfl, hrest⟩ := Program.returns_ask_bind.mp h
      cases answer with
      | ok value =>
          obtain ⟨rfl, rfl⟩ := Program.returns_pure.mp hrest
          exact .removed hclosed
      | error errno =>
          have hfailed : source.Deleted fd
              [⟨.control source.descriptor (.delete fd), .error errno⟩]
              (.error (.system (if errno = .badDescriptor then .noEntry else errno))) :=
            Deleted.failed (σ := σ) hclosed errno
          by_cases herrno : errno = .badDescriptor
          · simp only [herrno, if_true] at hrest
            obtain ⟨rfl, rfl⟩ := Program.returns_pure.mp hrest
            simpa only [herrno, if_true] using hfailed
          · simp only [herrno, if_false] at hrest
            obtain ⟨rfl, rfl⟩ := Program.returns_pure.mp hrest
            simpa only [herrno, if_false] using hfailed

/-! ## No panic -/

/-- A change with a fallback does not panic. -/
theorem changeOr_neverPanics {first second : Fd → RawEvent → Control} {fallback : Errno}
    {fd : Fd} {key : UInt64} {interest : Interest} (hinterest : interest.isEmpty = false) :
    (source.changeOr first second fallback fd key interest : Program σ _).NeverPanics := by
  refine (control_neverPanics hinterest).bind fun answer => ?_
  cases answer with
  | ok value => exact Program.neverPanics_pure _
  | error fault =>
      dsimp only
      split
      · exact control_neverPanics hinterest
      · exact Program.neverPanics_pure _

/-- A deletion does not panic. -/
theorem delete_neverPanics {fd : Fd} : (source.delete fd : Program σ _).NeverPanics := by
  unfold delete live
  cases source.closed with
  | true => exact Program.neverPanics_pure _
  | false =>
      refine (Program.neverPanics_ask _).bind fun answer => ?_
      cases answer with
      | ok value => exact Program.neverPanics_pure _
      | error errno =>
          dsimp only
          split <;> exact Program.neverPanics_pure _

end Source

end Proactor
