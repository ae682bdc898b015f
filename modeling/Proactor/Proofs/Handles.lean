import Proactor.Proofs.Lifetime

/-!
# Giving handles to a reactor

What the calls do that give a handle to a reactor and take it back, and what its end does. A call
releases the handle that it was given if it fails, and otherwise whatever was stored for the
descriptor before. It sets at most one status flag of the file behind the descriptor.
-/

namespace Proactor

variable {σ : Type}

/-! ## Handles in a trace -/

/-- The handle that is released by a request. -/
def Request.handles : Request σ → List Handle
  | .release handle => [handle]
  | _ => []

/-- The handles that are released in exchanges, in this order. -/
def handlesReleased (exchanges : List (Exchange σ)) : List Handle :=
  exchanges.flatMap fun exchange => exchange.request.handles

/-- The handles released in two parts are those of the first and then those of the second. -/
@[simp]
theorem handlesReleased_append (first second : List (Exchange σ)) :
    handlesReleased (first ++ second) = handlesReleased first ++ handlesReleased second :=
  List.flatMap_append

/-- Where no request releases a handle, none is released. -/
theorem handlesReleased_eq_nil {exchanges : List (Exchange σ)}
    (h : ∀ exchange ∈ exchanges, exchange.request.handles = []) :
    handlesReleased exchanges = [] :=
  List.flatMap_eq_nil_iff.mpr h

namespace Request

variable {request : Request σ}

/-- Telling the log something releases no handle. -/
theorem Logs.handles_eq (h : request.Logs) : request.handles = [] := by
  obtain ⟨record, rfl⟩ := h
  rfl

/-- Tending a registration releases no handle. -/
theorem Tends.handles_eq {source : Source} {fd : Fd} {event : RawEvent}
    (h : request.Tends source fd event) : request.handles = [] := by
  cases h <;> rfl

/-- Offering a completion to a sink releases no handle. -/
theorem Delivers.handles_eq (h : request.Delivers) : request.handles = [] := by
  cases h <;> rfl

/-- Transferring bytes releases no handle. -/
theorem handles_eq_of_transferOn? {fd : Fd} (h : request.transferOn? = some fd) :
    request.handles = [] := by
  cases request with
  | release => cases h
  | _ => rfl

/-- A loop releases no handle. -/
theorem handles_eq_of_mayAsk {setup : EventLoop.Setup} {side : Side σ}
    {stage : EventLoop.Stage σ} (h : stage.MayAsk setup side request) : request.handles = [] := by
  cases stage with
  | starting | ended => exact h.elim
  | waiting =>
      rcases h with ⟨millis, rfl⟩ | hlogs
      · rfl
      · exact hlogs.handles_eq
  | handling =>
      rcases h with rfl | hlogs
      · rfl
      · exact hlogs.handles_eq
  | draining =>
      obtain ⟨count, rfl⟩ := h
      rfl
  | attempting =>
      rcases h with htransfer | hlogs
      · exact handles_eq_of_transferOn? htransfer
      · exact hlogs.handles_eq
  | settling => exact Tends.handles_eq h
  | announcing => exact Logs.handles_eq h
  | delivering => exact Delivers.handles_eq h

/-- An owner that does not hold the reactor releases no handle. -/
theorem handles_eq_of_owner {sources : Direction → Source} {started : List Direction}
    {point : Reactor.Lifecycle} (h : point.MayAsk sources started request) :
    request.handles = [] := by
  cases point with
  | starting | running | releasing | gone => exact h.elim
  | signalling =>
      rcases h with rfl | ⟨_, rfl⟩ | hlogs
      · rfl
      · rfl
      · exact hlogs.handles_eq
  | joining =>
      rcases h with ⟨_, -, rfl⟩ | hlogs
      · rfl
      · exact hlogs.handles_eq

/-- The request releases a handle or writes a log record. -/
def LetsGo (request : Request σ) : Prop :=
  request.Logs ∨ ∃ handle, request = .release handle

end Request

/-! ## Flags of descriptors -/

section Flags

variable {ι : Type} [DecidableEq ι] {file : Fd → ι} {before after : ι → Int32}
  {exchanges : List (Exchange σ)}

namespace Exchange

/-- The status flags of open files after an exchange. They are set by a call that succeeds. -/
def flagsAfter (file : Fd → ι) (flags : ι → Int32) : Exchange σ → ι → Int32
  | ⟨.setFlags fd word, .ok ()⟩ => Function.update flags (file fd) word
  | _ => flags

/-- Status flags are told as they are. -/
def TellsFlags (file : Fd → ι) (flags : ι → Int32) : Exchange σ → Prop
  | ⟨.flags fd, .ok word⟩ => word = flags (file fd)
  | _ => True

end Exchange

/-- The exchanges are those of a system where the status flags of open files are first these and
then those. Descriptors of one file share its flags. -/
def FlagsServed (file : Fd → ι) : (ι → Int32) → List (Exchange σ) → (ι → Int32) → Prop
  | before, [], after => after = before
  | before, exchange :: rest, after =>
      exchange.TellsFlags file before ∧
        FlagsServed file (exchange.flagsAfter file before) rest after

/-- Flags that are served in two parts are served in the first part and, from what it leaves, in the
second. -/
theorem FlagsServed.append {first second : List (Exchange σ)} :
    FlagsServed file before (first ++ second) after ↔
      ∃ between, FlagsServed file before first between ∧ FlagsServed file between second after := by
  induction first generalizing before with
  | nil =>
      constructor
      · exact fun h => ⟨before, rfl, h⟩
      · rintro ⟨_, rfl, h⟩
        exact h
  | cons exchange rest ih =>
      show _ ∧ FlagsServed _ _ (rest ++ second) _ ↔ _
      rw [ih]
      constructor
      · rintro ⟨htells, between, hrest, hsecond⟩
        exact ⟨between, ⟨htells, hrest⟩, hsecond⟩
      · rintro ⟨between, ⟨htells, hrest⟩, hsecond⟩
        exact ⟨htells, between, hrest, hsecond⟩

/-- Flags stay as they are while handles are released. -/
theorem FlagsServed.eq_of_letsGo (hserved : FlagsServed file before exchanges after)
    (h : ∀ exchange ∈ exchanges, exchange.request.LetsGo) : after = before := by
  induction exchanges generalizing before with
  | nil => exact hserved
  | cons exchange rest ih =>
      obtain ⟨hfirst, hrest⟩ := List.forall_mem_cons.mp h
      have hsame : exchange.flagsAfter file before = before := by
        obtain ⟨request, answer⟩ := exchange
        rcases hfirst with ⟨record, hrequest⟩ | ⟨handle, hrequest⟩
        all_goals
          obtain rfl : request = _ := hrequest
          rfl
      exact (ih hserved.2 hrest).trans hsame

/-- Whatever files there are, the exchanges leave their flags as they are. -/
def KeepsFlags (exchanges : List (Exchange σ)) : Prop :=
  ∀ (ι : Type) [DecidableEq ι] (file : Fd → ι) (before after : ι → Int32),
    FlagsServed file before exchanges after → after = before

/-- Releasing handles and telling the log something keep all flags. -/
theorem keepsFlags_of_letsGo (h : ∀ exchange ∈ exchanges, exchange.request.LetsGo) :
    KeepsFlags exchanges :=
  fun _ _ _ _ _ hserved => hserved.eq_of_letsGo h

namespace Reactor

/-- Whatever files there are, the exchanges set one flag of the file of a descriptor and leave all
other flags as they are. -/
def SwitchesFlags (fd : Fd) (exchanges : List (Exchange σ)) : Prop :=
  ∀ (ι : Type) [DecidableEq ι] (file : Fd → ι) (before after : ι → Int32),
    FlagsServed file before exchanges after →
      after = Function.update before (file fd) (before (file fd) ||| nonBlockingFlag)

/-- A flag that is set already is not changed by setting it. -/
theorem or_nonBlockingFlag {word : Int32} (h : word &&& nonBlockingFlag ≠ 0) :
    word ||| nonBlockingFlag = word := by
  have hflag : nonBlockingFlag.toBitVec = BitVec.twoPow 32 11 := by decide
  have hbit : word.toBitVec.getLsbD 11 = true := by
    by_contra hbit
    refine h (Int32.toBitVec_inj.mp ?_)
    rw [Int32.toBitVec_and, hflag, BitVec.and_twoPow, if_neg hbit]
    rfl
  apply Int32.toBitVec_inj.mp
  rw [Int32.toBitVec_or, hflag]
  ext i hi
  rw [BitVec.getElem_or, BitVec.getElem_twoPow]
  by_cases hbitwise : i = 11
  · subst hbitwise
    simpa [BitVec.getLsbD_eq_getElem hi] using hbit
  · simp [hbitwise]

/-- One flag of one file is set, or nothing is changed. -/
theorem setNonBlocking_flags {fd : Fd} {result : Except Fault Unit}
    (h : (setNonBlocking fd).Returns exchanges result) :
    (result = .ok () → SwitchesFlags fd exchanges) ∧
      ∀ fault, result = .error fault → KeepsFlags exchanges := by
  obtain ⟨answer, rest, rfl, hrest⟩ := Program.returns_ask_bind.mp h
  cases answer with
  | error errno =>
      obtain ⟨rfl, rfl⟩ := Program.returns_pure.mp hrest
      exact ⟨nofun, fun _ _ _ _ _ _ _ hserved => hserved.2⟩
  | ok word =>
      dsimp only at hrest
      split at hrest
      case isTrue =>
        obtain ⟨answer, none, rfl, hlast⟩ := Program.returns_ask_bind.mp hrest
        obtain ⟨rfl, rfl⟩ := Program.returns_pure.mp hlast
        cases answer with
        | error errno => exact ⟨nofun, fun _ _ _ _ _ _ _ hserved => hserved.2.2⟩
        | ok value =>
            refine ⟨fun _ ι _ file before after hserved => ?_, nofun⟩
            obtain rfl : word = before (file fd) := hserved.1
            exact hserved.2.2
      case isFalse hset =>
        obtain ⟨rfl, rfl⟩ := Program.returns_pure.mp hrest
        refine ⟨fun _ ι _ file before after hserved => ?_, nofun⟩
        obtain rfl : word = before (file fd) := hserved.1
        rw [or_nonBlockingFlag hset, Function.update_eq_self]
        exact hserved.2

end Reactor

end Flags

namespace Reactor

/-! ## Watching and not watching any more -/

section Calls

variable {reactor after : Reactor σ} {handle : Handle} {fd : Fd} {exchanges : List (Exchange σ)}
  {result : Except ReactorError Fd}

/-- Making a descriptor non-blocking releases no handle. -/
theorem setNonBlocking_handles {value : Except Fault Unit}
    (h : (setNonBlocking fd).Returns exchanges value) : handlesReleased exchanges = [] := by
  obtain ⟨answer, rest, rfl, hrest⟩ := Program.returns_ask_bind.mp h
  cases answer with
  | error errno =>
      obtain ⟨rfl, -⟩ := Program.returns_pure.mp hrest
      rfl
  | ok word =>
      dsimp only at hrest
      split at hrest
      · obtain ⟨answer, none, rfl, hlast⟩ := Program.returns_ask_bind.mp hrest
        obtain ⟨rfl, -⟩ := Program.returns_pure.mp hlast
        rfl
      · obtain ⟨rfl, -⟩ := Program.returns_pure.mp hrest
        rfl

/-- Making a descriptor non-blocking cannot panic. -/
theorem setNonBlocking_neverPanics (fd : Fd) : (setNonBlocking fd : Program σ _).NeverPanics := by
  refine (Program.neverPanics_ask _).bind fun answer => ?_
  cases answer with
  | error errno => exact Program.neverPanics_pure _
  | ok word =>
      dsimp only
      split
      · exact (Program.neverPanics_ask _).bind fun _ => Program.neverPanics_pure _
      · exact Program.neverPanics_pure _

/-- A handle takes the place of the one stored before, which is released. -/
theorem keep_returns (h : (reactor.keep fd handle).Returns exchanges after) :
    after = { reactor with custody := ⟨reactor.custody.handles.insert fd handle⟩ } ∧
      handlesReleased exchanges = (reactor.custody.handles.get? fd).toList ∧
      ∀ exchange ∈ exchanges, exchange.request.LetsGo := by
  unfold keep Custody.insert at h
  cases hprevious : reactor.custody.handles.get? fd with
  | none =>
      rw [hprevious] at h
      obtain ⟨_, rest, rfl, hrest⟩ := Program.returns_ask_bind.mp h
      obtain ⟨rfl, rfl⟩ := Program.returns_pure.mp hrest
      exact ⟨rfl, rfl, by simp [Request.LetsGo, Request.Logs]⟩
  | some previous =>
      rw [hprevious] at h
      obtain ⟨_, second, rfl, hsecond⟩ := Program.returns_ask_bind.mp h
      obtain ⟨_, third, rfl, hthird⟩ := Program.returns_ask_bind.mp hsecond
      obtain ⟨_, rest, rfl, hrest⟩ := Program.returns_ask_bind.mp hthird
      obtain ⟨rfl, rfl⟩ := Program.returns_pure.mp hrest
      exact ⟨rfl, rfl, by simp [Request.LetsGo, Request.Logs]⟩

/-- Storing a handle cannot panic. -/
theorem keep_neverPanics (reactor : Reactor σ) (fd : Fd) (handle : Handle) :
    (reactor.keep fd handle).NeverPanics := by
  unfold keep Custody.insert
  cases reactor.custody.handles.get? fd with
  | none => exact (Program.neverPanics_ask _).bind fun _ => Program.neverPanics_pure _
  | some previous =>
      exact (Program.neverPanics_ask _).bind fun _ => (Program.neverPanics_ask _).bind fun _ =>
        (Program.neverPanics_ask _).bind fun _ => Program.neverPanics_pure _

/-- What can come of a handle that is to be watched. -/
inductive Watching (reactor : Reactor σ) (handle : Handle) :
    List (Exchange σ) → Except ReactorError Fd → Reactor σ → Prop where
  | detached (hnone : handle.descriptor = none) :
      Watching reactor handle [⟨.release handle, ()⟩] (.error .unsupportedHandle) reactor
  | unswitched {fd : Fd} {fault : Fault} {switching : List (Exchange σ)}
      (hfd : handle.descriptor = some fd)
      (hswitch : (setNonBlocking fd).Returns switching (.error fault)) :
      Watching reactor handle (switching ++ [⟨.release handle, ()⟩]) (.error (.watch fd fault))
        reactor
  | kept {fd : Fd} {switching keeping : List (Exchange σ)} {after : Reactor σ}
      (hfd : handle.descriptor = some fd)
      (hswitch : (setNonBlocking fd).Returns switching (.ok ()))
      (hkeep : (reactor.keep fd handle).Returns keeping after) :
      Watching reactor handle (switching ++ keeping) (.ok fd) after

/-- All that can come of a handle that is to be watched is listed in `Watching`. -/
theorem watch_cases (h : (reactor.watch handle).Returns exchanges (result, after)) :
    Watching reactor handle exchanges result after := by
  unfold watch at h
  cases hfd : handle.descriptor with
  | none =>
      rw [hfd] at h
      obtain ⟨_, rest, rfl, hrest⟩ := Program.returns_ask_bind.mp h
      obtain ⟨rfl, hvalue⟩ := Program.returns_pure.mp hrest
      cases hvalue
      exact .detached hfd
  | some fd =>
      rw [hfd] at h
      obtain ⟨value, switching, rest, rfl, hswitch, hrest⟩ := Program.returns_bind.mp h
      cases value with
      | error fault =>
          obtain ⟨_, none, rfl, hlast⟩ := Program.returns_ask_bind.mp hrest
          obtain ⟨rfl, hvalue⟩ := Program.returns_pure.mp hlast
          cases hvalue
          exact .unswitched hfd hswitch
      | ok value =>
          obtain ⟨kept, keeping, none, rfl, hkeep, hlast⟩ := Program.returns_bind.mp hrest
          obtain ⟨rfl, hvalue⟩ := Program.returns_pure.mp hlast
          cases hvalue
          rw [List.append_nil]
          exact .kept hfd hswitch hkeep

/-- A handle that cannot be watched changes nothing. -/
theorem watch_failed {error : ReactorError}
    (h : (reactor.watch handle).Returns exchanges (.error error, after)) :
    after = reactor ∧ KeepsFlags exchanges := by
  cases watch_cases h with
  | detached => exact ⟨rfl, keepsFlags_of_letsGo (by simp [Request.LetsGo])⟩
  | unswitched _ hswitch =>
      refine ⟨rfl, fun ι _ file flags later hserved => ?_⟩
      obtain ⟨between, hswitching, hrelease⟩ := FlagsServed.append.mp hserved
      rw [hrelease.eq_of_letsGo (by simp [Request.LetsGo])]
      exact (setNonBlocking_flags hswitch).2 _ rfl _ _ _ _ hswitching

/-- A handle that is watched is stored for its descriptor. -/
theorem watch_succeeded (h : (reactor.watch handle).Returns exchanges (.ok fd, after)) :
    handle.descriptor = some fd ∧
      after = { reactor with custody := ⟨reactor.custody.handles.insert fd handle⟩ } ∧
      SwitchesFlags fd exchanges := by
  cases watch_cases h with
  | kept hfd hswitch hkeep =>
      obtain ⟨hafter, -, hletsGo⟩ := keep_returns hkeep
      refine ⟨hfd, hafter, fun ι _ file flags later hserved => ?_⟩
      obtain ⟨between, hswitching, hkeeping⟩ := FlagsServed.append.mp hserved
      rw [hkeeping.eq_of_letsGo hletsGo]
      exact (setNonBlocking_flags hswitch).1 rfl _ _ _ _ hswitching

/-- Watching a handle cannot panic. -/
theorem watch_neverPanics (reactor : Reactor σ) (handle : Handle) :
    (reactor.watch handle).NeverPanics := by
  unfold watch
  cases handle.descriptor with
  | none => exact (Program.neverPanics_ask _).bind fun _ => Program.neverPanics_pure _
  | some fd =>
      refine (setNonBlocking_neverPanics fd).bind fun result => ?_
      cases result with
      | error fault => exact (Program.neverPanics_ask _).bind fun _ => Program.neverPanics_pure _
      | ok value => exact (keep_neverPanics _ _ _).bind fun _ => Program.neverPanics_pure _

/-- The handle that is stored for the descriptor is released. -/
theorem stopWatch_returns (h : (reactor.stopWatch fd).Returns exchanges after) :
    after = { reactor with custody := ⟨reactor.custody.handles.erase fd⟩ } ∧
      handlesReleased exchanges = (reactor.custody.handles.get? fd).toList ∧
      ∀ exchange ∈ exchanges, exchange.request.LetsGo := by
  unfold stopWatch Custody.remove at h
  cases hremoved : reactor.custody.handles.get? fd with
  | none =>
      rw [hremoved] at h
      obtain ⟨rfl, rfl⟩ := Program.returns_pure.mp h
      exact ⟨rfl, rfl, List.forall_mem_nil _⟩
  | some removed =>
      rw [hremoved] at h
      obtain ⟨_, second, rfl, hsecond⟩ := Program.returns_ask_bind.mp h
      obtain ⟨_, rest, rfl, hrest⟩ := Program.returns_ask_bind.mp hsecond
      obtain ⟨rfl, rfl⟩ := Program.returns_pure.mp hrest
      exact ⟨rfl, rfl, by simp [Request.LetsGo, Request.Logs]⟩

/-- Giving up a handle cannot panic. -/
theorem stopWatch_neverPanics (reactor : Reactor σ) (fd : Fd) :
    (reactor.stopWatch fd).NeverPanics := by
  unfold stopWatch Custody.remove
  cases reactor.custody.handles.get? fd with
  | none => exact Program.neverPanics_pure _
  | some removed =>
      exact (Program.neverPanics_ask _).bind fun _ => (Program.neverPanics_ask _).bind fun _ =>
        Program.neverPanics_pure _

/-- Releasing a list of handles releases exactly these, in this order. -/
theorem releaseHandles_returns {handles : List Handle} {value : Unit}
    (h : (releaseHandles handles).Returns exchanges value) :
    handlesReleased exchanges = handles := by
  induction handles generalizing exchanges with
  | nil =>
      obtain ⟨rfl, -⟩ := Program.returns_pure.mp h
      rfl
  | cons handle rest ih =>
      obtain ⟨_, others, rfl, hothers⟩ := Program.returns_ask_bind.mp h
      exact congrArg (handle :: ·) (ih hothers)

/-- Closing a side releases no handle. -/
theorem Side.close_handles {side left : Side σ} {value : Except Fault Unit}
    (h : side.close.Returns exchanges (value, left)) : handlesReleased exchanges = [] := by
  refine handlesReleased_eq_nil fun exchange hexchange => ?_
  rw [Side.close_asks.request h exchange hexchange]
  rfl

/-- At the end all handles are released that are stored. -/
theorem releasing_handles {purpose : Purpose} {next : Lifecycle}
    {act : Reactor σ → Program σ (Lifecycle × Reactor σ)}
    (hmove : (Lifecycle.releasing purpose).move = .exclusive act)
    (hact : (act reactor).Returns exchanges (next, after)) :
    handlesReleased exchanges = reactor.custody.all ∧ after.custody = .empty := by
  cases hmove
  obtain ⟨⟨result, left⟩, closing, rest, rfl, hclosing, hrest⟩ := Program.returns_bind.mp hact
  obtain ⟨_, reports, others, rfl, hreports, hothers⟩ := Program.returns_bind.mp hrest
  obtain ⟨_, releases, none, rfl, hreleases, hpure⟩ := Program.returns_bind.mp hothers
  obtain ⟨rfl, hvalue⟩ := Program.returns_pure.mp hpure
  cases hvalue
  obtain ⟨logs, firstCalls, first, reads, secondCalls, second, writes, rfl, hlogs, hfirst,
    hsecond, rfl, rfl⟩ := closeSources_returns hclosing
  have hlogged : handlesReleased logs = [] :=
    handlesReleased_eq_nil fun exchange hexchange => (hlogs exchange hexchange).handles_eq
  have hreported : handlesReleased reports = [] := handlesReleased_eq_nil fun exchange hexchange =>
    ((reportShutdown_asks purpose _).request hreports exchange hexchange).handles_eq
  refine ⟨?_, rfl⟩
  simp only [handlesReleased_append, hlogged, Side.close_handles hfirst,
    Side.close_handles hsecond, hreported, releaseHandles_returns hreleases, List.nil_append]
  exact List.append_nil _

end Calls

end Reactor

end Proactor
