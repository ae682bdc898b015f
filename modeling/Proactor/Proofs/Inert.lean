import Proactor.Proofs.DataTransfers
import Proactor.Proofs.Registration

/-!
# Closed sources

Closing a source takes away every call that needs its epoll descriptor, whether
or not the system call that closed it succeeded: such a call fails with a bad
descriptor and asks for nothing. The wake pipe is not part of what is taken
away. Waking a closed source still writes to the pipe, although nothing can wait
on the source any more, and answers that all is well.
-/

namespace Proactor

namespace Source

variable {σ : Type}

/-- A call on a source. -/
inductive Call where
  | add (fd : Fd) (key : UInt64) (interest : Interest)
  | modify (fd : Fd) (key : UInt64) (interest : Interest)
  | arm (fd : Fd) (key : UInt64) (interest : Interest)
  | rearm (fd : Fd) (key : UInt64) (interest : Interest)
  | delete (fd : Fd)
  | wait (batch : Nat) (timeout : Option Duration)
  | wake
  | drainStep
  | close

/-- What a call answers. -/
inductive Reply where
  | outcome (result : Except Fault Unit)
  | waited (result : Except Fault (List Event))
  | drained (more : Bool)

namespace Call

/-- Whether the interest that the call hands over, if there is one, names a side. -/
def isProper : Call → Bool
  | add _ _ interest | modify _ _ interest | arm _ _ interest | rearm _ _ interest =>
      !interest.isEmpty
  | _ => true

/-- Whether the call is about the wake pipe. -/
def isOnPipe : Call → Bool
  | wake | drainStep => true
  | _ => false

/-- What a call answers that is refused because the source is closed. There is nothing left to do
for a call that closes. -/
def refusal : Call → Reply
  | wait _ _ => .waited (.error (.system .badDescriptor))
  | close => .outcome (.ok ())
  | _ => .outcome (.error (.system .badDescriptor))

end Call

/-- Give the answer of a program that leaves the source as it is. -/
def reporting {α : Type} (source : Source) (reply : α → Reply) (program : Program σ α) :
    Program σ (Reply × Source) := do
  return (reply (← program), source)

/-- Make a call. Only closing changes the source. -/
def perform (source : Source) : Call → Program σ (Reply × Source)
  | .add fd key interest => source.reporting .outcome (source.add fd key interest)
  | .modify fd key interest => source.reporting .outcome (source.modify fd key interest)
  | .arm fd key interest => source.reporting .outcome (source.arm fd key interest)
  | .rearm fd key interest => source.reporting .outcome (source.rearm fd key interest)
  | .delete fd => source.reporting .outcome (source.delete fd)
  | .wait batch timeout => source.reporting .waited (source.wait batch timeout)
  | .wake => source.reporting .outcome source.wake
  | .drainStep => source.reporting .drained source.drainStep
  | .close => do
      let (result, closed) ← source.close
      return (.outcome result, closed)

/-- A call that has been made: the requests that it made and what it answered. -/
structure Use (σ : Type) where
  call : Call
  exchanges : List (Exchange σ)
  reply : Reply

/-- Calls in succession, the first one first, and the source that they leave. -/
inductive Uses : Source → List (Use σ) → Source → Prop where
  | nil (source : Source) : Uses source [] source
  | cons {source next last : Source} {use : Use σ} {uses : List (Use σ)}
      (hcall : (source.perform use.call).Returns use.exchanges (use.reply, next))
      (hrest : Uses next uses last) : Uses source (use :: uses) last

/-- What the answer to a byte written to the wake pipe means for the call that wakes. A pipe
without room holds a wake-up already. -/
def signalled : Except Errno Nat → Except Fault Unit
  | .ok _ => .ok ()
  | .error errno => if errno.kind = .wouldBlock then .ok () else .error (.system errno)

/-- Whether there may be more wake-ups in the pipe after this answer to a read. -/
def holdsMore : Except Errno Bytes → Bool
  | .ok bytes => !bytes.isEmpty
  | .error _ => false

/-- What a call on a closed source comes to: it is refused without a request, unless it is about
the wake pipe. -/
inductive Inert (source : Source) : Use σ → Prop where
  | refused {call : Call} (hpipe : call.isOnPipe = false) :
      Inert source ⟨call, [], call.refusal⟩
  | woken (answer : Except Errno Nat) :
      Inert source ⟨.wake, [⟨.write source.wakePipe.writeEnd [1], answer⟩],
        .outcome (signalled answer)⟩
  | drained (answer : Except Errno Bytes) :
      Inert source ⟨.drainStep, [⟨.read source.wakePipe.readEnd WakePipe.drainChunk, answer⟩],
        .drained (holdsMore answer)⟩

/-! ## Calls on a closed source -/

variable {source : Source}

/-- To change a registration of a closed source fails at once, whatever the descriptor is. -/
theorem control_of_closed (hclosed : source.closed = true)
    {change : Fd → RawEvent → Control} {fd : Fd} {key : UInt64} {interest : Interest}
    (hinterest : interest.isEmpty = false) :
    (source.control change fd key interest : Program σ _) =
      pure (.error (.system .badDescriptor)) := by
  unfold control live
  rw [hinterest, hclosed]
  cases fd.isNegative <;> rfl

/-- A fallback needs an error other than that of a closed source. -/
theorem changeOr_of_closed (hclosed : source.closed = true)
    {first second : Fd → RawEvent → Control} {fallback : Errno} {fd : Fd} {key : UInt64}
    {interest : Interest} (hinterest : interest.isEmpty = false)
    (hfallback : fallback ≠ .badDescriptor) :
    (source.changeOr first second fallback fd key interest : Program σ _) =
      pure (.error (.system .badDescriptor)) := by
  unfold changeOr
  rw [control_of_closed hclosed hinterest, Program.pure_bind]
  exact if_neg fun h => hfallback (Option.some.inj h).symm

/-- A call that needs the epoll descriptor asks nothing of the system. -/
theorem perform_of_closed (hclosed : source.closed = true) {call : Call}
    (hproper : call.isProper = true) (hpipe : call.isOnPipe = false) :
    (source.perform call : Program σ _) = pure (call.refusal, source) := by
  have hlive : source.live = .error (.system .badDescriptor) := if_pos hclosed
  cases call with
  | add fd key interest | modify fd key interest =>
      have hinterest : interest.isEmpty = false := by simpa [Call.isProper] using hproper
      exact congrArg (source.reporting .outcome) (control_of_closed hclosed hinterest)
  | arm fd key interest | rearm fd key interest =>
      have hinterest : interest.isEmpty = false := by simpa [Call.isProper] using hproper
      exact congrArg (source.reporting .outcome)
        (changeOr_of_closed hclosed hinterest (by decide))
  | delete fd =>
      unfold perform delete
      rw [hlive]
      rfl
  | wait batch timeout =>
      unfold perform wait
      rw [hlive]
      rfl
  | close =>
      unfold perform close
      rw [if_pos hclosed]
      rfl
  | wake | drainStep => cases hpipe

/-! ## Calls on the wake pipe -/

/-- To wake is to write one byte. -/
theorem wake_returns {exchanges : List (Exchange σ)} {result : Except Fault Unit}
    (h : source.wake.Returns exchanges result) :
    ∃ answer, exchanges = [⟨.write source.wakePipe.writeEnd [1], answer⟩] ∧
      result = signalled answer := by
  obtain ⟨answer, rest, rfl, hrest⟩ := Program.returns_ask_bind.mp h
  refine ⟨answer, ?_⟩
  cases answer with
  | ok count =>
      obtain ⟨rfl, rfl⟩ := Program.returns_pure.mp hrest
      exact ⟨rfl, rfl⟩
  | error errno =>
      dsimp only [signalled] at hrest ⊢
      split at hrest
      all_goals
        rename_i hkind
        obtain ⟨rfl, rfl⟩ := Program.returns_pure.mp hrest
        simp only [hkind, if_true, if_false, and_self]

/-- To take a chunk of wake-ups away is to read it. -/
theorem drainStep_returns {exchanges : List (Exchange σ)} {more : Bool}
    (h : source.drainStep.Returns exchanges more) :
    ∃ answer, exchanges = [⟨.read source.wakePipe.readEnd WakePipe.drainChunk, answer⟩] ∧
      more = holdsMore answer := by
  obtain ⟨answer, rest, rfl, hrest⟩ := Program.returns_ask_bind.mp h
  refine ⟨answer, ?_⟩
  cases answer with
  | ok bytes | error errno =>
      obtain ⟨rfl, rfl⟩ := Program.returns_pure.mp hrest
      exact ⟨rfl, rfl⟩

/-- A call on the wake pipe does not panic. -/
theorem perform_neverPanics_of_pipe {call : Call} (hpipe : call.isOnPipe = true) :
    (source.perform call : Program σ _).NeverPanics := by
  cases call with
  | wake =>
      refine Program.NeverPanics.bind ?_ fun _ => Program.neverPanics_pure _
      refine (Program.neverPanics_ask _).bind fun answer => ?_
      cases answer with
      | ok count => exact Program.neverPanics_pure _
      | error errno =>
          dsimp only
          split <;> exact Program.neverPanics_pure _
  | drainStep =>
      refine Program.NeverPanics.bind ?_ fun _ => Program.neverPanics_pure _
      refine (Program.neverPanics_ask _).bind fun answer => ?_
      cases answer <;> exact Program.neverPanics_pure _
  | _ => cases hpipe

/-! ## Sequences of calls -/

/-- One call on a closed source leaves the source as it is. -/
theorem inert_of_perform (hclosed : source.closed = true) {use : Use σ} {next : Source}
    (hproper : use.call.isProper = true)
    (hcall : (source.perform use.call).Returns use.exchanges (use.reply, next)) :
    Inert source use ∧ next = source := by
  obtain ⟨call, exchanges, reply⟩ := use
  cases hpipe : call.isOnPipe with
  | false =>
      rw [perform_of_closed hclosed hproper hpipe] at hcall
      obtain ⟨hexchanges, hvalue⟩ := Program.returns_pure.mp hcall
      obtain ⟨hreply, rfl⟩ := Prod.mk.inj hvalue
      dsimp only at hexchanges hreply
      subst hexchanges hreply
      exact ⟨.refused hpipe, rfl⟩
  | true =>
      cases call with
      | wake =>
          obtain ⟨result, calls, none, rfl, hwake, hpure⟩ := Program.returns_bind.mp hcall
          obtain ⟨rfl, hvalue⟩ := Program.returns_pure.mp hpure
          cases hvalue
          obtain ⟨answer, rfl, rfl⟩ := wake_returns hwake
          exact ⟨.woken answer, rfl⟩
      | drainStep =>
          obtain ⟨more, calls, none, rfl, hdrain, hpure⟩ := Program.returns_bind.mp hcall
          obtain ⟨rfl, hvalue⟩ := Program.returns_pure.mp hpure
          cases hvalue
          obtain ⟨answer, rfl, rfl⟩ := drainStep_returns hdrain
          exact ⟨.drained answer, rfl⟩
      | _ => cases hpipe

/-- Calls on a closed source leave it as it is. -/
theorem Uses.inert_of_closed {uses : List (Use σ)} {last : Source} (h : Uses source uses last)
    (hclosed : source.closed = true) (hproper : ∀ use ∈ uses, use.call.isProper = true) :
    (∀ use ∈ uses, Inert source use) ∧ last = source := by
  induction h with
  | nil source => exact ⟨List.forall_mem_nil _, rfl⟩
  | @cons source next last use uses hcall hrest ih =>
      obtain ⟨hfirst, hothers⟩ := List.forall_mem_cons.mp hproper
      obtain ⟨hinert, rfl⟩ := inert_of_perform hclosed hfirst hcall
      obtain ⟨hrestInert, hlast⟩ := ih hclosed hothers
      exact ⟨List.forall_mem_cons.mpr ⟨hinert, hrestInert⟩, hlast⟩

/-- What is left of a source that has been closed, over all calls that follow. -/
structure Shut (closed : Source) (uses : List (Use σ)) (last : Source) : Prop where
  inert : ∀ use ∈ uses, Inert closed use
  unchanged : last = closed
  safe : ∀ call : Call, call.isProper = true → (last.perform call : Program σ _).NeverPanics

/-- After a source has been closed, well or not, every call but those on its wake pipe is refused
without a request, for ever. -/
theorem Uses.shut_after_close {closed last : Source} {exchanges : List (Exchange σ)}
    {result : Except Fault Unit} {uses : List (Use σ)}
    (hclose : source.close.Returns exchanges (result, closed)) (huses : Uses closed uses last)
    (hproper : ∀ use ∈ uses, use.call.isProper = true) : Shut closed uses last := by
  obtain ⟨hvalue, -⟩ := close_returns hclose
  have hclosed : closed.closed = true := by rw [hvalue]
  obtain ⟨hinert, rfl⟩ := huses.inert_of_closed hclosed hproper
  constructor
  case inert => exact hinert
  case unchanged => rfl
  case safe =>
    intro call hcall
    cases hpipe : call.isOnPipe with
    | true => exact perform_neverPanics_of_pipe hpipe
    | false =>
        rw [perform_of_closed hclosed hcall hpipe]
        exact Program.neverPanics_pure _

/-- The system call that closes fails. Registering, waiting and closing again ask for nothing, and
waking meets a full pipe. -/
theorem shut_after_failed_close :
    ∃ (source closed last : Source) (exchanges : List (Exchange Unit))
      (result : Except Fault Unit) (uses : List (Use Unit)),
      source.close.Returns exchanges (result, closed) ∧ result = .error (.system ⟨5⟩) ∧
        Uses closed uses last ∧ (∀ use ∈ uses, use.call.isProper = true) ∧
        Shut closed uses last := by
  let closed : Source := ⟨⟨3⟩, ⟨⟨4⟩, ⟨5⟩⟩, true⟩
  let uses : List (Use Unit) :=
    [⟨.add ⟨7⟩ 7 .read, [], .outcome (.error (.system .badDescriptor))⟩,
      ⟨.wait 8 none, [], .waited (.error (.system .badDescriptor))⟩,
      ⟨.wake, [⟨.write ⟨5⟩ [1], .error .wouldBlock⟩], .outcome (.ok ())⟩,
      ⟨.close, [], .outcome (.ok ())⟩]
  have hclose : ({ closed with closed := false }.close : Program Unit _).Returns
      [⟨.close ⟨3⟩, .error ⟨5⟩⟩] (.error (.system ⟨5⟩), closed) :=
    ⟨_, [], rfl, rfl, rfl⟩
  have huses : Uses closed uses closed :=
    .cons ⟨rfl, rfl⟩ (.cons ⟨rfl, rfl⟩ (.cons ⟨_, _, rfl, rfl, rfl⟩ (.cons ⟨rfl, rfl⟩ (.nil _))))
  have hproper : ∀ use ∈ uses, use.call.isProper = true := by decide
  exact ⟨_, closed, closed, _, _, uses, hclose, rfl, huses, hproper,
    Uses.shut_after_close hclose huses hproper⟩

/-- Waking a closed source is not refused: it writes to the pipe and answers that all is well. -/
theorem closed_source_is_woken :
    ∃ (source closed : Source) (exchanges : List (Exchange Unit)) (reply : Reply),
      (source.close : Program Unit _).Returns [⟨.close source.descriptor, .ok ()⟩]
          (.ok (), closed) ∧
        (closed.perform .wake).Returns exchanges (reply, closed) ∧
        exchanges ≠ [] ∧ reply ≠ Call.wake.refusal :=
  ⟨⟨⟨500⟩, ⟨⟨501⟩, ⟨502⟩⟩, false⟩, ⟨⟨500⟩, ⟨⟨501⟩, ⟨502⟩⟩, true⟩,
    [⟨.write ⟨502⟩ [1], .ok 1⟩], .outcome (.ok ()), ⟨_, [], rfl, rfl, rfl⟩,
    ⟨_, [], rfl, rfl, rfl⟩, by simp, by simp [Call.refusal]⟩

end Source

end Proactor
