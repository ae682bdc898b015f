import Proactor.Proofs.Inert
import Proactor.Simulation.Kernel

/-!
# Replies of the simulated system

`Gives` says how the simulated system replies to requests about wake pipes and
to waits, and what becomes of it. `Completes` follows it through a program: the
system replies to every request, and the program returns a value.

What the descriptors of a source have to report is up to the scenario. Events of
other threads that take place during a wait are not part of its end, and no wait
reports a wake-up on behalf of a descriptor, since no descriptor has the key of
wake-ups.
-/

namespace Proactor.Simulation.Kernel

variable {σ α β : Type}

/-- How a wait ends. -/
inductive EndsWait (kernel : Kernel α) (source : Fd) (capacity : Nat) (limited : Bool) :
    Except Errno (List RawEvent) → Kernel α → Prop where
  | gone (hclosed : kernel.isOpen source = false) :
      EndsWait kernel source capacity limited (.error .badDescriptor) kernel
  | unscripted (hscript : kernel.scriptedWaits source = [])
      (hreturns : limited = true ∨ kernel.waitReturns source = true) :
      EndsWait kernel source capacity limited (kernel.waitUnscripted source limited) kernel
  | failed {wait : ScriptedWait α} {next : Kernel α} {errno : Errno}
      (htake : kernel.takeWait source = (some wait, next))
      (hresult : wait.result = .error errno) :
      EndsWait kernel source capacity limited (.error errno) next
  | reported {wait : ScriptedWait α} {next : Kernel α} {events : List RawEvent}
      (htake : kernel.takeWait source = (some wait, next)) (hresult : wait.result = .ok events)
      (hothers : ∀ event ∈ events, event.key ≠ notifyKey) :
      EndsWait kernel source capacity limited (.ok (next.reportEvents source capacity events).1)
        (next.reportEvents source capacity events).2

/-- The reply of the system to a request, and the system after it. A write may be made to fail,
but not for want of room if there is nothing in the pipe. -/
inductive Gives (kernel : Kernel α) : Exchange σ → Kernel α → Prop where
  | read {fd : Fd} {pipe : Pipe} (hpipe : kernel.pipeReadBy? fd = some pipe) (count : Nat) :
      Gives kernel ⟨.read fd count, (kernel.readPipe pipe count).1⟩
        (kernel.readPipe pipe count).2
  | write {fd : Fd} {pipe : Pipe} (hpipe : kernel.pipeWrittenBy? fd = some pipe) (bytes : Bytes)
      (hfull : ∀ errno, (kernel.writePipe pipe bytes).1 = .error errno →
        errno.kind = .wouldBlock → 0 < pipe.held) :
      Gives kernel ⟨.write fd bytes, (kernel.writePipe pipe bytes).1⟩
        (kernel.writePipe pipe bytes).2
  | wait {source : Fd} {capacity : Nat} {millis : Option Nat}
      {answer : Except Errno (List RawEvent)} {next : Kernel α}
      (hends : kernel.EndsWait source capacity millis.isSome answer next) :
      Gives kernel ⟨.wait source capacity millis, answer⟩ next

/-- The replies of the system to requests that are made one after the other. -/
inductive Replies : Kernel α → List (Exchange σ) → Kernel α → Prop where
  | nil (kernel : Kernel α) : Replies kernel [] kernel
  | cons {kernel next last : Kernel α} {exchange : Exchange σ} {exchanges : List (Exchange σ)}
      (hgives : kernel.Gives exchange next) (hrest : Replies next exchanges last) :
      Replies kernel (exchange :: exchanges) last

/-- Replies to some requests and then to others are replies to all of them. -/
theorem Replies.append {kernel next last : Kernel α} {first second : List (Exchange σ)}
    (hfirst : kernel.Replies first next) (hsecond : next.Replies second last) :
    kernel.Replies (first ++ second) last := by
  induction hfirst with
  | nil => exact hsecond
  | cons hgives _ ih => exact .cons hgives (ih hsecond)

/-- A program returns a value when the system replies to it. -/
def Completes (kernel : Kernel α) (program : Program σ β) (value : β) (last : Kernel α) : Prop :=
  ∃ exchanges, program.Returns exchanges value ∧ kernel.Replies exchanges last

/-! ## Programs that make one request -/

variable {kernel next : Kernel α} {source : Source}

/-- Replying to a single request is giving one reply. -/
@[simp]
theorem replies_singleton {exchange : Exchange σ} :
    kernel.Replies [exchange] next ↔ kernel.Gives exchange next := by
  constructor
  · rintro (_ | ⟨hgives, ⟨⟩⟩)
    exact hgives
  · exact fun hgives => .cons hgives (.nil next)

/-- Waking a source is one write to its pipe. It fails only if that fails for another reason than
want of room. -/
theorem completes_wake {result : Except Fault Unit} :
    kernel.Completes (source.wake : Program σ _) result next ↔
      ∃ answer, kernel.Gives (σ := σ) ⟨.write source.wakePipe.writeEnd [1], answer⟩ next ∧
        result = Source.signalled answer := by
  constructor
  · rintro ⟨exchanges, hreturns, hreplies⟩
    obtain ⟨answer, rfl, rfl⟩ := Source.wake_returns hreturns
    exact ⟨answer, replies_singleton.mp hreplies, rfl⟩
  · rintro ⟨answer, hgives, rfl⟩
    refine ⟨_, ⟨answer, [], rfl, ?_⟩, replies_singleton.mpr hgives⟩
    cases answer with
    | ok => exact ⟨rfl, rfl⟩
    | error errno =>
        show (ite _ _ _ : Program σ _).Returns _ _
        rw [Source.signalled]
        split <;> exact ⟨rfl, rfl⟩

/-- A step of draining completes with the reply to its read. -/
theorem completes_drainStep {more : Bool} :
    kernel.Completes (source.drainStep : Program σ _) more next ↔
      ∃ answer, kernel.Gives (σ := σ)
          ⟨.read source.wakePipe.readEnd WakePipe.drainChunk, answer⟩ next ∧
        more = Source.holdsMore answer := by
  constructor
  · rintro ⟨exchanges, hreturns, hreplies⟩
    obtain ⟨answer, rfl, rfl⟩ := Source.drainStep_returns hreturns
    exact ⟨answer, replies_singleton.mp hreplies, rfl⟩
  · rintro ⟨answer, hgives, rfl⟩
    refine ⟨_, ⟨answer, [], rfl, ?_⟩, replies_singleton.mpr hgives⟩
    cases answer <;> exact ⟨rfl, rfl⟩

/-- A wait that returns has asked for as many events as the batch holds, and has not been given
more. -/
theorem completes_wait (hclosed : source.closed = false) {batch : Nat}
    {timeout : Option Duration} {result : Except Fault (List Proactor.Event)} :
    kernel.Completes (source.wait batch timeout : Program σ _) result next ↔
      ∃ answer,
        kernel.EndsWait source.descriptor (min batch Source.waitLimit) timeout.isSome answer
            next ∧
          (∀ events, answer = .ok events → events.length ≤ batch) ∧
          result = (Fault.ofCall answer).map (List.map Event.ofRaw) := by
  unfold Source.wait Source.live
  rw [hclosed]
  constructor
  · rintro ⟨exchanges, ⟨answer, rest, rfl, hrest⟩, hreplies⟩
    cases answer with
    | error errno =>
        obtain ⟨rfl, hresult⟩ := Program.returns_pure.mp hrest
        cases replies_singleton.mp hreplies with
        | wait hends => exact ⟨.error errno, by simpa using hends, by simp, hresult⟩
    | ok events =>
        change (ite _ _ _ : Program σ _).Returns _ _ at hrest
        split at hrest
        · rename_i hfits
          obtain ⟨rfl, hresult⟩ := Program.returns_pure.mp hrest
          cases replies_singleton.mp hreplies with
          | wait hends =>
              refine ⟨.ok events, by simpa using hends, ?_, hresult⟩
              rintro _ ⟨⟩
              exact hfits
        · exact absurd hrest Program.returns_panic
  · rintro ⟨answer, hends, hfits, rfl⟩
    refine ⟨_, ⟨answer, [], rfl, ?_⟩,
      replies_singleton.mpr (.wait (by rwa [Option.isSome_map]))⟩
    cases answer with
    | error errno => exact ⟨rfl, rfl⟩
    | ok events =>
        show (ite _ _ _ : Program σ _).Returns _ _
        rw [if_pos (hfits events rfl)]
        exact ⟨rfl, rfl⟩

end Proactor.Simulation.Kernel
