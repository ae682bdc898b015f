import Mathlib.Logic.Relation
import Proactor.Proofs.KernelCalls
import Proactor.Proofs.Replies

/-!
# Notifications

A notification is a byte in the wake pipe. The pipe is registered in such a way
that every wait with room in its batch reports it as long as there is anything
in it, so notifications that come one after the other coalesce: `Coalesced` is
about a pipe that has been notified any number of times since it was last empty.

The pipe is cleared in chunks, up to a read that fails. An empty pipe fails to
be read, so clearing it comes to an end. A read that fails for another reason
leaves the rest in the pipe, and no notification is lost by it.
-/

namespace Proactor

/-- The pipe as the system sees it, with a number of bytes in it. -/
def WakePipe.holding (wakePipe : WakePipe) (held : Nat) : Simulation.Pipe :=
  ⟨wakePipe.readEnd, wakePipe.writeEnd, held⟩

namespace Simulation.Kernel

variable {σ α : Type} {kernel next last : Kernel α} {source : Source} {held k : Nat}

/-! ## Prepared failures -/

/-- The codes that are meant for calls of a kind. -/
def codesFor (kind : CallKind) (failures : List (CallKind × Int)) : List Int :=
  failures.filterMap fun entry => if entry.1 = kind then some entry.2 else none

/-- The codes that are prepared for calls of a kind, in the order in which the calls meet them. A
call that meets zero is let pass. -/
def prepared (kernel : Kernel α) (kind : CallKind) : List Int :=
  codesFor kind kernel.failures

/-- A call meets the first code prepared for its kind and leaves the others. -/
theorem firstFailure_eq (kind : CallKind) (failures : List (CallKind × Int)) :
    (firstFailure kind failures).1 = (codesFor kind failures).head? ∧
      codesFor kind (firstFailure kind failures).2 = (codesFor kind failures).tail := by
  induction failures with
  | nil => exact ⟨rfl, rfl⟩
  | cons entry rest ih =>
      by_cases hkind : entry.1 = kind
      · simp [firstFailure, codesFor, hkind]
      · simpa [firstFailure, codesFor, hkind] using ih

/-- A call fails with the code that it meets, or is let pass and uses the code up. -/
theorem takeFailure_cases (kernel : Kernel α) (kind : CallKind) :
    (∃ code codes, kernel.prepared kind = code :: codes ∧ code ≠ 0 ∧
        (kernel.takeFailure kind).1 = some ⟨code⟩) ∨
      ((∀ code ∈ (kernel.prepared kind).head?, code = 0) ∧ (kernel.takeFailure kind).1 = none ∧
        (kernel.takeFailure kind).2.prepared kind = (kernel.prepared kind).tail) := by
  obtain ⟨hfirst, hrest⟩ :
      (firstFailure kind kernel.failures).1 = (kernel.prepared kind).head? ∧ _ :=
    firstFailure_eq kind kernel.failures
  unfold takeFailure
  dsimp only
  rw [hfirst]
  cases hcodes : kernel.prepared kind with
  | nil => exact .inr ⟨nofun, rfl, hrest.trans (congrArg List.tail hcodes)⟩
  | cons code codes =>
      by_cases hcode : code = 0
      · subst hcode
        refine .inr ⟨?_, rfl, hrest.trans (congrArg List.tail hcodes)⟩
        rintro _ ⟨⟩
        rfl
      · exact .inl ⟨code, codes, rfl, hcode, if_neg hcode⟩

/-! ## The wake pipe of a source -/

/-- The source is in use. Its wake pipe holds a number of bytes and is registered for wake-ups,
and no other pipe is registered with it. -/
structure Posted (kernel : Kernel α) (source : Source) (held : Nat) : Prop where
  usable : source.closed = false
  source_open : kernel.isOpen source.descriptor = true
  mine : source.wakePipe.holding held ∈ kernel.pipes
  others : ∀ pipe ∈ kernel.pipes, pipe = source.wakePipe.holding held ∨
    pipe.readEnd ≠ source.wakePipe.readEnd ∧ pipe.writeEnd ≠ source.wakePipe.writeEnd ∧
      kernel.registration? source.descriptor pipe.readEnd = none
  registered : kernel.registration? source.descriptor source.wakePipe.readEnd =
    some ⟨source.descriptor, source.wakePipe.readEnd, ⟨notifyKey, EventMask.input⟩⟩

/-- What it comes to that a chunk is read. There is no more when the read is made to fail, or when
it finds the pipe empty. -/
inductive ReadsChunk (kernel : Kernel α) (source : Source) (held : Nat) (more : Bool)
    (next : Kernel α) : Prop where
  | failed {code : Int} {codes : List Int}
      (hcodes : kernel.prepared .wakeRead = code :: codes) (hcode : code ≠ 0)
      (hmore : more = false) (hnext : next.Posted source held)
  | passed (hzero : ∀ code ∈ (kernel.prepared .wakeRead).head?, code = 0)
      (hmore : more = decide (0 < held)) (hnext : next.Posted source (held - WakePipe.drainChunk))
      (htail : next.prepared .wakeRead = (kernel.prepared .wakeRead).tail)

/-- What a wait has to report of a pipe with a number of bytes in it. -/
def wakeUps (held : Nat) : List RawEvent :=
  if held = 0 then [] else [⟨notifyKey, EventMask.input⟩]

namespace Posted

/-- A wake pipe holds one number of bytes only. -/
theorem unique (h : kernel.Posted source held) (hother : kernel.Posted source k) : held = k := by
  obtain hsame | ⟨hends, -, -⟩ := hother.others _ h.mine
  · exact congrArg Pipe.held hsame
  · exact absurd rfl hends

/-- What else happens to the system does not matter. -/
theorem congr (h : kernel.Posted source held) (hpipes : next.pipes = kernel.pipes)
    (hregistrations : next.registrations = kernel.registrations)
    (hclosed : next.closed = kernel.closed) : next.Posted source held := by
  obtain ⟨_⟩ := kernel
  obtain ⟨_⟩ := next
  subst hpipes hregistrations hclosed
  exact ⟨h.usable, h.source_open, h.mine, h.others, h.registered⟩

/-- Among the pipes the one of the source is found by either of its ends. -/
theorem find?_pipes (h : kernel.Posted source held) {wanted : Pipe → Bool}
    (hmine : wanted (source.wakePipe.holding held) = true)
    (hothers : ∀ pipe, pipe.readEnd ≠ source.wakePipe.readEnd →
      pipe.writeEnd ≠ source.wakePipe.writeEnd → wanted pipe = false) :
    kernel.pipes.find? wanted = some (source.wakePipe.holding held) := by
  obtain ⟨pipe, hpipe⟩ := Option.isSome_iff_exists.mp
    (List.find?_isSome.mpr ⟨_, h.mine, hmine⟩)
  obtain rfl | ⟨hread, hwrite, -⟩ := h.others pipe (List.mem_of_find?_eq_some hpipe)
  · exact hpipe
  · exact absurd ((hothers pipe hread hwrite).symm.trans (List.find?_some hpipe))
      Bool.false_ne_true

/-- A read from the pipe of the source finds the bytes that it holds. -/
theorem pipeReadBy? (h : kernel.Posted source held) :
    kernel.pipeReadBy? source.wakePipe.readEnd = some (source.wakePipe.holding held) :=
  h.find?_pipes (decide_eq_true rfl) fun _ hread _ => decide_eq_false hread

/-- A write to the pipe of the source finds the bytes that it holds. -/
theorem pipeWrittenBy? (h : kernel.Posted source held) :
    kernel.pipeWrittenBy? source.wakePipe.writeEnd = some (source.wakePipe.holding held) :=
  h.find?_pipes (decide_eq_true rfl) fun _ _ hwrite => decide_eq_false hwrite

/-- To put bytes into the pipe or to take them out changes nothing else. -/
theorem withHeld (h : kernel.Posted source held) (count : Nat) :
    (kernel.withHeld (source.wakePipe.holding held) count).Posted source count := by
  constructor
  case usable => exact h.usable
  case source_open => exact h.source_open
  case registered => exact h.registered
  case mine => exact List.mem_map.mpr ⟨_, h.mine, if_pos rfl⟩
  case others =>
    intro pipe hpipe
    obtain ⟨before, hbefore, rfl⟩ := List.mem_map.mp hpipe
    obtain rfl | ⟨hread, hwrite, hnone⟩ := h.others before hbefore
    · exact .inl (if_pos rfl)
    · rw [if_neg (show ¬ before.readEnd = (source.wakePipe.holding held).readEnd from hread)]
      exact .inr ⟨hread, hwrite, hnone⟩

/-- The system sees a wake-up when there is a byte in the pipe. -/
theorem wakeUp? (h : kernel.Posted source held) :
    (kernel.wakeUp? source.descriptor).toList = wakeUps held := by
  let report (pipe : Pipe) : Option RawEvent :=
    (kernel.registration? source.descriptor pipe.readEnd).map fun entry =>
      ⟨entry.event.key, EventMask.input⟩
  have hmine : report (source.wakePipe.holding held) = some ⟨notifyKey, EventMask.input⟩ :=
    congrArg (Option.map _) h.registered
  show ((kernel.pipes.filter fun pipe => 0 < pipe.held).findSome? report).toList = _
  unfold wakeUps
  split
  · rename_i hempty
    refine Option.toList_eq_nil_iff.mpr (List.findSome?_eq_none_iff.mpr fun pipe hpipe => ?_)
    obtain ⟨hmem, hheld⟩ := List.mem_filter.mp hpipe
    obtain rfl | ⟨-, -, hnone⟩ := h.others pipe hmem
    · exact absurd hempty (Nat.ne_of_gt (of_decide_eq_true hheld))
    · exact congrArg (Option.map _) hnone
  · rename_i hsome
    -- the pipe reports something, and no other pipe does
    have hmem : source.wakePipe.holding held ∈
        kernel.pipes.filter fun pipe => 0 < pipe.held :=
      List.mem_filter.mpr ⟨h.mine, decide_eq_true (Nat.pos_of_ne_zero hsome)⟩
    obtain ⟨event, hevent⟩ := Option.isSome_iff_exists.mp
      (List.findSome?_isSome_iff.mpr ⟨_, hmem, congrArg Option.isSome hmine⟩)
    rw [hevent]
    obtain ⟨pipe, hpipe, hreports⟩ := List.exists_of_findSome?_eq_some hevent
    obtain rfl | ⟨-, -, hnone⟩ := h.others pipe (List.mem_filter.mp hpipe).1
    · cases hreports.symm.trans hmine
      rfl
    · cases hreports.symm.trans (congrArg (Option.map _) hnone)

/-- A prepared failure that is taken leaves the bytes in the pipe. -/
theorem takeFailure (h : kernel.Posted source held) (kind : CallKind) :
    (kernel.takeFailure kind).2.Posted source held :=
  h.congr rfl rfl rfl

/-! ## Calls on the wake pipe -/

/-- A byte is written unless the write is made to fail. -/
theorem writePipe (h : kernel.Posted source held) (bytes : Bytes) :
    ((∃ errno, (kernel.writePipe (source.wakePipe.holding held) bytes).1 = .error errno) ∧
        (kernel.writePipe (source.wakePipe.holding held) bytes).2.Posted source held) ∨
      ((∃ count, (kernel.writePipe (source.wakePipe.holding held) bytes).1 = .ok count) ∧
        (kernel.writePipe (source.wakePipe.holding held) bytes).2.Posted source
          (held + bytes.length)) := by
  have hafter := h.takeFailure .wakeWrite
  unfold Kernel.writePipe
  generalize kernel.takeFailure .wakeWrite = taken at hafter ⊢
  obtain ⟨_ | errno, after⟩ := taken
  · exact .inr ⟨⟨_, rfl⟩, hafter.withHeld _⟩
  · exact .inl ⟨⟨errno, rfl⟩, hafter⟩

/-- A notification that succeeds leaves a byte in the pipe, its own or another one. One that fails
leaves the pipe as it is. -/
theorem wake (h : kernel.Posted source held) {result : Except Fault Unit}
    (hwake : kernel.Completes (source.wake : Program σ _) result next) :
    ∃ after, next.Posted source after ∧ after ≤ held + 1 ∧ (result = .ok () → 0 < after) ∧
      (result ≠ .ok () → after = held) := by
  obtain ⟨answer, hgives, rfl⟩ := completes_wake.mp hwake
  cases hgives with
  | write hpipe bytes hfull =>
      cases h.pipeWrittenBy?.symm.trans hpipe
      rcases h.writePipe [1] with ⟨⟨errno, hanswer⟩, hnext⟩ | ⟨⟨count, hanswer⟩, hnext⟩
      · refine ⟨held, hnext, Nat.le_succ held, ?_, fun _ => rfl⟩
        rw [hanswer, Source.signalled]
        split
        · exact fun _ => hfull errno hanswer ‹_›
        · exact fun hfails => by cases hfails
      · rw [hanswer]
        exact ⟨held + 1, hnext, Nat.le_refl _, fun _ => Nat.succ_pos held, absurd rfl⟩

/-- A read for a chunk meets a failure that was prepared for it, or takes away what the chunk has
room for. -/
theorem readPipe (h : kernel.Posted source held) :
    let reply := kernel.readPipe (source.wakePipe.holding held) WakePipe.drainChunk
    kernel.ReadsChunk source held (Source.holdsMore reply.1) reply.2 := by
  have hafter := h.takeFailure .wakeRead
  have hcases := takeFailure_cases kernel .wakeRead
  unfold Kernel.readPipe
  generalize kernel.takeFailure .wakeRead = taken at hafter hcases ⊢
  obtain ⟨found, after⟩ := taken
  rcases hcases with ⟨code, codes, hcodes, hcode, hfails⟩ | ⟨hzero, hpasses, htail⟩
  · cases hfails
    exact .failed hcodes hcode rfl hafter
  · cases hpasses
    by_cases hempty : held = 0
    · subst hempty
      exact .passed hzero rfl hafter htail
    · have hpos : 0 < held := Nat.pos_of_ne_zero hempty
      have htaken : min WakePipe.drainChunk held ≠ 0 :=
        Nat.ne_of_gt (Nat.lt_min.mpr ⟨by decide, hpos⟩)
      have hleft : held - min WakePipe.drainChunk held = held - WakePipe.drainChunk := by omega
      dsimp only
      rw [if_neg (show ¬ (source.wakePipe.holding held).held = 0 from hempty)]
      refine .passed hzero ?_ (hleft ▸ hafter.withHeld _) htail
      simpa [Source.holdsMore, WakePipe.holding, hpos] using htaken

/-- A step of draining reads one chunk, or is made to fail and reads nothing. -/
theorem drainStep (h : kernel.Posted source held) {more : Bool}
    (hdrain : kernel.Completes (source.drainStep : Program σ _) more next) :
    kernel.ReadsChunk source held more next := by
  obtain ⟨answer, hgives, rfl⟩ := completes_drainStep.mp hdrain
  cases hgives with
  | read hpipe =>
      cases h.pipeReadBy?.symm.trans hpipe
      exact h.readPipe

/-- There is always a reply to the read of a chunk. -/
theorem exists_drainStep (h : kernel.Posted source held) :
    ∃ more next, kernel.Completes (source.drainStep : Program σ _) more next :=
  ⟨_, _, completes_drainStep.mpr ⟨_, .read h.pipeReadBy? _, rfl⟩⟩

/-! ## Waits -/

/-- A scripted wait that is taken leaves the bytes in the pipe. -/
theorem takeWait (h : kernel.Posted source held) {target : Fd} {wait : ScriptedWait α}
    (htake : kernel.takeWait target = (some wait, next)) : next.Posted source held := by
  unfold Kernel.takeWait at htake
  split at htake
  · cases htake
  · cases htake
    exact h.congr rfl rfl rfl

/-- What there is to report of the wake pipe follows the events of descriptors, unless these fill
the batch. -/
theorem reportEvents (h : kernel.Posted source held) (capacity : Nat) (events : List RawEvent) :
    (kernel.reportEvents source.descriptor capacity events).1 =
        (if (events.take capacity).length < capacity then events.take capacity ++ wakeUps held
        else events.take capacity) ∧
      (kernel.reportEvents source.descriptor capacity events).2.Posted source held := by
  unfold Kernel.reportEvents
  dsimp only
  generalize hleft : (if (events.drop capacity).isEmpty then kernel else _) = left
  have hposted : left.Posted source held := by
    subst hleft
    split
    · exact h
    · exact h.congr rfl rfl rfl
  rw [hposted.wakeUp?]
  split <;> exact ⟨rfl, hposted⟩

/-- A wait leaves the pipe as it is. It reports what there is to report of it, unless other events
fill the batch. -/
theorem endsWait (h : kernel.Posted source held) {capacity : Nat} {limited : Bool}
    {answer : Except Errno (List RawEvent)}
    (hends : kernel.EndsWait source.descriptor capacity limited answer next) :
    next.Posted source held ∧ ∀ events, answer = .ok events →
      ∃ others, (∀ event ∈ others, event.key ≠ notifyKey) ∧
        (events = others ++ wakeUps held ∨ events = others ∧ capacity ≤ others.length) := by
  cases hends with
  | gone => exact ⟨h, nofun⟩
  | failed htake => exact ⟨h.takeWait htake, nofun⟩
  | unscripted =>
      refine ⟨h, fun events hevents => ⟨[], List.forall_mem_nil _, .inl ?_⟩⟩
      rw [List.nil_append, ← h.wakeUp?]
      unfold waitUnscripted at hevents
      cases hfound : kernel.wakeUp? source.descriptor with
      | some event =>
          rw [hfound] at hevents
          exact (Except.ok.inj hevents).symm
      | none =>
          rw [hfound] at hevents
          cases limited with
          | true => exact (Except.ok.inj hevents).symm
          | false => cases hevents
  | @reported _ after scripted htake hresult hothers =>
      obtain ⟨hreported, hposted⟩ := (h.takeWait htake).reportEvents capacity scripted
      refine ⟨hposted, ?_⟩
      rintro _ ⟨⟩
      refine ⟨scripted.take capacity, fun event hevent => hothers event
        (List.mem_of_mem_take hevent), ?_⟩
      rw [hreported]
      split
      · exact .inl rfl
      · exact .inr ⟨rfl, Nat.le_of_not_lt ‹_›⟩

/-- A wait of the source reports the wake-ups of its pipe after events of descriptors, unless these
fill the batch. -/
theorem wait (h : kernel.Posted source held) {batch : Nat} {timeout : Option Duration}
    {result : Except Fault (List Proactor.Event)}
    (hwait : kernel.Completes (source.wait batch timeout : Program σ _) result next) :
    next.Posted source held ∧ ∀ events, result = .ok events →
      ∃ others, (∀ event ∈ others, event.isNotification = false) ∧
        (events = others ++ (wakeUps held).map Event.ofRaw ∨
          events = others ∧ min batch Source.waitLimit ≤ others.length) := by
  obtain ⟨answer, hends, -, rfl⟩ := (completes_wait h.usable).mp hwait
  obtain ⟨hnext, hreports⟩ := h.endsWait hends
  refine ⟨hnext, fun events hevents => ?_⟩
  cases answer with
  | error errno => cases hevents
  | ok reported =>
      obtain rfl : reported.map Event.ofRaw = events := Except.ok.inj hevents
      obtain ⟨others, hothers, hreported⟩ := hreports reported rfl
      refine ⟨others.map Event.ofRaw, ?_, ?_⟩
      · intro event hevent
        obtain ⟨raw, hraw, rfl⟩ := List.mem_map.mp hevent
        exact beq_eq_false_iff_ne.mpr (hothers raw hraw)
      · rw [List.length_map]
        refine hreported.imp ?_ ?_
        · rintro rfl
          exact List.map_append
        · rintro ⟨rfl, hfull⟩
          exact ⟨rfl, hfull⟩

end Posted

/-! ## What happens to a wake pipe -/

/-- Anything happens but a notification that succeeds. -/
inductive Unnotified (σ : Type) (source : Source) (kernel : Kernel α) : Kernel α → Prop where
  | failed {fault : Fault} {next : Kernel α}
      (hwake : kernel.Completes (source.wake : Program σ _) (.error fault) next) :
      Unnotified σ source kernel next
  | drained {more : Bool} {next : Kernel α}
      (hdrain : kernel.Completes (source.drainStep : Program σ _) more next) :
      Unnotified σ source kernel next
  | waited {batch : Nat} {timeout : Option Duration}
      {result : Except Fault (List Proactor.Event)} {next : Kernel α}
      (hwait : kernel.Completes (source.wait batch timeout : Program σ _) result next) :
      Unnotified σ source kernel next
  | elsewhere {held : Nat} {next : Kernel α} (hkernel : kernel.Posted source held)
      (hnext : next.Posted source held) : Unnotified σ source kernel next

/-- That many notifications have succeeded since the pipe was last empty. -/
inductive Notified (σ : Type) (source : Source) : Nat → Kernel α → Prop where
  | empty {kernel : Kernel α} (hempty : kernel.Posted source 0) : Notified σ source 0 kernel
  | again {k : Nat} {kernel next : Kernel α} (h : Notified σ source k kernel)
      (hwake : kernel.Completes (source.wake : Program σ _) (.ok ()) next) :
      Notified σ source (k + 1) next
  | kept {k : Nat} {kernel next : Kernel α} (h : Notified σ source k kernel)
      (hstep : kernel.Unnotified σ source next) (hleft : ¬ next.Posted source 0) :
      Notified σ source k next

/-- The pipe is cleared: chunks are read until there is no more. -/
inductive Clears (σ : Type) (source : Source) : Kernel α → Nat → Kernel α → Prop where
  | last {kernel next : Kernel α}
      (hstep : kernel.Completes (source.drainStep : Program σ _) false next) :
      Clears σ source kernel 1 next
  | more {kernel next last : Kernel α} {reads : Nat}
      (hstep : kernel.Completes (source.drainStep : Program σ _) true next)
      (hrest : Clears σ source next reads last) : Clears σ source kernel (reads + 1) last

/-- Waits report a notification. One without a time limit does not block, one with nothing else to
report reports it alone, and any that returns has it once among its events if these do not fill
the batch without it. -/
structure Reports (σ : Type) (kernel : Kernel α) (source : Source) : Prop where
  returns : kernel.waitReturns source.descriptor = true
  alone : ∀ batch timeout, 0 < batch → kernel.scriptedWaits source.descriptor = [] →
    kernel.Completes (source.wait batch timeout : Program σ _) (.ok [⟨notifyKey, .read⟩]) kernel
  once : ∀ batch timeout events next,
    kernel.Completes (source.wait batch timeout : Program σ _) (.ok events) next →
      events.countP (!·.isNotification) < min batch Source.waitLimit →
      events.countP (·.isNotification) = 1

/-- No wait reports a notification. -/
def Silent (σ : Type) (kernel : Kernel α) (source : Source) : Prop :=
  ∀ batch timeout events next,
    kernel.Completes (source.wait batch timeout : Program σ _) (.ok events) next →
      ∀ event ∈ events, event.isNotification = false

/-- No wait reports a notification until another one succeeds. -/
def StaysSilent (σ : Type) (kernel : Kernel α) (source : Source) : Prop :=
  ∀ later, Relation.ReflTransGen (Unnotified σ source) kernel later → later.Silent σ source

/-- Notifications that have succeeded since the pipe was last empty coalesce, and are cleared
together. -/
structure Coalesced (σ : Type) (kernel : Kernel α) (source : Source) (k : Nat) : Prop where
  pending : ∃ held, kernel.Posted source held ∧ held ≤ k ∧ (0 < held ↔ 0 < k)
  reported : 0 < k → kernel.Reports σ source
  silent : k = 0 → kernel.StaysSilent σ source
  /-- There is no endless succession of reads after which there is more. -/
  finite : Acc (fun next kernel => kernel.Completes (source.drainStep : Program σ _) true next)
    kernel
  clears : ∃ reads last, Clears σ source kernel reads last
  bounded : ∀ reads last, Clears σ source kernel reads last →
    reads ≤ (k + (WakePipe.drainChunk - 1)) / WakePipe.drainChunk + 1
  /-- No read is made to fail. -/
  emptied : ∀ reads last, Clears σ source kernel reads last →
    (∀ code ∈ (kernel.prepared .wakeRead).take reads, code = 0) →
      last.Posted source 0 ∧ last.StaysSilent σ source
  /-- A read is made to fail after others have passed. -/
  interrupted : ∀ held passes code codes, kernel.Posted source held →
    kernel.prepared .wakeRead = List.replicate passes 0 ++ code :: codes → code ≠ 0 →
    ∀ reads last, Clears σ source kernel reads last →
      last.Posted source (held - passes * WakePipe.drainChunk) ∧
        (passes * WakePipe.drainChunk < held →
          Notified σ source k last ∧ last.Reports σ source)

/-! ## Steps -/

namespace Posted

/-- Whatever happens but a notification that succeeds, no bytes are added. -/
theorem unnotified (h : kernel.Posted source held) (hstep : kernel.Unnotified σ source next) :
    ∃ after, next.Posted source after ∧ after ≤ held := by
  cases hstep with
  | failed hwake =>
      obtain ⟨after, hnext, -, -, hsame⟩ := h.wake hwake
      exact ⟨after, hnext, Nat.le_of_eq (hsame nofun)⟩
  | drained hdrain =>
      cases h.drainStep hdrain with
      | failed _ _ _ hnext => exact ⟨held, hnext, Nat.le_refl held⟩
      | passed _ _ hnext => exact ⟨_, hnext, Nat.sub_le _ _⟩
  | waited hwait => exact ⟨held, (h.wait hwait).1, Nat.le_refl held⟩
  | elsewhere hkernel hnext =>
      cases h.unique hkernel
      exact ⟨held, hnext, Nat.le_refl held⟩

/-- As long as the pipe holds a byte, waits report a notification. -/
theorem reports (h : kernel.Posted source held) (hheld : 0 < held) : kernel.Reports σ source := by
  have hwakeUps : wakeUps held = [⟨notifyKey, EventMask.input⟩] :=
    if_neg (Nat.ne_of_gt hheld)
  have hfound : kernel.wakeUp? source.descriptor = some ⟨notifyKey, EventMask.input⟩ :=
    Option.toList_eq_singleton_iff.mp (h.wakeUp?.trans hwakeUps)
  have hreturns : kernel.waitReturns source.descriptor = true := by
    rw [waitReturns, hfound]
    exact Bool.or_true _
  constructor
  case returns => exact hreturns
  case alone =>
    intro batch timeout hbatch hscript
    refine (completes_wait h.usable).mpr
      ⟨.ok [⟨notifyKey, EventMask.input⟩], ?_, ?_, rfl⟩
    · have hanswer : kernel.waitUnscripted source.descriptor timeout.isSome =
          .ok [⟨notifyKey, EventMask.input⟩] := by
        rw [waitUnscripted, hfound]
      rw [← hanswer]
      exact .unscripted hscript (.inr hreturns)
    · rintro _ ⟨⟩
      exact hbatch
  case once =>
    intro batch timeout events next hwait hroom
    obtain ⟨others, hothers, hevents⟩ := (h.wait hwait).2 events rfl
    have hnone : others.countP (·.isNotification) = 0 :=
      List.countP_eq_zero.mpr fun event hevent => by simp [hothers event hevent]
    have hall : others.countP (!·.isNotification) = others.length :=
      List.countP_eq_length.mpr fun event hevent => by simp [hothers event hevent]
    rcases hevents with rfl | ⟨rfl, hfull⟩
    · rw [List.countP_append, hnone, hwakeUps]
      rfl
    · omega

/-- Once the pipe is empty, no wait reports a notification. -/
theorem silent (h : kernel.Posted source 0) : kernel.Silent σ source := by
  intro batch timeout events next hwait
  obtain ⟨others, hothers, rfl | ⟨rfl, -⟩⟩ := (h.wait hwait).2 events rfl
  · rwa [show (wakeUps 0).map Event.ofRaw = [] from rfl, List.append_nil]
  · exact hothers

/-- Only a notification puts anything into an empty pipe. -/
theorem staysSilent (h : kernel.Posted source 0) : kernel.StaysSilent σ source := by
  intro later hlater
  have hempty : later.Posted source 0 := by
    induction hlater with
    | refl => exact h
    | tail _ hstep ih =>
        obtain ⟨after, hafter, hnone⟩ := ih.unnotified hstep
        rwa [Nat.le_zero.mp hnone] at hafter
  exact hempty.silent

end Posted

/-- There is something in the pipe if and only if it has been notified since it was last empty. -/
theorem Notified.posted (h : Notified σ source k kernel) :
    ∃ held, kernel.Posted source held ∧ held ≤ k ∧ (0 < held ↔ 0 < k) := by
  induction h with
  | empty hempty => exact ⟨0, hempty, Nat.le_refl 0, Iff.rfl⟩
  | again _ hwake ih =>
      obtain ⟨held, hposted, hle, -⟩ := ih
      obtain ⟨after, hnext, hafter, hsome, -⟩ := hposted.wake hwake
      exact ⟨after, hnext, by omega, fun _ => Nat.succ_pos _, fun _ => hsome rfl⟩
  | @kept k _ next _ hstep hleft ih =>
      obtain ⟨held, hposted, hle, hiff⟩ := ih
      obtain ⟨after, hnext, hafter⟩ := hposted.unnotified hstep
      have hsome : 0 < after := Nat.pos_of_ne_zero fun hzero => hleft (hzero ▸ hnext)
      exact ⟨after, hnext, Nat.le_trans hafter hle, fun _ => by omega, fun _ => hsome⟩

/-! ## Clearing the pipe -/

/-- A chunk after which there is more was taken out of a pipe that was not empty. -/
theorem Posted.more (h : kernel.Posted source held)
    (hstep : kernel.Completes (source.drainStep : Program σ _) true next) :
    0 < held ∧ next.Posted source (held - WakePipe.drainChunk) ∧
      (∀ code ∈ (kernel.prepared .wakeRead).head?, code = 0) ∧
      next.prepared .wakeRead = (kernel.prepared .wakeRead).tail := by
  cases h.drainStep hstep with
  | failed _ _ hmore => cases hmore
  | passed hzero hmore hnext htail =>
      exact ⟨of_decide_eq_true hmore.symm, hnext, hzero, htail⟩

/-- There is no endless succession of draining steps after which there is more. -/
theorem Posted.acc (h : kernel.Posted source held) :
    Acc (fun next kernel : Kernel α =>
      kernel.Completes (source.drainStep : Program σ _) true next) kernel := by
  -- every chunk after which there is more makes the pipe emptier
  induction held using Nat.strongRecOn generalizing kernel with
  | ind held ih =>
      refine Acc.intro kernel fun next hstep => ?_
      obtain ⟨hpos, hnext, -⟩ := h.more hstep
      exact ih _ (Nat.sub_lt hpos (by decide)) hnext

/-- The pipe can be cleared. -/
theorem Posted.exists_clears (h : kernel.Posted source held) :
    ∃ reads last, Clears σ source kernel reads last := by
  induction held using Nat.strongRecOn generalizing kernel with
  | ind held ih =>
      obtain ⟨more, next, hstep⟩ := h.exists_drainStep (σ := σ)
      cases more with
      | false => exact ⟨1, next, .last hstep⟩
      | true =>
          obtain ⟨hpos, hnext, -⟩ := h.more hstep
          obtain ⟨reads, last, hclears⟩ := ih _ (Nat.sub_lt hpos (by decide)) hnext
          exact ⟨reads + 1, last, .more hstep hclears⟩

namespace Clears

variable {reads : Nat}

/-- Clearing a pipe takes no more reads than it holds chunks, and one that finds it empty. -/
theorem reads_le (hclears : Clears σ source kernel reads last) (h : kernel.Posted source held) :
    reads ≤ (held + (WakePipe.drainChunk - 1)) / WakePipe.drainChunk + 1 := by
  induction hclears generalizing held with
  | last => exact Nat.le_add_left _ _
  | more hstep _ ih =>
      obtain ⟨hpos, hnext, -⟩ := h.more hstep
      have hreads := ih hnext
      simp only [WakePipe.drainChunk] at hreads ⊢
      omega

/-- What clearing leaves in the pipe does not come from anywhere else. -/
theorem posted (hclears : Clears σ source kernel reads last) (h : kernel.Posted source held) :
    ∃ left, last.Posted source left ∧ left ≤ held := by
  induction hclears generalizing held with
  | last hstep => exact h.unnotified (.drained hstep)
  | more hstep _ ih =>
      obtain ⟨after, hnext, hafter⟩ := h.unnotified (.drained hstep)
      obtain ⟨left, hlast, hleft⟩ := ih hnext
      exact ⟨left, hlast, Nat.le_trans hleft hafter⟩

/-- Nothing is left if no read is made to fail. -/
theorem emptied (hclears : Clears σ source kernel reads last) (h : kernel.Posted source held)
    (hcodes : ∀ code ∈ (kernel.prepared .wakeRead).take reads, code = 0) :
    last.Posted source 0 := by
  induction hclears generalizing held with
  | last hstep =>
      cases h.drainStep hstep with
      | failed hprepared hcode =>
          rw [hprepared] at hcodes
          exact absurd (hcodes _ List.mem_cons_self) hcode
      | passed _ hmore hnext =>
          have hempty : held = 0 := by simpa using hmore.symm
          rwa [hempty, Nat.zero_sub] at hnext
  | @more kernel _ _ _ hstep _ ih =>
      obtain ⟨-, hnext, -, htail⟩ := h.more hstep
      refine ih hnext fun code hcode => hcodes code ?_
      rw [htail] at hcode
      cases hprepared : kernel.prepared .wakeRead with
      | nil => simp [hprepared] at hcode
      | cons first rest =>
          rw [hprepared] at hcode
          exact List.mem_cons_of_mem first hcode

/-- The reads that pass each take a chunk, and the one that is made to fail leaves the rest. -/
theorem interrupted (hclears : Clears σ source kernel reads last) (h : kernel.Posted source held)
    {passes : Nat} {code : Int} {codes : List Int}
    (hcodes : kernel.prepared .wakeRead = List.replicate passes 0 ++ code :: codes)
    (hcode : code ≠ 0) : last.Posted source (held - passes * WakePipe.drainChunk) := by
  induction hclears generalizing held passes with
  | last hstep =>
      cases h.drainStep hstep with
      | failed hprepared hfirst _ hnext =>
          cases passes with
          | zero => rwa [Nat.zero_mul, Nat.sub_zero]
          | succ passes => exact absurd (List.cons.inj (hprepared.symm.trans hcodes)).1 hfirst
      | passed _ hmore hnext =>
          have hempty : held = 0 := by simpa using hmore.symm
          rw [hempty, Nat.zero_sub] at hnext ⊢
          exact hnext
  | more hstep _ ih =>
      obtain ⟨-, hnext, hzero, htail⟩ := h.more hstep
      cases passes with
      | zero => exact absurd (hzero code (hcodes ▸ rfl)) hcode
      | succ passes =>
          have hrest := ih hnext (htail.trans (congrArg List.tail hcodes))
          rwa [Nat.sub_sub, Nat.add_comm, ← Nat.succ_mul] at hrest

/-- Reads that leave something in the pipe have not emptied it before. -/
theorem notified (hclears : Clears σ source kernel reads last) (h : Notified σ source k kernel)
    (hlast : last.Posted source held) (hheld : 0 < held) : Notified σ source k last := by
  induction hclears with
  | last hstep =>
      exact h.kept (.drained hstep) fun hempty => Nat.ne_of_gt hheld (hlast.unique hempty)
  | @more kernel next last reads hstep hrest ih =>
      refine ih (h.kept (.drained hstep) fun hempty => ?_) hlast
      obtain ⟨left, hleft, hle⟩ := hrest.posted hempty
      exact Nat.ne_of_gt hheld ((hlast.unique hleft).trans (Nat.le_zero.mp hle))

end Clears

/-! ## All runs -/

/-- However often the pipe was notified since it was last empty, the notifications are reported as
one until they are cleared, and a read that fails loses none of them. -/
theorem Notified.coalesced (h : Notified σ source k kernel) : kernel.Coalesced σ source k := by
  obtain ⟨held, hposted, hle, hiff⟩ := h.posted
  constructor
  case pending => exact ⟨held, hposted, hle, hiff⟩
  case reported => exact fun hk => hposted.reports (hiff.mpr hk)
  case silent =>
    rintro rfl
    obtain rfl : held = 0 := Nat.le_zero.mp hle
    exact hposted.staysSilent
  case finite => exact hposted.acc
  case clears => exact hposted.exists_clears
  case bounded =>
    intro reads last hclears
    exact Nat.le_trans (hclears.reads_le hposted)
      (Nat.succ_le_succ (Nat.div_le_div_right (Nat.add_le_add_right hle _)))
  case emptied =>
    intro reads last hclears hcodes
    have hlast := hclears.emptied hposted hcodes
    exact ⟨hlast, hlast.staysSilent⟩
  case interrupted =>
    intro held passes code codes hposted hcodes hcode reads last hclears
    have hlast := hclears.interrupted hposted hcodes hcode
    refine ⟨hlast, fun hleft => ?_⟩
    have hpos : 0 < held - passes * WakePipe.drainChunk := Nat.sub_pos_of_lt hleft
    exact ⟨hclears.notified h hlast hpos, hlast.reports hpos⟩

/-! ## A pipe that is notified over and over -/

/-- In a system that fails no call without need a notification puts a byte into the pipe. -/
theorem Posted.completes_wake (h : kernel.Posted source held) (hfailures : kernel.failures = []) :
    kernel.Completes (source.wake : Program σ _) (.ok ())
      (kernel.withHeld (source.wakePipe.holding held) (held + 1)) := by
  have hwrite : kernel.writePipe (source.wakePipe.holding held) [1] =
      (.ok 1, kernel.withHeld (source.wakePipe.holding held) (held + 1)) := by
    cases kernel
    cases hfailures
    rfl
  have hgives := Gives.write (σ := σ) h.pipeWrittenBy? [1] (by simp [hwrite])
  rw [hwrite] at hgives
  exact Kernel.completes_wake.mpr ⟨_, hgives, rfl⟩

/-- Such a system takes any number of notifications. -/
theorem Posted.exists_notified (h : kernel.Posted source 0) (hfailures : kernel.failures = [])
    (k : Nat) :
    ∃ next : Kernel α, Notified σ source k next ∧ next.Posted source k ∧ next.failures = [] := by
  induction k with
  | zero => exact ⟨kernel, .empty h, h, hfailures⟩
  | succ k ih =>
      obtain ⟨next, hnotified, hposted, hnone⟩ := ih
      exact ⟨_, hnotified.again (hposted.completes_wake hnone), hposted.withHeld (k + 1), hnone⟩

/-- A pipe is notified a hundred times. The second read that is to clear it is made to fail, and
what the first one has left goes on being reported. -/
theorem coalesced_after_interruption :
    ∃ (kernel last : Kernel Unit) (source : Source) (reads : Nat),
      Notified Unit source 100 kernel ∧ kernel.prepared .wakeRead = [0, 5] ∧
        Clears Unit source kernel reads last ∧ last.Posted source 36 ∧
        kernel.Coalesced Unit source 100 ∧ last.Coalesced Unit source 100 := by
  let source : Source := ⟨⟨500⟩, ⟨⟨501⟩, ⟨502⟩⟩, false⟩
  let created : Kernel Unit :=
    (Kernel.initial.openSource.2.openPipe.2.control ⟨500⟩
      (.add ⟨501⟩ ⟨notifyKey, EventMask.input⟩)).2
  have hcreated : created.Posted source 0 :=
    ⟨rfl, rfl, List.mem_singleton_self _, fun _ hpipe => .inl (List.mem_singleton.mp hpipe), rfl⟩
  obtain ⟨full, hfull, hposted, hnone⟩ := hcreated.exists_notified rfl 100
  -- the failure is prepared when everything has been written
  let kernel : Kernel Unit := full.failNext .wakeRead [0, 5]
  have hkernel : kernel.Posted source 100 := hposted.congr rfl rfl rfl
  have hnotified : Notified Unit source 100 kernel :=
    hfull.kept (.elsewhere hposted hkernel) fun hempty => by cases hkernel.unique hempty
  have hcodes : kernel.prepared .wakeRead = [0, 5] := by
    show (full.failures ++ _).filterMap _ = _
    rw [hnone]
    rfl
  have hcoalesced := hnotified.coalesced
  obtain ⟨reads, last, hclears⟩ := hcoalesced.clears
  obtain ⟨hlast, hkept⟩ :=
    hcoalesced.interrupted 100 1 5 [] hkernel hcodes (by decide) reads last hclears
  exact ⟨kernel, last, source, reads, hnotified, hcodes, hclears, hlast, hcoalesced,
    (hkept (by decide)).1.coalesced⟩

end Simulation.Kernel

end Proactor
