import Proactor.Proofs.Acceptance
import Proactor.Proofs.Matching
import Proactor.Proofs.Separation
import Proactor.Proofs.Transcripts
import Proactor.Proofs.Trials

/-!
# Events that come to nothing

An event comes to nothing if no operation waits on its descriptor, or if the system puts off the
attempt that it leads to and the operation goes back to waiting. `Padded` marks such events in a
transcript and lists what is left without them. `Padded.erased` says that the lane does the same
without them and is left the same, and `Path.unobserved` that no loop with these events can be told
from one without them by anything but its own calls for them.
-/

namespace Proactor

open EventLoop

variable {σ : Type}

/-! ## Registrations -/

/-- The events that descriptors are registered for. -/
abbrev Registry :=
  Fd → Option RawEvent

namespace Registry

variable {registry : Registry} {fd : Fd} {exchanges : List (Exchange σ)}

/-- The registrations after more exchanges of the side. -/
def after (registry : Registry) (exchanges : List (Exchange σ)) : Registry :=
  fun fd => exchanges.foldl (Bench.registered fd) (registry fd)

/-- The registrations after two parts of some exchanges are those after the first and then the
second. -/
theorem after_append (registry : Registry) (first second : List (Exchange σ)) :
    registry.after (first ++ second) = (registry.after first).after second :=
  funext fun _ => List.foldl_append

/-- Exchanges that are not about the descriptor leave its registration alone. -/
theorem after_quiet (h : ∀ exchange ∈ exchanges, ∀ registration,
    Bench.registered fd registration exchange = registration) :
    registry.after exchanges fd = registry fd := by
  unfold after
  generalize registry fd = registration
  induction exchanges with
  | nil => rfl
  | cons exchange exchanges ih =>
      obtain ⟨hfirst, hrest⟩ := List.forall_mem_cons.mp h
      rw [List.foldl_cons, hfirst]
      exact ih hrest

/-- What concerns one descriptor leaves the registrations of others alone. -/
theorem after_of_concerns {other : Fd}
    (h : ∀ exchange ∈ exchanges, System.Concerns other exchange.request) (hfd : fd ≠ other) :
    registry.after exchanges fd = registry fd := by
  refine after_quiet fun exchange hexchange registration => Bench.registered_of_other ?_
  intro hsubject
  rcases h exchange hexchange with heq | ⟨record, hlog⟩
  · exact hfd (Option.some.inj (hsubject.symm.trans heq))
  · rw [hlog] at hsubject
    cases hsubject

/-- To register a descriptor for the event that it is registered for changes nothing. -/
theorem after_changed {event : RawEvent} {source : Source} {change : Fd → RawEvent → Control}
    {result : Except Fault Unit} (hregistered : registry fd = some event)
    (hchange : Control.Sets change) (h : source.Changed change fd event exchanges result) :
    registry.after exchanges = registry := by
  cases h with
  | refused => rfl
  | asked _ _ answer =>
      cases answer with
      | error errno => rfl
      | ok value =>
          funext other
          have hsets : (change fd event).fd = fd ∧ (change fd event).event? = some event := by
            rcases hchange with rfl | rfl <;> exact ⟨rfl, rfl⟩
          show (if (change fd event).fd = other then (change fd event).event? else registry other) =
            registry other
          rw [hsets.1, hsets.2]
          split
          · rename_i heq
            rw [← heq, hregistered]
          · rfl

/-- Rearming a descriptor that is registered changes nothing about its registration, whatever comes
of it. -/
theorem after_rearmed {table : Outstanding σ} {source : Source} {result : Except Fault Unit}
    (hregistered : registry fd = some (table.event fd))
    (h : (source.rearm fd fd.key table.interest).Returns exchanges result) :
    registry.after exchanges = registry := by
  rw [Source.rearm_eq_changeOr] at h
  cases Source.changeOr_returns table.isEmpty_interest h with
  | once hfirst => exact after_changed hregistered Control.sets_modify hfirst
  | twice hfirst hsecond =>
      rw [after_append, after_changed hregistered Control.sets_modify hfirst]
      exact after_changed hregistered Control.sets_add hsecond

end Registry

/-! ## Attempts that are put off -/

/-- A transfer on the descriptor fails for now: it would have to wait (11), or a signal ended it
(4). -/
def Exchange.PutsOff (fd : Fd) : Exchange σ → Prop
  | ⟨.read target _, .error errno⟩ => target = fd ∧ (errno.code = 11 ∨ errno.code = 4)
  | ⟨.send target _, .error errno⟩ => target = fd ∧ (errno.code = 11 ∨ errno.code = 4)
  | ⟨.write target _, .error errno⟩ => target = fd ∧ (errno.code = 11 ∨ errno.code = 4)
  | _ => False

namespace Transfer

/-- An operation whose attempt is put off is as before. -/
theorem attempt_putsOff {direction : Direction} {operation changed : Operation σ} {fd : Fd}
    {first : Exchange σ} {rest made logs : List (Exchange σ)} {attempt : Attempt}
    (hfirst : first.PutsOff fd) (hmade : first :: rest = made ++ logs)
    (h : (Transfer.attempt direction operation).Returns made (changed, attempt)) :
    operation.fd = fd ∧ changed = operation ∧ attempt = .retry := by
  cases direction with
  | read =>
      generalize hanswer : (changed, attempt) = answer at h
      cases read_cases h with
      | arrived bytes =>
          obtain ⟨rfl, -⟩ := List.cons.inj hmade
          exact hfirst.elim
      | refused errno =>
          obtain ⟨rfl, -⟩ := List.cons.inj hmade
          cases hanswer
          exact ⟨hfirst.1, rfl, if_pos (Errno.isTransient_iff.mpr hfirst.2)⟩
  | write =>
      obtain ⟨pushed, answer, hsending, rfl, rfl⟩ := write_sending h
      cases hsending with
      | fallback hmark =>
          obtain ⟨rfl, -⟩ := List.cons.inj hmade
          exact absurd hfirst.2 (by decide)
      | plain | socket =>
          obtain ⟨rfl, -⟩ := List.cons.inj hmade
          cases answer with
          | ok count => exact hfirst.elim
          | error errno => exact ⟨hfirst.1, rfl, if_pos (Errno.isTransient_iff.mpr hfirst.2)⟩

/-- An attempt that panics has asked for nothing. -/
theorem exchanges_of_panic {direction : Direction} {operation : Operation σ}
    {exchanges : List (Exchange σ)} {cause : Panic}
    (h : (Transfer.attempt direction operation).Runs exchanges (.panicked cause)) :
    exchanges = [] := by
  cases direction with
  | read => exact absurd h (read_neverPanics operation _ _)
  | write =>
      by_cases hfits : operation.transferred ≤ operation.buffer.length
      · exact absurd h (write_neverPanics hfits _ _)
      · rw [show Transfer.attempt .write operation = .panic .beyondBuffer from if_neg hfits] at h
        exact h.1

end Transfer

/-- Tables of the same direction await the same events. -/
theorem Outstanding.event_congr {table other : Outstanding σ} (fd : Fd)
    (h : table.direction = other.direction) : table.event fd = other.event fd :=
  congrArg (fun direction => RawEvent.mk fd.key (Interest.ofDirection direction).mask) h

/-- An operation whose descriptor is rearmed waits again. -/
theorem Outstanding.settle_rearmed {table left : Outstanding σ} {source : Source}
    {operation : Operation σ} {exchanges : List (Exchange σ)}
    {result : Except Panic (List (Resolved σ))}
    (hslot : table.slots.get? operation.fd = some (.inFlight none))
    (hrearm : (source.rearm operation.fd operation.fd.key table.interest).Returns exchanges
      (.ok ()))
    (h : (table.settle operation .retry source).Returns exchanges (result, left)) :
    result = .ok [] ∧ left = table.put operation.fd (.pending operation) := by
  unfold settle at h
  dsimp only at h
  rw [checkIn_inFlight hslot] at h
  obtain ⟨⟨failed, kept⟩, calls, last, rfl, hretain, hrest⟩ := Program.returns_bind.mp h
  obtain ⟨rfl, hvalue⟩ := Program.returns_pure.mp hrest
  cases hvalue
  obtain ⟨rearmed, first, second, rfl, hagain, hkept⟩ := Program.returns_bind.mp hretain
  have happend : first ++ second = (first ++ second ++ []) ++ [] := by simp
  obtain ⟨-, houtcome⟩ := hrearm.unique_of_append hagain happend
  cases houtcome
  obtain ⟨rfl, hanswer⟩ := Program.returns_pure.mp hkept
  cases hanswer
  exact ⟨rfl, put_erase _ _ _⟩

namespace Lane

/-! ## Where a loop is with an event that comes to nothing -/

/-- How far a loop has come with an event that comes to nothing. -/
inductive Phase where
  /-- It is at no such event. -/
  | free
  /-- The operation of the descriptor is checked out. -/
  | held (fd : Fd)
  /-- The operation is to be attempted again. -/
  | tried (fd : Fd)
  /-- The operation waits again. -/
  | kept

/-- The descriptor whose operation is checked out. -/
def Phase.lent? : Phase → Option Fd
  | held fd | tried fd => some fd
  | free | kept => none

/-- A transcript with events that come to nothing, and what is left of it without them. Meanwhile
operations are submitted on other descriptors. -/
inductive Padded (setup : Setup) :
    Phase → Registry → Lane σ → List (Entry σ) → List (Entry σ) → Lane σ → Prop where
  | nil (registry : Registry) (lane : Lane σ) : Padded setup .free registry lane [] [] lane
  | shared {registry : Registry} {lane next last : Lane σ} {entry : Entry σ}
      {entries kept : List (Entry σ)} (hdoes : Does setup lane entry next)
      (h : Padded setup .free (registry.after entry.exchanges) next entries kept last) :
      Padded setup .free registry lane (entry :: entries) (entry :: kept) last
  /-- Nothing waits on the descriptor. -/
  | passedOver {registry : Registry} {lane next last : Lane σ} {event : Proactor.Event}
      {exchanges : List (Exchange σ)} {entries kept : List (Entry σ)}
      (hevent : event.isNotification = false)
      (hslot : ∀ operation, lane.side.table.slots.get? event.fd ≠ some (.pending operation))
      (hdoes : Does setup lane ⟨.turned event, exchanges, none⟩ next)
      (h : Padded setup .free (registry.after exchanges) next entries kept last) :
      Padded setup .free registry lane (⟨.turned event, exchanges, none⟩ :: entries) kept last
  /-- An operation waits on the descriptor, which is registered. -/
  | checkedOut {registry : Registry} {lane next last : Lane σ} {event : Proactor.Event}
      {operation : Operation σ} {exchanges : List (Exchange σ)} {entries kept : List (Entry σ)}
      (hevent : event.isNotification = false)
      (hslot : lane.side.table.slots.get? event.fd = some (.pending operation))
      (hregistered : registry event.fd = some (lane.side.table.event event.fd))
      (hdoes : Does setup lane ⟨.turned event, exchanges, none⟩ next)
      (h : Padded setup (.held event.fd) (registry.after exchanges) next entries kept last) :
      Padded setup .free registry lane (⟨.turned event, exchanges, none⟩ :: entries) kept last
  /-- The first call of the attempt fails for now. -/
  | putOff {registry : Registry} {lane next last : Lane σ} {fd : Fd} {first : Exchange σ}
      {rest : List (Exchange σ)} {entries kept : List (Entry σ)} (hfirst : first.PutsOff fd)
      (hdoes : Does setup lane ⟨.worked, first :: rest, none⟩ next)
      (h : Padded setup (.tried fd) (registry.after (first :: rest)) next entries kept last) :
      Padded setup (.held fd) registry lane (⟨.worked, first :: rest, none⟩ :: entries) kept last
  /-- The descriptor is rearmed. -/
  | rearmed {registry : Registry} {lane next last : Lane σ} {fd : Fd}
      {exchanges : List (Exchange σ)} {entries kept : List (Entry σ)}
      (hrearm : (lane.side.source.rearm fd fd.key lane.side.table.interest).Returns exchanges
        (.ok ()))
      (hdoes : Does setup lane ⟨.worked, exchanges, none⟩ next)
      (h : Padded setup .kept (registry.after exchanges) next entries kept last) :
      Padded setup (.tried fd) registry lane (⟨.worked, exchanges, none⟩ :: entries) kept last
  /-- The loop has nothing to announce. -/
  | resumed {registry : Registry} {lane next last : Lane σ} {exchanges : List (Exchange σ)}
      {entries kept : List (Entry σ)} (hdoes : Does setup lane ⟨.worked, exchanges, none⟩ next)
      (h : Padded setup .free (registry.after exchanges) next entries kept last) :
      Padded setup .kept registry lane (⟨.worked, exchanges, none⟩ :: entries) kept last
  /-- Meanwhile an operation is submitted on another descriptor. -/
  | submitted {registry : Registry} {phase : Phase} {lane next last : Lane σ}
      {operation : Operation σ} {policy : OverlapPolicy} {exchanges : List (Exchange σ)}
      {result : Option (Except ReactorError (Option (Operation σ)))}
      {entries kept : List (Entry σ)} (hphase : phase ≠ .free)
      (hfd : phase.lent? ≠ some operation.fd)
      (hdoes : Does setup lane ⟨.submitted operation policy true, exchanges, result⟩ next)
      (h : Padded setup phase (registry.after exchanges) next entries kept last) :
      Padded setup phase registry lane
        (⟨.submitted operation policy true, exchanges, result⟩ :: entries)
        (⟨.submitted operation policy false, exchanges, result⟩ :: kept) last
  /-- The side is closed once the descriptor has been rearmed. -/
  | closed {registry : Registry} {lane next last : Lane σ} {exchanges : List (Exchange σ)}
      {entries kept : List (Entry σ)}
      (hdoes : Does setup lane ⟨.closed true, exchanges, none⟩ next)
      (h : Padded setup .kept (registry.after exchanges) next entries kept last) :
      Padded setup .kept registry lane (⟨.closed true, exchanges, none⟩ :: entries)
        (⟨.closed false, exchanges, none⟩ :: kept) last

/-- The second lane is what the first one would be without the event that it is at. -/
inductive Hides : Phase → Lane σ → Lane σ → Prop where
  | free {side other : Side σ} (stage : Stage σ) (h : side.Same other) :
      Hides .free ⟨side, stage⟩ ⟨other, stage⟩
  | held {side other : Side σ} {fd : Fd} {operation : Operation σ}
      (h : side.Matches (· ≠ fd) other)
      (hslot : side.table.slots.get? fd = some (.inFlight none))
      (hother : other.table.slots.get? fd = some (.pending operation)) :
      Hides (.held fd) ⟨side, .attempting operation []⟩ ⟨other, .waiting⟩
  | tried {side other : Side σ} {operation : Operation σ}
      (h : side.Matches (· ≠ operation.fd) other)
      (hslot : side.table.slots.get? operation.fd = some (.inFlight none))
      (hother : other.table.slots.get? operation.fd = some (.pending operation)) :
      Hides (.tried operation.fd) ⟨side, .settling operation .retry []⟩ ⟨other, .waiting⟩
  | kept {side other : Side σ} (h : side.Same other) :
      Hides .kept ⟨side, .announcing [] []⟩ ⟨other, .waiting⟩

variable {setup : Setup} {lane next last base : Lane σ} {side : Side σ} {phase : Phase}
  {exchanges : List (Exchange σ)} {operation : Operation σ} {registry : Registry}

/-- A lane that is at no such event is the same as the lane without such events. -/
theorem Hides.same (h : Hides .free lane base) :
    lane.side.Same base.side ∧ base.stage = lane.stage := by
  obtain ⟨stage, hsame⟩ := h
  exact ⟨hsame, rfl⟩

/-! ## One entry -/

/-- What a lane without the event does, the other one does. -/
theorem Hides.does {entry : Entry σ} (h : Hides .free lane base)
    (hdoes : Does setup lane entry next) :
    ∃ after, Does setup base entry after ∧ Hides .free next after := by
  obtain ⟨stage, hsame⟩ := h
  cases hdoes with
  | submit hbusy operation policy hsubmit =>
      dsimp only at hbusy
      obtain ⟨rest, hagain, hrest, -⟩ := hsame.submit trivial hsubmit
      exact ⟨_, .submit hbusy operation policy hagain, .free stage hrest⟩
  | other htakes hother =>
      cases htakes with
      | submit => cases hother
      | close hbusy hclose =>
          dsimp only at hbusy
          obtain ⟨rest, hagain, hrest⟩ := hsame.close hclose
          exact ⟨_, .other (.close hbusy hagain) rfl, .free stage hrest⟩
      | turn hwaiting event hmoves =>
          dsimp only at hwaiting
          obtain ⟨after, hagain, hstage, hrest⟩ := hmoves.same hsame
          refine ⟨_, .other (.turn hwaiting event hagain) rfl, ?_⟩
          rw [plain, plain, hstage]
          exact .free _ hrest
      | work hbusy hmoves =>
          dsimp only at hbusy
          obtain ⟨after, hagain, hstage, hrest⟩ := hmoves.same hsame
          refine ⟨_, .other (.work hbusy hagain) rfl, ?_⟩
          rw [plain, plain, hstage]
          exact .free _ hrest
      | finish hwaiting ending =>
          dsimp only at hwaiting
          refine ⟨_, .other (.finish hwaiting ending) rfl, .free _ ?_⟩
          exact ⟨hsame.source, hsame.direction, rfl, hsame.slots⟩

/-- Nothing happens at an event on whose descriptor nothing waits. -/
theorem Does.passedOver {event : Proactor.Event}
    (h : Does setup lane ⟨.turned event, exchanges, none⟩ next)
    (hevent : event.isNotification = false)
    (hslot : ∀ operation, lane.side.table.slots.get? event.fd ≠ some (.pending operation)) :
    next = lane ∧ ∀ exchange ∈ exchanges, exchange.request.Logs := by
  cases h with
  | other htakes =>
      cases htakes with
      | turn hwaiting _ hmoves =>
          cases hmoves.readied rfl hevent with
          | checkedOut hcheck => exact absurd (Side.checkOut_eq_some.mp hcheck).1 (hslot _)
          | nothing =>
              refine ⟨?_, by simp [Request.Logs]⟩
              obtain ⟨side, stage⟩ := lane
              obtain rfl : stage = _ := hwaiting
              rfl

/-- What waits on the descriptor of an event is checked out. -/
theorem Does.checkedOut {event : Proactor.Event}
    (h : Does setup lane ⟨.turned event, exchanges, none⟩ next)
    (hevent : event.isNotification = false)
    (hslot : lane.side.table.slots.get? event.fd = some (.pending operation)) :
    lane.stage = .waiting ∧
      next = ⟨{ lane.side with table := lane.side.table.put event.fd (.inFlight none) },
        .attempting operation []⟩ ∧
      ∀ exchange ∈ exchanges, exchange.request.Logs := by
  cases h with
  | other htakes =>
      cases htakes with
      | turn hwaiting _ hmoves =>
          cases hmoves.readied rfl hevent with
          | nothing hcheck => exact absurd hslot (Side.checkOut_eq_none.mp hcheck operation)
          | checkedOut hcheck =>
              obtain ⟨hpending, rfl⟩ := Side.checkOut_eq_some.mp hcheck
              cases hslot.symm.trans hpending
              exact ⟨hwaiting, rfl, by simp [Request.Logs]⟩

/-- An operation whose attempt is put off is about to be attempted again. -/
theorem Does.putOff {fd : Fd} {first : Exchange σ} {rest : List (Exchange σ)}
    (h : Does setup ⟨side, .attempting operation []⟩ ⟨.worked, first :: rest, none⟩ next)
    (hfirst : first.PutsOff fd) :
    operation.fd = fd ∧ next = ⟨side, .settling operation .retry []⟩ ∧
      ∀ exchange ∈ first :: rest,
        exchange.request.transferOn? = some operation.fd ∨ exchange.request.Logs := by
  cases h with
  | other htakes =>
      cases htakes with
      | work _ hmoves =>
          have hasks := hmoves.mayAsk
          obtain ⟨outcome, hruns, rfl⟩ := (moves_shared rfl).mp hmoves
          rcases Program.runs_bind hruns with ⟨cause, -, hpanics⟩ |
            ⟨⟨changed, attempt⟩, made, logs, hmade, hattempt, hrest⟩
          · cases Transfer.exchanges_of_panic hpanics
          · obtain ⟨hfd, rfl, rfl⟩ := Transfer.attempt_putsOff hfirst hmade hattempt
            obtain ⟨_, last, rfl, rfl, rfl⟩ := hrest
            exact ⟨hfd, rfl, hasks⟩

/-- An operation whose descriptor is rearmed waits again. -/
theorem Does.rearmed
    (h : Does setup ⟨side, .settling operation .retry []⟩ ⟨.worked, exchanges, none⟩ next)
    (hslot : side.table.slots.get? operation.fd = some (.inFlight none))
    (hrearm : (side.source.rearm operation.fd operation.fd.key side.table.interest).Returns
      exchanges (.ok ())) :
    next = ⟨{ side with table := side.table.put operation.fd (.pending operation) },
      .announcing [] []⟩ := by
  cases h with
  | other htakes =>
      cases htakes with
      | work _ hmoves =>
          obtain ⟨result, left, hsettle, rfl⟩ := moves_settling.mp hmoves
          obtain ⟨⟨answer, table⟩, calls, rest, rfl, htable, hrest⟩ :=
            Program.returns_bind.mp hsettle
          obtain ⟨rfl, hvalue⟩ := Program.returns_pure.mp hrest
          cases hvalue
          rw [List.append_nil] at hrearm
          obtain ⟨rfl, rfl⟩ := Outstanding.settle_rearmed hslot hrearm htable
          rfl

/-- A loop without anything to announce waits again. -/
theorem Does.resumed (h : Does setup ⟨side, .announcing [] []⟩ ⟨.worked, exchanges, none⟩ next) :
    exchanges = [] ∧ next = ⟨side, .waiting⟩ := by
  cases h with
  | other htakes =>
      cases htakes with
      | work _ hmoves =>
          obtain ⟨outcome, ⟨rfl, rfl⟩, rfl⟩ := (moves_shared rfl).mp hmoves
          exact ⟨rfl, rfl⟩

/-! ## What an event that comes to nothing leaves behind -/

/-- Nothing of these exchanges is left: all registrations are as before, and no sink has been
offered anything. -/
structure Traceless (registry : Registry) (exchanges : List (Exchange σ)) : Prop where
  registry : registry.after exchanges = registry
  offers : offers exchanges = []

/-- To transfer data and to write to the log leaves nothing behind. -/
theorem traceless_of_attempt (h : ∀ exchange ∈ exchanges,
    (∃ fd, exchange.request.transferOn? = some fd) ∨ exchange.request.Logs) :
    Traceless registry exchanges := by
  constructor
  case registry =>
    refine funext fun target => Registry.after_quiet fun exchange hexchange registration => ?_
    obtain ⟨request, answer⟩ := exchange
    rcases h _ hexchange with ⟨fd, htransfer⟩ | ⟨record, rfl⟩
    · cases request with
      | read | send | write => rfl
      | _ => cases htransfer
    · rfl
  case offers =>
    refine offers_eq_nil fun exchange hexchange => ?_
    rcases h exchange hexchange with ⟨fd, htransfer⟩ | hlogs
    · exact Request.isOffer_of_transferOn? htransfer
    · exact hlogs.isOffer_eq

/-- Telling the log something leaves nothing behind. -/
theorem traceless_of_logs (h : ∀ exchange ∈ exchanges, exchange.request.Logs) :
    Traceless registry exchanges :=
  traceless_of_attempt fun exchange hexchange => .inr (h exchange hexchange)

/-- Rearming a descriptor that is registered leaves nothing behind. -/
theorem traceless_of_rearm {table : Outstanding σ} {source : Source} {fd : Fd}
    {result : Except Fault Unit} (hregistered : registry fd = some (table.event fd))
    (h : (source.rearm fd fd.key table.interest).Returns exchanges result) :
    Traceless registry exchanges := by
  refine ⟨Registry.after_rearmed hregistered h, offers_eq_nil fun exchange hexchange => ?_⟩
  rw [Source.rearm_eq_changeOr] at h
  exact ((Source.changeOr_tends Control.sets_modify Control.sets_add).request h exchange
    hexchange).isOffer_eq

/-- A submission leaves the registrations of other descriptors alone. -/
theorem Does.submitted {policy : OverlapPolicy} {busy : Bool} {fd : Fd}
    {result : Option (Except ReactorError (Option (Operation σ)))}
    (h : Does setup lane ⟨.submitted operation policy busy, exchanges, result⟩ next)
    (hfd : fd ≠ operation.fd) (hregistered : registry fd = some (lane.side.table.event fd)) :
    registry.after exchanges fd = some (next.side.table.event fd) := by
  cases h with
  | other _ hother => cases hother
  | submit _ _ _ hsubmit =>
      have hdirection := ((Side.submit_returns hsubmit).1.agreeOn hfd).direction
      rw [Registry.after_of_concerns (Side.submit_concerns.request hsubmit) hfd, hregistered]
      exact congrArg some (Outstanding.event_congr fd hdirection)

/-- A submission on another descriptor comes to the same without the event. -/
theorem Hides.submit {policy : OverlapPolicy}
    {result : Option (Except ReactorError (Option (Operation σ)))} (h : Hides phase lane base)
    (hphase : phase ≠ .free) (hfd : phase.lent? ≠ some operation.fd)
    (hdoes : Does setup lane ⟨.submitted operation policy true, exchanges, result⟩ next) :
    ∃ after, Does setup base ⟨.submitted operation policy false, exchanges, result⟩ after ∧
      Hides phase next after := by
  cases hdoes with
  | other _ hother => cases hother
  | submit hbusy _ _ hsubmit =>
      cases h with
      | free => exact absurd rfl hphase
      | kept hsame =>
          obtain ⟨rest, hagain, hrest, -⟩ := hsame.submit trivial hsubmit
          exact ⟨_, .submit rfl operation policy hagain, .kept hrest⟩
      | @held _ _ fd _ hmatches hslot hother =>
          have hne : fd ≠ operation.fd := fun heq => hfd (congrArg some heq)
          obtain ⟨rest, hagain, hrest, hsame⟩ := hmatches.submit hne.symm hsubmit
          refine ⟨_, .submit rfl operation policy hagain, .held hrest ?_ ?_⟩
          · exact (hsame fd hne).1.trans hslot
          · exact (hsame fd hne).2.trans hother
      | @tried _ _ lent hmatches hslot hother =>
          have hne : lent.fd ≠ operation.fd := fun heq => hfd (congrArg some heq)
          obtain ⟨rest, hagain, hrest, hsame⟩ := hmatches.submit hne.symm hsubmit
          refine ⟨_, .submit rfl operation policy hagain, .tried hrest ?_ ?_⟩
          · exact (hsame lent.fd hne).1.trans hslot
          · exact (hsame lent.fd hne).2.trans hother

/-- An operation that waits in the one side is checked out of the other one. -/
theorem Hides.checkOut {fd : Fd} (h : Hides .free lane base) (hwaiting : lane.stage = .waiting)
    (hslot : lane.side.table.slots.get? fd = some (.pending operation)) :
    Hides (.held fd) ⟨{ lane.side with table := lane.side.table.put fd (.inFlight none) },
      .attempting operation []⟩ base := by
  obtain ⟨stage, hsame⟩ := h
  obtain rfl : stage = _ := hwaiting
  refine .held ⟨hsame.source, hsame.direction, hsame.dispatching, fun other hother => ?_⟩
    (Outstanding.get?_put_same _ _ _) ((hsame.slots fd trivial).symm.trans hslot)
  exact (Outstanding.get?_put_other _ _ hother).trans (hsame.slots other trivial)

/-! ## Without the events that come to nothing -/

/-- What is left of a transcript without events that came to nothing: the other entries, in a lane
that is left the same. -/
structure Erased (setup : Setup) (registry : Registry) (base : Lane σ)
    (entries kept : List (Entry σ)) (last after : Lane σ) : Prop where
  transcript : Transcript setup base kept after
  hides : Hides .free last after
  registry : registry.after (asked entries) = registry.after (asked kept)
  offers : offers (asked entries) = offers (asked kept)

variable {entries kept : List (Entry σ)} {after : Lane σ} {entry : Entry σ}

/-- An entry that leaves nothing behind can be left out. -/
theorem Erased.skip (htraceless : Traceless registry entry.exchanges)
    (h : Erased setup (registry.after entry.exchanges) base entries kept last after) :
    Erased setup registry base (entry :: entries) kept last after where
  transcript := h.transcript
  hides := h.hides
  registry := by
    have hregistry := h.registry
    rw [asked_cons, Registry.after_append, hregistry, htraceless.registry]
  offers := by rw [asked_cons, offers_append, htraceless.offers, List.nil_append, h.offers]

/-- An entry that is kept is made in the same exchanges. -/
theorem Erased.keep {again : Entry σ} (hdoes : Does setup base again next)
    (hexchanges : again.exchanges = entry.exchanges)
    (h : Erased setup (registry.after entry.exchanges) next entries kept last after) :
    Erased setup registry base (entry :: entries) (again :: kept) last after where
  transcript := .cons hdoes h.transcript
  hides := h.hides
  registry := by
    rw [asked_cons, asked_cons, Registry.after_append, Registry.after_append, h.registry,
      hexchanges]
  offers := by rw [asked_cons, asked_cons, offers_append, offers_append, h.offers, hexchanges]

/-- Without the events that come to nothing a lane does the same and is left the same. -/
theorem Padded.erased (h : Padded setup phase registry lane entries kept last)
    (hhides : Hides phase lane base) (hregistered : ∀ fd, phase.lent? = some fd →
      registry fd = some (lane.side.table.event fd)) :
    ∃ after, Erased setup registry base entries kept last after := by
  induction h generalizing base with
  | nil => exact ⟨base, .nil base, hhides, rfl, rfl⟩
  | shared hdoes _ ih =>
      obtain ⟨next, hagain, hnext⟩ := hhides.does hdoes
      obtain ⟨after, herased⟩ := ih hnext nofun
      exact ⟨after, herased.keep hagain rfl⟩
  | passedOver hevent hslot hdoes _ ih =>
      obtain ⟨rfl, hlogs⟩ := hdoes.passedOver hevent hslot
      obtain ⟨after, herased⟩ := ih hhides nofun
      exact ⟨after, herased.skip (traceless_of_logs hlogs)⟩
  | @checkedOut registry _ _ _ _ _ _ _ _ hevent hslot hawaited hdoes _ ih =>
      obtain ⟨hwaiting, rfl, hlogs⟩ := hdoes.checkedOut hevent hslot
      have htraceless : Traceless registry _ := traceless_of_logs hlogs
      obtain ⟨after, herased⟩ := ih (hhides.checkOut hwaiting hslot) fun fd hfd => by
        cases hfd
        rw [htraceless.registry]
        exact hawaited
      exact ⟨after, herased.skip htraceless⟩
  | @putOff registry _ _ _ _ _ _ _ _ hfirst hdoes _ ih =>
      cases hhides with
      | held hmatches hslot hother =>
          obtain ⟨rfl, rfl, hcalls⟩ := hdoes.putOff hfirst
          have htraceless : Traceless registry _ := traceless_of_attempt
            fun exchange hexchange => (hcalls exchange hexchange).imp_left (⟨_, ·⟩)
          obtain ⟨after, herased⟩ := ih (.tried hmatches hslot hother) fun fd hfd => by
            rw [htraceless.registry]
            exact hregistered fd hfd
          exact ⟨after, herased.skip htraceless⟩
  | rearmed hrearm hdoes _ ih =>
      cases hhides with
      | tried hmatches hslot hother =>
          obtain rfl := hdoes.rearmed hslot hrearm
          obtain ⟨after, herased⟩ := ih (.kept (hmatches.put_back hother)) nofun
          exact ⟨after, herased.skip (traceless_of_rearm (hregistered _ rfl) hrearm)⟩
  | resumed hdoes _ ih =>
      cases hhides with
      | kept hsame =>
          obtain ⟨rfl, rfl⟩ := hdoes.resumed
          obtain ⟨after, herased⟩ := ih (.free _ hsame) nofun
          exact ⟨after, herased.skip ⟨rfl, rfl⟩⟩
  | submitted hphase hfd hdoes _ ih =>
      obtain ⟨next, hagain, hnext⟩ := hhides.submit hphase hfd hdoes
      obtain ⟨after, herased⟩ := ih hnext fun fd hlent =>
        hdoes.submitted (fun heq => hfd (heq ▸ hlent)) (hregistered fd hlent)
      exact ⟨after, herased.keep hagain rfl⟩
  | closed hdoes _ ih =>
      cases hhides with
      | kept hsame =>
          cases hdoes with
          | other htakes =>
              cases htakes with
              | close hbusy hclose =>
                  obtain ⟨rest, hagain, hrest⟩ := hsame.close hclose
                  obtain ⟨after, herased⟩ := ih (.kept hrest) nofun
                  exact ⟨after, herased.keep (.other (.close rfl hagain) rfl) rfl⟩

/-! ## Loops that are told of such events -/

variable {start : Side σ} {history : List (Event σ)}

/-- A lane with a loop of the same kind starts alike and is driven alike, but for the events that
come to nothing, and the system answers alike. -/
structure Counterpart (setup : Setup) (start : Side σ) (oracle : Oracle σ)
    (kept : List (Entry σ)) (lane : Lane σ) (other : Setup) (others : List (Event σ))
    (after : Lane σ) : Prop where
  path : Path other ⟨start, .starting⟩ others after
  direction : other.direction = setup.direction
  delivery : other.delivery = setup.delivery
  answered : Answered oracle [] (asked kept)
  alike : Answered oracle [] (calls others)
  /-- Calls that come while a loop is busy come after the same work in both lanes. If there are
  none it is enough that the same has come from outside. -/
  driven : inputs others = (kept.map Entry.input).reverse ∨
    drives (inputs others) = drives (kept.map Entry.input).reverse ∧
      lane.stage.isBusy = false ∧ (∀ entry ∈ kept, entry.input.intrudes = false) ∧
      Undisturbed others after

/-- Nothing but what it asks for at these events tells a loop with them from one without. -/
structure Indifferent (registry : Registry) (history : List (Event σ)) (kept : List (Entry σ))
    (lane : Lane σ) (others : List (Event σ)) (after : Lane σ) : Prop where
  /-- The same is asked at everything else, and callers are told the same. -/
  entries : transcript others = kept
  /-- All slots are the same in the end, and all that the loop still has in its hands. -/
  side : lane.side.Same after.side
  stage : after.stage.plain = lane.stage.plain
  registry : registry.after (calls others) = registry.after (calls history)
  /-- The sinks have been offered the same completions, and have answered the same. -/
  offers : offers (calls others) = offers (calls history)

/-- What events that come to nothing leave behind in a lane, from registrations on that it starts
with. -/
structure Unobserved (setup : Setup) (registry : Registry) (start : Side σ)
    (history : List (Event σ)) (kept : List (Entry σ)) (lane : Lane σ) : Prop where
  /-- Without them a loop that is given its events one by one does the same. -/
  erased : ∃ base,
    Erased setup registry ⟨start, .waiting⟩ (transcript history) kept lane.plain base
  /-- When there has been nothing else, everything is as it was at the start. -/
  alone : kept = [] → lane.side.Same start ∧ lane.stage.plain = .waiting ∧
    registry.after (calls history) = registry ∧ offers (calls history) = []
  /-- No loop without them can be told from this one. -/
  compared : ∀ oracle other others after,
    Counterpart setup start oracle kept lane other others after →
      Indifferent registry history kept lane others after

/-- The same drives both lanes also to their work. -/
theorem Counterpart.inputs_eq {oracle : Oracle σ} {other : Setup} {others : List (Event σ)}
    (h : Counterpart setup start oracle kept lane other others after)
    (htranscript : Transcript setup ⟨start, .waiting⟩ kept base)
    (hstage : base.stage = lane.stage.plain) :
    (transcript others).map Entry.input = kept.map Entry.input := by
  rw [inputs_transcript]
  rcases h.driven with hsame | ⟨hdrives, hrest, hcalm, hundisturbed⟩
  · rw [hsame, List.reverse_reverse]
  · have hplain := htranscript.plain .here
    rw [List.append_nil, List.nil_append] at hplain
    have hcalms : ∀ input ∈ (kept.map Entry.input).reverse, input.intrudes = false := by
      intro input hinput
      obtain ⟨entry, hentry, rfl⟩ := List.mem_map.mp (List.mem_reverse.mp hinput)
      exact hcalm entry hentry
    have hidle : base.stage.isBusy = false := by
      rw [hstage, Stage.isBusy_plain]
      exact hrest
    rw [hplain.inputs_eq (h.path.plain.congr h.direction h.delivery) hdrives hcalms
      hundisturbed.calls hidle ((Stage.isBusy_plain _).trans hundisturbed.rest) h.answered h.alike,
      List.reverse_reverse]

/-- Events that come to nothing are unobservable. -/
theorem Path.unobserved (h : Path setup ⟨start, .starting⟩ history lane)
    (hpadded : Padded setup .free registry ⟨start, .waiting⟩ (Lane.transcript history) kept
      lane.plain) :
    Unobserved setup registry start history kept lane := by
  obtain ⟨base, herased⟩ := hpadded.erased (.free _ (.refl start)) nofun
  have hregistry := herased.registry
  have hoffers := herased.offers
  rw [h.asked_transcript] at hregistry hoffers
  obtain ⟨hsame, hstage⟩ : lane.side.Same base.side ∧ base.stage = lane.stage.plain :=
    herased.hides.same
  constructor
  case erased => exact ⟨base, herased⟩
  case alone =>
    rintro rfl
    cases herased.transcript
    exact ⟨hsame, hstage.symm, hregistry, hoffers⟩
  case compared =>
    intro oracle other others after hother
    have hinputs := hother.inputs_eq herased.transcript hstage
    have hagain := hother.path.transcript.congr hother.direction hother.delivery
    have halike := hother.alike
    rw [← hother.path.asked_transcript] at halike
    obtain ⟨hentries, hafter⟩ :=
      herased.transcript.unique hagain hinputs hother.answered halike
    have hcalls : calls others = asked kept := by
      rw [← hother.path.asked_transcript, hentries]
    have hside : after.plain.side = base.side := congrArg Lane.side hafter
    exact {
      entries := hentries
      side := by
        rw [show after.side = base.side from hside]
        exact hsame
      stage := (congrArg Lane.stage hafter).trans hstage
      registry := by rw [hcalls, hregistry]
      offers := by rw [hcalls, hoffers] }

/-- A loop is told of a descriptor on which nothing waits and, while an operation is submitted on
another descriptor, makes an attempt to read that would have to wait. Another loop is told only of
the event at which the read is made. -/
theorem unobserved_while_reading :
    ∃ (setup : Setup) (start : Side Unit) (history : List (Event Unit)) (kept : List (Entry Unit))
      (lane : Lane Unit) (oracle : Oracle Unit) (others : List (Event Unit)) (after : Lane Unit),
      Path setup ⟨start, .starting⟩ history lane ∧
        (handled history).map Proactor.Event.fd = [⟨8⟩, ⟨7⟩, ⟨7⟩] ∧
        (handled others).map Proactor.Event.fd = [⟨7⟩] ∧
        (calls history).filter (fun exchange => exchange.request.transferOn? = some ⟨7⟩) =
          [⟨.read ⟨7⟩ 2, .error ⟨11⟩⟩, ⟨.read ⟨7⟩ 2, .ok [0, 0]⟩] ∧
        (calls others).filter (fun exchange => exchange.request.transferOn? = some ⟨7⟩) =
          [⟨.read ⟨7⟩ 2, .ok [0, 0]⟩] ∧
        Padded setup .free (fun _ => none) ⟨start, .waiting⟩ (transcript history) kept lane.plain ∧
        Counterpart setup start oracle kept lane setup others after ∧
        Unobserved setup (fun _ => none) start history kept lane := by
  let setup : Setup := ⟨.read, .dropWhenFull, 4⟩
  let source : Source := ⟨⟨3⟩, ⟨⟨4⟩, ⟨5⟩⟩, false⟩
  let start : Side Unit := ⟨source, .empty .read, true⟩
  let operation : Operation Unit := .submitted ⟨7⟩ [1, 2] ⟨(), false⟩
  let second : Operation Unit := .submitted ⟨9⟩ [3] ⟨(), false⟩
  let oracle : Oracle Unit := fun _ => Request.granted
  let ready : RawEvent := ⟨Fd.key ⟨7⟩, EventMask.input⟩
  let spurious : RawEvent := ⟨Fd.key ⟨8⟩, EventMask.input⟩
  have hfails : Exchange.PutsOff (Event.ofRaw ready).fd
      (⟨.read ⟨7⟩ 2, .error .wouldBlock⟩ : Exchange Unit) := ⟨rfl, .inl rfl⟩
  have hsubmitted : Path setup ⟨start, .starting⟩ _ _ :=
    Path.here.submit operation .overwrite ⟨.ok (), [], rfl, rfl, rfl⟩
  have hstarted := hsubmitted.move (.shared rfl ⟨rfl, rfl⟩)
  have hpassed := (hstarted.move (.shared rfl ⟨.ok [spurious, ready], _, rfl, rfl, rfl⟩)).move
    (.exclusive rfl ⟨(), _, rfl, (), _, rfl, rfl, rfl⟩)
  have hheld := hpassed.move (.exclusive rfl ⟨(), _, rfl, rfl, rfl⟩)
  have hmeanwhile := hheld.submit second .overwrite ⟨.ok (), [], rfl, rfl, rfl⟩
  have htried := hmeanwhile.move (.shared rfl ⟨.error .wouldBlock, _, rfl, (), _, rfl, rfl, rfl⟩)
  have hrearmed := htried.move (.exclusive rfl ⟨.ok (), _, rfl, rfl, rfl⟩)
  have hkept := (hrearmed.move (.shared rfl ⟨rfl, rfl⟩)).move (.shared rfl ⟨rfl, rfl⟩)
  have hagain := (hkept.move (.shared rfl ⟨.ok [ready], _, rfl, rfl, rfl⟩)).move
    (.exclusive rfl ⟨(), _, rfl, rfl, rfl⟩)
  have hread := hagain.move (.shared rfl ⟨.ok [0, 0], _, rfl, rfl, rfl⟩)
  -- The other loop is told of the last event only.
  have hbefore := hstarted.submit second .overwrite ⟨.ok (), [], rfl, rfl, rfl⟩
  have htaken := (hbefore.move (.shared rfl ⟨.ok [ready], _, rfl, rfl, rfl⟩)).move
    (.exclusive rfl ⟨(), _, rfl, rfl, rfl⟩)
  have harrived := htaken.move (.shared rfl ⟨.ok [0, 0], _, rfl, rfl, rfl⟩)
  have hpadded : Padded setup .free (fun _ => none) ⟨start, .waiting⟩ _ _ _ :=
    .shared (.submit rfl operation .overwrite ⟨.ok (), [], rfl, rfl, rfl⟩) <|
      .passedOver rfl (by exact fun _ => (Option.some_ne_none _).symm)
        (.other (.turn rfl (.ofRaw spurious)
          (.exclusive rfl ⟨(), _, rfl, (), _, rfl, rfl, rfl⟩)) rfl) <|
      .checkedOut rfl rfl rfl
        (.other (.turn rfl (.ofRaw ready) (.exclusive rfl ⟨(), _, rfl, rfl, rfl⟩)) rfl) <|
      .submitted nofun (by decide) (.submit rfl second .overwrite ⟨.ok (), [], rfl, rfl, rfl⟩) <|
      .putOff hfails (.other (.work rfl
        (.shared rfl ⟨.error .wouldBlock, _, rfl, (), _, rfl, rfl, rfl⟩)) rfl) <|
      .rearmed ⟨.ok (), _, rfl, rfl, rfl⟩ (.other (.work rfl
        (.exclusive rfl ⟨.ok (), _, rfl, rfl, rfl⟩)) rfl) <|
      .resumed (.other (.work rfl (.shared rfl ⟨rfl, rfl⟩)) rfl) <|
      .shared (.other (.turn rfl (.ofRaw ready) (.exclusive rfl ⟨(), _, rfl, rfl, rfl⟩)) rfl) <|
      .shared (.other (.work rfl (.shared rfl ⟨.ok [0, 0], _, rfl, rfl, rfl⟩)) rfl) <|
      .nil _ _
  refine ⟨setup, start, _, _, _, oracle, _, _, hread, rfl, rfl, rfl, rfl, hpadded,
    ⟨harrived, rfl, rfl, ?answered, ?alike, .inl rfl⟩, hread.unobserved hpadded⟩
  case answered | alike => exact ⟨rfl, rfl, rfl, rfl, trivial⟩

end Lane

end Proactor
