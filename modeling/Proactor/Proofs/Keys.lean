import Proactor.Proofs.Attendance
import Proactor.Proofs.Dispatching
import Proactor.Proofs.Matching

/-!
# Keys of descriptors

A source hands back the key of a registration and not its descriptor, so a loop has to read the
descriptor off the key. This module follows the keys through all calls of a run. Each registration
of a table is under the key of its descriptor, which is not the key of wake-ups, since a call about
a negative descriptor is never made. For the same reason no negative descriptor ever gets a slot.
`Path.keyed` puts together what follows for the events that a loop handles.
-/

namespace Proactor

open EventLoop

variable {σ : Type}

/-- The key that the call gives to a registration, whether or not it succeeds. -/
def ControlCall.key? (call : ControlCall) : Option UInt64 :=
  call.change.event?.map RawEvent.key

/-- Different descriptors have different keys. -/
theorem Fd.key_injective : Function.Injective Fd.key :=
  Function.LeftInverse.injective Fd.ofKey_key

/-! ## Negative descriptors -/

namespace Source

variable {source : Source} {fd : Fd} {exchanges : List (Exchange σ)}

/-- A change of a registration that succeeds is about a descriptor that can be open. -/
theorem Changed.not_negative {change : Fd → RawEvent → Control} {event : RawEvent} {value : Unit}
    (h : source.Changed change fd event exchanges (.ok value)) : fd.isNegative = false := by
  generalize hresult : (Except.ok value : Except Fault Unit) = result at h
  cases h with
  | refused => cases hresult
  | asked _ hfd => exact hfd

/-- So is a change with a fallback. -/
theorem Tried.not_negative {first second : Fd → RawEvent → Control} {fallback : Errno}
    {event : RawEvent} {value : Unit}
    (h : source.Tried first second fallback fd event exchanges (.ok value)) :
    fd.isNegative = false := by
  cases h with
  | once hfirst => exact hfirst.not_negative
  | twice _ hsecond => exact hsecond.not_negative

variable {key : UInt64} {interest : Interest}

/-- Nothing is asked about a negative descriptor. -/
theorem control_of_negative (hfd : fd.isNegative = true) {change : Fd → RawEvent → Control} :
    (source.control change fd key interest : Program σ _) =
      pure (.error (.system .badDescriptor)) :=
  if_pos hfd

/-- Nor is a fallback tried. -/
theorem arm_of_negative (hfd : fd.isNegative = true) :
    (source.arm fd key interest : Program σ _) = pure (.error (.system .badDescriptor)) := by
  unfold arm add
  rw [control_of_negative hfd]
  rfl

end Source

namespace Outstanding

variable {table left : Outstanding σ} {source : Source} {operation : Operation σ} {fd : Fd}
  {exchanges : List (Exchange σ)}

/-- The table is that of a direction. Each of its slots is that of a descriptor that can be open,
and holds operations on that descriptor. -/
structure Seated (direction : Direction) (table : Outstanding σ) : Prop where
  direction_eq : table.direction = direction
  not_negative : ∀ fd slot, table.slots.get? fd = some slot → fd.isNegative = false
  own : ∀ fd slot operation, table.slots.get? fd = some slot → slot.stored? = some operation →
    operation.fd = fd

variable {direction : Direction}

/-- An empty table is that of its direction and holds nothing out of place. -/
theorem Seated.empty (direction : Direction) :
    Seated direction (Outstanding.empty direction : Outstanding σ) where
  direction_eq := rfl
  not_negative _ _ hslot := by cases hslot
  own _ _ _ hslot := by cases hslot

/-- A slot can be put where it belongs. -/
theorem Seated.put (h : table.Seated direction) {slot : Slot σ} (hfd : fd.isNegative = false)
    (hslot : ∀ operation, slot.stored? = some operation → operation.fd = fd) :
    (table.put fd slot).Seated direction := by
  constructor
  case direction_eq => exact h.direction_eq
  case not_negative =>
    intro other found hfound
    by_cases hother : other = fd
    · rw [hother]
      exact hfd
    · rw [get?_put_other _ _ hother] at hfound
      exact h.not_negative other found hfound
  case own =>
    intro other found operation hfound hstored
    by_cases hother : other = fd
    · rw [hother, get?_put_same] at hfound
      cases hfound
      rw [hother]
      exact hslot operation hstored
    · rw [get?_put_other _ _ hother] at hfound
      exact h.own other found operation hfound hstored

/-- Emptying a slot leaves all others where they belong. -/
theorem Seated.erase (h : table.Seated direction) (fd : Fd) :
    (table.erase fd).Seated direction := by
  have hkept : ∀ other slot, (table.erase fd).slots.get? other = some slot →
      table.slots.get? other = some slot := by
    intro other slot hslot
    by_cases hother : other = fd
    · rw [hother, get?_erase_same] at hslot
      cases hslot
    · rwa [get?_erase_other _ hother] at hslot
  constructor
  case direction_eq => exact h.direction_eq
  case not_negative =>
    exact fun other slot hslot => h.not_negative other slot (hkept other slot hslot)
  case own =>
    exact fun other slot operation hslot => h.own other slot operation (hkept other slot hslot)

/-- An operation waits only on a descriptor that has been armed for it. -/
theorem Submission.seated {policy : OverlapPolicy}
    {result : Except ReactorError (Option (Operation σ))}
    (h : table.Submission operation policy source exchanges (result, left))
    (hseated : table.Seated direction) : left.Seated direction := by
  have hown : ∀ other, some operation = some other → other.fd = operation.fd := by
    rintro _ ⟨⟩
    rfl
  cases h with
  | unarmed | busy | vanished | failed | occupied => exact hseated
  | stored _ harm => exact hseated.put harm.not_negative hown
  | replaced hslot | reused hslot | parked hslot =>
      exact hseated.put (hseated.not_negative _ _ hslot) hown

/-- What is checked out belongs to the descriptor asked for, and its slot stays where it belongs. -/
theorem Seated.checkOut (h : table.Seated direction)
    (hcheck : table.checkOut fd = some (operation, left)) :
    left.Seated direction ∧ operation.fd = fd := by
  obtain ⟨hslot, rfl⟩ := checkOut_eq_some.mp hcheck
  exact ⟨h.put (h.not_negative _ _ hslot) nofun, h.own _ _ _ hslot rfl⟩

/-- To keep an operation takes a descriptor that can be rearmed. -/
theorem Retention.seated {resolved : List (Resolved σ)}
    (h : table.Retention fd operation source exchanges (resolved, left))
    (hseated : table.Seated direction) (hfd : operation.fd = fd) : left.Seated direction := by
  cases h with
  | lost => exact hseated
  | kept hrearm =>
      refine hseated.put hrearm.not_negative ?_
      rintro _ ⟨⟩
      exact hfd

/-- Checking in gives back the operation that is parked on the descriptor. -/
theorem Seated.checkIn (h : table.Seated direction) {successor : Option (Operation σ)}
    (hcheck : table.checkIn fd = (.ok successor, left)) :
    left.Seated direction ∧ ∀ next, successor = some next → next.fd = fd := by
  rcases checkIn_ok hcheck with ⟨hslot, rfl⟩ | ⟨rfl, rfl⟩
  · exact ⟨h.erase fd, fun next hnext => h.own fd _ next hslot hnext⟩
  · exact ⟨h, nofun⟩

/-- A settlement leaves all slots where they belong. -/
theorem Settlement.seated {attempt : Attempt} {result : Except Panic (List (Resolved σ))}
    (h : table.Settlement operation source attempt exchanges (result, left))
    (hseated : table.Seated direction) : left.Seated direction := by
  cases h with
  | misplaced => exact hseated.erase _
  | finished hslot => exact (hseated.checkIn hslot).1
  | succeeded hslot hkeep | dropped hslot hkeep =>
      exact hkeep.seated (hseated.checkIn hslot).1 ((hseated.checkIn hslot).2 _ rfl)
  | continued hslot hkeep => exact hkeep.seated (hseated.checkIn hslot).1 rfl

/-- A submission on a negative descriptor fails at once, since nothing waits there. -/
theorem submit_of_negative (hslot : table.slots.get? operation.fd = none)
    (hfd : operation.fd.isNegative = true) (policy : OverlapPolicy) :
    table.submit operation policy source =
      pure (.error (.submit operation.fd table.direction (.system .badDescriptor)), table) := by
  unfold submit
  rw [hslot]
  unfold submitFresh armFor
  rw [Source.arm_of_negative hfd]
  rfl

end Outstanding

/-! ## Registrations -/

/-- A call about a registration is one of those that tend a descriptor. -/
theorem EventLoop.Stage.tends_of_mayAsk {setup : Setup} {side : Side σ} {stage : Stage σ}
    {source : Fd} {change : Control} (h : stage.MayAsk setup side (.control source change)) :
    ∃ fd, Request.Tends side.source fd (side.table.event fd)
      (.control source change : Request σ) := by
  cases stage with
  | starting | ended => exact h.elim
  | settling operation => exact ⟨operation.fd, h⟩
  | waiting =>
      rcases h with ⟨millis, hrequest⟩ | ⟨record, hrequest⟩
      · cases hrequest
      · cases hrequest
  | handling =>
      rcases h with hrequest | ⟨record, hrequest⟩
      · cases hrequest
      · cases hrequest
  | draining =>
      obtain ⟨count, hrequest⟩ := h
      cases hrequest
  | attempting =>
      rcases h with htransfer | ⟨record, hrequest⟩
      · cases htransfer
      · cases hrequest
  | announcing =>
      obtain ⟨record, hrequest⟩ := h
      cases hrequest
  | delivering =>
      generalize hrequest : (Request.control source change : Request σ) = request at h
      cases h <;> cases hrequest

/-- Whoever tends a descriptor registers it under its own key, and only if it can be open. -/
theorem Request.Tends.registers {source : Source} {table : Outstanding σ} {fd descriptor : Fd}
    {change : Control} {event : RawEvent}
    (h : Request.Tends source fd (table.event fd) (.control descriptor change : Request σ))
    (hevent : change.event? = some event) :
    change.fd.isNegative = false ∧ event.key = change.fd.key := by
  generalize hrequest : (Request.control descriptor change : Request σ) = request at h
  cases h with
  | log => cases hrequest
  | delete =>
      cases hrequest
      cases hevent
  | set hchange hopen =>
      cases hrequest
      obtain rfl | rfl := hchange
      all_goals
        cases hevent
        exact ⟨hopen, rfl⟩

/-- A call among some exchanges is the request of one of them. -/
theorem mem_controlCalls {exchanges : List (Exchange σ)} {call : ControlCall}
    (h : call ∈ controlCalls exchanges) :
    ⟨.control call.source call.change, call.answer⟩ ∈ exchanges := by
  obtain ⟨⟨request, answer⟩, hexchange, hcall⟩ := List.mem_flatMap.mp h
  cases request with
  | control source change =>
      cases List.mem_singleton.mp hcall
      exact hexchange
  | _ => cases hcall

namespace Side

variable {side left : Side σ} {operation : Operation σ} {policy : OverlapPolicy}

/-- A submission to a side asks for registrations of its own descriptor only, for the event that its
operations wait for. -/
theorem submit_tends : (side.submit operation policy).Asks
    (Request.Tends side.source operation.fd (side.table.event operation.fd)) :=
  Outstanding.submit_tends.bind fun _ => Program.asks_pure _

/-- A submission to a side is one to its table. -/
theorem submit_cases {exchanges : List (Exchange σ)}
    {result : Except ReactorError (Option (Operation σ))}
    (h : (side.submit operation policy).Returns exchanges (result, left)) :
    side.table.Submission operation policy side.source exchanges (result, left.table) := by
  obtain ⟨⟨answer, table⟩, calls, none, rfl, hcalls, hside⟩ := Program.returns_bind.mp h
  obtain ⟨rfl, hleft⟩ := Program.returns_pure.mp hside
  cases hleft
  rw [List.append_nil]
  exact Outstanding.submit_cases hcalls

/-- Without a slot for it, a submission on a negative descriptor fails at once. -/
theorem submit_of_negative (hslot : side.table.slots.get? operation.fd = none)
    (hfd : operation.fd.isNegative = true) (policy : OverlapPolicy) :
    side.submit operation policy =
      pure (.error (.submit operation.fd side.table.direction (.system .badDescriptor)), side) := by
  unfold submit
  rw [Outstanding.submit_of_negative hslot hfd]
  rfl

end Side

namespace Lane

variable {setup : Setup} {start lane next : Lane σ} {history : List (Event σ)}
  {exchanges : List (Exchange σ)}

/-- The calls about registrations that a history has made. -/
def controls (history : List (Event σ)) : List ControlCall :=
  history.flatMap fun event => controlCalls event.exchanges

/-- All registrations of a path are made under the keys of their descriptors. -/
theorem Path.registers (h : Path setup start history lane) {call : ControlCall}
    (hcall : call ∈ controls history) {event : RawEvent}
    (hevent : call.change.event? = some event) :
    call.change.fd.isNegative = false ∧ event.key = call.change.fd.key := by
  obtain ⟨past, hpast, hmade⟩ := List.mem_flatMap.mp hcall
  have hasked := mem_controlCalls hmade
  induction h with
  | here => cases hpast
  | submit _ operation policy hsubmit ih =>
      rcases List.mem_cons.mp hpast with rfl | hearlier
      · exact (Side.submit_tends.request hsubmit _ hasked).registers hevent
      · exact ih (List.mem_flatMap_of_mem hearlier hmade) hearlier
  | close _ hclose ih =>
      rcases List.mem_cons.mp hpast with rfl | hearlier
      · obtain ⟨-, ⟨-, rfl, -⟩ | ⟨-, _, rfl, -⟩⟩ := Side.close_returns hclose
        · cases hasked
        · cases List.mem_singleton.mp hasked
      · exact ih (List.mem_flatMap_of_mem hearlier hmade) hearlier
  | move _ hmoves ih =>
      rcases List.mem_cons.mp hpast with rfl | hearlier
      · obtain ⟨fd, htends⟩ := Stage.tends_of_mayAsk (hmoves.mayAsk _ hasked)
        exact htends.registers hevent
      · exact ih (List.mem_flatMap_of_mem hearlier hmade) hearlier

/-- The call carries the key of its descriptor, which stands for that descriptor and is not the key
of wake-ups. -/
theorem Path.key?_eq (h : Path setup start history lane) {call : ControlCall}
    (hcall : call ∈ controls history) {key : UInt64} (hkey : call.key? = some key) :
    key = call.change.fd.key ∧ key ≠ notifyKey ∧ Fd.ofKey key = call.change.fd := by
  obtain ⟨event, hevent, rfl⟩ := Option.map_eq_some_iff.mp hkey
  obtain ⟨hfd, hown⟩ := h.registers hcall hevent
  rw [hown]
  exact ⟨rfl, Fd.key_ne_notifyKey hfd, Fd.ofKey_key _⟩

/-! ## Slots -/

/-- A move leaves all slots where they belong. -/
theorem Moves.seated (h : Moves setup lane exchanges next) {direction : Direction}
    (hseated : lane.side.table.Seated direction) :
    next.side.table.Seated direction := by
  cases h.step with
  | idle _ _ htable | attempted _ _ _ _ htable =>
      rw [htable]
      exact hseated
  | gaveUp hstage =>
      rw [h.table_of_attempting hstage]
      exact hseated
  | checkedOut _ hcheck => exact (hseated.checkOut hcheck).1
  | settled _ hsettle | misplaced _ hsettle =>
      exact (Outstanding.settle_cases hsettle).seated hseated

/-- On every path all slots stay where they belong. -/
theorem Path.seated (h : Path setup start history lane) {direction : Direction}
    (hstart : start.side.table.Seated direction) : lane.side.table.Seated direction := by
  induction h with
  | here => exact hstart
  | submit _ operation policy hsubmit ih => exact (Side.submit_cases hsubmit).seated ih
  | close _ hclose ih =>
      obtain ⟨rfl, -⟩ := Side.close_returns hclose
      exact ih
  | move _ hmoves ih => exact hmoves.seated ih

/-- What a loop has come from when it makes a move. -/
theorem Path.earlier (h : Path setup start history lane) {before after : Lane σ}
    (hevent : .moved before exchanges after ∈ history) :
    ∃ earlier, Path setup start earlier before := by
  induction h with
  | here => cases hevent
  | submit _ _ _ _ ih | close _ _ ih =>
      rcases List.mem_cons.mp hevent with heq | hearlier
      · cases heq
      · exact ih hearlier
  | move hpath _ ih =>
      rcases List.mem_cons.mp hevent with heq | hearlier
      · cases heq
        exact ⟨_, hpath⟩
      · exact ih hearlier

/-- The operation that is checked out for an event is one on the descriptor of the event. -/
theorem Readied.operation_fd {side : Side σ} {direction : Direction} {event : Proactor.Event}
    {batch : List Proactor.Event} (h : Readied setup side event batch exchanges next)
    (hseated : side.table.Seated direction) {operation : Operation σ}
    (hstage : next.stage = .attempting operation batch) : operation.fd = event.fd := by
  cases h with
  | nothing => cases hstage
  | checkedOut hcheck =>
      cases hstage
      obtain ⟨⟨checked, table⟩, htable, hsame⟩ := Option.map_eq_some_iff.mp hcheck
      cases hsame
      exact (hseated.checkOut htable).2

/-! ## Keys and descriptors -/

/-- The keys of a path tell descriptors and wake-ups apart. -/
structure Keyed (setup : Setup) (source : Source) (start : List (Exchange σ))
    (history : List (Event σ)) (lane : Lane σ) : Prop where
  /-- Each registration is under the key of its descriptor, which is not the key of wake-ups and
  stands for that descriptor. -/
  own : ∀ call ∈ controls history, ∀ key, call.key? = some key →
    key = call.change.fd.key ∧ key ≠ notifyKey ∧ Fd.ofKey key = call.change.fd
  /-- Different descriptors are registered under different keys. -/
  apart : ∀ call ∈ controls history, ∀ other ∈ controls history, ∀ key,
    call.key? = some key → other.key? = some key → call.change.fd = other.change.fd
  /-- Only the wake pipe is ever registered under the key of wake-ups, when the source is opened. -/
  reserved : (controlCalls start ++ controls history).filter (·.key? = some notifyKey) =
    [⟨source.descriptor, .add source.wakePipe.readEnd ⟨notifyKey, EventMask.input⟩, .ok ()⟩]
  /-- An event with the key of a registration is no wake-up, whatever readiness it reports. The
  loop checks out the operation that waits on the descriptor of the registration, if there is
  one. -/
  ready : ∀ call ∈ controls history, ∀ key, call.key? = some key →
    ∀ before exchanges after event batch, .moved before exchanges after ∈ history →
      before.stage = .handling (event :: batch) → event.key = key →
        event.isNotification = false ∧ event.fd = call.change.fd ∧
          Readied setup before.side event batch exchanges after ∧
            ∀ operation, after.stage = .attempting operation batch →
              operation.fd = call.change.fd
  /-- An event with the key of wake-ups is one, and the loop turns to no descriptor. -/
  woken : ∀ before exchanges after event batch, .moved before exchanges after ∈ history →
    before.stage = .handling (event :: batch) → event.key = notifyKey →
      event.isNotification = true ∧ Woken setup before.side batch exchanges after
  /-- A submission on a negative descriptor fails at once. Nothing is asked of the system, and the
  side stays as it is. -/
  refused : ∀ operation policy, operation.fd.isNegative = true →
    lane.side.submit operation policy =
      pure (.error (.submit operation.fd setup.direction (.system .badDescriptor)), lane.side)
  /-- No negative descriptor has a slot. -/
  vacant : ∀ fd, fd.isNegative = true → lane.side.table.slots.get? fd = none
  /-- A negative descriptor with the key of wake-ups exists. -/
  collision : (⟨-1⟩ : Fd).isNegative = true ∧ (⟨-1⟩ : Fd).key = notifyKey

/-- Keys and descriptors correspond exactly on every path of a new side. -/
theorem Path.keyed {side : Side σ} {start : List (Exchange σ)}
    (hcreate : (Side.create setup.direction).Returns start (.ok side)) {dispatching : Bool}
    (h : Path setup ⟨{ side with dispatching }, .starting⟩ history lane) :
    Keyed setup side.source start history lane := by
  obtain ⟨-, htable, hstart⟩ := Side.create_returns hcreate
  have hempty : ({ side with dispatching } : Side σ).table.Seated setup.direction := by
    rw [htable]
    exact .empty setup.direction
  have hseated := h.seated hempty
  have hvacant : ∀ fd, fd.isNegative = true → lane.side.table.slots.get? fd = none := by
    intro fd hfd
    cases hslot : lane.side.table.slots.get? fd with
    | none => rfl
    | some slot => exact absurd (hfd.symm.trans (hseated.not_negative fd slot hslot)) nofun
  constructor
  case own => exact fun call hcall key hkey => h.key?_eq hcall hkey
  case apart =>
    intro call hcall other hother key hkey hsame
    obtain ⟨hown, -⟩ := h.key?_eq hcall hkey
    obtain ⟨hothers, -⟩ := h.key?_eq hother hsame
    exact Fd.key_injective (hown.symm.trans hothers)
  case reserved =>
    have hnone : (controls history).filter (·.key? = some notifyKey) = [] :=
      List.filter_eq_nil_iff.mpr fun call hcall hkey =>
        (h.key?_eq hcall (of_decide_eq_true hkey)).2.1 rfl
    rw [List.filter_append, hnone, hstart]
    rfl
  case ready =>
    rintro call hcall key hkey before exchanges after event batch hevent hstage rfl
    obtain ⟨-, hother, hfd⟩ := h.key?_eq hcall hkey
    have hready : event.isNotification = false := beq_eq_false_iff_ne.mpr hother
    have hreadied := (h.moves hevent).readied hstage hready
    obtain ⟨earlier, hpath⟩ := h.earlier hevent
    refine ⟨hready, hfd, hreadied, fun operation hattempting => ?_⟩
    exact (hreadied.operation_fd (hpath.seated hempty) hattempting).trans hfd
  case woken =>
    intro before exchanges after event batch hevent hstage hkey
    have hwoken : event.isNotification = true := beq_iff_eq.mpr hkey
    exact ⟨hwoken, (h.moves hevent).woken hstage hwoken⟩
  case refused =>
    intro operation policy hfd
    rw [Side.submit_of_negative (hvacant _ hfd) hfd, hseated.direction_eq]
  case vacant => exact hvacant
  case collision => exact ⟨rfl, rfl⟩

/-- The loop of a new side is woken, and then turns to a descriptor. Before that, a submission has
been made on the descriptor that would have the key of wake-ups. -/
theorem keyed_past_negative :
    ∃ (setup : Setup) (side : Side Unit) (start : List (Exchange Unit))
      (history : List (Event Unit)) (lane : Lane Unit) (operation : Operation Unit),
      (Side.create setup.direction).Returns start (.ok side) ∧
        Path setup ⟨{ side with dispatching := true }, .starting⟩ history lane ∧
        (controls history).map ControlCall.key? = [some (Fd.key ⟨7⟩)] ∧
        handled history = [⟨notifyKey, .read⟩, ⟨Fd.key ⟨7⟩, .write⟩] ∧
        lane.stage = .attempting operation [] ∧ operation.fd = ⟨7⟩ ∧
        Keyed setup side.source start history lane := by
  let setup : Setup := ⟨.write, .dropWhenFull, 4⟩
  let side : Side Unit := ⟨⟨⟨3⟩, ⟨⟨4⟩, ⟨5⟩⟩, false⟩, .empty .write, false⟩
  let operation : Operation Unit := .submitted ⟨7⟩ [1, 2] ⟨(), false⟩
  have hcreate : (Side.create setup.direction).Returns _ (.ok side) :=
    ⟨.ok ⟨3⟩, _, rfl, .ok (⟨4⟩, ⟨5⟩), _, rfl, .ok (), _, rfl, rfl, rfl⟩
  have hrefused : Path setup ⟨{ side with dispatching := true }, .starting⟩ _ _ :=
    Path.here.submit (.submitted ⟨-1⟩ [1, 2] ⟨(), false⟩) .overwrite ⟨rfl, rfl⟩
  have hsubmitted := hrefused.submit operation .overwrite ⟨.ok (), [], rfl, rfl, rfl⟩
  have hwaited := (hsubmitted.move (.shared rfl ⟨rfl, rfl⟩)).move (.shared rfl
    ⟨.ok [⟨notifyKey, EventMask.input⟩, ⟨Fd.key ⟨7⟩, EventMask.output⟩], _, rfl, rfl, rfl⟩)
  have hwoken := hwaited.move (.shared rfl ⟨false, _, rfl, rfl, rfl⟩)
  have hdrained := hwoken.move (.shared rfl ⟨.ok [], _, rfl, rfl, rfl⟩)
  have hchecked := hdrained.move (.exclusive rfl ⟨(), _, rfl, rfl, rfl⟩)
  exact ⟨setup, side, _, _, _, operation, hcreate, hchecked, rfl, rfl, rfl, rfl,
    hchecked.keyed hcreate⟩

end Lane

end Proactor
