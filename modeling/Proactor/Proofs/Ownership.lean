import Proactor.Proofs.Handles
import Mathlib.Data.Nat.Find

/-!
# Ownership of handles

A handle is given to a reactor with `watch` and is released once: by the same call if that fails,
and otherwise when its place is taken by another handle, when its descriptor is no longer watched,
or at the end of the reactor. `History.entrusted` says so of every sequence of calls.

A `History` is the life of a reactor cut into turns, each with what was done with handles in it.
All statements are about positions in the history, since equal handles can be given more than once.
Each turn evicts some descriptors from the custody, and this decides which handles it releases.
-/

namespace Proactor

variable {σ : Type}

namespace Reactor

/-! ## Deeds -/

/-- What is done with handles in one turn of a reactor. -/
inductive Deed where
  | watched (handle : Handle) (result : Except ReactorError Fd)
  | stopped (fd : Fd)
  | tornDown
  | apart

namespace Deed

/-- Whatever handle is stored for the descriptor is stored no longer. -/
def evicts (fd : Fd) : Deed → Bool
  | watched _ (.ok other) => other = fd
  | watched _ (.error _) => false
  | stopped other => other = fd
  | tornDown => true
  | apart => false

/-- The handle that is now stored for the descriptor. -/
def stores? (fd : Fd) : Deed → Option Handle
  | watched handle (.ok other) => if other = fd then some handle else none
  | _ => none

/-- The handle that was given and not taken. -/
def refused : Deed → List Handle
  | watched handle (.error _) => [handle]
  | _ => []

end Deed

/-- A handle is stored for the descriptor: it was given in a turn, and what was done in the turns
that followed has left it where it is. -/
structure Stored (deeds : List Deed) (turn : Nat) (fd : Fd) (handle : Handle) : Prop where
  watched : deeds[turn]? = some (.watched handle (.ok fd))
  kept : ∀ later deed, turn < later → deeds[later]? = some deed → deed.evicts fd = false

/-- When the handle that was given in a turn is to be released: at once if it was not taken, and
otherwise the next time that its descriptor is watched or watched no longer, or at the end. -/
inductive ReleasedAt (deeds : List Deed) (turn : Nat) (handle : Handle) : Nat → Prop where
  | refused {error : ReactorError}
      (hwatched : deeds[turn]? = some (.watched handle (.error error))) :
      ReleasedAt deeds turn handle turn
  | evicted {fd : Fd} {later : Nat} {deed : Deed}
      (hwatched : deeds[turn]? = some (.watched handle (.ok fd))) (hlater : turn < later)
      (hdeed : deeds[later]? = some deed) (hevicts : deed.evicts fd = true)
      (hfirst : ∀ between deed, turn < between → between < later → deeds[between]? = some deed →
        deed.evicts fd = false) : ReleasedAt deeds turn handle later

section Deeds

variable {deeds : List Deed} {deed : Deed} {turn other later : Nat} {fd : Fd}
  {handle another : Handle}

/-- Before anything has been done no handle is stored. -/
theorem stored_nil : ¬ Stored [] turn fd handle := by
  intro h
  cases h.watched

/-- The turn in which the handle of a descriptor was given is the last one of its kind. -/
theorem Stored.turn_le (h : Stored deeds turn fd handle) (hother : Stored deeds other fd another) :
    other ≤ turn := by
  by_contra hlt
  have hevicts := h.kept other _ (Nat.lt_of_not_le hlt) hother.watched
  simp [Deed.evicts] at hevicts

/-- The handle that is stored for a descriptor was given in one turn only. -/
theorem Stored.turn_eq (h : Stored deeds turn fd handle) (hother : Stored deeds other fd another) :
    turn = other :=
  Nat.le_antisymm (hother.turn_le h) (h.turn_le hother)

/-- A turn gives one handle, for one descriptor. -/
theorem Stored.fd_eq {otherFd : Fd} (h : Stored deeds turn fd handle)
    (hother : Stored deeds turn otherFd another) : fd = otherFd := by
  have heq := h.watched.symm.trans hother.watched
  cases heq
  rfl

/-- A further turn adds its deed to those that were done. -/
theorem deed_of_append {given : Deed} : (deeds ++ [deed])[turn]? = some given ↔
    deeds[turn]? = some given ∨ (turn = deeds.length ∧ deed = given) := by
  rcases Nat.lt_trichotomy turn deeds.length with hlt | rfl | hgt
  · rw [List.getElem?_append_left hlt]
    exact (or_iff_left fun h => Nat.ne_of_lt hlt h.1).symm
  · rw [List.getElem?_concat_length, List.getElem?_eq_none (Nat.le_refl _)]
    simp
  · rw [List.getElem?_eq_none (by rw [List.length_append]; exact hgt),
      List.getElem?_eq_none (Nat.le_of_lt hgt)]
    simp [Nat.ne_of_gt hgt]

/-- A turn in which something was done is one of those that have passed. -/
theorem lt_of_deed {given : Deed} (h : deeds[turn]? = some given) : turn < deeds.length :=
  (List.getElem?_eq_some_iff.mp h).1

/-- What a further turn leaves stored, and what it stores. -/
theorem stored_append : Stored (deeds ++ [deed]) turn fd handle ↔
    (Stored deeds turn fd handle ∧ deed.evicts fd = false) ∨
      (turn = deeds.length ∧ deed = .watched handle (.ok fd)) := by
  constructor
  · rintro ⟨hwatched, hkept⟩
    rcases deed_of_append.mp hwatched with hbefore | hlast
    · refine .inl ⟨⟨hbefore, fun later given hlater hgiven => ?_⟩, ?_⟩
      · exact hkept later given hlater (deed_of_append.mpr (.inl hgiven))
      · exact hkept _ _ (lt_of_deed hbefore) (deed_of_append.mpr (.inr ⟨rfl, rfl⟩))
    · exact .inr hlast
  · rintro (⟨⟨hwatched, hkept⟩, hevicts⟩ | ⟨rfl, rfl⟩)
    · refine ⟨deed_of_append.mpr (.inl hwatched), fun later given hlater hgiven => ?_⟩
      rcases deed_of_append.mp hgiven with hbefore | ⟨-, rfl⟩
      · exact hkept later given hlater hbefore
      · exact hevicts
    · refine ⟨deed_of_append.mpr (.inr ⟨rfl, rfl⟩), fun later given hlater hgiven => ?_⟩
      rcases deed_of_append.mp hgiven with hbefore | ⟨rfl, -⟩
      · exact absurd (lt_of_deed hbefore) (Nat.lt_asymm hlater)
      · exact absurd hlater (Nat.lt_irrefl _)

/-- The time of a release depends on nothing that is done later. -/
theorem ReleasedAt.congr {others : List Deed}
    (hsame : ∀ index ≤ later, others[index]? = deeds[index]?)
    (h : ReleasedAt deeds turn handle later) : ReleasedAt others turn handle later := by
  rcases h with hwatched | ⟨hwatched, hlater, hdeed, hevicts, hfirst⟩
  · exact .refused ((hsame _ le_rfl).trans hwatched)
  · refine .evicted ((hsame _ (Nat.le_of_lt hlater)).trans hwatched) hlater
      ((hsame _ le_rfl).trans hdeed) hevicts fun between given hbetween hbefore hgiven => ?_
    have hearlier := (hsame _ (Nat.le_of_lt hbefore)).symm.trans hgiven
    exact hfirst between given hbetween hbefore hearlier

/-- When a handle was to be released in the past does not depend on what is done later. -/
theorem releasedAt_append {more : List Deed} (hlt : later < deeds.length) :
    ReleasedAt (deeds ++ more) turn handle later ↔ ReleasedAt deeds turn handle later := by
  have hsame : ∀ index ≤ later, (deeds ++ more)[index]? = deeds[index]? :=
    fun index hindex => List.getElem?_append_left (Nat.lt_of_le_of_lt hindex hlt)
  exact ⟨ReleasedAt.congr fun index hindex => (hsame index hindex).symm, ReleasedAt.congr hsame⟩

/-- A handle is refused in a turn that was to watch it and failed. -/
theorem Deed.mem_refused :
    handle ∈ deed.refused ↔ ∃ error, deed = .watched handle (.error error) := by
  constructor
  · intro hrefused
    cases deed with
    | stopped | tornDown | apart => cases hrefused
    | watched given result =>
        cases result with
        | ok => cases hrefused
        | error error =>
            obtain rfl := List.mem_singleton.mp hrefused
            exact ⟨error, rfl⟩
  · rintro ⟨error, rfl⟩
    exact List.mem_singleton_self _

/-- The last turn releases the handle that it refuses and those that it evicts. -/
theorem releasedAt_last : ReleasedAt (deeds ++ [deed]) turn handle deeds.length ↔
    (turn = deeds.length ∧ handle ∈ deed.refused) ∨
      ∃ fd, Stored deeds turn fd handle ∧ deed.evicts fd = true := by
  constructor
  · intro h
    generalize hlast : deeds.length = last at h
    cases h with
    | @refused error hwatched =>
        rcases deed_of_append.mp hwatched with hbefore | ⟨-, hdeed⟩
        · exact absurd (lt_of_deed hbefore) (Nat.not_lt_of_le (Nat.le_of_eq hlast))
        · exact .inl ⟨rfl, Deed.mem_refused.mpr ⟨error, hdeed⟩⟩
    | @evicted fd _ given hwatched hlater hdeed hevicts hfirst =>
        subst hlast
        rcases deed_of_append.mp hwatched with hbefore | ⟨rfl, -⟩
        · rcases deed_of_append.mp hdeed with habsurd | ⟨-, rfl⟩
          · exact absurd (lt_of_deed habsurd) (Nat.lt_irrefl _)
          · refine .inr ⟨fd, ⟨hbefore, fun between given hbetween hgiven => ?_⟩, hevicts⟩
            exact hfirst between given hbetween (lt_of_deed hgiven)
              (deed_of_append.mpr (.inl hgiven))
        · exact absurd hlater (Nat.lt_irrefl _)
  · rintro (⟨rfl, hrefused⟩ | ⟨fd, ⟨hwatched, hkept⟩, hevicts⟩)
    · obtain ⟨error, rfl⟩ := Deed.mem_refused.mp hrefused
      exact .refused (deed_of_append.mpr (.inr ⟨rfl, rfl⟩))
    · refine .evicted (deed_of_append.mpr (.inl hwatched)) (lt_of_deed hwatched)
        (deed_of_append.mpr (.inr ⟨rfl, rfl⟩)) hevicts fun between given hbetween hlast hgiven => ?_
      rcases deed_of_append.mp hgiven with hbefore | ⟨rfl, -⟩
      · exact hkept between given hbetween hbefore
      · exact absurd hlast (Nat.lt_irrefl _)

/-- A handle is released once. -/
theorem ReleasedAt.unique {first second : Nat} (hfirst : ReleasedAt deeds turn handle first)
    (hsecond : ReleasedAt deeds turn another second) : first = second := by
  rcases hfirst with hwatched | ⟨hwatched, hlater, hdeed, hevicts, hbetween⟩
  · rcases hsecond with hagain | ⟨hagain, -⟩
    · rfl
    · cases hwatched.symm.trans hagain
  · rcases hsecond with hagain | ⟨hagain, hlaterTo, hdeedTo, hevictsTo, hbetweenTo⟩
    · cases hwatched.symm.trans hagain
    · cases hwatched.symm.trans hagain
      rcases Nat.lt_trichotomy first second with hlt | heq | hgt
      · cases hevicts.symm.trans (hbetweenTo _ _ hlater hlt hdeed)
      · exact heq
      · cases hevictsTo.symm.trans (hbetween _ _ hlaterTo hgt hdeedTo)

/-- A handle is stored or has been released. -/
theorem stored_or_releasedAt (hwatched : deeds[turn]? = some (.watched handle (.ok fd))) :
    Stored deeds turn fd handle ∨ ∃ later, ReleasedAt deeds turn handle later := by
  classical
  by_cases hevicted : ∃ later, turn < later ∧ ∃ deed, deeds[later]? = some deed ∧
      deed.evicts fd = true
  · obtain ⟨hlater, deed, hdeed, hevicts⟩ := Nat.find_spec hevicted
    refine .inr ⟨_, .evicted hwatched hlater hdeed hevicts ?_⟩
    intro between given hbetween hbefore hgiven
    refine Bool.eq_false_iff.mpr fun heq => ?_
    exact Nat.find_min hevicted hbefore ⟨hbetween, given, hgiven, heq⟩
  · refine .inl ⟨hwatched, fun later deed hlater hdeed => Bool.eq_false_iff.mpr fun heq => ?_⟩
    exact hevicted ⟨later, hlater, deed, hdeed, heq⟩

end Deeds

/-! ## Turns -/

/-- A turn in the life of a reactor: what was done with handles, and what was asked meanwhile. -/
structure Turn (σ : Type) where
  deed : Deed
  exchanges : List (Exchange (Numbered σ))

namespace State

variable {state next : State σ} {turn : Turn σ} {exchanges : List (Exchange (Numbered σ))}

/-- The steps in which nobody gives a handle or takes one back, and the reactor does not end. -/
inductive Apart (state : State σ) : List (Exchange (Numbered σ)) → State σ → Prop where
  | owner {exchanges : List (Exchange (Numbered σ))} {next : State σ}
      (hstance : ∀ purpose, state.stance ≠ .resting (.releasing purpose))
      (hstep : state.OwnerStep next) (htrace : next.trace = state.trace ++ exchanges) :
      Apart state exchanges next
  | shutDown (hstance : state.stance = .resting .running) (purpose : Purpose)
      (hpurpose : purpose.abandons = false) :
      Apart state [] { state with stance := .resting (.signalling purpose) }
  | submit {exchanges : List (Exchange (Numbered σ))} {result : Except ReactorError Unit}
      {reactor : Reactor (Numbered σ)} (hstance : state.stance = .resting .running)
      (direction : Direction) (fd : Fd) (buffer : Bytes) (sink : Sink σ)
      (hsubmit : (state.reactor.submit direction fd buffer
        (sink.numbered (state.offered direction))).Returns exchanges (result, reactor)) :
      Apart state exchanges { state.asked exchanges with
        reactor
        offered := Function.update state.offered direction (state.offered direction + 1) }
  | move {exchanges : List (Exchange (Numbered σ))} {lane : Lane (Numbered σ)}
      (direction : Direction) (hstarted : direction ∈ state.reactor.started)
      (hlive : (state.stage direction).isEnded = false)
      (hmoves : Lane.Moves (state.reactor.loopSetup direction) (state.lane direction)
        exchanges lane) : Apart state exchanges (state.moved direction exchanges lane)

/-- What can happen to a reactor in a turn. -/
inductive Does (state : State σ) : Turn σ → State σ → Prop where
  | watched {exchanges : List (Exchange (Numbered σ))} {result : Except ReactorError Fd}
      {reactor : Reactor (Numbered σ)} (hstance : state.stance = .resting .running)
      (handle : Handle)
      (hwatch : (state.reactor.watch handle).Returns exchanges (result, reactor)) :
      Does state ⟨.watched handle result, exchanges⟩ { state.asked exchanges with reactor }
  | stopped {exchanges : List (Exchange (Numbered σ))} {reactor : Reactor (Numbered σ)}
      (hstance : state.stance = .resting .running) (fd : Fd)
      (hstop : (state.reactor.stopWatch fd).Returns exchanges reactor) :
      Does state ⟨.stopped fd, exchanges⟩ { state.asked exchanges with reactor }
  | tornDown {exchanges : List (Exchange (Numbered σ))} {purpose : Purpose} {point : Lifecycle}
      {act : Reactor (Numbered σ) → Program (Numbered σ) (Lifecycle × Reactor (Numbered σ))}
      {reactor : Reactor (Numbered σ)} (hstance : state.stance = .resting (.releasing purpose))
      (hmove : (Lifecycle.releasing purpose).move = .exclusive act)
      (hact : (act state.reactor).Returns exchanges (point, reactor)) :
      Does state ⟨.tornDown, exchanges⟩
        { state.asked exchanges with reactor, stance := .resting point }
  | apart {exchanges : List (Exchange (Numbered σ))} {next : State σ}
      (hapart : state.Apart exchanges next) : Does state ⟨.apart, exchanges⟩ next

/-- What happens apart from handles is a step of the reactor. -/
theorem Apart.step (h : state.Apart exchanges next) : state.Step next := by
  cases h with
  | owner _ hstep => exact .owner hstep
  | shutDown hstance purpose hpurpose => exact .shutDown hstance purpose hpurpose
  | submit hstance direction fd buffer sink hsubmit =>
      exact .submit hstance direction fd buffer sink hsubmit
  | move direction hstarted hlive hmoves => exact .move direction hstarted hlive hmoves

/-- What happens apart from handles adds its exchanges to the trace. -/
theorem Apart.trace (h : state.Apart exchanges next) :
    next.trace = state.trace ++ exchanges := by
  cases h with
  | owner _ _ htrace => exact htrace
  | shutDown => exact (List.append_nil _).symm
  | submit | move => rfl

/-- What happens in a turn is a step of the reactor. -/
theorem Does.step (h : state.Does turn next) : state.Step next := by
  cases h with
  | watched hstance handle hwatch => exact .watch hstance handle hwatch
  | stopped hstance fd hstop => exact .stopWatch hstance fd hstop
  | tornDown hstance hmove hact => exact .owner (.acted hstance hmove hact)
  | apart hapart => exact hapart.step

/-- What happens in a turn adds its exchanges to the trace. -/
theorem Does.trace (h : state.Does turn next) : next.trace = state.trace ++ turn.exchanges := by
  cases h with
  | watched | stopped | tornDown => rfl
  | apart hapart => exact hapart.trace

/-- Whatever happens is a turn. -/
theorem Step.does (h : state.Step next) : ∃ turn, state.Does turn next := by
  cases h with
  | shutDown hstance purpose hpurpose => exact ⟨_, .apart (.shutDown hstance purpose hpurpose)⟩
  | submit hstance direction fd buffer sink hsubmit =>
      exact ⟨_, .apart (.submit hstance direction fd buffer sink hsubmit)⟩
  | watch hstance handle hwatch => exact ⟨_, .watched hstance handle hwatch⟩
  | stopWatch hstance fd hstop => exact ⟨_, .stopped hstance fd hstop⟩
  | move direction hstarted hlive hmoves =>
      exact ⟨_, .apart (.move direction hstarted hlive hmoves)⟩
  | owner hstep =>
      cases hstep with
      | @acted point _ _ _ exchanges hstance hmove hact =>
          by_cases hreleasing : ∃ purpose, point = .releasing purpose
          · obtain ⟨purpose, rfl⟩ := hreleasing
            exact ⟨_, .tornDown hstance hmove hact⟩
          · refine ⟨⟨.apart, exchanges⟩, .apart (.owner (fun purpose hat => hreleasing ?_)
              (.acted hstance hmove hact) rfl)⟩
            exact ⟨purpose, Stance.resting.inj (hstance.symm.trans hat)⟩
      | began hstance hmove =>
          refine ⟨⟨.apart, []⟩, .apart (.owner (fun purpose hat => ?_) (.began hstance hmove)
            (List.append_nil _).symm)⟩
          obtain rfl := Stance.resting.inj (hstance.symm.trans hat)
          cases hmove
      | asked hstance answer hadmits =>
          refine ⟨⟨.apart, _⟩, .apart (.owner (fun purpose hat => ?_)
            (.asked hstance answer hadmits) rfl)⟩
          cases hstance.symm.trans hat
      | arrived hstance =>
          refine ⟨⟨.apart, []⟩, .apart (.owner (fun purpose hat => ?_) (.arrived hstance)
            (List.append_nil _).symm)⟩
          cases hstance.symm.trans hat

end State

/-! ## What a turn does to the custody -/

namespace Turn

variable {turn : Turn σ}

/-- What a turn releases, and what it leaves stored. -/
structure Alters (turn : Turn σ) (before after : Custody) : Prop where
  released : ∃ entries : List (Fd × Handle), (entries.map Prod.fst).Nodup ∧
    (∀ fd handle, (fd, handle) ∈ entries ↔
      turn.deed.evicts fd = true ∧ before.handles.get? fd = some handle) ∧
    handlesReleased turn.exchanges = turn.deed.refused ++ entries.map Prod.snd
  stored : ∀ fd, after.handles.get? fd =
    if turn.deed.evicts fd then turn.deed.stores? fd else before.handles.get? fd

/-- A turn that evicts nothing leaves the custody as it is. -/
theorem Alters.of_unchanged {custody : Custody} (hevicts : ∀ fd, turn.deed.evicts fd = false)
    (hreleased : handlesReleased turn.exchanges = turn.deed.refused) :
    turn.Alters custody custody where
  released := ⟨[], List.nodup_nil, by simp [hevicts],
    hreleased.trans (List.append_nil _).symm⟩
  stored fd := by rw [hevicts, if_neg Bool.false_ne_true]

/-- A turn that evicts one descriptor releases the handle that was stored for it. -/
theorem Alters.of_one {before after : Custody} {fd : Fd}
    (hevicts : ∀ other, turn.deed.evicts other = decide (fd = other))
    (hrefused : turn.deed.refused = [])
    (hreleased : handlesReleased turn.exchanges = (before.handles.get? fd).toList)
    (hsame : after.handles.get? fd = turn.deed.stores? fd)
    (hother : ∀ other, other ≠ fd → after.handles.get? other = before.handles.get? other) :
    turn.Alters before after := by
  constructor
  case released =>
    rw [hrefused, hreleased]
    cases hstored : before.handles.get? fd with
    | none =>
        refine ⟨[], List.nodup_nil, fun other handle => ?_, rfl⟩
        simp only [List.not_mem_nil, hevicts, decide_eq_true_eq, false_iff, not_and]
        rintro rfl
        simp [hstored]
    | some handle =>
        refine ⟨[(fd, handle)], List.nodup_singleton _, fun other given => ?_, rfl⟩
        simp only [List.mem_singleton, Prod.mk.injEq, hevicts, decide_eq_true_eq]
        constructor
        · rintro ⟨rfl, rfl⟩
          exact ⟨rfl, hstored⟩
        · rintro ⟨rfl, hgiven⟩
          exact ⟨rfl, Option.some.inj (hgiven.symm.trans hstored)⟩
  case stored =>
    intro other
    rw [hevicts]
    by_cases heq : fd = other
    · subst heq
      rw [if_pos (decide_eq_true rfl)]
      exact hsame
    · rw [if_neg (by simpa using heq)]
      exact hother other (Ne.symm heq)

end Turn

/-- Changing a side leaves the handles where they are. -/
@[simp]
theorem custody_withSide (reactor : Reactor σ) (direction : Direction) (side : Side σ) :
    (reactor.withSide direction side).custody = reactor.custody := by
  cases direction <;> rfl

namespace State

variable {state next : State σ} {turn : Turn σ} {exchanges : List (Exchange (Numbered σ))}

/-- A submission leaves the handles where they are and releases none. -/
theorem submit_handles {reactor after : Reactor (Numbered σ)} {direction : Direction} {fd : Fd}
    {buffer : Bytes} {sink : Sink (Numbered σ)} {result : Except ReactorError Unit}
    (h : (reactor.submit direction fd buffer sink).Returns exchanges (result, after)) :
    after.custody = reactor.custody ∧ handlesReleased exchanges = [] := by
  obtain ⟨answer, side, calls, logs, rfl, hcalls, hlogs, rfl, -⟩ := submit_side h
  obtain ⟨_, asked, none, rfl, htable, hpure⟩ := Program.returns_bind.mp hcalls
  obtain ⟨rfl, -⟩ := Program.returns_pure.mp hpure
  refine ⟨custody_withSide _ _ _, handlesReleased_eq_nil fun exchange hexchange => ?_⟩
  rw [List.append_nil] at hexchange
  rcases List.mem_append.mp hexchange with hcall | hlog
  · exact (Outstanding.submit_tends.request htable exchange hcall).handles_eq
  · exact (hlogs exchange hlog).handles_eq

/-- The start of a loop leaves the handles where they are and releases none. -/
theorem start_handles {reactor after : Reactor (Numbered σ)} {direction : Direction}
    {point : Lifecycle} (h : Start reactor direction exchanges point after) :
    after.custody = reactor.custody ∧ handlesReleased exchanges = [] := by
  cases h with
  | started => exact ⟨custody_withSide _ _ _, rfl⟩
  | refused => exact ⟨rfl, rfl⟩
  | unnamed => exact ⟨custody_withSide _ _ _, rfl⟩

/-- The custody is left as it is apart from what is done with handles. -/
theorem Apart.still (h : state.Apart exchanges next) (hmanaged : state.Managed) :
    next.reactor.custody = state.reactor.custody ∧ handlesReleased exchanges = [] := by
  cases h with
  | shutDown => exact ⟨rfl, rfl⟩
  | submit _ _ _ _ _ hsubmit => exact submit_handles hsubmit
  | move direction _ _ hmoves =>
      refine ⟨custody_withSide _ _ _, handlesReleased_eq_nil fun exchange hexchange => ?_⟩
      exact Request.handles_eq_of_mayAsk (hmoves.mayAsk exchange hexchange)
  | owner hstance hstep htrace =>
      cases hstep with
      | @acted point _ _ _ _ hat hmove hact =>
          obtain rfl := List.append_cancel_left htrace
          cases point with
          | starting => exact start_handles (starting_cases hmove hact)
          | releasing purpose => exact absurd hat (hstance purpose)
          | running | signalling | joining | gone => cases hmove
      | began | arrived =>
          obtain rfl := List.self_eq_append_right.mp htrace
          exact ⟨rfl, rfl⟩
      | asked hat answer =>
          obtain rfl := List.append_cancel_left htrace
          have hhandles := Request.handles_eq_of_owner (hmanaged.acting _ _ hat).asks.1
          refine ⟨rfl, handlesReleased_eq_nil fun exchange hexchange => ?_⟩
          rw [List.mem_singleton.mp hexchange]
          exact hhandles

/-- Each turn releases what its deed says, and nothing else. -/
theorem Does.alters (h : state.Does turn next) (hmanaged : state.Managed) :
    turn.Alters state.reactor.custody next.reactor.custody := by
  cases h with
  | apart hapart =>
      obtain ⟨hcustody, hhandles⟩ := hapart.still hmanaged
      rw [hcustody]
      exact .of_unchanged (fun _ => rfl) hhandles
  | stopped _ fd hstop =>
      obtain ⟨rfl, hhandles, -⟩ := stopWatch_returns hstop
      exact .of_one (fun _ => rfl) rfl hhandles (FdMap.get?_erase_same _ _)
        fun other hne => FdMap.get?_erase_other _ hne
  | tornDown _ hmove hact =>
      obtain ⟨hhandles, hempty⟩ := releasing_handles hmove hact
      rw [hempty]
      constructor
      case released =>
        refine ⟨state.reactor.custody.handles.entries, state.reactor.custody.handles.nodup,
          fun fd handle => ?_, hhandles⟩
        rw [FdMap.mem_entries]
        exact (and_iff_right rfl).symm
      case stored => exact fun fd => rfl
  | watched _ handle hwatch =>
      cases watch_cases hwatch with
      | detached => exact .of_unchanged (fun _ => rfl) rfl
      | unswitched _ hswitch =>
          refine .of_unchanged (fun _ => rfl) ?_
          rw [handlesReleased_append, setNonBlocking_handles hswitch]
          rfl
      | @kept fd _ _ _ _ hswitch hkeep =>
          obtain ⟨rfl, hhandles, -⟩ := keep_returns hkeep
          refine .of_one (fun _ => rfl) rfl ?_ ?_ fun other hne => FdMap.get?_insert_other _ _ hne
          · rw [handlesReleased_append, setNonBlocking_handles hswitch]
            exact hhandles
          · rw [FdMap.get?_insert_same]
            exact (if_pos rfl).symm

end State

/-! ## Histories -/

/-- The life of a reactor up to a state, cut into turns. The first one is its creation. -/
inductive History : List (Turn σ) → State σ → Prop where
  | opened {settings : Settings} {reactor : Reactor (Numbered σ)}
      {exchanges : List (Exchange (Numbered σ))}
      (hcreate : (create settings).Returns exchanges (.ok reactor)) :
      History [⟨.apart, exchanges⟩] ⟨reactor, fun _ => .starting, .resting (.starting .read),
        fun _ => 0, exchanges⟩
  | turned {turns : List (Turn σ)} {turn : Turn σ} {state next : State σ}
      (h : History turns state) (hdoes : state.Does turn next) : History (turns ++ [turn]) next

/-- What was done with handles in turns. -/
def deeds (turns : List (Turn σ)) : List Deed :=
  turns.map Turn.deed

namespace History

variable {turns : List (Turn σ)} {turn : Turn σ} {state : State σ}

/-- A history leads to a state that a reactor can reach. -/
theorem reachable (h : History turns state) : Life.Reachable (.led state) := by
  induction h with
  | opened hcreate => exact .opened hcreate
  | turned _ hdoes ih => exact ih.step hdoes.step

/-- The trace of a reactor is what was asked in its turns, one after the other. -/
theorem trace (h : History turns state) : state.trace = turns.flatMap Turn.exchanges := by
  induction h with
  | opened => exact (List.append_nil _).symm
  | turned _ hdoes ih =>
      rw [hdoes.trace, ih, List.flatMap_append]
      exact congrArg _ (List.append_nil _).symm

end History

/-- Every life of a reactor has a history. -/
theorem Life.Reachable.history {state : State σ} (h : Life.Reachable (.led state)) :
    ∃ turns, History turns state := by
  generalize hlife : Life.led state = life at h
  induction h generalizing state with
  | refused => cases hlife
  | opened hcreate =>
      cases hlife
      exact ⟨_, .opened hcreate⟩
  | step _ hstep ih =>
      cases hlife
      obtain ⟨turns, hturns⟩ := ih rfl
      obtain ⟨turn, hdoes⟩ := hstep.does
      exact ⟨_, hturns.turned hdoes⟩

/-! ## What has been released and what is stored -/

section Histories

variable {turns : List (Turn σ)} {turn : Turn σ} {state next : State σ}

/-- The handles whose time comes in a turn, each with the turn in which it was given. -/
theorem Turn.Alters.due {before after : Custody} {done : List Deed}
    (h : turn.Alters before after)
    (hstored : ∀ fd handle, before.handles.get? fd = some handle ↔
      ∃ given, Stored done given fd handle) :
    ∃ due : List (Nat × Handle), (due.map Prod.fst).Nodup ∧
      handlesReleased turn.exchanges = due.map Prod.snd ∧
      ∀ given handle, (given, handle) ∈ due ↔
        ReleasedAt (done ++ [turn.deed]) given handle done.length := by
  obtain ⟨entries, hkeys, hentries, hreleased⟩ := h.released
  have hexists : ∀ fd, ∃ given, ∀ handle, before.handles.get? fd = some handle →
      Stored done given fd handle := by
    intro fd
    cases hfd : before.handles.get? fd with
    | none => exact ⟨0, nofun⟩
    | some handle =>
        obtain ⟨given, hgiven⟩ := (hstored fd handle).mp hfd
        exact ⟨given, fun other hother => Option.some.inj hother ▸ hgiven⟩
  choose position hposition using hexists
  have hat : ∀ entry ∈ entries, Stored done (position entry.1) entry.1 entry.2 :=
    fun entry hentry => hposition _ _ ((hentries _ _).mp hentry).2
  refine ⟨turn.deed.refused.map (done.length, ·) ++
    entries.map fun entry => (position entry.1, entry.2), ?_, ?_, fun given handle => ?_⟩
  · rw [List.map_append, List.map_map, List.map_map]
    refine List.nodup_append.mpr ⟨?_, ?_, ?_⟩
    · cases turn.deed with
      | stopped | tornDown | apart => exact List.nodup_nil
      | watched _ result =>
          cases result with
          | ok => exact List.nodup_nil
          | error => exact List.nodup_singleton _
    · have hpositions : ((entries.map Prod.fst).map position).Nodup := by
        refine hkeys.map_on fun first hfirst second hsecond heq => ?_
        obtain ⟨entry, hentry, rfl⟩ := List.mem_map.mp hfirst
        obtain ⟨other, hother, rfl⟩ := List.mem_map.mp hsecond
        exact (hat entry hentry).fd_eq (heq ▸ hat other hother)
      rwa [List.map_map] at hpositions
    · rintro first hfirst second hsecond rfl
      obtain ⟨_, -, hlength⟩ := List.mem_map.mp hfirst
      obtain ⟨entry, hentry, rfl⟩ := List.mem_map.mp hsecond
      exact absurd hlength (Nat.ne_of_gt (lt_of_deed (hat entry hentry).watched))
  · rw [hreleased, List.map_append, List.map_map, List.map_map]
    exact congrArg₂ _ (List.map_id _).symm rfl
  · rw [releasedAt_last, List.mem_append]
    refine or_congr ?_ ?_
    · rw [List.mem_map]
      constructor
      · rintro ⟨_, hrefused, heq⟩
        cases heq
        exact ⟨rfl, hrefused⟩
      · rintro ⟨rfl, hrefused⟩
        exact ⟨handle, hrefused, rfl⟩
    · rw [List.mem_map]
      constructor
      · rintro ⟨entry, hentry, heq⟩
        cases heq
        exact ⟨entry.1, hat entry hentry, ((hentries _ _).mp hentry).1⟩
      · rintro ⟨fd, hgiven, hevicts⟩
        have hentry := (hentries fd handle).mpr ⟨hevicts, (hstored fd handle).mpr ⟨given, hgiven⟩⟩
        exact ⟨_, hentry, by rw [(hat _ hentry).turn_eq hgiven]⟩

/-- A handle is stored for a descriptor when the watching of it has succeeded there. -/
theorem Deed.stores?_eq_some {deed : Deed} {fd : Fd} {handle : Handle} :
    deed.stores? fd = some handle ↔ deed = .watched handle (.ok fd) := by
  cases deed with
  | stopped | tornDown | apart => exact ⟨nofun, nofun⟩
  | watched given result =>
      cases result with
      | error => exact ⟨nofun, nofun⟩
      | ok other =>
          by_cases heq : other = fd
          · subst heq
            simp [stores?]
          · simp [stores?, heq]

/-- What is stored after a turn has been stored before it or is stored by it. -/
theorem Turn.Alters.stored_iff {before after : Custody} {done : List Deed}
    (h : turn.Alters before after)
    (hstored : ∀ fd handle, before.handles.get? fd = some handle ↔
      ∃ given, Stored done given fd handle) (fd : Fd) (handle : Handle) :
    after.handles.get? fd = some handle ↔
      ∃ given, Stored (done ++ [turn.deed]) given fd handle := by
  simp only [h.stored, stored_append]
  cases hevicts : turn.deed.evicts fd with
  | true =>
      rw [if_pos rfl, Deed.stores?_eq_some]
      simp
  | false =>
      have hne : turn.deed ≠ .watched handle (.ok fd) := by
        intro heq
        simp [heq, Deed.evicts] at hevicts
      rw [if_neg Bool.false_ne_true, hstored]
      simp [hne]

/-- A new reactor holds no handles. -/
theorem create_custody (settings : Settings) : (create settings : Program σ _).Yields
    fun result => ∀ reactor, result = .ok reactor → reactor.custody = .empty := by
  refine .bind fun reads => ?_
  cases reads with
  | error fault => exact fun reactor heq => by cases heq
  | ok reads =>
      refine .bind fun writes => ?_
      cases writes with
      | error fault => exact .bind fun _ reactor heq => by cases heq
      | ok writes =>
          intro reactor heq
          cases heq
          rfl

/-- The creation of a reactor releases no handle. -/
theorem create_handles {settings : Settings} {reactor : Reactor σ}
    {exchanges : List (Exchange σ)} (h : (create settings).Returns exchanges (.ok reactor)) :
    handlesReleased exchanges = [] := by
  obtain ⟨first, second, rfl, hreads, hwrites⟩ := create_returns h
  obtain ⟨-, rfl⟩ := Source.create_exchanges (Side.create_source hreads).1
  obtain ⟨-, rfl⟩ := Source.create_exchanges (Side.create_source hwrites).1
  rfl

/-- The creation of a reactor is a turn that finds nothing stored. -/
theorem create_alters {settings : Settings} {reactor : Reactor (Numbered σ)}
    {exchanges : List (Exchange (Numbered σ))}
    (h : (create settings).Returns exchanges (.ok reactor)) :
    (⟨.apart, exchanges⟩ : Turn σ).Alters .empty reactor.custody := by
  rw [(create_custody _).of_returns h _ rfl]
  exact .of_unchanged (fun _ => rfl) (create_handles h)

/-- An empty custody holds what has been stored before any turn, namely nothing. -/
theorem empty_stored (fd : Fd) (handle : Handle) :
    Custody.empty.handles.get? fd = some handle ↔ ∃ given, Stored [] given fd handle :=
  ⟨nofun, fun ⟨_, h⟩ => (stored_nil h).elim⟩

/-- What was done in two parts of a history is what was done in the first and then in the second. -/
@[simp]
theorem deeds_append (first second : List (Turn σ)) :
    deeds (first ++ second) = deeds first ++ deeds second :=
  List.map_append

/-- The custody holds what has been stored and not been evicted. -/
theorem History.stored (h : History turns state) (fd : Fd) (handle : Handle) :
    state.reactor.custody.handles.get? fd = some handle ↔
      ∃ given, Stored (deeds turns) given fd handle := by
  induction h generalizing fd handle with
  | opened hcreate => exact (create_alters hcreate).stored_iff empty_stored fd handle
  | turned h hdoes ih =>
      rw [deeds_append]
      exact (hdoes.alters h.reachable.managed).stored_iff ih fd handle

/-- Each turn releases the handles whose time has come. -/
theorem History.due (h : History turns state) {position : Nat}
    (hturn : turns[position]? = some turn) :
    ∃ due : List (Nat × Handle), (due.map Prod.fst).Nodup ∧
      handlesReleased turn.exchanges = due.map Prod.snd ∧
      ∀ given handle, (given, handle) ∈ due ↔ ReleasedAt (deeds turns) given handle position := by
  induction h with
  | opened hcreate =>
      obtain ⟨hlt, hfirst⟩ := List.getElem?_eq_some_iff.mp hturn
      obtain rfl : position = 0 := Nat.lt_one_iff.mp hlt
      obtain rfl := hfirst
      exact (create_alters hcreate).due empty_stored
  | @turned turns last _ _ h hdoes ih =>
      rw [deeds_append]
      have hlength : (deeds turns).length = turns.length := List.length_map _
      rcases Nat.lt_or_ge position turns.length with hlt | hge
      · rw [List.getElem?_append_left hlt] at hturn
        obtain ⟨due, hnodup, hreleased, hdue⟩ := ih hturn
        refine ⟨due, hnodup, hreleased, fun given handle => ?_⟩
        rw [releasedAt_append (hlength ▸ hlt)]
        exact hdue given handle
      · rw [List.getElem?_append_right hge] at hturn
        obtain ⟨hbound, hlast⟩ := List.getElem?_eq_some_iff.mp hturn
        obtain rfl : position = (deeds turns).length :=
          hlength ▸ Nat.le_antisymm (Nat.sub_eq_zero_iff_le.mp (Nat.lt_one_iff.mp hbound)) hge
        have hsame : last = turn := by
          rw [← hlast]
          simp
        subst hsame
        exact (hdoes.alters h.reachable.managed).due h.stored

/-- A reactor is gone when it has been torn down, and not before. -/
theorem State.Does.gone (h : state.Does turn next) (hmanaged : state.Managed)
    (hgone : next.point.isGone = true) :
    state.point.isGone = true ∨ turn.deed = .tornDown := by
  cases h with
  | watched hstance | stopped hstance =>
      have hpoint : state.point = .running := congrArg Stance.point hstance
      have hsame : state.point.isGone = true := hgone
      rw [hpoint] at hsame
      cases hsame
  | tornDown => exact .inr rfl
  | apart hapart =>
      refine .inl ?_
      cases hapart with
      | shutDown => cases hgone
      | submit | move => exact hgone
      | owner hnot hstep =>
          cases hstep with
          | @acted point _ _ _ _ hstance hmove hact =>
              cases point with
              | running | signalling | joining | gone => cases hmove
              | releasing purpose => exact absurd hstance (hnot purpose)
              | starting direction =>
                  cases starting_cases hmove hact with
                  | started => cases direction <;> cases hgone
                  | refused | unnamed => cases hgone
          | began hstance | asked hstance =>
              exact (congrArg (fun stance => stance.point.isGone) hstance).trans hgone
          | arrived hstance =>
              have hpoint := congrArg Stance.point hstance
              obtain ⟨_, _, _, hmove, _, _, hleaves, _, _⟩ := (hmanaged.acting _ _ hstance).begun
              have harrival := shared_arrival hmove hleaves.returns
              rw [show state.point = _ from hpoint]
              cases harrival with
              | running | signalled | joined => cases hgone
              | gone => rfl

/-- Nothing is stored in a reactor that is gone. -/
theorem History.gone (h : History turns state) (hgone : state.point.isGone = true) (fd : Fd) :
    state.reactor.custody.handles.get? fd = none := by
  induction h with
  | opened => cases hgone
  | turned h hdoes ih =>
      have hmanaged := h.reachable.managed
      rcases hdoes.gone hmanaged hgone with hbefore | hdeed
      · obtain ⟨-, hsame, -⟩ := hmanaged.gone_step hbefore hdoes.step
        rw [hsame]
        exact ih hbefore
      · rw [(hdoes.alters hmanaged).stored, hdeed]
        rfl

end Histories

/-! ## Every handle is accounted for -/

/-- What becomes of the handles that are given to a reactor. -/
structure Entrusted (turns : List (Turn σ)) (state : State σ) : Prop where
  /-- The history leaves out nothing that has been asked. -/
  trace : state.trace = turns.flatMap Turn.exchanges
  /-- Each turn releases the handles whose time has come, each once, and no others. -/
  released : ∀ position turn, turns[position]? = some turn →
    ∃ due : List (Nat × Handle), (due.map Prod.fst).Nodup ∧
      handlesReleased turn.exchanges = due.map Prod.snd ∧
      ∀ given handle, (given, handle) ∈ due ↔ ReleasedAt (deeds turns) given handle position
  /-- There is at most one such time for each handle. In a reactor that is gone it has come for
  all of them. -/
  once : ∀ given handle result, (deeds turns)[given]? = some (.watched handle result) →
    (∀ first second, ReleasedAt (deeds turns) given handle first →
      ReleasedAt (deeds turns) given handle second → first = second) ∧
    (state.point.isGone = true → ∃ position, ReleasedAt (deeds turns) given handle position)
  /-- The handle that is stored for a descriptor is the one with which it was watched last. -/
  stored : ∀ fd handle, state.reactor.custody.handles.get? fd = some handle ↔
    ∃ given, Stored (deeds turns) given fd handle
  /-- A descriptor is watched if it has been watched since it was last watched no longer. -/
  watched : ∀ fd, state.reactor.custody.contains fd = true ↔
    ∃ given handle, Stored (deeds turns) given fd handle
  /-- The watched descriptors are counted. -/
  counted : ∃ fds : List Fd, fds.Nodup ∧
    (∀ fd, fd ∈ fds ↔ ∃ given handle, Stored (deeds turns) given fd handle) ∧
    state.reactor.custody.size = fds.length
  /-- A handle that cannot be watched changes nothing in the reactor, and no flags. -/
  failed : ∀ handle exchanges error after,
    (state.reactor.watch handle).Returns exchanges (.error error, after) →
      after = state.reactor ∧ KeepsFlags exchanges
  /-- A handle that is watched is stored for its descriptor, and other handles stay where they are.
  One flag of the descriptor's file is set, and no other flags are changed. -/
  succeeded : ∀ handle exchanges fd after,
    (state.reactor.watch handle).Returns exchanges (.ok fd, after) →
      handle.descriptor = some fd ∧
      after = { state.reactor with custody := ⟨state.reactor.custody.handles.insert fd handle⟩ } ∧
      SwitchesFlags fd exchanges
  /-- When a descriptor is watched no longer, the others are watched as before, and no operations
  and no flags are changed. -/
  stopped : ∀ fd exchanges after, (state.reactor.stopWatch fd).Returns exchanges after →
    after.reads = state.reactor.reads ∧ after.writes = state.reactor.writes ∧
      (∀ other, other ≠ fd →
        after.custody.handles.get? other = state.reactor.custody.handles.get? other) ∧
      KeepsFlags exchanges
  /-- Neither call panics. -/
  safe : (∀ handle, (state.reactor.watch handle).NeverPanics) ∧
    ∀ fd, (state.reactor.stopWatch fd).NeverPanics

/-- Whatever is done with handles and whatever fails, each of them is released once: when it cannot
be watched, when another one takes its place, when its descriptor is watched no longer, or at the
end. -/
theorem History.entrusted {turns : List (Turn σ)} {state : State σ} (h : History turns state) :
    Entrusted turns state := by
  have hcontains : ∀ fd, state.reactor.custody.contains fd = true ↔
      ∃ given handle, Stored (deeds turns) given fd handle := by
    intro fd
    rw [Custody.contains, FdMap.contains, Option.isSome_iff_exists]
    simp only [h.stored]
    exact exists_comm
  constructor
  case trace => exact h.trace
  case released => exact fun _ _ => h.due
  case once =>
    intro given handle result hwatched
    refine ⟨fun _ _ => ReleasedAt.unique, fun hgone => ?_⟩
    cases result with
    | error error => exact ⟨_, .refused hwatched⟩
    | ok fd =>
        refine (stored_or_releasedAt hwatched).resolve_left fun hstored => ?_
        have hfd := (h.stored fd handle).mpr ⟨given, hstored⟩
        cases (h.gone hgone fd).symm.trans hfd
  case stored => exact h.stored
  case watched => exact hcontains
  case counted =>
    refine ⟨state.reactor.custody.handles.entries.map Prod.fst,
      state.reactor.custody.handles.nodup, fun fd => ?_, (List.length_map _).symm⟩
    rw [← hcontains, Custody.contains, FdMap.contains, Option.isSome_iff_exists]
    simp [← FdMap.mem_entries]
  case failed => exact fun _ _ _ _ => watch_failed
  case succeeded => exact fun _ _ _ _ => watch_succeeded
  case stopped =>
    intro fd exchanges after hstop
    obtain ⟨rfl, -, hletsGo⟩ := stopWatch_returns hstop
    exact ⟨rfl, rfl, fun other hne => FdMap.get?_erase_other _ hne, keepsFlags_of_letsGo hletsGo⟩
  case safe => exact ⟨watch_neverPanics _, stopWatch_neverPanics _⟩

/-- Two handles with one descriptor are watched one after the other, a third one cannot be watched,
and the second one is given up. A fourth one is left for the end of the reactor. -/
theorem entrusted_until_the_end :
    ∃ (turns : List (Turn Unit)) (state : State Unit), History turns state ∧
      state.point.isGone = true ∧
      handlesReleased state.trace = [.owning "first" ⟨20⟩, .owning "third" ⟨21⟩,
        .exposing "second" ⟨20⟩, .owning "fourth" ⟨22⟩] ∧
      Entrusted turns state := by
  let reads : Source := ⟨⟨3⟩, ⟨⟨4⟩, ⟨5⟩⟩, false⟩
  let writes : Source := ⟨⟨6⟩, ⟨⟨7⟩, ⟨8⟩⟩, false⟩
  let settings : Settings := .build [.eventsCapacity 4]
  let reactor : Reactor (Numbered Unit) :=
    ⟨⟨reads, .empty .read, false⟩, ⟨writes, .empty .write, false⟩, .empty, settings, []⟩
  have hcreate : (create settings).Returns _ (.ok reactor) :=
    ⟨.ok ⟨3⟩, _, rfl, .ok (⟨4⟩, ⟨5⟩), _, rfl, .ok (), _, rfl,
      .ok ⟨6⟩, _, rfl, .ok (⟨7⟩, ⟨8⟩), _, rfl, .ok (), _, rfl, rfl, rfl⟩
  have hopened := History.opened hcreate
  have hreading := hopened.turned (.apart (.owner nofun (State.starts rfl (by decide)) rfl))
  have hrunning := hreading.turned (.apart (.owner nofun (State.starts rfl (by decide)) rfl))
  have hfirst := hrunning.turned (.watched rfl (.owning "first" ⟨20⟩)
    ⟨.ok 2, _, rfl, .ok (), _, rfl, (), _, rfl, rfl, rfl⟩)
  have hsecond := hfirst.turned (.watched rfl (.exposing "second" ⟨20⟩)
    ⟨.ok 2050, _, rfl, (), _, rfl, (), _, rfl, (), _, rfl, rfl, rfl⟩)
  have hthird := hsecond.turned (.watched rfl (.owning "third" ⟨21⟩)
    ⟨.ok 2, _, rfl, .error ⟨22⟩, _, rfl, (), _, rfl, rfl, rfl⟩)
  have hstopped := hthird.turned (.stopped rfl ⟨20⟩ ⟨(), _, rfl, (), _, rfl, rfl, rfl⟩)
  have hfourth := hstopped.turned (.watched rfl (.owning "fourth" ⟨22⟩)
    ⟨.ok 0, _, rfl, .ok (), _, rfl, (), _, rfl, rfl, rfl⟩)
  have hbegun := (hfourth.turned (.apart (.shutDown rfl .closing rfl))).turned
    (.apart (.owner nofun (.began rfl rfl) (List.append_nil _).symm))
  have hraised := hbegun.turned
    (.apart (.owner nofun (@State.OwnerStep.asked _ _ _ .raiseStop _ rfl () trivial) rfl))
  have hwoken := hraised.turned (.apart (.owner nofun
    (@State.OwnerStep.asked _ _ _ (.write ⟨5⟩ [1]) _ rfl (.ok 1) trivial) rfl))
  have hboth := hwoken.turned (.apart (.owner nofun
    (@State.OwnerStep.asked _ _ _ (.write ⟨8⟩ [1]) _ rfl (.ok 1) trivial) rfl))
  have hjoining := hboth.turned (.apart (.owner nofun (.arrived rfl) (List.append_nil _).symm))
  -- neither loop can wait for events, so both end before they see the wake-up
  have hreads := hjoining.turned (.apart (.move .read (by decide) rfl (.shared rfl ⟨rfl, rfl⟩)))
  have hdeaf := hreads.turned (.apart (.move .read (by decide) rfl
    (.shared rfl ⟨.error .badDescriptor, _, rfl, (), _, rfl, rfl, rfl⟩)))
  have hwrites := hdeaf.turned (.apart (.move .write (by decide) rfl (.shared rfl ⟨rfl, rfl⟩)))
  have hended := hwrites.turned (.apart (.move .write (by decide) rfl
    (.shared rfl ⟨.error .badDescriptor, _, rfl, (), _, rfl, rfl, rfl⟩)))
  have hwaiting := hended.turned
    (.apart (.owner nofun (.began rfl rfl) (List.append_nil _).symm))
  have hone := hwaiting.turned (.apart (.owner nofun
    (@State.OwnerStep.asked _ _ _ (.join .read) _ rfl false ⟨rfl, rfl⟩) rfl))
  have htwo := hone.turned (.apart (.owner nofun
    (@State.OwnerStep.asked _ _ _ (.join .write) _ rfl false ⟨rfl, rfl⟩) rfl))
  have hjoined := htwo.turned (.apart (.owner nofun (.arrived rfl) (List.append_nil _).symm))
  have hgone := hjoined.turned (.tornDown rfl rfl
    ⟨.ok (), _, rfl, .ok (), _, rfl, (), _, rfl, rfl, rfl⟩)
  exact ⟨_, _, hgone, rfl, by decide, hgone.entrusted⟩

end Reactor

end Proactor
