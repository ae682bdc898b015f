import Proactor.Proofs.Trials
import Proactor.Proofs.Dispatching
import Proactor.Proofs.Invariant

/-!
# Attempts in runs of lanes

The mark that decides between socket calls and plain writes is kept in the
operation, and the operation is moved about: into its slot, into the hands of
the loop, behind another one. `Traced` says that wherever it is, the operation
carries the outcome of all attempts made on it so far, and that each of these
was made because the loop had checked it out. The attempts on one operation are
told from those on others by the number of its submission.
-/

namespace Proactor

open EventLoop

variable {σ : Type}

/-- Whether a request is about the log. Every other request of a loop that handles an event is a
call of the operating system. -/
def Request.isLog : Request σ → Bool
  | .log _ => true
  | _ => false

/-- The exchanges that are not about the log. -/
def calls (exchanges : List (Exchange σ)) : List (Exchange σ) :=
  exchanges.filter fun exchange => !exchange.request.isLog

/-- The calls of two parts are those of the first and then those of the second. -/
@[simp]
theorem calls_append (first second : List (Exchange σ)) :
    calls (first ++ second) = calls first ++ calls second :=
  List.filter_append _ _

/-- Transferring bytes says nothing to the log. -/
theorem Request.isLog_of_transferOn? {request : Request σ} {fd : Fd}
    (h : request.transferOn? = some fd) : request.isLog = false := by
  cases request <;> first | rfl | cases h

/-- An attempt makes transfers only. -/
theorem Transfer.calls_attempt {direction : Direction} {operation : Operation σ}
    {exchanges : List (Exchange σ)} {answer : Operation σ × Attempt}
    (h : (Transfer.attempt direction operation).Returns exchanges answer) :
    calls exchanges = exchanges := by
  refine List.filter_eq_self.mpr fun exchange hexchange => ?_
  rw [Request.isLog_of_transferOn? (Transfer.attempt_asks.request h exchange hexchange)]
  rfl

/-! ## The attempts of a history -/

namespace Lane

namespace Event

/-- The calls of the attempt on an operation, if the event is one. -/
def tries (number : Nat) (event : Event (Numbered σ)) : List (List (Exchange (Numbered σ))) :=
  match event.attempted? with
  | some operation =>
      if operation.ticket.number = number then [calls event.exchanges] else []
  | none => []

/-- The operation that the loop takes into its hands. -/
def checkedOut? : Event σ → Option (Operation σ)
  | moved ⟨_, .handling _⟩ _ ⟨_, .attempting operation _⟩ => some operation
  | _ => none

end Event

/-- The attempts on an operation in a history, the first one first. -/
def tries (number : Nat) (history : List (Event (Numbered σ))) :
    List (List (Exchange (Numbered σ))) :=
  collect (Event.tries number) history

/-- How often an operation has been checked out. -/
def checkOuts (number : Nat) (history : List (Event (Numbered σ))) : Nat :=
  history.countP fun event =>
    event.checkedOut?.any fun operation => operation.ticket.number == number

/-- The number of attempts that the loop is about to make on an operation. -/
def dueOn (number : Nat) : Stage (Numbered σ) → Nat
  | .attempting operation _ => if operation.ticket.number = number then 1 else 0
  | _ => 0

/-- The operation has been submitted and accepted. -/
def Accepted (history : List (Event (Numbered σ))) (operation : Operation (Numbered σ)) : Prop :=
  ∃ policy exchanges displaced,
    .submitted operation policy exchanges (.ok displaced) ∈ history

section Tries

variable {number : Nat} {event : Event (Numbered σ)} {history : List (Event (Numbered σ))}

/-- An event that attempts another operation or none adds no attempt on this one. -/
theorem tries_elsewhere
    (h : ∀ operation, event.attempted? = some operation → operation.ticket.number ≠ number) :
    tries number (event :: history) = tries number history := by
  have hevent : event.tries number = [] := by
    unfold Event.tries
    cases hattempted : event.attempted? with
    | none => rfl
    | some operation => exact if_neg (h operation hattempted)
  rw [tries, collect_cons, hevent, List.append_nil]
  rfl

/-- An event without an attempt adds no attempt. -/
theorem tries_idle (h : event.attempted? = none) :
    tries number (event :: history) = tries number history := by
  refine tries_elsewhere fun operation hoperation => ?_
  cases h.symm.trans hoperation

section Attempted

variable {operation : Operation (Numbered σ)} (h : event.attempted? = some operation)
include h

/-- An attempt on an operation comes after the earlier ones on it. -/
theorem tries_same : tries operation.ticket.number (event :: history) =
    tries operation.ticket.number history ++ [calls event.exchanges] := by
  rw [tries, collect_cons, Event.tries, h]
  exact congrArg _ (if_pos rfl)

/-- An attempt on another operation adds none on this one. -/
theorem tries_other (hnumber : operation.ticket.number ≠ number) :
    tries number (event :: history) = tries number history := by
  refine tries_elsewhere fun other hother => ?_
  cases h.symm.trans hother
  exact hnumber

end Attempted

/-- A number that has not been given out has no attempts. -/
theorem tries_fresh (h : Numbering history) : tries (submissions history) history = [] := by
  refine List.flatMap_eq_nil_iff.mpr fun event hevent => ?_
  unfold Event.tries
  cases hattempted : event.attempted? with
  | none => rfl
  | some operation =>
      exact if_neg (Nat.ne_of_lt (h event (List.mem_reverse.mp hevent) operation hattempted))

/-- What is asked in an attempt is asked at some event of the history. -/
theorem mem_tries {made : List (Exchange (Numbered σ))} (h : made ∈ tries number history)
    {exchange : Exchange (Numbered σ)} (hexchange : exchange ∈ made) :
    ∃ event ∈ history, exchange ∈ event.exchanges := by
  obtain ⟨event, hevent, hmade⟩ := List.mem_flatMap.mp h
  refine ⟨event, List.mem_reverse.mp hevent, ?_⟩
  unfold Event.tries at hmade
  split at hmade
  · split at hmade
    · rw [List.mem_singleton.mp hmade] at hexchange
      exact (List.mem_filter.mp hexchange).1
    · cases hmade
  · cases hmade

end Tries

/-! ## What an operation carries with it -/

/-- The operations that may be attempted again: in the hands of the loop or in a slot. -/
def InPlay (lane : Lane σ) (operation : Operation σ) : Prop :=
  (∃ batch, lane.stage = .attempting operation batch ∨
      lane.stage = .settling operation .retry batch) ∨
    operation ∈ lane.side.table.picked Slot.stored?

/-- The operation is the accepted one of its number, and carries the outcome of all its attempts. -/
structure Tracked (direction : Direction) (history : List (Event (Numbered σ)))
    (operation : Operation (Numbered σ)) : Prop where
  origin : ∀ first, Accepted history first → first.ticket.number = operation.ticket.number →
    first.fd = operation.fd ∧ first.buffer = operation.buffer
  lawful : operation.Lawful direction (tries operation.ticket.number history)

/-- What is known at every point of a run about the attempts on its operations. -/
structure Traced (setup : Setup) (history : List (Event (Numbered σ))) (lane : Lane (Numbered σ)) :
    Prop where
  mirrors : ∃ lending, Mirrors setup history lane lending
  numbering : Numbering history
  tracked : ∀ operation, InPlay lane operation → Tracked setup.direction history operation
  lawful : ∀ operation, Accepted history operation → ∃ mark transferred,
    Lawful setup.direction operation.fd operation.buffer
      (tries operation.ticket.number history) mark transferred
  counted : ∀ number, checkOuts number history = (tries number history).length +
    dueOn number lane.stage
  last : ∀ operation attempt batch, lane.stage = .settling operation attempt batch →
    ∃ earlier made before, tries operation.ticket.number history = earlier ++ [made] ∧
      before.fd = operation.fd ∧
      (Transfer.attempt setup.direction before).Returns made (operation, attempt)

section Steps

variable {setup : Setup} {history : List (Event (Numbered σ))} {lane next : Lane (Numbered σ)}
  {lending : Lending (Numbered σ)} {exchanges : List (Exchange (Numbered σ))}
  {operation : Operation (Numbered σ)}

/-- An operation is accepted by the last event or was accepted before. -/
theorem accepted_cons {event : Event (Numbered σ)} (h : Accepted (event :: history) operation) :
    (∃ policy made displaced, event = .submitted operation policy made (.ok displaced)) ∨
      Accepted history operation := by
  obtain ⟨policy, made, displaced, hmem⟩ := h
  rcases List.mem_cons.mp hmem with heq | hearlier
  · exact .inl ⟨policy, made, displaced, heq.symm⟩
  · exact .inr ⟨policy, made, displaced, hearlier⟩

/-- A move brings no submission with it. -/
theorem accepted_of_moved (h : Accepted (.moved lane exchanges next :: history) operation) :
    Accepted history operation :=
  (accepted_cons h).resolve_left nofun

/-- Accepted operations have numbers that have been given out. -/
theorem Mirrors.accepted_lt (h : Mirrors setup history lane lending)
    (haccepted : Accepted history operation) : operation.ticket.number < submissions history := by
  obtain ⟨policy, made, displaced, hmem⟩ := haccepted
  have htable : .submitted operation policy made (.ok displaced) ∈ tableHistory history :=
    List.mem_flatMap_of_mem hmem (List.mem_singleton_self _)
  have hoffered : operation.ticket ∈ Lending.offered (tableHistory history) :=
    List.mem_map_of_mem (List.mem_flatMap_of_mem htable (List.mem_singleton_self _))
  have hnumber := List.mem_map_of_mem (f := Ticket.number) hoffered
  rw [h.run.number_offered, List.mem_reverse, List.mem_range] at hnumber
  exact hnumber

/-- What is in a slot has a record that is aside. -/
theorem aside_of_stored {table : Outstanding (Numbered σ)}
    {history : List (Lending.Event (Numbered σ))} (h : operation ∈ table.picked Slot.stored?) :
    operation.record .unfinished ∈ Lending.aside history table :=
  Lending.mem_aside.mpr (.inl ⟨operation, Lending.mem_unfinished.mpr (.inl h), rfl⟩)

/-- What is put into a slot comes into play, and nothing else does. -/
theorem inPlay_put {fd : Fd} {slot : Slot (Numbered σ)}
    (h : InPlay ⟨{ lane.side with table := lane.side.table.put fd slot }, lane.stage⟩ operation) :
    slot.stored? = some operation ∨ InPlay lane operation := by
  rcases h with hheld | hstored
  · exact .inr (.inl hheld)
  · exact (Outstanding.mem_picked_put hstored).imp_right .inr

/-- Operations in play have numbers that have been given out. -/
theorem Mirrors.inPlay_lt (h : Mirrors setup history lane lending) (hplay : InPlay lane operation) :
    operation.ticket.number < submissions history := by
  have hlt {progress : Progress} (hrecord : operation.record progress ∈ records history lane) :
      operation.ticket.number < submissions history := by
    have hnumber := h.number_lt hrecord
    exact hnumber
  rcases hplay with ⟨batch, hstage | hstage⟩ | hstored
  · have hheld : operation.record .unfinished ∈ records history lane :=
      held_mem_records (by rw [hstage]; rfl)
    exact hlt hheld
  · have hheld : operation.record (.attempted .retry) ∈ records history lane :=
      held_mem_records (by rw [hstage]; rfl)
    exact hlt hheld
  · exact hlt (aside_mem_records (aside_of_stored hstored))

/-- An event without an attempt leaves what an operation carries alone, unless it brings another
operation of its number. -/
theorem Tracked.idle {direction : Direction} {event : Event (Numbered σ)}
    (h : Tracked direction history operation) (hattempted : event.attempted? = none)
    (haccepted : ∀ first, Accepted (event :: history) first →
      first.ticket.number = operation.ticket.number → Accepted history first) :
    Tracked direction (event :: history) operation := by
  constructor
  case origin =>
    intro first hfirst hnumber
    exact h.origin first (haccepted first hfirst hnumber) hnumber
  case lawful =>
    rw [tries_idle hattempted]
    exact h.lawful

/-- An event without an attempt, after which no other operations are in play than before. -/
theorem Traced.idle (h : Traced setup history lane) {event : Event (Numbered σ)}
    (hmirrors : ∃ lending, Mirrors setup (event :: history) next lending)
    (hattempted : event.attempted? = none)
    (haccepted : ∀ first, Accepted (event :: history) first → Accepted history first)
    (hplay : ∀ operation, InPlay next operation → InPlay lane operation)
    (hcounted : ∀ number,
      (if event.checkedOut?.any fun operation => operation.ticket.number == number then 1 else 0) +
        dueOn number lane.stage = dueOn number next.stage)
    (hlast : ∀ operation attempt batch, next.stage = .settling operation attempt batch →
      next.stage = lane.stage) : Traced setup (event :: history) next := by
  constructor
  case mirrors => exact hmirrors
  case numbering => exact h.numbering.idle hattempted
  case tracked =>
    intro operation hoperation
    exact (h.tracked operation (hplay operation hoperation)).idle hattempted
      fun first hfirst _ => haccepted first hfirst
  case lawful =>
    intro operation hoperation
    rw [tries_idle hattempted]
    exact h.lawful operation (haccepted operation hoperation)
  case counted =>
    intro number
    rw [checkOuts, List.countP_cons, ← checkOuts, h.counted, tries_idle hattempted, ← hcounted]
    omega
  case last =>
    intro operation attempt batch hstage
    rw [tries_idle hattempted]
    exact h.last operation attempt batch ((hlast operation attempt batch hstage).symm.trans hstage)

/-- A submission brings a fresh operation into play, if it is accepted. -/
theorem Traced.submit (h : Traced setup history lane) {fd : Fd} {buffer : Bytes} {sink : Sink σ}
    {policy : OverlapPolicy} {result : Except ReactorError (Option (Operation (Numbered σ)))}
    {side : Side (Numbered σ)}
    (hsubmit : (lane.side.submit
      ((Operation.submitted fd buffer sink).numbered (submissions history)) policy).Returns
        exchanges (result, side)) :
    Traced setup
      (.submitted ((Operation.submitted fd buffer sink).numbered (submissions history)) policy
        exchanges result :: history)
      { lane with side } := by
  obtain ⟨lending, hmirrors⟩ := h.mirrors
  have hmirrored := hmirrors.submit hsubmit
  obtain ⟨⟨answer, table⟩, asked, none, rfl, htable, hside⟩ := Program.returns_bind.mp hsubmit
  obtain ⟨rfl, hanswer⟩ := Program.returns_pure.mp hside
  cases hanswer
  rw [List.append_nil] at hmirrored ⊢
  have hcases := Outstanding.submit_cases htable
  cases result with
  | error error =>
      obtain rfl := hcases.refusal
      exact h.idle ⟨_, hmirrored⟩ rfl (fun _ hfirst => (accepted_cons hfirst).resolve_left nofun)
        (fun _ hplay => hplay) (fun _ => Nat.zero_add _) (fun _ _ _ _ => rfl)
  | ok displaced =>
      obtain ⟨slot, hadmission, rfl⟩ := hcases.admission
      -- the one operation that is new has a number that was not given out before
      set fresh := (Operation.submitted fd buffer sink).numbered (submissions history) with hfresh
      have hcases : ∀ first,
          Accepted (.submitted fresh policy asked (.ok displaced) :: history) first →
          first = fresh ∨ Accepted history first := by
        intro first hfirst
        refine (accepted_cons hfirst).imp_left ?_
        rintro ⟨_, _, _, heq⟩
        cases heq
        rfl
      have hplay : ∀ operation,
          InPlay ⟨{ lane.side with table := lane.side.table.put fresh.fd slot }, lane.stage⟩
            operation → operation = fresh ∨ InPlay lane operation := by
        intro operation hoperation
        refine (inPlay_put hoperation).imp_left fun hslot => ?_
        rw [hadmission.takes_over.1] at hslot
        exact (Option.some.inj hslot).symm
      have hnumber : fresh.ticket.number = submissions history := rfl
      have hnone : tries fresh.ticket.number
          (.submitted fresh policy asked (.ok displaced) :: history) = [] := by
        rw [tries_idle rfl, hnumber, tries_fresh h.numbering]
      constructor
      case mirrors => exact ⟨_, hmirrored⟩
      case numbering => exact h.numbering.idle rfl
      case tracked =>
        intro operation hoperation
        rcases hplay operation hoperation with rfl | hearlier
        · constructor
          case origin =>
            intro first hfirst hsame
            rcases hcases first hfirst with rfl | hearlier
            · exact ⟨rfl, rfl⟩
            · exact absurd hsame (Nat.ne_of_lt (hmirrors.accepted_lt hearlier))
          case lawful =>
            rw [hnone]
            exact Lawful.fresh
        · refine (h.tracked operation hearlier).idle rfl fun first hfirst hsame => ?_
          rcases hcases first hfirst with rfl | hfirst
          · exact absurd hsame.symm (Nat.ne_of_lt (hmirrors.inPlay_lt hearlier))
          · exact hfirst
      case lawful =>
        intro operation hoperation
        rcases hcases operation hoperation with rfl | hearlier
        · rw [hnone]
          exact ⟨false, 0, Lawful.fresh⟩
        · rw [tries_idle rfl]
          exact h.lawful operation hearlier
      case counted =>
        intro number
        rw [tries_idle rfl]
        exact h.counted number
      case last =>
        intro operation attempt batch hstage
        rw [tries_idle rfl]
        exact h.last operation attempt batch hstage

/-- A loop with an operation in its hands makes one attempt on it, and tells the log if there has to
be another one. -/
theorem Moves.tried {lane next : Lane σ} {exchanges : List (Exchange σ)}
    {operation : Operation σ} {batch : List Proactor.Event}
    (h : Moves setup lane exchanges next) (hstage : lane.stage = .attempting operation batch)
    (hsafe : (Transfer.attempt setup.direction operation).NeverPanics) :
    ∃ changed attempt logs,
      (Transfer.attempt setup.direction operation).Returns (calls exchanges) (changed, attempt) ∧
        exchanges = calls exchanges ++ logs ∧
        next = ⟨lane.side, .settling changed attempt batch⟩ := by
  obtain ⟨side, stage⟩ := lane
  obtain rfl : stage = .attempting operation batch := hstage
  obtain ⟨outcome, hruns, rfl⟩ := (moves_shared rfl).mp h
  rcases Program.runs_bind hruns with ⟨cause, -, hpanics⟩ |
    ⟨⟨changed, attempt⟩, made, logs, rfl, hattempt, hrest⟩
  · exact absurd hpanics (hsafe _ _)
  · have hmade : calls made = made := Transfer.calls_attempt hattempt
    refine ⟨changed, attempt, logs, ?_⟩
    dsimp only at hrest
    split at hrest
    · obtain ⟨_, last, rfl, rfl, rfl⟩ := hrest
      have hlogs : calls (made ++
          [(⟨.log (.notDone changed.fd setup.direction changed.transferred), ()⟩ : Exchange σ)]) =
          made := by
        rw [calls_append, hmade]
        exact List.append_nil _
      rw [hlogs]
      exact ⟨hattempt, rfl, rfl⟩
    · obtain ⟨rfl, rfl⟩ := hrest
      rw [List.append_nil, hmade]
      exact ⟨hattempt, (List.append_nil _).symm, rfl⟩

/-- Only a loop that turns to an event checks an operation out. -/
theorem Event.checkedOut?_moved {lane next : Lane σ} {exchanges : List (Exchange σ)}
    {operation : Operation σ} {batch rest : List Proactor.Event}
    (hstage : lane.stage = .handling batch) (hnext : next.stage = .attempting operation rest) :
    (Event.moved lane exchanges next).checkedOut? = some operation := by
  obtain ⟨side, stage⟩ := lane
  obtain ⟨nextSide, nextStage⟩ := next
  subst hstage hnext
  rfl

/-- A move that does not lead to an attempt checks nothing out. -/
theorem Event.checkedOut?_eq_none {lane next : Lane σ} {exchanges : List (Exchange σ)}
    (h : ∀ operation rest, next.stage ≠ .attempting operation rest) :
    (Event.moved lane exchanges next).checkedOut? = none := by
  unfold Event.checkedOut?
  split
  · rename_i heq
    cases heq
    exact absurd rfl (h _ _)
  · rfl

/-- An attempt is added to those on the operation in the hands of the loop. -/
theorem Traced.attempt (h : Traced setup history lane) {batch : List Proactor.Event}
    {changed : Operation (Numbered σ)} {attempt : Attempt}
    (hstage : lane.stage = .attempting operation batch)
    (hattempt : (Transfer.attempt setup.direction operation).Returns (calls exchanges)
      (changed, attempt)) :
    Traced setup
      (.moved lane exchanges ⟨lane.side, .settling changed attempt batch⟩ :: history)
      ⟨lane.side, .settling changed attempt batch⟩ := by
  obtain ⟨lending, hmirrors⟩ := h.mirrors
  have hheld : lane.stage.held? = some (operation.record .unfinished) := by rw [hstage]; rfl
  have hticket := Transfer.attempt_ticket hattempt
  have hattempted : (Event.moved lane exchanges
      ⟨lane.side, .settling changed attempt batch⟩).attempted? = some operation :=
    Event.attempted?_moved hstage
  have hplay : InPlay lane operation := .inl ⟨batch, .inl hstage⟩
  have htracked := h.tracked operation hplay
  have htries : tries operation.ticket.number
      (.moved lane exchanges ⟨lane.side, .settling changed attempt batch⟩ :: history) =
        tries operation.ticket.number history ++ [calls exchanges] :=
    tries_same hattempted
  constructor
  case mirrors => exact ⟨lending, hmirrors.attempt hstage hattempt rfl rfl⟩
  case numbering =>
    refine h.numbering.cons fun other hother => ?_
    cases hattempted.symm.trans hother
    have hlt := hmirrors.inPlay_lt hplay
    have htable : tableHistory
        (.moved lane exchanges ⟨lane.side, .settling changed attempt batch⟩ :: history) =
          tableHistory history := by
      rw [tableHistory, List.flatMap_cons]
      simp only [Event.onTable, hstage]
      rfl
    rw [submissions, htable]
    exact hlt
  case tracked =>
    rintro other (⟨rest, hother | hother⟩ | hstored)
    · cases hother
    · -- only an operation that is to be attempted again stays in play
      cases hother
      obtain ⟨hlawful, -, hbuffer⟩ := htracked.lawful.retry hattempt
      have hnumber : changed.ticket.number = operation.ticket.number := by rw [hticket]
      constructor
      case origin =>
        intro first hfirst hsame
        obtain ⟨hfd, hfirstBuffer⟩ :=
          htracked.origin first (accepted_of_moved hfirst) (hsame.trans hnumber)
        exact ⟨hfd.trans (congrArg Ticket.fd hticket).symm, hfirstBuffer.trans hbuffer.symm⟩
      case lawful =>
        rw [hnumber, htries]
        exact hlawful
    · have hne : operation.ticket.number ≠ other.ticket.number :=
        hmirrors.number_ne hheld (aside_of_stored hstored)
      have hother := h.tracked other (.inr hstored)
      constructor
      case origin => exact fun first hfirst => hother.origin first (accepted_of_moved hfirst)
      case lawful =>
        rw [tries_other hattempted hne]
        exact hother.lawful
  case lawful =>
    intro first hfirst
    by_cases hsame : first.ticket.number = operation.ticket.number
    · obtain ⟨hfd, hbuffer⟩ := htracked.origin first (accepted_of_moved hfirst) hsame
      rw [hsame, htries, hfd, hbuffer]
      exact htracked.lawful.tried hattempt
    · rw [tries_other hattempted fun heq => hsame heq.symm]
      exact h.lawful first (accepted_of_moved hfirst)
  case counted =>
    intro number
    have hcheckOuts : checkOuts number
        (.moved lane exchanges ⟨lane.side, .settling changed attempt batch⟩ :: history) =
          checkOuts number history := by
      have hidle : ∀ operation rest,
          Stage.settling changed attempt batch ≠ .attempting operation rest := by
        intro operation rest hstage
        cases hstage
      rw [checkOuts, List.countP_cons, Event.checkedOut?_eq_none hidle]
      rfl
    rw [hcheckOuts, h.counted, hstage]
    by_cases hnumber : operation.ticket.number = number
    · subst hnumber
      rw [htries]
      simp [dueOn]
    · rw [tries_other hattempted hnumber]
      simp [dueOn, hnumber]
  case last =>
    intro other made rest hother
    cases hother
    refine ⟨tries operation.ticket.number history, calls exchanges, operation, ?_, ?_, hattempt⟩
    · rw [hticket]
      exact htries
    · exact (congrArg Ticket.fd hticket).symm

/-- A loop with empty hands is about to attempt nothing. -/
theorem dueOn_of_idle {number : Nat} {stage : Stage (Numbered σ)} (h : stage.held? = none) :
    dueOn number stage = 0 := by
  cases stage with
  | attempting => cases h
  | _ => rfl

/-- A move with empty hands before and after it. -/
theorem Traced.pass (h : Traced setup history lane) (hnow : lane.stage.held? = none)
    (hthen : next.stage.held? = none) (htable : next.side.table = lane.side.table) :
    Traced setup (.moved lane exchanges next :: history) next := by
  obtain ⟨lending, hmirrors⟩ := h.mirrors
  have hbusy : ∀ operation attempt batch, next.stage ≠ .settling operation attempt batch := by
    intro operation attempt batch hstage
    rw [hstage] at hthen
    cases hthen
  have hidle : ∀ operation batch, next.stage ≠ .attempting operation batch := by
    intro operation batch hstage
    rw [hstage] at hthen
    cases hthen
  refine h.idle ⟨lending, hmirrors.idle (onTable_idle hnow hthen) htable (hthen.trans hnow.symm)⟩
    (attempted?_idle hnow) (fun _ => accepted_of_moved) ?_ ?_
    (fun operation attempt batch hstage => absurd hstage (hbusy operation attempt batch))
  · rintro operation (⟨batch, hstage | hstage⟩ | hstored)
    · exact absurd hstage (hidle operation batch)
    · exact absurd hstage (hbusy operation .retry batch)
    · rw [htable] at hstored
      exact .inr hstored
  · intro number
    rw [Event.checkedOut?_eq_none hidle, dueOn_of_idle hnow, dueOn_of_idle hthen]
    rfl

/-- An operation is taken out of its slot for an attempt. -/
theorem Traced.checkOut (h : Traced setup history lane) {event : Proactor.Event}
    {batch : List Proactor.Event} (hstage : lane.stage = .handling (event :: batch))
    (hcheck : lane.side.table.checkOut event.fd = some (operation, next.side.table))
    (hnext : next.stage = .attempting operation batch) :
    Traced setup (.moved lane exchanges next :: history) next := by
  obtain ⟨lending, hmirrors⟩ := h.mirrors
  obtain ⟨hslot, htable⟩ := Outstanding.checkOut_eq_some.mp hcheck
  refine h.idle ⟨_, hmirrors.checkOut hstage hcheck hnext⟩
    (attempted?_idle (by rw [hstage]; rfl)) (fun _ => accepted_of_moved) ?_ ?_ ?_
  · rintro other (⟨rest, hother | hother⟩ | hstored)
    · cases hnext.symm.trans hother
      have hstored : (lane.side.table.slots.get? event.fd).bind Slot.stored? = some operation := by
        rw [hslot]
        rfl
      exact .inr (Outstanding.mem_picked_of_slot hstored)
    · cases hnext.symm.trans hother
    · rw [htable] at hstored
      rcases Outstanding.mem_picked_put hstored with hnone | hearlier
      · cases hnone
      · exact .inr hearlier
  · intro number
    rw [Event.checkedOut?_moved hstage hnext, hstage, hnext]
    simp [dueOn]
  · intro other attempt rest hother
    cases hnext.symm.trans hother

/-- An operation is settled: it goes back to its slot, or is in play no more. -/
theorem Traced.settle (h : Traced setup history lane) {batch : List Proactor.Event}
    {attempt : Attempt} {resolved : List (Resolved (Numbered σ))}
    (hstage : lane.stage = .settling operation attempt batch)
    (hsettle : (lane.side.table.settle operation attempt lane.side.source).Returns exchanges
      (.ok resolved, next.side.table))
    (hnext : next.stage = .announcing resolved batch) :
    Traced setup (.moved lane exchanges next :: history) next := by
  obtain ⟨lending, hmirrors⟩ := h.mirrors
  obtain ⟨completions, kept, hresult, haftermath, hleft⟩ := hmirrors.aftermath hstage hsettle
  have hidle : ∀ operation batch, next.stage ≠ .attempting operation batch := by
    intro operation batch hother
    cases hnext.symm.trans hother
  refine h.idle ⟨_, hmirrors.settle hstage hsettle hnext⟩ ?_ (fun _ => accepted_of_moved) ?_ ?_ ?_
  · refine Event.attempted?_eq_none fun other rest hother => ?_
    cases hstage.symm.trans hother
  · rintro other (⟨rest, hother | hother⟩ | hstored)
    · exact absurd hother (hidle other rest)
    · cases hnext.symm.trans hother
    · rw [hleft] at hstored
      rcases Outstanding.mem_picked_keep hstored with hkept | hearlier
      · rcases haftermath.kept_cases hkept with ⟨rfl, rfl⟩ | hparked
        · exact .inl ⟨batch, .inr hstage⟩
        · exact .inr (Outstanding.mem_picked_of_slot (Outstanding.stored_of_parkedOn hparked))
      · exact .inr hearlier
  · intro number
    rw [Event.checkedOut?_eq_none hidle, hstage, hnext]
    rfl
  · intro other made rest hother
    cases hnext.symm.trans hother

/-- The calls of all attempts are those of some event. -/
theorem Traced.sound (hsound : ∀ event ∈ history, ∀ exchange ∈ event.exchanges,
    exchange.AcceptsAtMost) (number : Nat) :
    ∀ made ∈ tries number history, ∀ exchange ∈ made, exchange.AcceptsAtMost := by
  intro made hmade exchange hexchange
  obtain ⟨event, hevent, hmem⟩ := mem_tries hmade hexchange
  exact hsound event hevent exchange hmem

/-- The attempt that the loop is about to make does not panic. -/
theorem Traced.safe (h : Traced setup history lane)
    (hsound : ∀ event ∈ history, ∀ exchange ∈ event.exchanges, exchange.AcceptsAtMost)
    {batch : List Proactor.Event} (hstage : lane.stage = .attempting operation batch) :
    (Transfer.attempt setup.direction operation).NeverPanics :=
  (h.tracked operation (.inl ⟨batch, .inl hstage⟩)).lawful.safe (Traced.sound hsound _)

/-- A move of the loop. -/
theorem Traced.move (h : Traced setup history lane)
    (hsound : ∀ event ∈ history, ∀ exchange ∈ event.exchanges, exchange.AcceptsAtMost)
    (hmoves : Moves setup lane exchanges next) :
    Traced setup (.moved lane exchanges next :: history) next := by
  cases hmoves.step with
  | idle hnow hthen htable => exact h.pass hnow hthen htable
  | checkedOut hstage hcheck hnext => exact h.checkOut hstage hcheck hnext
  | attempted hstage | gaveUp hstage =>
      obtain ⟨changed, attempt, logs, hattempt, -, rfl⟩ :=
        hmoves.tried hstage (h.safe hsound hstage)
      exact h.attempt hstage hattempt
  | settled hstage hsettle hnext => exact h.settle hstage hsettle hnext
  | misplaced hstage hsettle hnext =>
      obtain ⟨lending, hmirrors⟩ := h.mirrors
      obtain ⟨completions, kept, hresult, -⟩ := hmirrors.aftermath hstage hsettle
      cases hresult

end Steps

/-- In every run all operations carry the outcome of the attempts made on them. -/
theorem Run.traced {setup : Setup} {history : List (Event (Numbered σ))}
    {lane : Lane (Numbered σ)} (h : Run setup history lane)
    (hsound : ∀ event ∈ history, ∀ exchange ∈ event.exchanges, exchange.AcceptsAtMost) :
    Traced setup history lane := by
  induction h with
  | opened source dispatching =>
      constructor
      case mirrors => exact ⟨_, .opened, rfl, rfl⟩
      case numbering => exact List.forall_mem_nil _
      case tracked =>
        rintro operation (⟨batch, hstage | hstage⟩ | hstored)
        · cases hstage
        · cases hstage
        · cases hstored
      case lawful =>
        rintro operation ⟨_, _, _, hmem⟩
        cases hmem
      case counted => exact fun _ => rfl
      case last =>
        intro operation attempt batch hstage
        cases hstage
  | submit hrun fd buffer sink policy hsubmit ih =>
      exact (ih (List.forall_mem_cons.mp hsound).2).submit hsubmit
  | @close history lane exchanges result side hrun hclose ih =>
      have htraced := ih (List.forall_mem_cons.mp hsound).2
      obtain ⟨lending, hmirrors⟩ := htraced.mirrors
      obtain ⟨rfl, -⟩ := Side.close_returns hclose
      exact htraced.idle ⟨lending, hmirrors.idle rfl rfl rfl⟩ rfl
        (fun _ hfirst => (accepted_cons hfirst).resolve_left nofun) (fun _ hplay => hplay)
        (fun _ => Nat.zero_add _) (fun _ _ _ _ => rfl)
  | move hrun hmoves ih =>
      have hearlier := (List.forall_mem_cons.mp hsound).2
      exact (ih hearlier).move hearlier hmoves

end Lane

/-! ## Faults of what resolves -/

/-- The fault of a failed change with a fallback was reported by the system in one of its calls,
unless the change was refused without a call. -/
theorem Source.Tried.fault_asked {source : Source} {first second : Fd → RawEvent → Control}
    {fallback : Errno} {fd : Fd} {event : RawEvent} {exchanges : List (Exchange σ)}
    {result : Except Fault Unit} {errno : Errno}
    (h : source.Tried first second fallback fd event exchanges result)
    (hresult : result = .error (.system errno)) (herrno : errno ≠ .badDescriptor) :
    ∃ change, (change = first fd event ∨ change = second fd event) ∧
      ⟨.control source.descriptor change, .error errno⟩ ∈ exchanges := by
  have hasked : ∀ {change : Fd → RawEvent → Control} {asked : List (Exchange σ)},
      source.Changed change fd event asked result →
      ⟨.control source.descriptor (change fd event), .error errno⟩ ∈ asked := by
    intro change asked hchanged
    cases hchanged with
    | refused => exact absurd (Fault.system.inj (Except.error.inj hresult)).symm herrno
    | asked _ _ answer =>
        cases answer with
        | ok value => cases hresult
        | error other =>
            cases hresult
            exact List.mem_singleton_self _
  cases h with
  | once hfirst => exact ⟨_, .inl rfl, hasked hfirst⟩
  | twice hfirst hsecond => exact ⟨_, .inr rfl, List.mem_append_right _ (hasked hsecond)⟩

namespace Outstanding

variable {table left : Outstanding σ} {source : Source} {exchanges : List (Exchange σ)}
  {resolved : List (Resolved σ)} {completed : Resolved σ} {errno : Errno}

/-- An operation that was to be kept resolves only with the fault of the rearm that failed. -/
theorem Retention.fault_asked {fd : Fd} {operation : Operation σ}
    (h : table.Retention fd operation source exchanges (resolved, left))
    (hmem : completed ∈ resolved) (hfault : completed.completion.fault = some (.system errno))
    (herrno : errno ≠ .badDescriptor) :
    ∃ change event, (change = .modify fd event ∨ change = .add fd event) ∧
      ⟨.control source.descriptor change, .error errno⟩ ∈ exchanges := by
  cases h with
  | kept => cases hmem
  | lost hrearm hdelete =>
      obtain rfl := List.mem_singleton.mp hmem
      obtain ⟨change, hchange, hexchange⟩ :=
        hrearm.fault_asked (congrArg Except.error (Option.some.inj hfault)) herrno
      exact ⟨change, _, hchange, List.mem_append_left _ hexchange⟩

/-- What resolves in a settlement ends as its attempt did, or because its descriptor could not be
rearmed. -/
theorem Settlement.fault_cases {operation : Operation σ} {attempt : Attempt}
    (h : table.Settlement operation source attempt exchanges (.ok resolved, left))
    (hmem : completed ∈ resolved) (hfault : completed.completion.fault = some (.system errno))
    (herrno : errno ≠ .badDescriptor) :
    (completed.ticket = operation.ticket ∧ attempt = .finished (some (.system errno))) ∨
      ∃ change event, (change = .modify operation.fd event ∨ change = .add operation.fd event) ∧
        ⟨.control source.descriptor change, .error errno⟩ ∈ exchanges := by
  cases h with
  | succeeded hslot hkeep =>
      rcases List.mem_cons.mp hmem with rfl | hlater
      · exact .inl ⟨rfl, congrArg Attempt.finished hfault⟩
      · exact .inr (hkeep.fault_asked hlater hfault herrno)
  | finished hslot hdisarm =>
      obtain rfl := List.mem_singleton.mp hmem
      exact .inl ⟨rfl, congrArg Attempt.finished hfault⟩
  | continued hslot hkeep => exact .inr (hkeep.fault_asked hmem hfault herrno)
  | dropped hslot hkeep =>
      obtain ⟨change, event, hchange, hexchange⟩ := hkeep.fault_asked hmem hfault herrno
      exact .inr ⟨change, event, hchange, List.mem_append_left _ hexchange⟩

end Outstanding

namespace Lane

/-! ## All runs -/

/-- Each event makes one attempt, and the attempts make the calls that they ought to make. -/
structure Disciplined (setup : Setup) (history : List (Event (Numbered σ)))
    (lane : Lane (Numbered σ)) : Prop where
  /-- Every time an operation was checked out, one attempt was made on it, but for the attempt that
  the loop is about to make. -/
  counted : ∀ number, checkOuts number history = (tries number history).length +
    dueOn number lane.stage
  /-- An attempt to read is one read of the whole buffer. -/
  reads : setup.direction = .read → ∀ operation, Accepted history operation →
    ∀ made ∈ tries operation.ticket.number history,
      ∃ answer, made = [⟨.read operation.fd operation.buffer.length, answer⟩]
  /-- The attempts on a write follow one another in two phases. -/
  writes : setup.direction = .write → ∀ operation, Accepted history operation →
    ∃ mark transferred, Trials operation.fd operation.buffer
      (tries operation.ticket.number history) mark transferred ∧
        Phases operation.fd operation.buffer mark (tries operation.ticket.number history)
  /-- A write in play carries the mark and the count to which its attempts have led. -/
  current : setup.direction = .write → ∀ operation, InPlay lane operation →
    Trials operation.fd operation.buffer (tries operation.ticket.number history)
      operation.notSocket operation.transferred
  /-- Nothing but an attempt moves data, apart from the wake pipe being emptied. -/
  alone : ∀ event ∈ history, event.attempted? = none → ∀ exchange ∈ event.exchanges,
    exchange.request.transferOn? = none ∨
      ∃ count, exchange.request = .read lane.side.source.wakePipe.readEnd count
  /-- The event of a descriptor with a waiting operation has it checked out. -/
  claimed : ∀ event batch operation, lane.stage = .handling (event :: batch) →
    event.isNotification = false → lane.side.table.slots.get? event.fd = some (.pending operation) →
    ∀ exchanges next, Moves setup lane exchanges next →
      calls exchanges = [] ∧ next.stage = .attempting operation batch
  /-- The event of a descriptor without a waiting operation makes no call and changes nothing. -/
  unclaimed : ∀ event batch, lane.stage = .handling (event :: batch) →
    event.isNotification = false →
    (∀ operation, lane.side.table.slots.get? event.fd ≠ some (.pending operation)) →
    ∀ exchanges next, Moves setup lane exchanges next →
      calls exchanges = [] ∧ next = ⟨lane.side, .handling batch⟩
  /-- An operation that is checked out is attempted next, without a panic. -/
  made : ∀ operation batch, lane.stage = .attempting operation batch →
    ∀ exchanges next, Moves setup lane exchanges next → ∃ changed attempt,
      (Transfer.attempt setup.direction operation).Returns (calls exchanges) (changed, attempt) ∧
        next = ⟨lane.side, .settling changed attempt batch⟩
  /-- A write resolves as one on something else than a socket only if its plain write or the call
  that failed to rearm its descriptor said so. -/
  reported : setup.direction = .write → ∀ operation attempt batch,
    lane.stage = .settling operation attempt batch →
    ∀ exchanges next, Moves setup lane exchanges next →
      ∃ resolved, next.stage = .announcing resolved batch ∧
        ∀ completed ∈ resolved, completed.completion.fault = some (.system .notSocket) →
          (completed.ticket = operation.ticket ∧ ∃ earlier made bytes,
            tries operation.ticket.number history = earlier ++ [made] ∧
              made.getLast? = some ⟨.write operation.fd bytes, .error .notSocket⟩) ∨
          ∃ change event, (change = .modify operation.fd event ∨ change = .add operation.fd event) ∧
            ⟨.control lane.side.source.descriptor change, .error .notSocket⟩ ∈ exchanges

section Runs

variable {setup : Setup} {history : List (Event (Numbered σ))} {lane next : Lane (Numbered σ)}
  {exchanges : List (Exchange (Numbered σ))}

/-- What a settlement says about descriptors that are no sockets comes from the last plain write,
or from rearming. -/
theorem Traced.reported (h : Traced setup history lane) (hdirection : setup.direction = .write)
    {operation : Operation (Numbered σ)} {attempt : Attempt} {batch : List Proactor.Event}
    (hstage : lane.stage = .settling operation attempt batch)
    (hmoves : Moves setup lane exchanges next) :
    ∃ resolved, next.stage = .announcing resolved batch ∧
      ∀ completed ∈ resolved, completed.completion.fault = some (.system .notSocket) →
        (completed.ticket = operation.ticket ∧ ∃ earlier made bytes,
          tries operation.ticket.number history = earlier ++ [made] ∧
            made.getLast? = some ⟨.write operation.fd bytes, .error .notSocket⟩) ∨
        ∃ change event, (change = .modify operation.fd event ∨ change = .add operation.fd event) ∧
          ⟨.control lane.side.source.descriptor change, .error .notSocket⟩ ∈ exchanges := by
  obtain ⟨lending, hmirrors⟩ := h.mirrors
  cases hmoves.step with
  | idle hnow =>
      rw [hstage] at hnow
      cases hnow
  | checkedOut hother | attempted hother | gaveUp hother => cases hstage.symm.trans hother
  | misplaced hother hsettle =>
      cases hstage.symm.trans hother
      obtain ⟨completions, kept, hresult, -⟩ := hmirrors.aftermath hstage hsettle
      cases hresult
  | @settled _ _ _ _ _ resolved hother hsettle hnext =>
      cases hstage.symm.trans hother
      refine ⟨resolved, hnext, fun completed hmem hfault => ?_⟩
      refine ((Outstanding.settle_cases hsettle).fault_cases hmem hfault (by decide)).imp_left ?_
      rintro ⟨hticket, rfl⟩
      obtain ⟨earlier, made, before, htries, hfd, hattempt⟩ := h.last operation _ batch hstage
      rw [hdirection] at hattempt
      obtain ⟨bytes, hlast⟩ := Transfer.write_notSocket hattempt
      rw [hfd] at hlast
      exact ⟨hticket, earlier, made, bytes, htries, hlast⟩

/-- In every run each event makes one attempt, with the calls that it ought to make. -/
theorem Run.disciplined (h : Run setup history lane)
    (hsound : ∀ event ∈ history, ∀ exchange ∈ event.exchanges, exchange.AcceptsAtMost) :
    Disciplined setup history lane := by
  have htraced := h.traced hsound
  constructor
  case counted => exact htraced.counted
  case reads =>
    intro hdirection operation hoperation
    obtain ⟨mark, transferred, hlawful⟩ := htraced.lawful operation hoperation
    rw [hdirection] at hlawful
    exact hlawful
  case writes =>
    intro hdirection operation hoperation
    obtain ⟨mark, transferred, hlawful⟩ := htraced.lawful operation hoperation
    rw [hdirection] at hlawful
    exact ⟨mark, transferred, hlawful, Trials.phases hlawful⟩
  case current =>
    intro hdirection operation hplay
    have hlawful := (htraced.tracked operation hplay).lawful
    rw [hdirection] at hlawful
    exact hlawful
  case alone =>
    intro event hevent hattempted exchange hexchange
    rcases h.transfers event hevent exchange hexchange with hquiet |
      ⟨operation, hoperation, -⟩ | hdrain
    · exact .inl hquiet
    · cases hattempted.symm.trans hoperation
    · exact .inr hdrain
  case claimed =>
    intro event batch operation hstage hevent hslot exchanges next hmoves
    have hcheck : lane.side.table.checkOut event.fd =
        some (operation, lane.side.table.put event.fd (.inFlight none)) :=
      Outstanding.checkOut_eq_some.mpr ⟨hslot, rfl⟩
    cases hmoves.readied hstage hevent with
    | checkedOut hside =>
        rw [Side.checkOut, hcheck] at hside
        cases hside
        exact ⟨rfl, rfl⟩
    | nothing hside =>
        rw [Side.checkOut, hcheck] at hside
        cases hside
  case unclaimed =>
    intro event batch hstage hevent hslot exchanges next hmoves
    cases hmoves.readied hstage hevent with
    | nothing => exact ⟨rfl, rfl⟩
    | @checkedOut operation changed hside =>
        obtain ⟨⟨checked, left⟩, hcheck, -⟩ := Option.map_eq_some_iff.mp hside
        exact absurd (Outstanding.checkOut_eq_some.mp hcheck).1 (hslot checked)
  case made =>
    intro operation batch hstage exchanges next hmoves
    obtain ⟨changed, attempt, logs, hattempt, -, hnext⟩ :=
      hmoves.tried hstage (htraced.safe hsound hstage)
    exact ⟨changed, attempt, hattempt, hnext⟩
  case reported =>
    intro hdirection operation attempt batch hstage exchanges next hmoves
    exact htraced.reported hdirection hstage hmoves

/-- A write of three bytes to a pipe. The first socket call is refused because the descriptor is
no socket, the plain write that follows takes one byte, and the next attempt is a plain write. -/
theorem disciplined_on_pipe :
    ∃ (setup : Setup) (history : List (Event (Numbered Unit))) (lane : Lane (Numbered Unit)),
      Run setup history lane ∧ setup.direction = .write ∧
        (∀ event ∈ history, ∀ exchange ∈ event.exchanges, exchange.AcceptsAtMost) ∧
        tries 0 history =
          [[⟨.send ⟨7⟩ [1, 2, 3], .error .notSocket⟩, ⟨.write ⟨7⟩ [1, 2, 3], .ok 1⟩],
            [⟨.write ⟨7⟩ [2, 3], .error .wouldBlock⟩]] ∧
        Disciplined setup history lane := by
  let setup : Setup := ⟨.write, .dropWhenFull, 4⟩
  let source : Source := ⟨⟨3⟩, ⟨⟨4⟩, ⟨5⟩⟩, false⟩
  let ready : RawEvent := ⟨Fd.key ⟨7⟩, EventMask.output⟩
  obtain ⟨history, lane, hrun, hsound, htries⟩ :
      ∃ history lane, Run (σ := Unit) setup history lane ∧
        (∀ event ∈ history, ∀ exchange ∈ event.exchanges, exchange.AcceptsAtMost) ∧
        tries 0 history =
          [[⟨.send ⟨7⟩ [1, 2, 3], .error .notSocket⟩, ⟨.write ⟨7⟩ [1, 2, 3], .ok 1⟩],
            [⟨.write ⟨7⟩ [2, 3], .error .wouldBlock⟩]] := by
    have hopened : Run (σ := Unit) setup [] ⟨⟨source, .empty .write, true⟩, .starting⟩ :=
      .opened source true
    have hsubmitted := hopened.submit ⟨7⟩ [1, 2, 3] ⟨(), false⟩ .overwrite
      ⟨.ok (), [], rfl, rfl, rfl⟩
    have hstarted := hsubmitted.move (.shared rfl ⟨rfl, rfl⟩)
    have hwaited := hstarted.move (.shared rfl ⟨.ok [ready, ready], _, rfl, rfl, rfl⟩)
    have hchecked := hwaited.move (.exclusive rfl ⟨(), _, rfl, rfl, rfl⟩)
    have hfirst := hchecked.move
      (.shared rfl ⟨.error .notSocket, _, rfl, .ok 1, _, rfl, (), _, rfl, rfl, rfl⟩)
    have hkept := hfirst.move (.exclusive rfl ⟨.ok (), _, rfl, rfl, rfl⟩)
    have hannounced := hkept.move (.shared rfl ⟨rfl, rfl⟩)
    have hagain := hannounced.move (.exclusive rfl ⟨(), _, rfl, rfl, rfl⟩)
    have hsecond := hagain.move (.shared rfl ⟨.error .wouldBlock, _, rfl, (), _, rfl, rfl, rfl⟩)
    refine ⟨_, _, hsecond, ?_, rfl⟩
    simp only [List.mem_cons, List.not_mem_nil, or_false, Event.exchanges,
      Exchange.AcceptsAtMost, forall_eq_or_imp, forall_eq, IsEmpty.forall_iff, implies_true,
      and_true, true_and]
    decide
  exact ⟨setup, history, lane, hrun, rfl, hsound, htries, hrun.disciplined hsound⟩

end Runs

end Lane

end Proactor
