import Proactor.Proofs.Alike
import Proactor.Proofs.Dispatching
import Proactor.Proofs.Endings
import Proactor.Proofs.Panics

/-!
# Batches do not matter

A loop takes the events that are reported to it in batches. `Plain` is a loop that is given its
events one by one and never waits. `Path.plain` says that every loop does what such a loop does,
and `Path.indistinct` that two loops with the same events do the same, however these are cut into
batches, as long as the system gives the same answers and submissions come at the same points.
-/

namespace Proactor

open EventLoop

variable {σ α β : Type}

/-! ## Systems that answer -/

/-- An answer to each request, in view of all that has been asked before. -/
abbrev Oracle (σ : Type) :=
  List (Exchange σ) → (request : Request σ) → request.Answer

/-- All answers are those of the oracle, after what has been asked before. -/
def Answered (oracle : Oracle σ) : List (Exchange σ) → List (Exchange σ) → Prop
  | _, [] => True
  | before, exchange :: rest =>
      exchange.answer = oracle before exchange.request ∧
        Answered oracle (before ++ [exchange]) rest

/-- An oracle has answered what is asked in two parts if it has answered the first part and, after
that, the second one. -/
theorem answered_append {oracle : Oracle σ} {before first second : List (Exchange σ)} :
    Answered oracle before (first ++ second) ↔
      Answered oracle before first ∧ Answered oracle (before ++ first) second := by
  induction first generalizing before with
  | nil =>
      rw [List.nil_append, List.append_nil]
      exact (and_iff_right trivial).symm
  | cons exchange first ih =>
      show _ ∧ Answered _ _ (first ++ second) ↔ (_ ∧ _) ∧ _
      rw [ih, and_assoc, List.append_assoc]
      rfl

/-- An oracle leaves a program one way to go. -/
theorem Program.Runs.unique {oracle : Oracle σ} {program : Program σ α}
    {before exchanges others : List (Exchange σ)} {outcome other : Outcome α}
    (h : program.Runs exchanges outcome) (hother : program.Runs others other)
    (hanswered : Answered oracle before exchanges) (hothers : Answered oracle before others) :
    others = exchanges ∧ other = outcome := by
  induction program generalizing before exchanges others with
  | done value | panic cause =>
      obtain ⟨rfl, rfl⟩ := h
      exact hother
  | call request next ih =>
      obtain ⟨answer, rest, rfl, hrest⟩ := h
      obtain ⟨given, last, rfl, hlast⟩ := hother
      obtain ⟨hanswer, hanswered⟩ := hanswered
      obtain ⟨hgiven, hothers⟩ := hothers
      obtain rfl : given = answer := hgiven.trans hanswer.symm
      obtain ⟨rfl, rfl⟩ := ih _ hrest hlast hanswered hothers
      exact ⟨rfl, rfl⟩

/-- Programs that are alike run alike. -/
theorem Program.Alike.runs {related : α → β → Prop} {first : Program σ α} {second : Program σ β}
    (h : Alike related first second) {exchanges : List (Exchange σ)} {outcome : Outcome α}
    (hruns : first.Runs exchanges outcome) :
    ∃ other, second.Runs exchanges other ∧ outcome.Alike related other := by
  induction h generalizing exchanges with
  | done hrelated =>
      obtain ⟨rfl, rfl⟩ := hruns
      exact ⟨_, ⟨rfl, rfl⟩, .returned hrelated⟩
  | panic cause =>
      obtain ⟨rfl, rfl⟩ := hruns
      exact ⟨_, ⟨rfl, rfl⟩, .panicked cause⟩
  | call request _ ih =>
      obtain ⟨answer, rest, rfl, hrest⟩ := hruns
      obtain ⟨other, hother, halike⟩ := ih answer hrest
      exact ⟨other, ⟨answer, rest, rfl, hother⟩, halike⟩

/-! ## Stages without their batches -/

namespace EventLoop.Stage

/-- The stage without a batch. With nothing in its hands a loop waits. -/
def plain : Stage σ → Stage σ
  | starting | waiting | handling _ => waiting
  | draining _ => draining []
  | attempting operation _ => attempting operation []
  | settling operation attempt _ => settling operation attempt []
  | announcing resolved _ => announcing resolved []
  | delivering delivery resolved _ => delivering delivery resolved []
  | ended ending => ended ending

/-- The stage with nothing in its batch but the event that comes next. -/
def alone : Stage σ → Stage σ
  | handling (event :: _) => handling [event]
  | stage => stage.plain

/-- The loop has something to do other than to wait. -/
def isActive : Stage σ → Bool
  | handling (_ :: _) => true
  | stage => stage.isBusy

/-- A loop that is busy has something to do. -/
theorem isActive_of_isBusy {stage : Stage σ} (h : stage.isBusy = true) :
    stage.isActive = true := by
  cases stage with
  | starting | waiting | handling | ended => cases h
  | _ => rfl

/-- Whether a loop is over does not depend on its batch. -/
theorem isEnded_plain (stage : Stage σ) : stage.plain.isEnded = stage.isEnded := by
  cases stage <;> rfl

/-- Whether a loop is busy does not depend on its batch. -/
theorem isBusy_plain (stage : Stage σ) : stage.plain.isBusy = stage.isBusy := by
  cases stage <;> rfl

/-- Stages that differ in their batches end alike. -/
theorem isEnded_eq_of_plain {first second : Stage σ} (h : first.plain = second.plain) :
    first.isEnded = second.isEnded := by
  rw [← isEnded_plain first, h, isEnded_plain]

end EventLoop.Stage

namespace Lane

/-- The lane without the batch of its loop. -/
def plain (lane : Lane σ) : Lane σ :=
  ⟨lane.side, lane.stage.plain⟩

/-- The lane with nothing in the batch of its loop but the event that comes next. -/
def alone (lane : Lane σ) : Lane σ :=
  ⟨lane.side, lane.stage.alone⟩

variable {setup : Setup} {lane next : Lane σ} {exchanges : List (Exchange σ)}

/-! ## Moves without the rest of the batch -/

/-- Two programs for a move end at stages that differ in their batches at most. -/
def SameStage (first second : Stage σ) : Prop :=
  first.plain = second.plain

/-- Likewise for moves that change the side. -/
def SameAnswer (first second : Stage σ × Side σ) : Prop :=
  first.1.plain = second.1.plain ∧ first.2 = second.2

/-- Stages that differ in their batches at most leave lanes that differ in that at most. -/
theorem reached_plain {side : Side σ} {first second : Outcome (Stage σ)}
    (h : first.Alike SameStage second) :
    (side.reached second).plain = (side.reached first).plain := by
  cases h with
  | panicked cause => rfl
  | returned hsame =>
      unfold plain Side.reached Side.afterStage
      dsimp only
      rw [Stage.isEnded_eq_of_plain hsame, show _ = _ from hsame]

/-- So do stages that come with the same side. -/
theorem reachedWith_plain {side : Side σ} {first second : Outcome (Stage σ × Side σ)}
    (h : first.Alike SameAnswer second) :
    (side.reachedWith second).plain = (side.reachedWith first).plain := by
  cases h with
  | panicked cause => rfl
  | @returned first second hsame =>
      obtain ⟨stage, changed⟩ := first
      obtain ⟨other, _⟩ := second
      obtain ⟨hplain, rfl⟩ := hsame
      unfold plain Side.reachedWith Side.afterStage
      dsimp only
      rw [Stage.isEnded_eq_of_plain hplain, show _ = _ from hplain]

/-- A move that leaves the side alone is also one without the rest of the batch, if its program is
alike without it. -/
theorem Moves.alike_shared {act other : Side σ → Program σ (Stage σ)}
    (h : Moves setup lane exchanges next) (hmove : lane.stage.move setup = .shared act)
    (hother : lane.stage.alone.move setup = .shared other)
    (halike : (act lane.side).Alike SameStage (other lane.side)) :
    ∃ after, Moves setup lane.alone exchanges after ∧ after.plain = next.plain := by
  obtain ⟨outcome, hruns, rfl⟩ := (moves_shared hmove).mp h
  obtain ⟨ended, hended, hsame⟩ := halike.runs hruns
  exact ⟨_, (moves_shared hother).mpr ⟨ended, hended, rfl⟩, reached_plain hsame⟩

/-- So is a move that changes the side. -/
theorem Moves.alike_exclusive {act other : Side σ → Program σ (Stage σ × Side σ)}
    (h : Moves setup lane exchanges next) (hmove : lane.stage.move setup = .exclusive act)
    (hother : lane.stage.alone.move setup = .exclusive other)
    (halike : (act lane.side).Alike SameAnswer (other lane.side)) :
    ∃ after, Moves setup lane.alone exchanges after ∧ after.plain = next.plain := by
  obtain ⟨outcome, hruns, rfl⟩ := (moves_exclusive hmove).mp h
  obtain ⟨ended, hended, hsame⟩ := halike.runs hruns
  exact ⟨_, (moves_exclusive hother).mpr ⟨ended, hended, rfl⟩, reachedWith_plain hsame⟩

open Program

/-- The rest of its batch makes no difference to a loop that has something to do. -/
theorem Moves.alone (h : Moves setup lane exchanges next) (hactive : lane.stage.isActive = true) :
    ∃ after, Moves setup lane.alone exchanges after ∧ after.plain = next.plain := by
  obtain ⟨side, stage⟩ := lane
  cases stage with
  | starting | waiting | ended => cases hactive
  | handling batch =>
      cases batch with
      | nil => cases hactive
      | cons event batch =>
          cases hevent : event.isNotification with
          | true =>
              refine h.alike_shared ((move_handling _ _ _).trans (if_pos hevent))
                ((move_handling _ _ _).trans (if_pos hevent)) (.bind_same fun stopping => ?_)
              cases stopping with
              | true => exact .bind_same fun _ => .pure rfl
              | false => exact .pure rfl
          | false =>
              have hnot : ¬ event.isNotification = true := by simp [hevent]
              refine h.alike_exclusive ((move_handling _ _ _).trans (if_neg hnot))
                ((move_handling _ _ _).trans (if_neg hnot)) (.bind_same fun _ => ?_)
              cases side.checkOut event.fd with
              | none => exact .bind_same fun _ => .pure ⟨rfl, rfl⟩
              | some checked => exact .pure ⟨rfl, rfl⟩
  | draining batch =>
      refine h.alike_shared rfl rfl (.bind_same fun more => ?_)
      cases more <;> exact .pure rfl
  | attempting operation batch =>
      refine h.alike_shared rfl rfl (.bind_same fun answer => ?_)
      dsimp only
      split
      · exact .bind_same fun _ => .pure rfl
      · exact .pure rfl
  | settling operation attempt batch =>
      refine h.alike_exclusive rfl rfl (.bind_same fun answer => ?_)
      obtain ⟨result, settled⟩ := answer
      cases result <;> exact .pure ⟨rfl, rfl⟩
  | announcing resolved batch =>
      cases resolved with
      | nil => exact h.alike_shared rfl rfl (.pure rfl)
      | cons first resolved => exact h.alike_shared rfl rfl (.bind_same fun _ => .pure rfl)
  | delivering delivery resolved batch =>
      refine h.alike_shared rfl rfl (.bind_same fun changed => ?_)
      cases changed <;> exact .pure rfl

/-- An oracle leaves a loop one way to move. -/
theorem Moves.unique {oracle : Oracle σ} {before others : List (Exchange σ)} {other : Lane σ}
    (h : Moves setup lane exchanges next) (hother : Moves setup lane others other)
    (hanswered : Answered oracle before exchanges) (hothers : Answered oracle before others) :
    others = exchanges ∧ other = next := by
  cases hmove : lane.stage.move setup with
  | shared act =>
      obtain ⟨outcome, hruns, rfl⟩ := (moves_shared hmove).mp h
      obtain ⟨ended, hended, rfl⟩ := (moves_shared hmove).mp hother
      obtain ⟨rfl, rfl⟩ := hruns.unique hended hanswered hothers
      exact ⟨rfl, rfl⟩
  | exclusive act =>
      obtain ⟨outcome, hruns, rfl⟩ := (moves_exclusive hmove).mp h
      obtain ⟨ended, hended, rfl⟩ := (moves_exclusive hmove).mp hother
      obtain ⟨rfl, rfl⟩ := hruns.unique hended hanswered hothers
      exact ⟨rfl, rfl⟩

/-- How many events a loop has room for matters only when it makes room and when it waits. -/
theorem move_congr {other : Setup} {stage : Stage σ}
    (hdirection : other.direction = setup.direction) (hdelivery : other.delivery = setup.delivery)
    (hactive : stage.isActive = true) :
    stage.move other = stage.move setup := by
  cases stage with
  | starting | waiting | ended => cases hactive
  | draining => rfl
  | handling batch =>
      cases batch with
      | nil => cases hactive
      | cons event batch =>
          rw [move_handling, move_handling, Stage.wakeMove, Stage.wakeMove, Stage.readyMove,
            Stage.readyMove, hdirection]
  | attempting => simp only [Stage.move, hdirection]
  | settling => rfl
  | announcing resolved => cases resolved <;> simp only [Stage.move, hdirection]
  | delivering => simp only [Stage.move, hdelivery]

/-- A loop that has something to do moves alike, however many events it has room for. -/
theorem Moves.congr {other : Setup} (h : Moves other lane exchanges next)
    (hdirection : other.direction = setup.direction) (hdelivery : other.delivery = setup.delivery)
    (hactive : lane.stage.isActive = true) : Moves setup lane exchanges next := by
  have hmove := move_congr hdirection hdelivery hactive
  cases hact : lane.stage.move setup with
  | shared act => exact (moves_shared hact).mpr ((moves_shared (hmove.trans hact)).mp h)
  | exclusive act => exact (moves_exclusive hact).mpr ((moves_exclusive (hmove.trans hact)).mp h)

/-! ## A loop that is given its events one by one -/

/-- What drives a lane: the calls of others, which can come while the loop is busy, the events that
the loop turns to, its work on them, and an end that it comes to while it has none. -/
inductive Input (σ : Type) where
  | submitted (operation : Operation σ) (policy : OverlapPolicy) (busy : Bool)
  | closed (busy : Bool)
  | turned (event : Proactor.Event)
  | worked
  | ended (ending : Ending)

/-- What a loop that ends without an event tells the log. -/
def report (direction : Direction) : Ending → List (Exchange σ)
  | .waitFailed fault => [⟨.log (.waitFailed direction fault), ()⟩]
  | .stopped | .panicked _ => []

/-- What a lane whose loop never waits does with an input. -/
inductive Takes (setup : Setup) (lane : Lane σ) :
    Input σ → List (Exchange σ) → Lane σ → Prop where
  | submit {exchanges : List (Exchange σ)} {result : Except ReactorError (Option (Operation σ))}
      {side : Side σ} {busy : Bool} (hbusy : lane.stage.isBusy = busy) (operation : Operation σ)
      (policy : OverlapPolicy)
      (hsubmit : (lane.side.submit operation policy).Returns exchanges (result, side)) :
      Takes setup lane (.submitted operation policy busy) exchanges { lane with side }
  | close {exchanges : List (Exchange σ)} {result : Except Fault Unit} {side : Side σ}
      {busy : Bool} (hbusy : lane.stage.isBusy = busy)
      (hclose : lane.side.close.Returns exchanges (result, side)) :
      Takes setup lane (.closed busy) exchanges { lane with side }
  | turn {exchanges : List (Exchange σ)} {next : Lane σ} (hwaiting : lane.stage = .waiting)
      (event : Proactor.Event)
      (hmoves : Moves setup ⟨lane.side, .handling [event]⟩ exchanges next) :
      Takes setup lane (.turned event) exchanges next.plain
  | work {exchanges : List (Exchange σ)} {next : Lane σ} (hbusy : lane.stage.isBusy = true)
      (hmoves : Moves setup lane exchanges next) : Takes setup lane .worked exchanges next.plain
  | finish (hwaiting : lane.stage = .waiting) (ending : Ending) :
      Takes setup lane (.ended ending) (report setup.direction ending)
        ⟨{ lane.side with dispatching := false }, .ended ending⟩

/-- A lane whose loop is given one event after the other and never waits. The last input comes
first, and the last exchange comes last. -/
inductive Plain (setup : Setup) (start : Side σ) :
    List (Input σ) → List (Exchange σ) → Lane σ → Prop where
  | here : Plain setup start [] [] ⟨start, .waiting⟩
  | take {inputs : List (Input σ)} {input : Input σ} {calls exchanges : List (Exchange σ)}
      {lane next : Lane σ} (h : Plain setup start inputs calls lane)
      (htakes : Takes setup lane input exchanges next) :
      Plain setup start (input :: inputs) (calls ++ exchanges) next

/-- An oracle leaves such a lane one way to take an input. -/
theorem Takes.unique {oracle : Oracle σ} {input : Input σ} {before others : List (Exchange σ)}
    {other : Lane σ} (h : Takes setup lane input exchanges next)
    (hother : Takes setup lane input others other) (hanswered : Answered oracle before exchanges)
    (hothers : Answered oracle before others) : others = exchanges ∧ other = next := by
  cases h with
  | submit _ _ _ hsubmit =>
      cases hother with
      | submit _ _ _ hagain =>
          obtain ⟨rfl, hsame⟩ := hsubmit.unique hagain hanswered hothers
          cases hsame
          exact ⟨rfl, rfl⟩
  | close _ hclose =>
      cases hother with
      | close _ hagain =>
          obtain ⟨rfl, hsame⟩ := hclose.unique hagain hanswered hothers
          cases hsame
          exact ⟨rfl, rfl⟩
  | turn _ _ hmoves =>
      cases hother with
      | turn _ _ hagain =>
          obtain ⟨rfl, rfl⟩ := hmoves.unique hagain hanswered hothers
          exact ⟨rfl, rfl⟩
  | work _ hmoves =>
      cases hother with
      | work _ hagain =>
          obtain ⟨rfl, rfl⟩ := hmoves.unique hagain hanswered hothers
          exact ⟨rfl, rfl⟩
  | finish =>
      cases hother with
      | finish => exact ⟨rfl, rfl⟩

/-- An oracle leaves such a lane one way to go. -/
theorem Plain.unique {oracle : Oracle σ} {start : Side σ} {inputs : List (Input σ)}
    {calls others : List (Exchange σ)} {lane other : Lane σ}
    (h : Plain setup start inputs calls lane) (hother : Plain setup start inputs others other)
    (hanswered : Answered oracle [] calls) (hothers : Answered oracle [] others) :
    others = calls ∧ other = lane := by
  induction h generalizing others other with
  | here =>
      cases hother
      exact ⟨rfl, rfl⟩
  | take _ htakes ih =>
      cases hother with
      | take hbefore hagain =>
          obtain ⟨hfirst, hlast⟩ := answered_append.mp hanswered
          obtain ⟨hone, htwo⟩ := answered_append.mp hothers
          obtain ⟨rfl, rfl⟩ := ih hbefore hfirst hone
          obtain ⟨rfl, rfl⟩ := htakes.unique hagain hlast htwo
          exact ⟨rfl, rfl⟩

/-- How many events it has room for makes no difference to such a lane. -/
theorem Takes.congr {other : Setup} {input : Input σ} (h : Takes other lane input exchanges next)
    (hdirection : other.direction = setup.direction)
    (hdelivery : other.delivery = setup.delivery) : Takes setup lane input exchanges next := by
  cases h with
  | submit hbusy operation policy hsubmit => exact .submit hbusy operation policy hsubmit
  | close hbusy hclose => exact .close hbusy hclose
  | turn hwaiting event hmoves =>
      exact .turn hwaiting event (hmoves.congr hdirection hdelivery rfl)
  | work hbusy hmoves =>
      exact .work hbusy (hmoves.congr hdirection hdelivery (Stage.isActive_of_isBusy hbusy))
  | finish hwaiting ending =>
      rw [hdirection]
      exact .finish hwaiting ending

/-- However many events it has room for, a loop that is given its events goes the same way. -/
theorem Plain.congr {other : Setup} {start : Side σ} {inputs : List (Input σ)}
    {calls : List (Exchange σ)} (h : Plain other start inputs calls lane)
    (hdirection : other.direction = setup.direction)
    (hdelivery : other.delivery = setup.delivery) : Plain setup start inputs calls lane := by
  induction h with
  | here => exact .here
  | take _ htakes ih => exact ih.take (htakes.congr hdirection hdelivery)

/-! ## A loop at rest -/

namespace Input

/-- The loop goes on with the event that it has. -/
def isWork : Input σ → Bool
  | worked => true
  | _ => false

/-- A call comes while the loop is busy. -/
def intrudes : Input σ → Bool
  | submitted _ _ busy | closed busy => busy
  | turned _ | worked | ended _ => false

/-- There is one input that stands for work. -/
theorem eq_worked {input : Input σ} (h : input.isWork = true) : input = worked := by
  cases input with
  | worked => rfl
  | _ => cases h

end Input

/-- What comes to a loop from outside. -/
def drives (inputs : List (Input σ)) : List (Input σ) :=
  inputs.filter fun input => !input.isWork

/-- What came last from outside is followed by nothing but work. -/
theorem drives_eq_cons {input : Input σ} {inputs rest : List (Input σ)}
    (h : drives inputs = input :: rest) :
    ∃ count earlier, inputs = List.replicate count .worked ++ input :: earlier ∧
      drives earlier = rest := by
  induction inputs with
  | nil => cases h
  | cons last inputs ih =>
      cases hlast : last.isWork with
      | false =>
          rw [drives, List.filter_cons_of_pos (by simp [hlast])] at h
          cases h
          exact ⟨0, inputs, rfl, rfl⟩
      | true =>
          rw [drives, List.filter_cons_of_neg (by simp [hlast])] at h
          obtain ⟨count, earlier, rfl, hearlier⟩ := ih h
          obtain rfl := Input.eq_worked hlast
          exact ⟨count + 1, earlier, rfl, hearlier⟩

section Rest

variable {oracle : Oracle σ} {start : Side σ} {front inputs others : List (Input σ)}
  {calls asked : List (Exchange σ)} {other : Lane σ}

/-- A lane that is given its events has been given the first of them. -/
theorem Plain.before (h : Plain setup start (front ++ inputs) calls lane) :
    ∃ earlier later passed, calls = earlier ++ later ∧ Plain setup start inputs earlier passed := by
  induction front generalizing calls lane with
  | nil => exact ⟨calls, [], lane, (List.append_nil _).symm, h⟩
  | cons input front ih =>
      cases h with
      | take hbefore =>
          obtain ⟨earlier, later, passed, rfl, hearlier⟩ := ih hbefore
          exact ⟨earlier, _, passed, List.append_assoc _ _ _, hearlier⟩

/-- What comes from outside finds the loop at rest, unless it is a call that intrudes. -/
theorem Plain.rested {input : Input σ} (h : Plain setup start (input :: inputs) calls lane)
    (hwork : input.isWork = false) (hintrudes : input.intrudes = false) :
    ∃ earlier later passed, calls = earlier ++ later ∧ Plain setup start inputs earlier passed ∧
      passed.stage.isBusy = false := by
  cases h with
  | take hbefore htakes =>
      refine ⟨_, _, _, rfl, hbefore, ?_⟩
      cases htakes with
      | submit hbusy | close hbusy => exact hbusy.trans hintrudes
      | turn hwaiting | finish hwaiting =>
          rw [hwaiting]
          rfl
      | work => cases hwork

/-- A loop at rest does not work. -/
theorem Plain.work_eq_zero {count : Nat} (h : Plain setup start inputs calls lane)
    (hrest : lane.stage.isBusy = false)
    (hother : Plain setup start (List.replicate count .worked ++ inputs) asked other)
    (hanswered : Answered oracle [] calls) (hasked : Answered oracle [] asked) : count = 0 := by
  cases count with
  | zero => rfl
  | succ count =>
      rw [List.replicate_succ', List.append_assoc] at hother
      obtain ⟨earlier, later, passed, rfl, hreached⟩ := hother.before
      cases hreached with
      | take hbefore htakes =>
          have hearlier := (answered_append.mp (answered_append.mp hasked).1).1
          obtain ⟨-, rfl⟩ := h.unique hbefore hanswered hearlier
          cases htakes with
          | work hbusy =>
              rw [hrest] at hbusy
              cases hbusy

/-- Lanes that have been given the same from outside differ at most in how long their loops have
worked since then. -/
theorem Plain.compare (h : Plain setup start inputs calls lane)
    (hother : Plain setup start others asked other) (hdrives : drives others = drives inputs)
    (hcalm : ∀ input ∈ inputs, input.intrudes = false)
    (hcalms : ∀ input ∈ others, input.intrudes = false)
    (hanswered : Answered oracle [] calls) (hasked : Answered oracle [] asked) :
    ∃ count, inputs = List.replicate count .worked ++ others ∨
      others = List.replicate count .worked ++ inputs := by
  induction inputs generalizing calls lane others asked other with
  | nil =>
      refine ⟨others.length, .inr ?_⟩
      rw [List.append_nil]
      refine List.eq_replicate_of_mem fun input hinput => Input.eq_worked ?_
      simpa using List.filter_eq_nil_iff.mp hdrives input hinput
  | cons input inputs ih =>
      obtain ⟨hfirst, hpast⟩ := List.forall_mem_cons.mp hcalm
      cases hwork : input.isWork with
      | true =>
          obtain rfl := Input.eq_worked hwork
          cases h with
          | take hbefore =>
              obtain ⟨count, rfl | rfl⟩ := ih hbefore hother hdrives hpast hcalms
                (answered_append.mp hanswered).1 hasked
              · exact ⟨count + 1, .inl rfl⟩
              · cases count with
                | zero => exact ⟨1, .inl rfl⟩
                | succ count =>
                    refine ⟨count, .inr ?_⟩
                    rw [List.replicate_succ', List.append_assoc]
                    rfl
      | false =>
          rw [drives, drives, List.filter_cons_of_pos (by simp [hwork])] at hdrives
          obtain ⟨count, earlier, rfl, hsame⟩ := drives_eq_cons hdrives
          obtain ⟨hcame, hcalms⟩ :=
            List.forall_mem_cons.mp (List.forall_mem_append.mp hcalms).2
          obtain ⟨_, _, passed, rfl, hbefore, hrest⟩ := h.rested hwork hfirst
          obtain ⟨_, _, _, rfl, hreached⟩ := hother.before
          obtain ⟨_, _, reached, rfl, hagain, hidle⟩ := hreached.rested hwork hcame
          have hone := (answered_append.mp hanswered).1
          have htwo := (answered_append.mp (answered_append.mp hasked).1).1
          -- Both loops were at rest when this came, so neither had worked more than the other.
          refine ⟨count, .inr ?_⟩
          obtain ⟨more, heq | heq⟩ := ih hbefore hagain hsame hpast hcalms hone htwo
          · obtain rfl := hagain.work_eq_zero hidle (heq ▸ hbefore) htwo hone
            rw [heq]
            rfl
          · obtain rfl := hbefore.work_eq_zero hrest (heq ▸ hagain) hone htwo
            rw [heq]
            rfl

/-- Once their loops are at rest they do not differ in that either. -/
theorem Plain.inputs_eq (h : Plain setup start inputs calls lane)
    (hother : Plain setup start others asked other) (hdrives : drives others = drives inputs)
    (hcalm : ∀ input ∈ inputs, input.intrudes = false)
    (hcalms : ∀ input ∈ others, input.intrudes = false)
    (hrest : lane.stage.isBusy = false) (hidle : other.stage.isBusy = false)
    (hanswered : Answered oracle [] calls) (hasked : Answered oracle [] asked) :
    others = inputs := by
  obtain ⟨count, rfl | rfl⟩ := h.compare hother hdrives hcalm hcalms hanswered hasked
  · obtain rfl := hother.work_eq_zero hidle h hasked hanswered
    rfl
  · obtain rfl := h.work_eq_zero hrest hother hanswered hasked
    rfl

end Rest

/-! ## What drives a lane -/

/-- The stage of a loop that has started at the beginning of a history. -/
def stageAfter : List (Event σ) → Stage σ
  | [] => .starting
  | .moved _ _ after :: _ => after.stage
  | .submitted _ _ _ _ :: history | .closed _ :: history => stageAfter history

namespace Event

/-- What drives a loop to a move. To make room, to wait and to wait again are nothing that does. -/
def drive : Event σ → List (Input σ)
  | moved ⟨_, .handling (event :: _)⟩ _ _ => [.turned event]
  | moved ⟨_, .starting⟩ _ ⟨_, .ended ending⟩ => [.ended ending]
  | moved ⟨_, .waiting⟩ _ ⟨_, .ended ending⟩ => [.ended ending]
  | moved ⟨_, stage⟩ _ _ => if stage.isBusy then [.worked] else []
  | submitted _ _ _ _ | closed _ => []

/-- What has been asked of the system, other than for events. -/
def calls (event : Event σ) : List (Exchange σ) :=
  event.exchanges.filter fun exchange => !exchange.request.isWait

/-- Without a request for events all has been something else. -/
theorem calls_eq (event : Event σ)
    (h : ∀ exchange ∈ event.exchanges, exchange.request.isWait = false) :
    event.calls = event.exchanges :=
  List.filter_eq_self.mpr fun exchange hexchange => by simp [h exchange hexchange]

/-- A loop that ends where it makes room or waits is driven by nothing but that end. -/
theorem drive_ended {ending : Ending} (hstage : lane.stage = .starting ∨ lane.stage = .waiting)
    (hnext : next.stage = .ended ending) : (moved lane exchanges next).drive = [.ended ending] := by
  obtain ⟨side, stage⟩ := lane
  obtain ⟨left, after⟩ := next
  subst hnext
  rcases hstage with hstarting | hwaiting
  · obtain rfl : stage = _ := hstarting
    rfl
  · obtain rfl : stage = _ := hwaiting
    rfl

/-- A loop without anything to do is not driven as long as it goes on. -/
theorem drive_eq_nil (hidle : lane.stage.isActive = false)
    (hnext : next.stage.isEnded = lane.stage.isEnded) :
    (moved lane exchanges next).drive = [] := by
  obtain ⟨side, stage⟩ := lane
  obtain ⟨left, after⟩ := next
  cases stage with
  | draining | attempting | settling | announcing | delivering => cases hidle
  | ended => rfl
  | starting | waiting =>
      cases after with
      | ended => cases hnext
      | _ => rfl
  | handling batch =>
      cases batch with
      | nil => rfl
      | cons => cases hidle

end Event

/-- What has driven a lane, the last input first. -/
def inputs : List (Event σ) → List (Input σ)
  | [] => []
  | .submitted operation policy _ _ :: history =>
      .submitted operation policy (stageAfter history).isBusy :: inputs history
  | .closed _ :: history => .closed (stageAfter history).isBusy :: inputs history
  | .moved before exchanges after :: history =>
      (Event.moved before exchanges after).drive ++ inputs history

/-- What has been asked of the system in a history, other than for events. -/
def calls (history : List (Event σ)) : List (Exchange σ) :=
  collect Event.calls history

variable {start : Lane σ} {history : List (Event σ)} {side : Side σ}

/-- The move on which a loop ends takes its flag down. -/
theorem Moves.lowered (h : Moves setup lane exchanges next) (hended : next.stage.isEnded = true) :
    next.side.dispatching = false := by
  cases h with
  | shared | exclusive =>
      rw [Side.dispatching_afterStage, show Stage.isEnded _ = true from hended, Bool.not_true,
        Bool.and_false]
  | sharedPanic | exclusivePanic =>
      rw [Side.dispatching_afterStage]
      exact Bool.and_false _

/-- The flag of a loop that is over is down. -/
theorem Path.lowered (h : Path setup start history lane) (hstart : start.stage = .starting)
    (hended : lane.stage.isEnded = true) : lane.side.dispatching = false := by
  induction h with
  | here =>
      rw [hstart] at hended
      cases hended
  | submit _ _ _ hsubmit ih => exact (Side.submit_dispatching.of_returns hsubmit).trans (ih hended)
  | close _ hclose ih =>
      obtain ⟨rfl, -⟩ := Side.close_returns hclose
      exact ih hended
  | move _ hmoves => exact hmoves.lowered hended

/-- The stage of a lane is the one that its last move has led to. -/
theorem Path.stage_eq (h : Path setup start history lane) (hstart : start.stage = .starting) :
    lane.stage = stageAfter history := by
  induction h with
  | here => exact hstart
  | submit _ _ _ _ ih | close _ _ ih => exact ih
  | move => rfl

/-- Nothing has happened to a loop that is given its events when another one has made room, has
waited, or has come to the end of its batch. -/
theorem Plain.still {inputs : List (Input σ)} {calls : List (Exchange σ)}
    (h : Plain setup side inputs calls lane.plain) (hidle : lane.stage.isActive = false)
    (hcalls : (Event.moved lane exchanges next).calls = []) (hsame : next.plain = lane.plain) :
    Plain setup side ((Event.moved lane exchanges next).drive ++ inputs)
      (calls ++ (Event.moved lane exchanges next).calls) next.plain := by
  have hended := Stage.isEnded_eq_of_plain (congrArg Lane.stage hsame)
  rw [Event.drive_eq_nil hidle hended, hcalls, hsame, List.append_nil]
  exact h

/-- A loop that is given its events ends when another one cannot wait for them. -/
theorem Plain.ends {inputs : List (Input σ)} {calls : List (Exchange σ)} {ending : Ending}
    (h : Plain setup side inputs calls lane.plain)
    (hstage : lane.stage = .starting ∨ lane.stage = .waiting)
    (hcalls : (Event.moved lane exchanges next).calls = report setup.direction ending)
    (hnext : next = ⟨{ lane.side with dispatching := false }, .ended ending⟩) :
    Plain setup side ((Event.moved lane exchanges next).drive ++ inputs)
      (calls ++ (Event.moved lane exchanges next).calls) next.plain := by
  have hwaiting : lane.plain.stage = .waiting := by
    rcases hstage with hstage | hstage
    all_goals
      rw [plain, hstage]
      rfl
  rw [Event.drive_ended hstage (by rw [hnext]), hcalls, hnext]
  exact h.take (.finish hwaiting ending)

/-- A loop that is given its events does nothing while another one waits for them, and ends if that
one cannot wait. -/
theorem Plain.waited {inputs : List (Input σ)} {calls : List (Exchange σ)}
    (h : Plain setup side inputs calls lane.plain) (hstage : lane.stage = .waiting)
    (hwaited : Waited setup lane.side exchanges next) :
    Plain setup side ((Event.moved lane exchanges next).drive ++ inputs)
      (calls ++ (Event.moved lane exchanges next).calls) next.plain := by
  have hidle : lane.stage.isActive = false := by rw [hstage]; rfl
  have hplain : lane.plain = ⟨lane.side, .waiting⟩ := by rw [plain, hstage]; rfl
  cases hwaited with
  | reported | interrupted => exact h.still hidle rfl hplain.symm
  | failed | shut | overfull => exact h.ends (.inr hstage) rfl rfl

/-- A loop that is given its events does nothing when another one has nothing to do. -/
theorem Plain.idle {inputs : List (Input σ)} {calls : List (Exchange σ)}
    (h : Plain setup side inputs calls lane.plain) (hidle : lane.stage.isActive = false)
    (hmoves : Moves setup lane exchanges next)
    (hlowered : lane.stage.isEnded = true → lane.side.dispatching = false) :
    Plain setup side ((Event.moved lane exchanges next).drive ++ inputs)
      (calls ++ (Event.moved lane exchanges next).calls) next.plain := by
  cases hstage : lane.stage with
  | draining | attempting | settling | announcing | delivering =>
      rw [hstage] at hidle
      cases hidle
  | waiting => exact h.waited hstage (hmoves.waited hstage)
  | ended ending =>
      obtain ⟨rfl, rfl⟩ := hmoves.of_over hstage
      refine h.still hidle rfl ?_
      have hflag := hlowered (by rw [hstage]; rfl)
      rw [plain, plain, hstage, ← hflag]
  | starting =>
      obtain ⟨rfl, rfl | rfl⟩ := hmoves.of_starting hstage
      · exact h.still hidle rfl (by rw [plain, plain, hstage]; rfl)
      · exact h.ends (.inl hstage) rfl rfl
  | handling batch =>
      cases batch with
      | cons =>
          rw [hstage] at hidle
          cases hidle
      | nil =>
          obtain ⟨rfl, rfl⟩ := hmoves.of_handled hstage
          exact h.still hidle rfl (by rw [plain, plain, hstage]; rfl)

/-- A loop that is given its events does what another one does that has something to do. -/
theorem Plain.active {inputs : List (Input σ)} {calls : List (Exchange σ)}
    (h : Plain setup side inputs calls lane.plain) (hactive : lane.stage.isActive = true)
    (hmoves : Moves setup lane exchanges next) :
    Plain setup side ((Event.moved lane exchanges next).drive ++ inputs)
      (calls ++ exchanges) next.plain := by
  obtain ⟨after, halone, hsame⟩ := hmoves.alone hactive
  rw [← hsame]
  obtain ⟨left, stage⟩ := lane
  cases stage with
  | starting | waiting | ended => cases hactive
  | draining | attempting | settling | announcing | delivering => exact h.take (.work rfl halone)
  | handling batch =>
      cases batch with
      | nil => cases hactive
      | cons event batch => exact h.take (.turn rfl event halone)

/-- Every loop does what a loop does that is given its events one by one. -/
theorem Path.plain (h : Path setup ⟨side, .starting⟩ history lane) :
    Plain setup side (inputs history) (calls history) lane.plain := by
  induction h with
  | here => exact .here
  | submit hpath operation policy hsubmit ih =>
      rw [calls, collect_cons, Event.calls_eq (.submitted operation policy _ _)
        (Side.submit_asksNoWait.request hsubmit), inputs, ← hpath.stage_eq rfl]
      exact ih.take (.submit (Stage.isBusy_plain _) operation policy hsubmit)
  | close hpath hclose ih =>
      rw [calls, collect_cons, Event.calls_eq (.closed _) (Side.close_asksNoWait.request hclose),
        inputs, ← hpath.stage_eq rfl]
      exact ih.take (.close (Stage.isBusy_plain _) hclose)
  | @move _ before _ _ hpath hmoves ih =>
      rw [calls, collect_cons]
      -- What a loop does while it has nothing to handle is left out, but for its end.
      cases hactive : before.stage.isActive with
      | false => exact ih.idle hactive hmoves (hpath.lowered rfl)
      | true =>
          have hwaiting : before.stage ≠ .waiting := by
            intro hstage
            rw [hstage] at hactive
            cases hactive
          rw [Event.calls_eq (.moved before _ _) fun exchange hexchange =>
            Request.isWait_eq_of_mayAsk (hmoves.mayAsk exchange hexchange) hwaiting]
          exact ih.active hactive hmoves

/-! ## However events are cut into batches -/

/-- The event that a loop is given. -/
def Input.given? : Input σ → Option Proactor.Event
  | turned event => some event
  | _ => none

/-- The event that a move handles is the one that drives it. -/
theorem Event.handled_eq (before after : Lane σ) (exchanges : List (Exchange σ)) :
    (moved before exchanges after).handled =
      (moved before exchanges after).drive.reverse.filterMap Input.given? := by
  obtain ⟨side, stage⟩ := before
  obtain ⟨left, last⟩ := after
  cases stage with
  | starting | waiting => cases last <;> rfl
  | handling batch => cases batch <;> rfl
  | _ => rfl

/-- The events that a loop handles are among what drives it. -/
theorem handled_eq (history : List (Event σ)) :
    handled history = (inputs history).reverse.filterMap Input.given? := by
  induction history with
  | nil => rfl
  | cons event history ih =>
      rw [handled, collect_cons]
      cases event with
      | submitted | closed =>
          rw [inputs, List.reverse_cons, List.filterMap_append, ← ih]
          rfl
      | moved before exchanges after =>
          rw [inputs, List.reverse_append, List.filterMap_append, ← Event.handled_eq, ← ih]
          rfl

/-- No call has come to the loop while it was busy, and it is not busy now. -/
structure Undisturbed (history : List (Event σ)) (lane : Lane σ) : Prop where
  rest : lane.stage.isBusy = false
  calls : ∀ input ∈ inputs history, input.intrudes = false

/-- Two lanes with loops of the same kind start alike and are driven alike, and the system answers
alike. Their loops may have room for different numbers of events, and may be told of them in
different batches. -/
structure Comparable (setup : Setup) (side : Side σ) (oracle : Oracle σ) (history : List (Event σ))
    (lane : Lane σ) (other : Setup) (others : List (Event σ)) (after : Lane σ) : Prop where
  path : Path other ⟨side, .starting⟩ others after
  direction : other.direction = setup.direction
  delivery : other.delivery = setup.delivery
  answered : Answered oracle [] (Lane.calls history)
  alike : Answered oracle [] (Lane.calls others)
  /-- Calls that come while a loop is busy come after the same work in both lanes. If there are
  none it is enough that the same has come from outside. -/
  driven : inputs others = inputs history ∨
    drives (inputs others) = drives (inputs history) ∧
      Undisturbed history lane ∧ Undisturbed others after

/-- Nothing but their waits tells two lanes apart. -/
structure Indistinct (history : List (Event σ)) (lane : Lane σ) (others : List (Event σ))
    (after : Lane σ) : Prop where
  inputs : inputs others = inputs history
  calls : calls others = calls history
  handled : handled others = handled history
  dispatched : collect Event.dispatched others = collect Event.dispatched history
  side : after.side = lane.side
  stage : after.stage.plain = lane.stage.plain

/-- Loops that are told of the same events in different batches do the same. -/
theorem Path.indistinct {oracle : Oracle σ} {other : Setup} {others : List (Event σ)}
    {after : Lane σ} (h : Path setup ⟨side, .starting⟩ history lane)
    (hother : Comparable setup side oracle history lane other others after) :
    Indistinct history lane others after := by
  have hplain := h.plain
  have hagain := hother.path.plain.congr hother.direction hother.delivery
  have hinputs : inputs others = inputs history := by
    rcases hother.driven with hsame | ⟨hdrives, hfirst, hsecond⟩
    · exact hsame
    · exact hplain.inputs_eq hagain hdrives hfirst.calls hsecond.calls
        ((Stage.isBusy_plain _).trans hfirst.rest) ((Stage.isBusy_plain _).trans hsecond.rest)
        hother.answered hother.alike
  rw [hinputs] at hagain
  obtain ⟨hcalls, hlane⟩ := hplain.unique hagain hother.answered hother.alike
  have hhandled : handled others = handled history := by
    rw [handled_eq, handled_eq, hinputs]
  have hside : after.plain.side = lane.plain.side := congrArg Lane.side hlane
  exact {
    inputs := hinputs
    calls := hcalls
    handled := hhandled
    dispatched := by rw [hother.path.dispatched_eq, h.dispatched_eq, hhandled]
    side := hside
    stage := congrArg Lane.stage hlane }

/-- What a loop makes of its events, and that it makes the same of them in other batches. -/
structure Batched (setup : Setup) (side : Side (Numbered σ)) (history : List (Event (Numbered σ)))
    (lane : Lane (Numbered σ)) : Prop extends Dispatched setup history lane where
  /-- The loop does what a loop does that is given its events one by one. -/
  plain : Plain setup side (inputs history) (calls history) lane.plain
  given : handled history = (inputs history).reverse.filterMap Input.given?
  /-- Where the system keeps to its limits and there is memory for a batch, a loop that began
  without operations panics only if a sink does. -/
  panicked : Run setup history lane →
    (∀ event ∈ history, ∀ exchange ∈ event.exchanges, exchange.Bounded) →
    setup.batch * Source.eventSize ≤ Source.memoryLimit →
      ∀ cause, lane.stage = .ended (.panicked cause) → ∃ event ∈ history, event.SinkPanics cause
  /-- Loops with the same events do the same, however these are cut into batches. -/
  unsplit : ∀ oracle other others after,
    Comparable setup side oracle history lane other others after →
      Indistinct history lane others after

/-- Every loop dispatches the events it is told of until it ends, and does the same however they are
batched. -/
theorem Path.batched {side : Side (Numbered σ)} {history : List (Event (Numbered σ))}
    {lane : Lane (Numbered σ)} (h : Path setup ⟨side, .starting⟩ history lane) :
    Batched setup side history lane := by
  refine { h.dispatches rfl with
    plain := h.plain
    given := handled_eq history
    panicked := ?_
    unsplit := fun _ _ _ _ => h.indistinct }
  intro hrun hbounded hfits cause hstage
  exact hrun.sinkPanics hfits hbounded (by rw [hstage]; rfl)

/-- A loop with room for four events is told of two at once, and another one, that has room for
one, is told of them one by one. Between them it is interrupted and then told of nothing. -/
theorem batched_one_by_one :
    ∃ (setup : Setup) (side : Side (Numbered Unit)) (oracle : Oracle (Numbered Unit))
      (history : List (Event (Numbered Unit))) (lane : Lane (Numbered Unit)) (other : Setup)
      (others : List (Event (Numbered Unit))) (after : Lane (Numbered Unit)),
      Path setup ⟨side, .starting⟩ history lane ∧ setup.capacity = 4 ∧
        (batches history).map (List.map Proactor.Event.fd) = [[⟨8⟩, ⟨7⟩]] ∧
        other.capacity = 0 ∧
        (batches others).map (List.map Proactor.Event.fd) = [[⟨8⟩], [], [⟨7⟩]] ∧
        Comparable setup side oracle history lane other others after ∧
        Batched setup side history lane := by
  let setup : Setup := ⟨.write, .dropWhenFull, 4⟩
  let other : Setup := ⟨.write, .dropWhenFull, 0⟩
  let source : Source := ⟨⟨3⟩, ⟨⟨4⟩, ⟨5⟩⟩, false⟩
  let side : Side (Numbered Unit) := ⟨source, .empty .write, true⟩
  let operation : Operation (Numbered Unit) := .submitted ⟨7⟩ [1, 2] ⟨(0, ()), false⟩
  let oracle : Oracle (Numbered Unit) := fun _ => Request.granted
  let ready : RawEvent := ⟨Fd.key ⟨7⟩, EventMask.output⟩
  let spurious : RawEvent := ⟨Fd.key ⟨8⟩, EventMask.output⟩
  have hsubmitted : ∀ setup, Path setup ⟨side, .starting⟩ _ _ := fun setup =>
    Path.here.submit operation .overwrite ⟨.ok (), [], rfl, rfl, rfl⟩
  have hwaited := ((hsubmitted setup).move (.shared rfl ⟨rfl, rfl⟩)).move
    (.shared rfl ⟨.ok [spurious, ready], _, rfl, rfl, rfl⟩)
  have hpassed := hwaited.move (.exclusive rfl ⟨(), _, rfl, (), _, rfl, rfl, rfl⟩)
  have hchecked := hpassed.move (.exclusive rfl ⟨(), _, rfl, rfl, rfl⟩)
  have hattempted := hchecked.move (.shared rfl ⟨.ok 2, _, rfl, rfl, rfl⟩)
  have hsettled := hattempted.move (.exclusive rfl ⟨.ok (), _, rfl, rfl, rfl⟩)
  have hannounced := hsettled.move (.shared rfl ⟨(), _, rfl, rfl, rfl⟩)
  have hdelivered := hannounced.move (.shared rfl ⟨.accepted, _, rfl, rfl, rfl⟩)
  have hdone := hdelivered.move (.shared rfl ⟨rfl, rfl⟩)
  -- The other loop waits between its two events, for one event at a time.
  have hfirst := ((hsubmitted other).move (.shared rfl ⟨rfl, rfl⟩)).move
    (.shared rfl ⟨.ok [spurious], _, rfl, rfl, rfl⟩)
  have hskipped := (hfirst.move (.exclusive rfl ⟨(), _, rfl, (), _, rfl, rfl, rfl⟩)).move
    (.shared rfl ⟨rfl, rfl⟩)
  have hinterrupted := hskipped.move (.shared rfl ⟨.error .interrupted, _, rfl, rfl, rfl⟩)
  have hnothing := (hinterrupted.move (.shared rfl ⟨.ok [], _, rfl, rfl, rfl⟩)).move
    (.shared rfl ⟨rfl, rfl⟩)
  have hsecond := hnothing.move (.shared rfl ⟨.ok [ready], _, rfl, rfl, rfl⟩)
  have htaken := hsecond.move (.exclusive rfl ⟨(), _, rfl, rfl, rfl⟩)
  have hwritten := htaken.move (.shared rfl ⟨.ok 2, _, rfl, rfl, rfl⟩)
  have hleft := hwritten.move (.exclusive rfl ⟨.ok (), _, rfl, rfl, rfl⟩)
  have htold := hleft.move (.shared rfl ⟨(), _, rfl, rfl, rfl⟩)
  have hgiven := htold.move (.shared rfl ⟨.accepted, _, rfl, rfl, rfl⟩)
  have hended := hgiven.move (.shared rfl ⟨rfl, rfl⟩)
  refine ⟨setup, side, oracle, _, _, other, _, _, hdone, rfl, rfl, rfl, ?events,
    ⟨hended, rfl, rfl, ?answered, ?alike, .inr ⟨rfl, ⟨rfl, ?calm⟩, ⟨rfl, ?calms⟩⟩⟩, hdone.batched⟩
  case events => rfl
  case answered | alike => exact ⟨rfl, rfl, rfl, rfl, rfl, rfl, rfl, rfl, trivial⟩
  case calm | calms => decide

end Lane

end Proactor
