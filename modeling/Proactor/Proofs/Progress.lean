import Proactor.Proofs.Endings
import Proactor.Proofs.Signals

/-!
# Loops come to an end

A loop that has been told to stop ends after finitely many moves, unless the system puts its end
off again and again: by interrupting its waits or ending them without a wake-up, by keeping its
pipe full, by hiding the stop flag, or by having a sink polled for ever. `Moves.rank_lt` says that
every move without such a delay takes the loop nearer to its end. No loop is ever stuck, as
`exists_moves` says: it is the system that has to answer.
-/

namespace Proactor

variable {σ α : Type}

/-! ## Programs go on -/

/-- Every request can be answered. -/
theorem Request.exists_answer (request : Request σ) : Nonempty request.Answer := by
  cases request with
  | offer | offerWithin => exact ⟨Reception.accepted⟩
  | stopping | join => exact ⟨false⟩
  | now => exact ⟨(⟨0⟩ : Instant)⟩
  | release | log | raiseStop | pause => exact ⟨()⟩
  | _ => exact ⟨.error ⟨0⟩⟩

namespace Program

variable {program : Program σ α}

/-- Every program can be run to its end. -/
theorem exists_runs (program : Program σ α) :
    ∃ exchanges outcome, program.Runs exchanges outcome := by
  induction program with
  | done value => exact ⟨[], _, rfl, rfl⟩
  | panic cause => exact ⟨[], _, rfl, rfl⟩
  | call request next ih =>
      obtain ⟨answer⟩ := request.exists_answer
      obtain ⟨exchanges, outcome, hruns⟩ := ih answer
      exact ⟨_, outcome, answer, exchanges, rfl, hruns⟩

/-- A program that does not panic can return. -/
theorem NeverPanics.exists_returns (h : program.NeverPanics) :
    ∃ exchanges value, program.Returns exchanges value := by
  obtain ⟨exchanges, outcome, hruns⟩ := exists_runs program
  cases outcome with
  | returned value => exact ⟨exchanges, value, hruns⟩
  | panicked cause => exact absurd hruns (h exchanges cause)

/-- What a program can return is known from all of its runs. -/
theorem yields_of_returns {kind : α → Prop}
    (h : ∀ exchanges value, program.Returns exchanges value → kind value) :
    program.Yields kind := by
  induction program with
  | done value => exact h [] value ⟨rfl, rfl⟩
  | panic cause => trivial
  | call request next ih =>
      intro answer
      refine ih answer fun exchanges value hreturns => ?_
      exact h _ value ⟨answer, exchanges, rfl, hreturns⟩

end Program

namespace Lane

/-- A loop can always go on. -/
theorem exists_moves (setup : EventLoop.Setup) (lane : Lane σ) :
    ∃ exchanges next, Moves setup lane exchanges next := by
  cases hmove : lane.stage.move setup with
  | exclusive act =>
      obtain ⟨exchanges, outcome, hact⟩ := (act lane.side).exists_runs
      cases outcome with
      | returned answer => exact ⟨exchanges, _, .exclusive hmove hact⟩
      | panicked cause => exact ⟨exchanges, _, .exclusivePanic hmove hact⟩
  | shared act =>
      obtain ⟨exchanges, outcome, hact⟩ := (act lane.side).exists_runs
      cases outcome with
      | returned stage => exact ⟨exchanges, _, .shared hmove hact⟩
      | panicked cause => exact ⟨exchanges, _, .sharedPanic hmove hact⟩

end Lane

/-! ## Delays -/

/-- The answer puts off the end of a loop that is to stop. The descriptors are the read ends of
the wake pipes. -/
def Exchange.delays (pipes : List Fd) : Exchange σ → Bool
  | ⟨.wait _ _ _, .ok events⟩ => events.all fun event => event.key != notifyKey
  | ⟨.wait _ _ _, .error errno⟩ => errno.kind = .interrupted
  | ⟨.stopping, answer⟩ => !answer
  | ⟨.read fd _, .ok bytes⟩ => pipes.contains fd && !bytes.isEmpty
  | ⟨.pause _, _⟩ => true
  | _ => false

/-- The system has answered without a delay. -/
def Prompt (pipes : List Fd) (exchanges : List (Exchange σ)) : Prop :=
  ∀ exchange ∈ exchanges, exchange.delays pipes = false

/-! ## Ranks -/

/-- The number of steps that a delivery can take without a delay. -/
def Delivery.Point.rank : Delivery.Point → Nat
  | offering => 4
  | waiting => 3
  | polling _ => 2
  | refused => 1

/-- The rank of every point is positive. -/
theorem Delivery.Point.rank_pos (point : Delivery.Point) : 0 < point.rank := by
  cases point <;> simp [rank]

/-- No rank of a point exceeds four. -/
theorem Delivery.Point.rank_le (point : Delivery.Point) : point.rank ≤ 4 := by
  cases point <;> simp [rank]

namespace EventLoop

/-- The number of moves that a loop can make before it takes the next event of its batch. -/
def Stage.chores : Stage σ → Nat
  | draining _ => 1
  | attempting _ _ => 15
  | settling _ _ _ => 14
  | announcing resolved _ => 6 * resolved.length + 1
  | delivering delivery resolved _ => 6 * resolved.length + 1 + delivery.point.rank
  | _ => 0

/-- The most moves that a loop can make between a wait and the end that its wake-up brings. -/
def Setup.most (setup : Setup) : Nat :=
  16 * setup.batch + 2

/-- The number of moves for the rest of the batch. There may be no wake-up among it, and then the
loop waits again. -/
def Setup.forBatch (setup : Setup) (batch : List Event) : Nat :=
  16 * batch.length + 1 + if batch.any Event.isNotification then 0 else setup.most

/-- The number of moves that a loop can make without a delay, at most. -/
def Stage.rank (setup : Setup) (stage : Stage σ) : Nat :=
  match stage with
  | starting => setup.most + 1
  | waiting => setup.most
  | ended _ => 0
  | stage => setup.forBatch stage.batch + stage.chores

end EventLoop

/-! ## Moves without a delay -/

/-- Exchanges are prompt if the first one is and the others are. -/
theorem prompt_cons {pipes : List Fd} {exchange : Exchange σ} {exchanges : List (Exchange σ)} :
    Prompt pipes (exchange :: exchanges) ↔
      exchange.delays pipes = false ∧ Prompt pipes exchanges :=
  List.forall_mem_cons

/-- What comes first among prompt exchanges is prompt. -/
theorem Prompt.left {pipes : List Fd} {first second : List (Exchange σ)}
    (h : Prompt pipes (first ++ second)) : Prompt pipes first :=
  (List.forall_mem_append.mp h).1

namespace Delivery

variable {delivery changed : Delivery σ} {exchanges : List (Exchange σ)} {pipes : List Fd}

/-- A delivery that goes on is at a point of a lower rank. -/
def Sinks (delivery : Delivery σ) (next : Option (Delivery σ)) : Prop :=
  ∀ changed, next = some changed → changed.point.rank < delivery.point.rank

/-- A delivery that is over has no point left to go on to. -/
theorem sinks_none : delivery.Sinks none :=
  fun _ heq => by cases heq

/-- After a refusal the stop flag is read. -/
theorem sinks_back (hpoint : 1 < delivery.point.rank) (completion : Completion) :
    (pure (some (delivery.back completion .refused)) : Program σ _).Yields delivery.Sinks := by
  intro changed heq
  cases heq
  exact hpoint

/-- A round of polling that is to be repeated has paused. -/
theorem pause_of_round {target : σ} {completion returned : Completion} {deadline : Instant}
    (h : (Polling.round target completion deadline).Returns exchanges (.inr returned)) :
    ¬ Prompt pipes exchanges := by
  obtain ⟨reception, rest, rfl, hrest⟩ := Program.returns_ask_bind.mp h
  cases reception with
  | accepted | disconnected => cases (Program.returns_pure.mp hrest).2
  | panicked => exact absurd hrest Program.returns_panic
  | full given =>
      obtain ⟨now, others, rfl, hothers⟩ := Program.returns_ask_bind.mp hrest
      split at hothers
      · obtain ⟨_, last, rfl, -⟩ := Program.returns_ask_bind.mp hothers
        intro hprompt
        have hpause := (prompt_cons.mp (prompt_cons.mp (prompt_cons.mp hprompt).2).2).1
        cases hpause
      · cases (Program.returns_pure.mp hothers).2

/-- Without a delay a delivery comes nearer to its end with each step. -/
theorem step_sinks {policy : DeliveryPolicy} {next : Option (Delivery σ)}
    (h : (delivery.step policy).Returns exchanges next) (hprompt : Prompt pipes exchanges) :
    delivery.Sinks next := by
  unfold step at h
  split at h
  case h_1 hpoint =>
    obtain ⟨reception, rest, rfl, hrest⟩ := Program.returns_ask_bind.mp h
    refine (received_yields sinks_none (fun completion => ?_) reception).of_returns hrest
    cases policy with
    | dropWhenFull => exact .bind fun _ => sinks_none
    | blockWhenFull => exact sinks_back (by simp [hpoint, Point.rank]) completion
  case h_2 hpoint =>
    obtain ⟨stopping, rest, rfl, hrest⟩ := Program.returns_ask_bind.mp h
    cases stopping with
    | false => cases (prompt_cons.mp hprompt).1
    | true =>
        obtain ⟨_, last, rfl, hlast⟩ := Program.returns_ask_bind.mp hrest
        obtain ⟨-, rfl⟩ := Program.returns_pure.mp hlast
        exact sinks_none
  case h_3 hpoint =>
    have hback : ∀ completion, (pure (some (delivery.back completion .refused)) :
        Program σ _).Yields delivery.Sinks := sinks_back (by simp [hpoint, Point.rank])
    split at h
    · obtain ⟨reception, rest, rfl, hrest⟩ := Program.returns_ask_bind.mp h
      exact (received_yields sinks_none hback reception).of_returns hrest
    · obtain ⟨deadline, first, rest, rfl, -, hrest⟩ := Program.returns_bind.mp h
      obtain ⟨-, rfl⟩ := Program.returns_pure.mp hrest
      intro changed heq
      cases heq
      simp [hpoint, Point.rank]
  case h_4 deadline hpoint =>
    have hback : ∀ completion, (pure (some (delivery.back completion .refused)) :
        Program σ _).Yields delivery.Sinks := sinks_back (by simp [hpoint, Point.rank])
    obtain ⟨answer, first, rest, rfl, hround, hrest⟩ := Program.returns_bind.mp h
    cases answer with
    | inr completion => exact absurd hprompt.left (pause_of_round hround)
    | inl reception => exact (received_yields sinks_none hback reception).of_returns hrest

end Delivery

/-- A wait reports at most a whole batch. -/
theorem Source.wait_fits {source : Source} {batch : Nat} {timeout : Option Duration} :
    (source.wait batch timeout : Program σ _).Yields fun result =>
      ∀ events, result = .ok events → events.length ≤ batch := by
  unfold wait
  split
  · exact fun events heq => by cases heq
  · refine .bind fun answer => ?_
    cases answer with
    | error errno => exact fun events heq => by cases heq
    | ok reported =>
        dsimp only
        split
        · rename_i hfits
          intro events heq
          cases heq
          rw [List.length_map]
          exact hfits
        · trivial

/-- A wait that is interrupted was answered so. -/
theorem Source.wait_interrupted {source : Source} {batch : Nat} {timeout : Option Duration}
    {exchanges : List (Exchange σ)} {fault : Fault} {pipes : List Fd}
    (h : (source.wait batch timeout).Returns exchanges (.error fault))
    (hkind : fault.errno?.map Errno.kind = some .interrupted) : ¬ Prompt pipes exchanges := by
  unfold wait at h
  split at h
  · rename_i hlive
    obtain ⟨-, hfault⟩ := Program.returns_pure.mp h
    cases hfault
    unfold live at hlive
    split at hlive <;> cases hlive
    cases hkind
  · obtain ⟨answer, rest, rfl, hrest⟩ := Program.returns_ask_bind.mp h
    cases answer with
    | ok reported =>
        dsimp only at hrest
        split at hrest
        · cases (Program.returns_pure.mp hrest).2
        · exact absurd hrest Program.returns_panic
    | error errno =>
        obtain ⟨-, hfault⟩ := Program.returns_pure.mp hrest
        cases hfault
        intro hprompt
        exact absurd (Option.some.inj hkind) (of_decide_eq_false (prompt_cons.mp hprompt).1)

namespace Outstanding

variable {table : Outstanding σ} {source : Source}

/-- Keeping an operation resolves one at most. -/
theorem retain_length {fd : Fd} {operation : Operation σ} :
    (table.retain fd operation source).Yields fun answer => answer.1.length ≤ 1 := by
  refine .bind fun result => ?_
  cases result with
  | ok value => exact Nat.zero_le 1
  | error fault => exact .bind fun _ => Nat.le_refl 1

/-- A settlement resolves at most the operation that comes back and the one behind it. -/
theorem settle_length {operation : Operation σ} {attempt : Attempt} :
    (table.settle operation attempt source).Yields fun answer =>
      ∀ resolved, answer.1 = .ok resolved → resolved.length ≤ 2 := by
  unfold settle
  dsimp only
  split
  · exact fun resolved heq => by cases heq
  · split
    · refine retain_length.chain fun answer hanswer resolved heq => ?_
      cases heq
      exact Nat.succ_le_succ hanswer
    · refine .bind fun _ resolved heq => ?_
      cases heq
      exact Nat.le_succ 1
    · refine retain_length.chain fun answer hanswer => .bind fun _ resolved heq => ?_
      cases heq
      exact Nat.le_succ_of_le hanswer
    · refine retain_length.chain fun answer hanswer resolved heq => ?_
      cases heq
      exact Nat.le_succ_of_le hanswer

end Outstanding

/-- A settlement resolves two operations at most. -/
theorem Side.settle_length {side : Side σ} {operation : Operation σ} {attempt : Attempt} :
    (side.settle operation attempt).Yields fun answer =>
      ∀ resolved, answer.1 = .ok resolved → resolved.length ≤ 2 :=
  Outstanding.settle_length.chain fun _ hlength => hlength

namespace EventLoop

variable {setup : Setup} {stage : Stage σ}

/-- The rank of a loop that goes on is positive. -/
theorem Stage.rank_pos (h : stage.isEnded = false) : 0 < stage.rank setup := by
  cases stage with
  | ended => cases h
  | _ =>
      simp only [rank, Setup.forBatch, Setup.most]
      omega

/-- An event that is no wake-up leaves the loop where it was with regard to wake-ups. -/
theorem Setup.forBatch_cons {event : Event} (h : event.isNotification = false)
    (batch : List Event) : setup.forBatch (event :: batch) = setup.forBatch batch + 16 := by
  simp only [forBatch, List.length_cons, List.any_cons, h, Bool.false_or]
  omega

end EventLoop

namespace Lane

open EventLoop (Stage)

variable {setup : EventLoop.Setup} {lane next : Lane σ} {exchanges : List (Exchange σ)}
  {stage : EventLoop.Stage σ} {pipes : List Fd}

/-- A wait without a delay ends with a wake-up among its events, or with the loop. -/
theorem waitMove_rank {act : Side σ → Program σ (EventLoop.Stage σ)}
    (hmove : EventLoop.Stage.waitMove setup = .shared act)
    (hact : (act lane.side).Returns exchanges stage) (hprompt : Prompt pipes exchanges) :
    stage.rank setup < setup.most := by
  cases hmove
  obtain ⟨result, asked, last, rfl, hwait, hlast⟩ := Program.returns_bind.mp hact
  cases result with
  | error fault =>
      dsimp only at hlast
      split at hlast
      · rename_i hkind
        exact absurd hprompt.left (Source.wait_interrupted hwait hkind)
      · obtain ⟨_, _, -, hended⟩ := Program.returns_ask_bind.mp hlast
        obtain ⟨-, rfl⟩ := Program.returns_pure.mp hended
        exact Nat.succ_pos _
  | ok batch =>
      obtain ⟨rfl, rfl⟩ := Program.returns_pure.mp hlast
      have hfits := Source.wait_fits.of_returns hwait batch rfl
      obtain ⟨millis, reported, rfl, rfl⟩ := Source.wait_returns hwait
      have hwoken : (reported.map Event.ofRaw).any Event.isNotification = true := by
        have hreported := (prompt_cons.mp hprompt).1
        obtain ⟨event, hevent, hkey⟩ := List.all_eq_false.mp hreported
        refine List.any_eq_true.mpr ⟨_, List.mem_map_of_mem hevent, ?_⟩
        simpa [Event.ofRaw, Event.isNotification] using hkey
      simp only [Stage.rank, Stage.batch, Stage.chores, EventLoop.Setup.forBatch,
        EventLoop.Setup.most, hwoken, if_true]
      omega

/-- A wake-up without a delay ends the loop. -/
theorem wakeMove_rank {batch : List Proactor.Event} {act : Side σ → Program σ (Stage σ)}
    (hmove : Stage.wakeMove setup batch = .shared act)
    (hact : (act lane.side).Returns exchanges stage) (hprompt : Prompt pipes exchanges) :
    stage.isEnded = true := by
  cases hmove
  obtain ⟨stopping, rest, rfl, hrest⟩ := Program.returns_ask_bind.mp hact
  cases stopping with
  | false => cases (prompt_cons.mp hprompt).1
  | true =>
      obtain ⟨_, _, rfl, hlast⟩ := Program.returns_ask_bind.mp hrest
      obtain ⟨-, rfl⟩ := Program.returns_pure.mp hlast
      rfl

/-- Without a delay the wake pipe is empty after one look. -/
theorem draining_rank {batch : List Proactor.Event} {act : Side σ → Program σ (Stage σ)}
    (hmove : (Stage.draining batch).move setup = .shared act)
    (hact : (act lane.side).Returns exchanges stage)
    (hpipe : lane.side.source.wakePipe.readEnd ∈ pipes) (hprompt : Prompt pipes exchanges) :
    stage = .handling batch := by
  cases hmove
  obtain ⟨more, first, rest, rfl, hdrain, hrest⟩ := Program.returns_bind.mp hact
  obtain ⟨answer, last, rfl, hlast⟩ := Program.returns_ask_bind.mp hdrain
  cases answer with
  | error errno =>
      obtain ⟨-, rfl⟩ := Program.returns_pure.mp hlast
      exact (Program.returns_pure.mp hrest).2
  | ok bytes =>
      obtain ⟨-, rfl⟩ := Program.returns_pure.mp hlast
      have hnone := (prompt_cons.mp hprompt.left).1
      have hempty : bytes.isEmpty = true := by
        simpa [Exchange.delays, hpipe] using hnone
      rw [hempty] at hrest
      exact (Program.returns_pure.mp hrest).2

/-- Without a delay a shared move takes the loop nearer to its end. -/
theorem shared_rank {before : Stage σ} {act : Side σ → Program σ (Stage σ)}
    (hmove : before.move setup = .shared act) (hact : (act lane.side).Returns exchanges stage)
    (hlive : before.isEnded = false) (hpipe : lane.side.source.wakePipe.readEnd ∈ pipes)
    (hprompt : Prompt pipes exchanges) : stage.rank setup < before.rank setup := by
  have hfollows := (shared_follows hmove _).of_returns hact
  cases hfollows with
  | started => exact Nat.lt_succ_self _
  | interrupted | waited | failed => exact waitMove_rank hmove hact hprompt
  | exhausted => exact Nat.lt_add_of_pos_left (Nat.succ_pos _)
  | stopped batch hevent => exact Stage.rank_pos rfl
  | woken batch hevent =>
      rw [move_handling, if_pos hevent] at hmove
      cases wakeMove_rank hmove hact hprompt
  | draining => cases draining_rank hmove hact hpipe hprompt
  | drained | attempted | announced =>
      simp only [Stage.rank, Stage.batch, Stage.chores]
      omega
  | handed first resolved batch =>
      have hpoint := (Delivery.ofResolved first).point.rank_le
      simp only [Stage.rank, Stage.batch, Stage.chores, List.length_cons]
      omega
  | delivered delivery resolved batch =>
      have hpoint := delivery.point.rank_pos
      simp only [Stage.rank, Stage.batch, Stage.chores]
      omega
  | delivering delivery changed resolved batch =>
      cases hmove
      obtain ⟨result, first, rest, rfl, hfirst, hrest⟩ := Program.returns_bind.mp hact
      have hsinks := Delivery.step_sinks hfirst hprompt.left
      cases result with
      | none => cases (Program.returns_pure.mp hrest).2
      | some going =>
          cases (Program.returns_pure.mp hrest).2
          exact Nat.add_lt_add_left (Nat.add_lt_add_left (hsinks changed rfl) _) _
  | ended => cases hlive

/-- An exclusive move takes the loop nearer to its end, whatever the system answers. -/
theorem exclusive_rank {before : Stage σ} {act : Side σ → Program σ (Stage σ × Side σ)}
    {after : Side σ} (hmove : before.move setup = .exclusive act)
    (hact : (act lane.side).Returns exchanges (stage, after)) :
    stage.rank setup < before.rank setup := by
  have hfollows := (exclusive_follows hmove _).of_returns hact
  cases hfollows with
  | checkedOut event operation batch | passedOver event batch =>
      have hevent : event.isNotification = false := by
        rw [move_handling] at hmove
        split at hmove
        · cases hmove
        · exact eq_false_of_ne_true ‹_›
      simp only [Stage.rank, Stage.batch, Stage.chores, EventLoop.Setup.forBatch_cons hevent]
      omega
  | settled operation attempt resolved batch =>
      cases hmove
      obtain ⟨⟨result, side⟩, first, rest, rfl, hsettle, hrest⟩ := Program.returns_bind.mp hact
      cases result with
      | error cause => cases (Program.returns_pure.mp hrest).2
      | ok resolved =>
          cases (Program.returns_pure.mp hrest).2
          have hlength := Side.settle_length.of_returns hsettle resolved rfl
          simp only [Stage.rank, Stage.batch, Stage.chores]
          omega
  | misplaced => exact Stage.rank_pos rfl

/-- A loop comes nearer to its end with each move, unless the move is delayed. -/
theorem Moves.rank_lt (h : Moves setup lane exchanges next) (hlive : lane.stage.isEnded = false)
    (hpipe : lane.side.source.wakePipe.readEnd ∈ pipes) (hprompt : Prompt pipes exchanges) :
    next.stage.rank setup < lane.stage.rank setup := by
  cases h with
  | exclusive hmove hact => exact exclusive_rank hmove hact
  | shared hmove hact => exact shared_rank hmove hact hlive hpipe hprompt
  | exclusivePanic | sharedPanic => exact Stage.rank_pos hlive

end Lane

end Proactor
