import Proactor.Proofs.Offering

/-!
# Polling until a deadline

A sink that cannot wait for room by itself is polled. Every round but the last
is a refusal, a reading of the clock before the deadline and a sleep, so the
readings climb by a sleep each round and the deadline is reached after about as
many rounds as the patience has milliseconds. `Rounds` is the language of the
exchanges, and `offerWithin_polled` says what a whole call comes to.

The deadline itself is an instant. A patience that leads beyond the last instant
has no deadline, and the call panics before its first offer.
-/

namespace Proactor

variable {σ : Type}

/-! ## Clocks -/

/-- The earliest time after an exchange, if it was at least the given time before. A reading of
the clock fixes the time, and a sleep lasts at least as long as was asked for. -/
def Exchange.timeAfter (earliest : Nat) : Exchange σ → Nat
  | ⟨.now, instant⟩ => instant.nanoseconds
  | ⟨.pause duration, _⟩ => earliest + duration.nanoseconds
  | _ => earliest

/-- A reading of the clock that does not lie before the given time. -/
def Exchange.InTime (earliest : Nat) : Exchange σ → Prop
  | ⟨.now, instant⟩ => earliest ≤ instant.nanoseconds
  | _ => True

/-- The clock never goes back, and goes on by every sleep. -/
def Clocked (earliest : Nat) : List (Exchange σ) → Prop
  | [] => True
  | exchange :: exchanges =>
      exchange.InTime earliest ∧ Clocked (exchange.timeAfter earliest) exchanges

namespace Polling

/-! ## Polling for a number of rounds -/

/-- Poll a sink until the deadline, for at most so many rounds. The answer is the final reception,
or the completion if it has not come to one yet. -/
def pollFor (target : σ) (deadline : Instant) :
    Nat → Completion → Program σ (Reception ⊕ Completion)
  | 0, completion => return .inr completion
  | rounds + 1, completion => do
      match ← round target completion deadline with
      | .inr completion => pollFor target deadline rounds completion
      | .inl reception => return .inl reception

/-- Offer a completion to a sink that is polled until the patience has passed, for at most so many
rounds. -/
def offerWithin (rounds : Nat) (target : σ) (completion : Completion) (patience : Duration) :
    Program σ (Reception ⊕ Completion) := do
  let deadline ← deadline patience
  pollFor target deadline rounds completion

/-- The exchanges of a sink being polled until a deadline, and how that ends: refusals before the
deadline, and at last an answer other than a refusal or a refusal that comes too late. -/
inductive Rounds (target : σ) (completion : Completion) (deadline : Instant) :
    List (Exchange σ) → Outcome (Reception ⊕ Completion) → Prop where
  | accepted :
      Rounds target completion deadline [⟨.offer target completion, .accepted⟩]
        (.returned (.inl .accepted))
  | disconnected (returned : Completion) :
      Rounds target completion deadline [⟨.offer target completion, .disconnected returned⟩]
        (.returned (.inl (.disconnected returned)))
  | panicked (cause : Panic) :
      Rounds target completion deadline [⟨.offer target completion, .panicked cause⟩]
        (.panicked cause)
  | expired (now : Instant) (hnow : deadline.nanoseconds ≤ now.nanoseconds) :
      Rounds target completion deadline
        [⟨.offer target completion, .full completion⟩, ⟨.now, now⟩]
        (.returned (.inl (.full completion)))
  | refused (now : Instant) (hnow : now.nanoseconds < deadline.nanoseconds)
      {exchanges : List (Exchange σ)} {outcome : Outcome (Reception ⊕ Completion)}
      (hrest : Rounds target completion deadline exchanges outcome) :
      Rounds target completion deadline
        (⟨.offer target completion, .full completion⟩ :: ⟨.now, now⟩ ::
          ⟨.pause backoff, ()⟩ :: exchanges) outcome

/-! ## One round -/

variable {target : σ} {completion : Completion} {deadline : Instant}
  {exchanges : List (Exchange σ)}

/-- What one round comes to: the last of a poll, or a refusal that leaves time for a sleep. -/
theorem round_cases {outcome : Outcome (Reception ⊕ Completion)}
    (h : (round target completion deadline).Runs exchanges outcome)
    (hback : HandsBack exchanges) :
    Rounds target completion deadline exchanges outcome ∨
      ∃ now : Instant, now.nanoseconds < deadline.nanoseconds ∧
        exchanges = [⟨.offer target completion, .full completion⟩, ⟨.now, now⟩,
          ⟨.pause backoff, ()⟩] ∧ outcome = .returned (.inr completion) := by
  obtain ⟨reception, rest, rfl, hrest⟩ := Program.runs_ask_bind.mp h
  cases reception with
  | accepted =>
      obtain ⟨rfl, rfl⟩ := hrest
      exact .inl .accepted
  | disconnected returned =>
      obtain ⟨rfl, rfl⟩ := hrest
      exact .inl (.disconnected returned)
  | panicked cause =>
      obtain ⟨rfl, rfl⟩ := hrest
      exact .inl (.panicked cause)
  | full returned =>
      obtain rfl : returned = completion := hback _ List.mem_cons_self _ rfl
      obtain ⟨now, last, rfl, hlast⟩ := Program.runs_ask_bind.mp hrest
      split at hlast
      · rename_i hnow
        obtain ⟨_, after, rfl, rfl, rfl⟩ := Program.runs_ask_bind.mp hlast
        exact .inr ⟨now, of_decide_eq_true hnow, rfl, rfl⟩
      · rename_i hnow
        obtain ⟨rfl, rfl⟩ := hlast
        have hlate : ¬ now.nanoseconds < deadline.nanoseconds := by
          simpa [Instant.isBefore] using hnow
        exact .inl (.expired now (Nat.le_of_not_lt hlate))

/-- Polling that has ended has come to a reception. -/
theorem Rounds.ne_inr {outcome : Outcome (Reception ⊕ Completion)}
    (h : Rounds target completion deadline exchanges outcome) (left : Completion) :
    outcome ≠ .returned (.inr left) := by
  induction h with
  | refused _ _ _ ih => exact ih
  | _ => simp

/-- Polling for one round more ends with that round, or sleeps and goes on. -/
theorem pollFor_succ {rounds : Nat} {outcome : Outcome (Reception ⊕ Completion)}
    (h : (pollFor target deadline (rounds + 1) completion).Runs exchanges outcome)
    (hback : HandsBack exchanges) :
    Rounds target completion deadline exchanges outcome ∨
      ∃ (now : Instant) (rest : List (Exchange σ)), now.nanoseconds < deadline.nanoseconds ∧
        exchanges = ⟨.offer target completion, .full completion⟩ :: ⟨.now, now⟩ ::
          ⟨.pause backoff, ()⟩ :: rest ∧
        (pollFor target deadline rounds completion).Runs rest outcome := by
  rcases Program.runs_bind h with ⟨cause, rfl, hround⟩ |
    ⟨answer, first, second, rfl, hround, hsecond⟩
  · rcases round_cases hround hback with hover | ⟨_, _, _, heq⟩
    · exact .inl hover
    · cases heq
  · rcases round_cases hround hback.of_append.1 with hover | ⟨now, hnow, rfl, heq⟩
    · cases answer with
      | inl reception =>
          obtain ⟨rfl, rfl⟩ := hsecond
          rw [List.append_nil]
          exact .inl hover
      | inr left => exact absurd rfl (hover.ne_inr left)
    · cases heq
      exact .inr ⟨now, second, hnow, rfl, hsecond⟩

/-- With a round for each sleep until the deadline, and one more, polling comes to an end. -/
theorem pollFor_rounds {rounds earliest : Nat} {outcome : Outcome (Reception ⊕ Completion)}
    (h : (pollFor target deadline (rounds + 1) completion).Runs exchanges outcome)
    (hrounds : deadline.nanoseconds ≤ earliest + rounds * backoff.nanoseconds)
    (hclock : Clocked earliest exchanges) (hback : HandsBack exchanges) :
    Rounds target completion deadline exchanges outcome := by
  -- each sleep brings the clock a round nearer to the deadline
  induction rounds generalizing earliest exchanges with
  | zero =>
      rcases pollFor_succ h hback with hover | ⟨now, rest, hnow, rfl, -⟩
      · exact hover
      · have hearliest : earliest ≤ now.nanoseconds := hclock.2.1
        omega
  | succ rounds ih =>
      rcases pollFor_succ h hback with hover | ⟨now, rest, hnow, rfl, hrest⟩
      · exact hover
      · obtain ⟨-, hearliest, -, hslept⟩ := hclock
        have hearliest : earliest ≤ now.nanoseconds := hearliest
        refine .refused now hnow (ih hrest ?_ hslept ?_)
        · show deadline.nanoseconds ≤
            now.nanoseconds + backoff.nanoseconds + rounds * backoff.nanoseconds
          rw [Nat.succ_mul] at hrounds
          omega
        · have hsplit : HandsBack ([⟨.offer target completion, .full completion⟩, ⟨.now, now⟩,
              ⟨.pause backoff, ()⟩] ++ rest) := hback
          exact hsplit.of_append.2

/-! ## Whole calls -/

/-- How a call ends whose last offer meets this reception. -/
def ending : Reception → Outcome (Reception ⊕ Completion)
  | .panicked cause => .panicked cause
  | reception => .returned (.inl reception)

/-- What the sink that is polled hears of: refused offers of the completion, and one more. -/
theorem Rounds.offers_eq {outcome : Outcome (Reception ⊕ Completion)}
    (h : Rounds target completion deadline exchanges outcome) :
    ∃ (refusals : Nat) (reception : Reception),
      offers exchanges =
        List.replicate refusals ⟨target, completion, none, .full completion⟩ ++
          [⟨target, completion, none, reception⟩] ∧ outcome = ending reception := by
  induction h with
  | accepted => exact ⟨0, .accepted, rfl, rfl⟩
  | disconnected returned => exact ⟨0, .disconnected returned, rfl, rfl⟩
  | panicked cause => exact ⟨0, .panicked cause, rfl, rfl⟩
  | expired now hnow => exact ⟨0, .full completion, rfl, rfl⟩
  | refused now hnow hrest ih =>
      obtain ⟨refusals, reception, hoffers, houtcome⟩ := ih
      exact ⟨refusals + 1, reception, congrArg (List.cons _) hoffers, houtcome⟩

/-- A call ends with a refusal only when the clock has reached the deadline. -/
theorem Rounds.expired_of_full {returned : Completion}
    {outcome : Outcome (Reception ⊕ Completion)}
    (h : Rounds target completion deadline exchanges outcome)
    (houtcome : outcome = .returned (.inl (.full returned))) :
    returned = completion ∧ ∃ now : Instant, exchanges.getLast? = some ⟨.now, now⟩ ∧
      deadline.nanoseconds ≤ now.nanoseconds := by
  induction h with
  | accepted | disconnected | panicked => cases houtcome
  | expired now hnow =>
      cases houtcome
      exact ⟨rfl, now, rfl, hnow⟩
  | refused now hnow hrest ih =>
      obtain ⟨hreturned, last, hlast, hdeadline⟩ := ih houtcome
      refine ⟨hreturned, last, ?_, hdeadline⟩
      simp only [List.getLast?_cons, hlast, Option.getD_some]

/-- What a call comes to that offers a completion to a sink until the patience has passed. The
clock shows `start` when it begins. -/
structure Polled (target : σ) (completion : Completion) (patience : Duration) (start : Instant)
    (exchanges : List (Exchange σ)) (outcome : Outcome (Reception ⊕ Completion)) : Prop where
  /-- The call begins with a look at the clock. -/
  began : exchanges.head? = some ⟨.now, start⟩
  /-- A deadline beyond the last instant ends the call in a panic, before any offer. -/
  overflows : Instant.limit ≤ start.nanoseconds + patience.nanoseconds →
    exchanges = [⟨.now, start⟩] ∧ outcome = .panicked .deadlineOverflow
  /-- Any other call ends as its last offer does, and every offer before that was refused. -/
  answered : start.nanoseconds + patience.nanoseconds < Instant.limit →
    ∃ (refusals : Nat) (reception : Reception),
      offers exchanges =
        List.replicate refusals ⟨target, completion, none, .full completion⟩ ++
          [⟨target, completion, none, reception⟩] ∧ outcome = ending reception
  /-- A refusal is final only when the patience has passed, and hands the completion back. -/
  expired : ∀ returned, outcome = .returned (.inl (.full returned)) →
    returned = completion ∧ ∃ now : Instant, exchanges.getLast? = some ⟨.now, now⟩ ∧
      start.nanoseconds + patience.nanoseconds ≤ now.nanoseconds

/-- A patience that ends within time lets the polling begin. -/
theorem offerWithin_fits {rounds : Nat} {patience : Duration} {start : Instant}
    {outcome : Outcome (Reception ⊕ Completion)}
    (hfits : start.nanoseconds + patience.nanoseconds < Instant.limit)
    (h : (pollFor target ⟨start.nanoseconds + patience.nanoseconds⟩ rounds completion).Runs
      exchanges outcome) :
    (offerWithin rounds target completion patience).Runs (⟨.now, start⟩ :: exchanges)
      outcome := by
  have hsome : start.add? patience = some ⟨start.nanoseconds + patience.nanoseconds⟩ :=
    if_pos hfits
  refine Program.runs_ask_bind.mpr ⟨start, exchanges, rfl, ?_⟩
  dsimp only [Program.bind]
  rw [hsome]
  exact h

/-- A patience that leads beyond the last instant ends a call before its first offer, whatever the
sink would answer. -/
theorem offerWithin_overflows {rounds : Nat} {patience : Duration} {start : Instant}
    (hlimit : Instant.limit ≤ start.nanoseconds + patience.nanoseconds) :
    (offerWithin rounds target completion patience).Runs [⟨.now, start⟩]
      (.panicked .deadlineOverflow) := by
  have hnone : start.add? patience = none := if_neg (Nat.not_lt.mpr hlimit)
  refine Program.runs_ask_bind.mpr ⟨start, [], rfl, ?_⟩
  dsimp only [Program.bind]
  rw [hnone]
  exact ⟨rfl, rfl⟩

/-- Polling ends after no more rounds than the patience has milliseconds and two more. It panics
only if the sink does, or if the deadline lies beyond the last instant. -/
theorem offerWithin_polled {rounds : Nat} {patience : Duration}
    {outcome : Outcome (Reception ⊕ Completion)}
    (h : (offerWithin rounds target completion patience).Runs exchanges outcome)
    (hrounds : patience.millis + 2 ≤ rounds) (hclock : Clocked 0 exchanges)
    (hback : HandsBack exchanges) :
    ∃ start, Polled target completion patience start exchanges outcome := by
  rcases Program.runs_bind h with ⟨cause, rfl, hdeadline⟩ |
    ⟨deadline, first, rest, rfl, hdeadline, hrest⟩
  · obtain ⟨start, rfl, hnone, rfl⟩ := Delivery.deadline_panics hdeadline
    have hlimit : ¬ start.nanoseconds + patience.nanoseconds < Instant.limit := by
      simpa [Instant.add?] using hnone
    refine ⟨start, ?_⟩
    constructor
    case began => rfl
    case overflows => exact fun _ => ⟨rfl, rfl⟩
    case answered => exact fun hfits => absurd hfits hlimit
    case expired =>
      intro returned houtcome
      cases houtcome
  · obtain ⟨start, rfl, hsome⟩ := Delivery.deadline_returns hdeadline
    have hfits : start.nanoseconds + patience.nanoseconds < Instant.limit ∧
        (⟨start.nanoseconds + patience.nanoseconds⟩ : Instant) = deadline := by
      simpa [Instant.add?] using hsome
    obtain ⟨hfits, rfl⟩ := hfits
    obtain ⟨more, rfl⟩ : ∃ more, rounds = more + 1 := ⟨rounds - 1, by omega⟩
    -- the patience is less than a millisecond for each round but the last
    have hlong : patience.nanoseconds ≤ more * backoff.nanoseconds := by
      have hmillis : patience.nanoseconds < (patience.millis + 1) * 1000000 := by
        unfold Duration.millis
        omega
      have hmore : (patience.millis + 1) * 1000000 ≤ more * 1000000 :=
        Nat.mul_le_mul_right _ (by omega)
      exact Nat.le_of_lt (Nat.lt_of_lt_of_le hmillis hmore)
    have hpolled : Rounds target completion ⟨start.nanoseconds + patience.nanoseconds⟩ rest
        outcome :=
      pollFor_rounds hrest (Nat.add_le_add_left hlong _) hclock.2 hback.of_append.2
    refine ⟨start, ?_⟩
    constructor
    case began => rfl
    case overflows => exact fun hlimit => absurd hfits (Nat.not_lt.mpr hlimit)
    case answered => exact fun _ => hpolled.offers_eq
    case expired =>
      intro returned houtcome
      obtain ⟨hreturned, now, hlast, hdeadline⟩ := hpolled.expired_of_full houtcome
      refine ⟨hreturned, now, ?_, hdeadline⟩
      rw [List.getLast?_append, hlast]
      rfl

/-- A patience of two nanoseconds lets a sink without room be asked once more after a sleep. -/
theorem polled_until_room :
    ∃ (completion : Completion) (exchanges : List (Exchange Unit)),
      (offerWithin 2 () completion ⟨2⟩).Runs exchanges (.returned (.inl .accepted)) ∧
        Clocked 0 exchanges ∧ HandsBack exchanges ∧ (offers exchanges).length = 2 ∧
        ∃ start, Polled () completion ⟨2⟩ start exchanges (.returned (.inl .accepted)) := by
  let completion : Completion := ⟨⟨7⟩, [1, 2], 2, none, .read⟩
  let polling : List (Exchange Unit) :=
    [⟨.offer () completion, .full completion⟩, ⟨.now, ⟨6⟩⟩, ⟨.pause backoff, ()⟩,
      ⟨.offer () completion, .accepted⟩]
  have hrounds : (pollFor () ⟨7⟩ 2 completion).Runs polling (.returned (.inl .accepted)) :=
    ⟨.full completion, _, rfl, ⟨6⟩, _, rfl, (), _, rfl, .accepted, _, rfl, rfl, rfl⟩
  have hruns : (offerWithin 2 () completion ⟨2⟩).Runs (⟨.now, ⟨5⟩⟩ :: polling)
      (.returned (.inl .accepted)) :=
    offerWithin_fits (by simp [Instant.limit, UInt64.size]) hrounds
  have hclock : Clocked 0 (⟨.now, ⟨5⟩⟩ :: polling) :=
    ⟨Nat.zero_le 5, trivial, Nat.le_succ 5, trivial, trivial, trivial⟩
  have hback : HandsBack (⟨.now, ⟨5⟩⟩ :: polling) := by
    simp [HandsBack, offers, polling, Exchange.offers]
  exact ⟨completion, _, hruns, hclock, hback, rfl,
    offerWithin_polled hruns (by decide) hclock hback⟩

/-- The longest duration there is leads beyond the last instant, even from the first one. -/
theorem longest_patience_panics :
    ∃ patience, Duration.ofParts? (UInt64.size - 1) 999999999 = some patience ∧
      ∀ (rounds : Nat) (completion : Completion),
        (offerWithin rounds () completion patience).Runs [⟨.now, ⟨0⟩⟩]
          (.panicked .deadlineOverflow) ∧
        Clocked 0 [(⟨.now, ⟨0⟩⟩ : Exchange Unit)] ∧
        HandsBack [(⟨.now, ⟨0⟩⟩ : Exchange Unit)] := by
  refine ⟨⟨18446744073709551615999999999⟩, ?_, fun rounds completion => ⟨?_, ?_, ?_⟩⟩
  · simp [Duration.ofParts?, Duration.limit, UInt64.size]
  · apply offerWithin_overflows
    simp [Instant.limit, UInt64.size]
  · exact ⟨Nat.zero_le 0, trivial⟩
  · exact List.forall_mem_nil _

end Polling

end Proactor
