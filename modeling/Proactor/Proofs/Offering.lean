import Proactor.Proofs.Endings

/-!
# Offers of one completion

A delivery offers its completion to its sink until the sink takes it, has gone
away, or a stated reason ends the effort. `Run` lists the steps of a delivery
with the exchanges of each, and `Stride` says all that one step can do.
`Run.delivered` says what a delivery comes to: the sink takes the completion at
most once and as it is, nothing is offered to it after that or after it has gone
away, and a completion is given up only for one of three reasons.

Answers of the sink and readings of the stop flag are arbitrary, but a sink that
refuses a completion hands that same completion back.
-/

namespace Proactor

/-! ## Offers -/

/-- An offer of a completion to a sink, and what came of it. With patience the sink waits for room
by itself. -/
structure Offer (σ : Type) where
  target : σ
  completion : Completion
  patience : Option Duration
  reception : Reception

namespace Offer

variable {σ : Type}

/-- The exchange in which an offer is made. -/
def exchange : Offer σ → Exchange σ
  | ⟨target, completion, none, reception⟩ => ⟨.offer target completion, reception⟩
  | ⟨target, completion, some patience, reception⟩ =>
      ⟨.offerWithin target completion patience, reception⟩

/-- What the sink takes, with its target. -/
def taken (offer : Offer σ) : List (σ × Completion) :=
  match offer.reception with
  | .accepted => [(offer.target, offer.completion)]
  | _ => []

end Offer

/-- The offer that is made in an exchange, if there is one. -/
def Exchange.offers {σ : Type} : Exchange σ → List (Offer σ)
  | ⟨.offer target completion, reception⟩ => [⟨target, completion, none, reception⟩]
  | ⟨.offerWithin target completion patience, reception⟩ =>
      [⟨target, completion, some patience, reception⟩]
  | _ => []

/-- The reading of the stop flag in an exchange, if there is one. -/
def Exchange.readings {σ : Type} : Exchange σ → List Bool
  | ⟨.stopping, set⟩ => [set]
  | _ => []

section Exchanges

variable {σ : Type}

/-- The offers among some exchanges. -/
def offers (exchanges : List (Exchange σ)) : List (Offer σ) :=
  exchanges.flatMap Exchange.offers

/-- The readings of the stop flag among some exchanges. -/
def readings (exchanges : List (Exchange σ)) : List Bool :=
  exchanges.flatMap Exchange.readings

/-- What sinks have taken, each with its target. -/
def taken (exchanges : List (Exchange σ)) : List (σ × Completion) :=
  (offers exchanges).flatMap Offer.taken

/-- A sink that has no room for a completion hands it back. -/
def HandsBack (exchanges : List (Exchange σ)) : Prop :=
  ∀ offer ∈ offers exchanges, ∀ returned, offer.reception = .full returned →
    returned = offer.completion

/-- These exchanges are about other things than offers and the stop flag. -/
def Aside (exchanges : List (Exchange σ)) : Prop :=
  ∀ exchange ∈ exchanges, exchange.offers = [] ∧ exchange.readings = []

/-- The offers of two parts are those of the first and then those of the second. -/
@[simp]
theorem offers_append (first second : List (Exchange σ)) :
    offers (first ++ second) = offers first ++ offers second :=
  List.flatMap_append

/-- An offer made first comes first among the offers. -/
@[simp]
theorem offers_offer (offer : Offer σ) (exchanges : List (Exchange σ)) :
    offers (offer.exchange :: exchanges) = offer :: offers exchanges := by
  obtain ⟨target, completion, _ | patience, reception⟩ := offer <;> rfl

/-- An offer that is made is among the offers. -/
theorem mem_offers_offer (offer : Offer σ) (exchanges : List (Exchange σ)) :
    offer ∈ offers (offer.exchange :: exchanges) := by
  rw [offers_offer]
  exact List.mem_cons_self

/-- A reading of the stop flag is among the readings. -/
theorem mem_readings {exchanges : List (Exchange σ)} {set : Bool}
    (h : ⟨.stopping, set⟩ ∈ exchanges) : set ∈ readings exchanges :=
  List.mem_flatMap_of_mem h (List.mem_singleton.mpr rfl)

/-- Exchanges about other things make no offers. -/
theorem Aside.offers_eq {exchanges : List (Exchange σ)} (h : Aside exchanges) :
    offers exchanges = [] :=
  List.flatMap_eq_nil_iff.mpr fun exchange hexchange => (h exchange hexchange).1

/-- A sink that hands back what it has no room for does so in both parts of its exchanges. -/
theorem HandsBack.of_append {first second : List (Exchange σ)} (h : HandsBack (first ++ second)) :
    HandsBack first ∧ HandsBack second := by
  unfold HandsBack at h
  rw [offers_append] at h
  exact List.forall_mem_append.mp h

end Exchanges

namespace Delivery

variable {σ : Type}

/-! ## Single steps -/

/-- The offer of the completion on its way, with what comes of it. -/
def offered (delivery : Delivery σ) (patience : Option Duration) (reception : Reception) :
    Offer σ :=
  ⟨delivery.sink.target, delivery.completion, patience, reception⟩

/-- Everything that one step of a delivery can come to. -/
inductive Stride (policy : DeliveryPolicy) (delivery : Delivery σ) :
    List (Exchange σ) → Outcome (Option (Delivery σ)) → Prop where
  /-- The sink takes the completion. -/
  | accepted (patience : Option Duration) :
      Stride policy delivery [(delivery.offered patience .accepted).exchange] (.returned none)
  /-- The sink has gone away. -/
  | disconnected (patience : Option Duration) (completion : Completion) :
      Stride policy delivery
        [(delivery.offered patience (.disconnected completion)).exchange,
          ⟨.log (.sinkDisconnected delivery.fd delivery.direction), ()⟩] (.returned none)
  /-- The sink panics. -/
  | panicked (patience : Option Duration) (cause : Panic) :
      Stride policy delivery [(delivery.offered patience (.panicked cause)).exchange]
        (.panicked cause)
  /-- The sink has no room, and the completion is given up for that. -/
  | dropped (completion : Completion) (hpoint : delivery.point = .offering)
      (hpolicy : policy = .dropWhenFull) :
      Stride policy delivery
        [(delivery.offered none (.full completion)).exchange,
          ⟨.log (.sinkFull delivery.fd delivery.direction), ()⟩] (.returned none)
  /-- The sink has no room, and the delivery goes on with what it hands back. -/
  | refused (patience : Option Duration) (completion : Completion) (point : Point)
      {others : List (Exchange σ)}
      (hpolicy : delivery.point = .offering → policy = .blockWhenFull)
      (hothers : Aside others) (hoffering : point ≠ .offering) (hwaiting : point ≠ .waiting) :
      Stride policy delivery ((delivery.offered patience (.full completion)).exchange :: others)
        (.returned (some (delivery.back completion point)))
  /-- The stop flag is set. -/
  | stopped (hpoint : delivery.point = .refused) :
      Stride policy delivery
        [⟨.stopping, true⟩, ⟨.log (.sinkFullAtShutdown delivery.fd delivery.direction), ()⟩]
        (.returned none)
  /-- The stop flag is clear. -/
  | allowed (hpoint : delivery.point = .refused) :
      Stride policy delivery [⟨.stopping, false⟩]
        (.returned (some { delivery with point := .waiting }))
  /-- A sink that cannot wait for room by itself is going to be polled. -/
  | polled (hpoint : delivery.point = .waiting) (now deadline : Instant) :
      Stride policy delivery [⟨.now, now⟩]
        (.returned (some { delivery with point := .polling deadline }))
  | overflowed (hpoint : delivery.point = .waiting) (now : Instant) :
      Stride policy delivery [⟨.now, now⟩] (.panicked .deadlineOverflow)

section Step

variable {policy : DeliveryPolicy} {delivery : Delivery σ} {exchanges : List (Exchange σ)}
  {outcome : Outcome (Option (Delivery σ))}

/-- After the first offer the delivery goes on to read the stop flag when there is no room. -/
theorem received_stride (patience : Option Duration) {reception : Reception}
    (hpoint : delivery.point ≠ .offering)
    (h : (delivery.received (fun completion => return some (delivery.back completion .refused))
      reception).Runs exchanges outcome) :
    Stride policy delivery ((delivery.offered patience reception).exchange :: exchanges)
      outcome := by
  cases reception with
  | accepted =>
      obtain ⟨rfl, rfl⟩ := h
      exact .accepted patience
  | full completion =>
      obtain ⟨rfl, rfl⟩ := h
      exact .refused patience completion .refused (fun hcontra => absurd hcontra hpoint)
        (List.forall_mem_nil _) (by simp) (by simp)
  | disconnected completion =>
      obtain ⟨_, _, rfl, rfl, rfl⟩ := h
      exact .disconnected patience completion
  | panicked cause =>
      obtain ⟨rfl, rfl⟩ := h
      exact .panicked patience cause

/-- The first offer. -/
theorem offering_stride (hpoint : delivery.point = .offering)
    (h : (delivery.step policy).Runs exchanges outcome) :
    Stride policy delivery exchanges outcome := by
  unfold step at h
  rw [hpoint] at h
  obtain ⟨reception, rest, rfl, hrest⟩ := h
  cases reception with
  | accepted =>
      obtain ⟨rfl, rfl⟩ := hrest
      exact .accepted none
  | full completion =>
      cases policy with
      | dropWhenFull =>
          obtain ⟨_, _, rfl, rfl, rfl⟩ := hrest
          exact .dropped completion hpoint rfl
      | blockWhenFull =>
          obtain ⟨rfl, rfl⟩ := hrest
          exact .refused none completion .refused (fun _ => rfl) (List.forall_mem_nil _)
            (by simp) (by simp)
  | disconnected completion =>
      obtain ⟨_, _, rfl, rfl, rfl⟩ := hrest
      exact .disconnected none completion
  | panicked cause =>
      obtain ⟨rfl, rfl⟩ := hrest
      exact .panicked none cause

/-- A reading of the stop flag. -/
theorem refused_stride (hpoint : delivery.point = .refused)
    (h : (delivery.step policy).Runs exchanges outcome) :
    Stride policy delivery exchanges outcome := by
  unfold step at h
  rw [hpoint] at h
  obtain ⟨set, rest, rfl, hrest⟩ := h
  cases set with
  | true =>
      obtain ⟨_, _, rfl, rfl, rfl⟩ := hrest
      exact .stopped hpoint
  | false =>
      obtain ⟨rfl, rfl⟩ := hrest
      exact .allowed hpoint

/-- The beginning of a timed offer. -/
theorem waiting_stride (hpoint : delivery.point = .waiting)
    (h : (delivery.step policy).Runs exchanges outcome) :
    Stride policy delivery exchanges outcome := by
  unfold step at h
  rw [hpoint] at h
  dsimp only at h
  split at h
  · obtain ⟨reception, rest, rfl, hrest⟩ := h
    exact received_stride (some slice) (by simp [hpoint]) hrest
  · rcases Program.runs_bind h with
      ⟨cause, rfl, hpanics⟩ | ⟨deadline, first, last, rfl, hnow, hlast⟩
    · obtain ⟨now, rfl, -, rfl⟩ := deadline_panics hpanics
      exact .overflowed hpoint now
    · obtain ⟨now, rfl, -⟩ := deadline_returns hnow
      obtain ⟨rfl, rfl⟩ := hlast
      exact .polled hpoint now deadline

/-- A round of polling ends with the reception of its offer, or goes on after a sleep with what
the sink has handed back. -/
theorem round_returns {target : σ} {completion : Completion} {deadline : Instant}
    {answer : Reception ⊕ Completion}
    (h : (Polling.round target completion deadline).Returns exchanges answer) :
    ∃ reception others, exchanges = ⟨.offer target completion, reception⟩ :: others ∧
      (others = [] ∧ answer = .inl reception ∨
        ∃ returned, reception = .full returned ∧ Aside others ∧
          (answer = .inl reception ∨ answer = .inr returned)) := by
  obtain ⟨reception, rest, rfl, hrest⟩ := Program.returns_ask_bind.mp h
  refine ⟨reception, rest, rfl, ?_⟩
  cases reception with
  | panicked cause => exact absurd hrest Program.returns_panic
  | accepted | disconnected =>
      obtain ⟨rfl, rfl⟩ := Program.returns_pure.mp hrest
      exact .inl ⟨rfl, rfl⟩
  | full returned =>
      obtain ⟨now, last, rfl, hlast⟩ := Program.returns_ask_bind.mp hrest
      split at hlast
      · obtain ⟨_, none, rfl, hanswer⟩ := Program.returns_ask_bind.mp hlast
        obtain ⟨rfl, rfl⟩ := Program.returns_pure.mp hanswer
        exact .inr ⟨returned, rfl, by simp [Aside, Exchange.offers, Exchange.readings], .inr rfl⟩
      · obtain ⟨rfl, rfl⟩ := Program.returns_pure.mp hlast
        exact .inr ⟨returned, rfl, by simp [Aside, Exchange.offers, Exchange.readings], .inl rfl⟩

/-- A round of polling. -/
theorem polling_stride {deadline : Instant} (hpoint : delivery.point = .polling deadline)
    (h : (delivery.step policy).Runs exchanges outcome) :
    Stride policy delivery exchanges outcome := by
  have hstarted : delivery.point ≠ .offering := by simp [hpoint]
  unfold step at h
  rw [hpoint] at h
  rcases Program.runs_bind h with ⟨cause, rfl, hpanics⟩ | ⟨answer, first, last, rfl, hround, hlast⟩
  · rw [round_panics hpanics]
    exact .panicked none cause
  · obtain ⟨reception, others, rfl, hanswer⟩ := round_returns hround
    rcases hanswer with ⟨rfl, rfl⟩ | ⟨returned, rfl, hothers, rfl | rfl⟩
    · exact received_stride none hstarted hlast
    · obtain ⟨rfl, rfl⟩ := hlast
      rw [List.append_nil]
      exact .refused none returned .refused (fun hcontra => absurd hcontra hstarted) hothers
        (by simp) (by simp)
    · obtain ⟨rfl, rfl⟩ := hlast
      rw [List.append_nil]
      exact .refused none returned (.polling deadline) (fun hcontra => absurd hcontra hstarted)
        hothers (by simp) (by simp)

/-- Everything that a step of a delivery can come to is one of these. -/
theorem step_stride (h : (delivery.step policy).Runs exchanges outcome) :
    Stride policy delivery exchanges outcome := by
  cases hpoint : delivery.point with
  | offering => exact offering_stride hpoint h
  | refused => exact refused_stride hpoint h
  | waiting => exact waiting_stride hpoint h
  | polling deadline => exact polling_stride hpoint h

end Step

/-! ## Whole deliveries -/

/-- The steps of a delivery, the first one first, each with the delivery before it and with its
exchanges, and what they have come to. -/
inductive Run (policy : DeliveryPolicy) (start : Delivery σ) :
    List (Delivery σ × List (Exchange σ)) → Outcome (Option (Delivery σ)) → Prop where
  | begun : Run policy start [] (.returned (some start))
  | step {steps : List (Delivery σ × List (Exchange σ))} {delivery : Delivery σ}
      {exchanges : List (Exchange σ)} {outcome : Outcome (Option (Delivery σ))}
      (hrun : Run policy start steps (.returned (some delivery)))
      (hstep : (delivery.step policy).Runs exchanges outcome) :
      Run policy start (steps ++ [(delivery, exchanges)]) outcome

/-- The exchanges of some steps. -/
def made (steps : List (Delivery σ × List (Exchange σ))) : List (Exchange σ) :=
  steps.flatMap Prod.snd

/-- The delivery is about to let its sink wait for room. -/
def isWaiting (delivery : Delivery σ) : Bool :=
  match delivery.point with
  | .waiting => true
  | _ => false

/-- The number of times that a sink has been given a while to find room. A sink that is polled is
given it once for all rounds. -/
def slices (steps : List (Delivery σ × List (Exchange σ))) : Nat :=
  steps.countP fun step => step.1.isWaiting

section Runs

variable {policy : DeliveryPolicy} {start delivery : Delivery σ}
  {steps others : List (Delivery σ × List (Exchange σ))} {exchanges : List (Exchange σ)}
  {outcome : Outcome (Option (Delivery σ))}

/-- The exchanges of two parts of a delivery are those of the first and then those of the second. -/
@[simp]
theorem made_append : made (steps ++ others) = made steps ++ made others :=
  List.flatMap_append

/-- The exchanges of a single step are its own. -/
@[simp]
theorem made_singleton : made [(delivery, exchanges)] = exchanges :=
  List.append_nil _

/-- The exchanges of a step are among those of the delivery. -/
theorem mem_made {step : Delivery σ × List (Exchange σ)} {exchange : Exchange σ}
    (hstep : step ∈ steps) (hexchange : exchange ∈ step.2) : exchange ∈ made steps :=
  List.mem_flatMap_of_mem hstep hexchange

/-- A delivery lets its sink wait if and only if it is at the point of waiting. -/
theorem isWaiting_iff : delivery.isWaiting = true ↔ delivery.point = .waiting := by
  unfold isWaiting
  cases delivery.point <;> simp

/-- The offer of a completion that its sink has no room for. -/
def refusal (resolved : Resolved σ) (patience : Option Duration) : Offer σ :=
  ⟨resolved.sink.target, resolved.completion, patience, .full resolved.completion⟩

/-- What is known of a delivery as long as it goes on. -/
structure Undecided (policy : DeliveryPolicy) (resolved : Resolved σ)
    (steps : List (Delivery σ × List (Exchange σ))) (delivery : Delivery σ) : Prop where
  sink : delivery.sink = resolved.sink
  completion : delivery.completion = resolved.completion
  /-- The sink had no room at any offer. -/
  refused : ∀ offer ∈ offers (made steps), ∃ patience, offer = refusal resolved patience
  /-- Nothing has been done before the first offer. -/
  unbegun : delivery.point = .offering → steps = []
  /-- Only under one policy does the delivery go on after the first offer. -/
  begun : delivery.point ≠ .offering → policy = .blockWhenFull ∧ offers (made steps) ≠ []

/-- A sink that hands completions back leaves a delivery that goes on with the original one. -/
theorem Undecided.step {resolved : Resolved σ} {next : Delivery σ}
    (h : Undecided policy resolved steps delivery) (hback : HandsBack exchanges)
    (hstride : Stride policy delivery exchanges (.returned (some next))) :
    Undecided policy resolved (steps ++ [(delivery, exchanges)]) next := by
  cases hstride with
  | refused patience completion point hpolicy hothers hoffering =>
      have hsame : completion = delivery.completion :=
        hback _ (mem_offers_offer _ _) completion rfl
      have hoffer : delivery.offered patience (.full completion) = refusal resolved patience := by
        rw [offered, refusal, h.sink, hsame, h.completion]
      constructor
      case sink => exact h.sink
      case completion => exact hsame.trans h.completion
      case refused =>
        rw [made_append, made_singleton, offers_append, offers_offer, hothers.offers_eq, hoffer]
        exact List.forall_mem_append.mpr ⟨h.refused, List.forall_mem_singleton.mpr ⟨patience, rfl⟩⟩
      case unbegun => exact fun hcontra => absurd hcontra hoffering
      case begun =>
        intro _
        refine ⟨?_, by simp⟩
        by_cases hpoint : delivery.point = .offering
        · exact hpolicy hpoint
        · exact (h.begun hpoint).1
  | allowed hpoint | polled hpoint =>
      have hbegun := h.begun (by simp [hpoint])
      have hoffers : ∀ exchange : Exchange σ, exchange.offers = [] →
          offers (made (steps ++ [(delivery, [exchange])])) = offers (made steps) := by
        intro exchange hnone
        simp [offers, hnone]
      constructor
      case sink => exact h.sink
      case completion => exact h.completion
      case refused =>
        rw [hoffers _ rfl]
        exact h.refused
      case unbegun => exact fun hcontra => by cases hcontra
      case begun =>
        rw [hoffers _ rfl]
        exact fun _ => hbegun

/-- As long as it goes on, a delivery has the original completion in hand, refused by its sink. -/
theorem Run.undecided {resolved : Resolved σ} {next : Delivery σ}
    (h : Run policy (.ofResolved resolved) steps (.returned (some next)))
    (hback : HandsBack (made steps)) : Undecided policy resolved steps next := by
  generalize houtcome : Outcome.returned (some next) = outcome at h
  induction h generalizing next with
  | begun =>
      cases houtcome
      exact ⟨rfl, rfl, List.forall_mem_nil _, fun _ => rfl, fun hcontra => absurd rfl hcontra⟩
  | step hrun hstep ih =>
      subst houtcome
      rw [made_append, made_singleton] at hback
      obtain ⟨hearlier, hnow⟩ := hback.of_append
      exact (ih hearlier rfl).step hnow (step_stride hstep)

/-- The offers of a delivery: all of them but the last are refused for want of room. -/
structure Offered (resolved : Resolved σ) (made : List (Offer σ)) : Prop where
  /-- Every offer is of the original completion, to its sink. -/
  same : ∀ offer ∈ made,
    offer.target = resolved.sink.target ∧ offer.completion = resolved.completion
  /-- Nothing is offered after the sink has taken the completion, or has gone away. -/
  last : ∀ earlier offer later, made = earlier ++ offer :: later → later ≠ [] →
    offer.reception = .full resolved.completion
  /-- The sink takes the completion at most once. -/
  once : made.flatMap Offer.taken = [] ∨
    made.flatMap Offer.taken = [(resolved.sink.target, resolved.completion)]

/-- Refusals, and at most one more offer after them. -/
theorem Offered.of_refusals {resolved : Resolved σ} {refusals last : List (Offer σ)}
    (hrefusals : ∀ offer ∈ refusals, ∃ patience, offer = refusal resolved patience)
    (hlength : last.length ≤ 1)
    (hlast : ∀ offer ∈ last,
      offer.target = resolved.sink.target ∧ offer.completion = resolved.completion) :
    Offered resolved (refusals ++ last) := by
  constructor
  case same =>
    intro offer hoffer
    rcases List.mem_append.mp hoffer with hmem | hmem
    · obtain ⟨patience, rfl⟩ := hrefusals offer hmem
      exact ⟨rfl, rfl⟩
    · exact hlast offer hmem
  case last =>
    intro earlier offer later hall hlater
    -- at least one offer follows, so this one is not the one after the refusals
    have hshort : (earlier ++ [offer]).length ≤ refusals.length := by
      have hlengths := congrArg List.length hall
      have hpositive := List.length_pos_of_ne_nil hlater
      simp only [List.length_append, List.length_cons, List.length_nil] at hlengths ⊢
      omega
    have hfront : earlier ++ [offer] <+: refusals := by
      refine List.prefix_of_prefix_length_le ?_ (List.prefix_append refusals last) hshort
      exact ⟨later, by rw [hall, List.append_assoc]; rfl⟩
    obtain ⟨patience, rfl⟩ := hrefusals offer (hfront.subset (by simp))
    rfl
  case once =>
    have hnone : refusals.flatMap Offer.taken = [] := by
      refine List.flatMap_eq_nil_iff.mpr fun offer hoffer => ?_
      obtain ⟨patience, rfl⟩ := hrefusals offer hoffer
      rfl
    rw [List.flatMap_append, hnone, List.nil_append]
    cases last with
    | nil => exact .inl rfl
    | cons offer others =>
        obtain rfl : others = [] := List.eq_nil_of_length_eq_zero (by simpa using hlength)
        obtain ⟨htarget, hcompletion⟩ := List.forall_mem_singleton.mp hlast
        rw [List.flatMap_singleton, Offer.taken, htarget, hcompletion]
        cases offer.reception with
        | accepted => exact .inr rfl
        | full | disconnected | panicked => exact .inl rfl

/-- The offers of one step: at most one, of the completion on its way. -/
theorem Stride.offers_eq (h : Stride policy delivery exchanges outcome) :
    (offers exchanges).length ≤ 1 ∧ ∀ offer ∈ offers exchanges,
      offer.target = delivery.sink.target ∧ offer.completion = delivery.completion := by
  cases h with
  | refused _ _ _ _ hothers =>
      rw [offers_offer, hothers.offers_eq]
      exact ⟨Nat.le_refl 1, List.forall_mem_singleton.mpr ⟨rfl, rfl⟩⟩
  | accepted | disconnected | panicked | dropped =>
      rw [offers_offer]
      exact ⟨Nat.le_refl 1, List.forall_mem_singleton.mpr ⟨rfl, rfl⟩⟩
  | stopped | allowed | polled | overflowed => exact ⟨Nat.zero_le 1, List.forall_mem_nil _⟩

/-- Why a completion is given up. -/
inductive Forgone (policy : DeliveryPolicy) (resolved : Resolved σ)
    (steps : List (Delivery σ × List (Exchange σ))) : Prop where
  /-- The sink has gone away. -/
  | disconnected (earlier : List (Offer σ)) (patience : Option Duration) (returned : Completion)
      (hoffers : offers (made steps) = earlier ++
        [⟨resolved.sink.target, resolved.completion, patience, .disconnected returned⟩])
  /-- The sink had no room at the only offer, which did not let it wait. -/
  | dropped (hpolicy : policy = .dropWhenFull)
      (hoffers : offers (made steps) = [refusal resolved none]) (hslices : slices steps = 0)
  /-- The stop flag was read as set after the sink had no room. -/
  | stopped (hpolicy : policy = .blockWhenFull) (before after : List (Exchange σ))
      (hmade : made steps = before ++ ⟨.stopping, true⟩ :: after) (earlier : List (Offer σ))
      (patience : Option Duration)
      (hoffers : offers before = earlier ++ [refusal resolved patience])
      (hafter : offers after = [])

/-- What one delivery comes to. -/
structure Delivered (policy : DeliveryPolicy) (resolved : Resolved σ)
    (steps : List (Delivery σ × List (Exchange σ))) (outcome : Outcome (Option (Delivery σ))) :
    Prop where
  /-- The sink takes the completion at most once, as it is, and is offered nothing after that. -/
  offered : Offered resolved (offers (made steps))
  /-- A delivery that is over has had its completion taken, or has given it up for a reason. -/
  reason : outcome = .returned none →
    taken (made steps) = [(resolved.sink.target, resolved.completion)] ∨
      Forgone policy resolved steps
  /-- Once the stop flag is set, the sink is given at most one more while to find room. -/
  stopping : ∀ earlier later, steps = earlier ++ later →
    (∀ set ∈ readings (made later), set = true) → slices later ≤ 1

/-- As many offers as there are, they are of the original completion. -/
theorem Run.offers_once {resolved : Resolved σ}
    (h : Run policy (.ofResolved resolved) steps outcome)
    (hback : HandsBack (made steps)) : Offered resolved (offers (made steps)) := by
  cases h with
  | begun =>
      exact Offered.of_refusals (List.forall_mem_nil _) (Nat.zero_le 1) (List.forall_mem_nil _)
  | @step steps delivery exchanges _ hrun hstep =>
      rw [made_append, made_singleton] at hback ⊢
      have hundecided := hrun.undecided hback.of_append.1
      obtain ⟨hlength, hsame⟩ := (step_stride hstep).offers_eq
      rw [hundecided.sink, hundecided.completion] at hsame
      rw [offers_append]
      exact .of_refusals hundecided.refused hlength hsame

/-- A delivery that is over has had its completion taken, or has given it up for a reason. -/
theorem Run.reason {resolved : Resolved σ}
    (h : Run policy (.ofResolved resolved) steps (.returned none))
    (hback : HandsBack (made steps)) :
    taken (made steps) = [(resolved.sink.target, resolved.completion)] ∨
      Forgone policy resolved steps := by
  have honce := (h.offers_once hback).once
  generalize houtcome : Outcome.returned none = outcome at h
  cases h with
  | begun => cases houtcome
  | @step steps delivery exchanges _ hrun hstep =>
      subst houtcome
      have hmade : made (steps ++ [(delivery, exchanges)]) = made steps ++ exchanges := by simp
      rw [hmade] at hback honce ⊢
      have hundecided := hrun.undecided hback.of_append.1
      cases step_stride hstep with
      | accepted patience =>
          -- the sink has taken something, and there is only one thing it can have taken
          refine .inl (honce.resolve_left ?_)
          simp [Delivery.offered, Offer.taken]
      | disconnected patience returned =>
          refine .inr (.disconnected (offers (made steps)) patience returned ?_)
          rw [hmade, offers_append, offers_offer, Delivery.offered, hundecided.sink,
            hundecided.completion]
          rfl
      | dropped returned hpoint hpolicy =>
          obtain rfl := hundecided.unbegun hpoint
          have hreturned : returned = delivery.completion :=
            hback.of_append.2 _ (mem_offers_offer _ _) returned rfl
          refine .inr (.dropped hpolicy ?_ ?_)
          · rw [hmade, offers_append, offers_offer, Delivery.offered, hundecided.sink, hreturned,
              hundecided.completion]
            rfl
          · simp [slices, isWaiting, hpoint]
      | stopped hpoint =>
          obtain ⟨hpolicy, hoffers⟩ := hundecided.begun (by simp [hpoint])
          obtain ⟨earlier, last, hlast⟩ := (List.eq_nil_or_concat _).resolve_left hoffers
          rw [List.concat_eq_append] at hlast
          obtain ⟨patience, rfl⟩ := hundecided.refused last (by rw [hlast]; simp)
          exact .inr (.stopped hpolicy (made steps) _ hmade earlier patience hlast rfl)

/-- The exchanges of the step that finds the stop flag clear. -/
def clearReading : List (Exchange σ) :=
  [⟨.stopping, false⟩]

/-- A delivery that is about to let its sink wait has just read the stop flag as clear. -/
theorem Run.clear_before_waiting (h : Run policy start steps (.returned (some delivery)))
    (hstart : start.point ≠ .waiting) (hpoint : delivery.point = .waiting) :
    ∃ before earlier, steps = before ++ [(earlier, clearReading)] := by
  generalize houtcome : Outcome.returned (some delivery) = outcome at h
  cases h with
  | begun =>
      cases houtcome
      exact absurd hpoint hstart
  | step hrun hstep =>
      subst houtcome
      cases step_stride hstep with
      | allowed => exact ⟨_, _, rfl⟩
      | refused _ _ _ _ _ _ hwaiting => exact absurd hpoint hwaiting
      | polled => cases hpoint

/-- The same at every step that lets the sink wait. -/
theorem Run.clear_before (h : Run policy start steps outcome) (hstart : start.point ≠ .waiting)
    {earlier later : List (Delivery σ × List (Exchange σ))}
    {step : Delivery σ × List (Exchange σ)} (hsteps : steps = earlier ++ step :: later)
    (hwaiting : step.1.point = .waiting) :
    ∃ before first, earlier = before ++ [(first, clearReading)] := by
  induction h generalizing later with
  | begun => simp at hsteps
  | step hrun hstep ih =>
      rcases List.eq_nil_or_concat later with rfl | ⟨others, last, rfl⟩
      · obtain ⟨rfl, hlast⟩ := List.append_inj' hsteps rfl
        cases hlast
        exact hrun.clear_before_waiting hstart hwaiting
      · rw [List.concat_eq_append, ← List.cons_append, ← List.append_assoc] at hsteps
        obtain ⟨rfl, -⟩ := List.append_inj' hsteps rfl
        exact ih rfl

/-- Once the stop flag is set, only a step that has been decided on before lets the sink wait. -/
theorem Run.slices_le_one (h : Run policy start steps outcome) (hstart : start.point ≠ .waiting)
    {earlier later : List (Delivery σ × List (Exchange σ))} (hsteps : steps = earlier ++ later)
    (hset : ∀ set ∈ readings (made later), set = true) : slices later ≤ 1 := by
  cases later with
  | nil => exact Nat.zero_le 1
  | cons first rest =>
      have hrest : slices rest = 0 := by
        refine List.countP_eq_zero.mpr fun step hstep hwaiting => ?_
        obtain ⟨before, after, rfl⟩ := List.append_of_mem hstep
        have hsplit : steps = (earlier ++ first :: before) ++ step :: after := by
          rw [hsteps]
          simp
        obtain ⟨others, last, hlast⟩ := h.clear_before hstart hsplit (isWaiting_iff.mp hwaiting)
        -- the reading before the step is one of the readings of a set flag
        have hmem : (last, clearReading) ∈ first :: before := by
          have hend := congrArg List.getLast? hlast
          rw [List.getLast?_append_of_ne_nil _ (List.cons_ne_nil _ _), List.getLast?_concat] at hend
          exact List.mem_of_getLast? hend
        have hstep : (last, clearReading) ∈ first :: (before ++ step :: after) := by
          rw [← List.cons_append]
          exact List.mem_append_left _ hmem
        cases hset false (mem_readings (mem_made hstep (List.mem_singleton.mpr rfl)))
      unfold slices at hrest ⊢
      rw [List.countP_cons, hrest]
      split <;> omega

/-- What every delivery comes to, if sinks hand back what they have no room for. -/
theorem Run.delivered {resolved : Resolved σ} (h : Run policy (.ofResolved resolved) steps outcome)
    (hback : HandsBack (made steps)) : Delivered policy resolved steps outcome := by
  constructor
  case offered => exact h.offers_once hback
  case reason =>
    rintro rfl
    exact h.reason hback
  case stopping => exact fun earlier later => h.slices_le_one (by simp [ofResolved])

end Runs

end Delivery

end Proactor
