import Proactor.Proofs.Offering

/-!
# What sinks have taken

A loop that blocks when a sink is full delivers one completion after the other.
If no sink goes away or panics, and the loop is not told to stop, each delivery
ends only when the sink has taken the completion. Between two dispatches the
sinks have therefore taken exactly what has resolved, each completion once and
in order.
-/

namespace Proactor

/-- A completion with the target of its sink. -/
def Resolved.parcel {σ : Type} (resolved : Resolved σ) : σ × Completion :=
  (resolved.sink.target, resolved.completion)

/-- The request offers a completion to a sink. -/
def Request.isOffer {σ : Type} : Request σ → Bool
  | .offer _ _ | .offerWithin _ _ _ => true
  | _ => false

section Exchanges

variable {σ : Type}

/-- Every sink takes what it is offered or hands it back, and the stop flag is clear. -/
@[mk_iff]
structure Willing (exchanges : List (Exchange σ)) : Prop where
  answers : ∀ offer ∈ offers exchanges,
    offer.reception = .accepted ∨ offer.reception = .full offer.completion
  clear : ∀ set ∈ readings exchanges, set = false

instance (exchanges : List (Exchange σ)) : Decidable (Willing exchanges) :=
  decidable_of_iff _ (willing_iff exchanges).symm

/-- Without a request that offers something nothing is offered. -/
theorem offers_eq_nil {exchanges : List (Exchange σ)}
    (h : ∀ exchange ∈ exchanges, exchange.request.isOffer = false) : offers exchanges = [] := by
  refine List.flatMap_eq_nil_iff.mpr fun exchange hexchange => ?_
  have hrequest := h exchange hexchange
  obtain ⟨request, answer⟩ := exchange
  cases request with
  | offer | offerWithin => cases hrequest
  | _ => rfl

/-- Without a request that offers something nothing is taken. -/
theorem taken_eq_nil {exchanges : List (Exchange σ)}
    (h : ∀ exchange ∈ exchanges, exchange.request.isOffer = false) : taken exchanges = [] := by
  rw [taken, offers_eq_nil h]
  rfl

end Exchanges

section Requests

variable {σ : Type} {request : Request σ}

/-- Telling the log something offers nothing to a sink. -/
theorem Request.Logs.isOffer_eq (h : request.Logs) : request.isOffer = false := by
  obtain ⟨record, rfl⟩ := h
  rfl

/-- Tending a registration offers nothing to a sink. -/
theorem Request.Tends.isOffer_eq {source : Source} {fd : Fd} {event : RawEvent}
    (h : request.Tends source fd event) : request.isOffer = false := by
  cases h <;> rfl

/-- A transfer offers nothing to a sink. -/
theorem Request.isOffer_of_transferOn? {fd : Fd} (h : request.transferOn? = some fd) :
    request.isOffer = false := by
  cases request with
  | read | send | write => rfl
  | _ => cases h

/-- Only deliveries make offers. -/
theorem EventLoop.Stage.MayAsk.isOffer_eq {setup : EventLoop.Setup} {side : Side σ}
    {stage : EventLoop.Stage σ} (h : stage.MayAsk setup side request)
    (hstage : ∀ delivery resolved batch, stage ≠ .delivering delivery resolved batch) :
    request.isOffer = false := by
  cases stage with
  | starting | ended => cases h
  | waiting =>
      rcases h with ⟨millis, rfl⟩ | hlogs
      · rfl
      · exact hlogs.isOffer_eq
  | handling =>
      rcases h with rfl | hlogs
      · rfl
      · exact hlogs.isOffer_eq
  | draining =>
      obtain ⟨count, rfl⟩ := h
      rfl
  | attempting =>
      rcases h with htransfer | hlogs
      · exact Request.isOffer_of_transferOn? htransfer
      · exact hlogs.isOffer_eq
  | settling => exact Request.Tends.isOffer_eq h
  | announcing => exact Request.Logs.isOffer_eq h
  | delivering delivery resolved batch => exact absurd rfl (hstage delivery resolved batch)

end Requests

/-! ## Deliveries to willing sinks -/

section Strides

variable {σ : Type} {policy : DeliveryPolicy} {delivery next : Delivery σ}
  {exchanges : List (Exchange σ)}

/-- A delivery that blocks is over only when a willing sink has taken the completion. -/
theorem Willing.delivered (h : Willing exchanges)
    (hstride : Delivery.Stride policy delivery exchanges (.returned none))
    (hpolicy : policy = .blockWhenFull) : taken exchanges = [delivery.resolved.parcel] := by
  cases hstride with
  | accepted patience =>
      rw [taken, offers_offer]
      rfl
  | disconnected =>
      rcases h.answers _ (mem_offers_offer _ _) with hanswer | hanswer <;> cases hanswer
  | dropped _ _ hdrop => cases hdrop.symm.trans hpolicy
  | stopped => cases h.clear true (mem_readings List.mem_cons_self)

/-- A delivery that goes on has the same completion in hand, and the sink has taken nothing. -/
theorem Willing.going (h : Willing exchanges)
    (hstride : Delivery.Stride policy delivery exchanges (.returned (some next))) :
    taken exchanges = [] ∧ next.resolved = delivery.resolved := by
  cases hstride with
  | refused patience returned point _ hothers =>
      have hsame : returned = delivery.completion := by
        rcases h.answers _ (mem_offers_offer _ _) with hanswer | hanswer
        · cases hanswer
        · exact Reception.full.inj hanswer
      subst hsame
      refine ⟨?_, rfl⟩
      rw [taken, offers_offer, hothers.offers_eq]
      rfl
  | allowed | polled => exact ⟨rfl, rfl⟩

end Strides

/-! ## Lanes -/

namespace EventLoop.Stage

variable {σ : Type}

/-- The completion that is being delivered. -/
def underway : Stage σ → List (Resolved σ)
  | delivering delivery _ _ => [delivery.resolved]
  | _ => []

/-- The loop is between two dispatches. -/
def isBetween : Stage σ → Bool
  | starting | waiting | handling _ | draining _ => true
  | _ => false

end EventLoop.Stage

namespace Lane

variable {σ : Type}

/-- What the sinks of a lane have taken, in order. -/
def acceptances : List (Event σ) → List (σ × Completion)
  | [] => []
  | event :: history => acceptances history ++ taken event.exchanges

/-- As long as the loop goes on, what it has handed over has been taken, but for the completion
that is being delivered. -/
def Carried (history : List (Event σ)) (lane : Lane σ) : Prop :=
  lane.stage.isEnded = false →
    (handed history).map Resolved.parcel =
      acceptances history ++ lane.stage.underway.map Resolved.parcel

section Moves

variable {setup : EventLoop.Setup} {lane next : Lane σ} {exchanges : List (Exchange σ)}

/-- A loop that goes on after a move went on before it. -/
theorem Moves.live (h : Moves setup lane exchanges next) (hlive : next.stage.isEnded = false) :
    lane.stage.isEnded = false := by
  cases hended : lane.stage.isEnded with
  | false => rfl
  | true =>
      obtain ⟨ending, hstage⟩ := EventLoop.Stage.isEnded_iff.mp hended
      rw [(h.of_ended hstage).1] at hlive
      cases hlive

/-- A delivery under way begins with being handed over. -/
theorem Moves.handedTo_eq (h : Moves setup lane exchanges next)
    (hstage : ∀ delivery resolved batch, lane.stage ≠ .delivering delivery resolved batch) :
    lane.stage.handedTo next.stage = next.stage.underway := by
  cases hnext : next.stage with
  | delivering delivery resolved batch =>
      rcases h.to_delivering hnext with ⟨first, hbefore⟩ | ⟨earlier, hbefore⟩
      · rw [hbefore]
        rfl
      · exact absurd hbefore (hstage _ _ _)
  | _ => cases lane.stage <;> rfl

/-- A step of a delivery to a willing sink: the sink takes the completion, or the delivery goes on
with the same one. -/
theorem Moves.delivering_taken (h : Moves setup lane exchanges next) {delivery : Delivery σ}
    {resolved : List (Resolved σ)} {batch : List Proactor.Event}
    (hstage : lane.stage = .delivering delivery resolved batch)
    (hpolicy : setup.delivery = .blockWhenFull) (hwilling : Willing exchanges)
    (hlive : next.stage.isEnded = false) :
    [delivery.resolved.parcel] =
      taken exchanges ++ next.stage.underway.map Resolved.parcel := by
  cases h with
  | exclusive hmove | exclusivePanic hmove =>
      rw [hstage] at hmove
      cases hmove
  | sharedPanic => cases hlive
  | shared hmove hact =>
      rw [hstage] at hmove
      cases hmove
      obtain ⟨result, first, last, rfl, hfirst, hlast⟩ := Program.returns_bind.mp hact
      cases result with
      | none =>
          obtain ⟨rfl, rfl⟩ := Program.returns_pure.mp hlast
          rw [List.append_nil] at hwilling ⊢
          rw [hwilling.delivered (Delivery.step_stride hfirst) hpolicy]
          rfl
      | some going =>
          obtain ⟨rfl, rfl⟩ := Program.returns_pure.mp hlast
          rw [List.append_nil] at hwilling ⊢
          obtain ⟨hnone, hsame⟩ := hwilling.going (Delivery.step_stride hfirst)
          rw [hnone]
          exact congrArg (fun resolved => [Resolved.parcel resolved]) hsame.symm

end Moves

section Carried

variable {setup : EventLoop.Setup} {history : List (Event σ)} {lane next : Lane σ}

/-- An event that neither hands anything over nor makes an offer. -/
theorem Carried.idle {event : Event σ} (h : Carried history lane) (hhanded : event.handed = [])
    (hexchanges : ∀ exchange ∈ event.exchanges, exchange.request.isOffer = false)
    (hstage : next.stage = lane.stage) : Carried (event :: history) next := by
  intro hlive
  rw [hstage] at hlive ⊢
  rw [handed, hhanded, acceptances, taken_eq_nil hexchanges, List.append_nil, List.append_nil]
  exact h hlive

/-- A move hands over what is delivered from then on, or has a step of a delivery. -/
theorem Carried.move {exchanges : List (Exchange σ)} (h : Carried history lane)
    (hmoves : Moves setup lane exchanges next) (hpolicy : setup.delivery = .blockWhenFull)
    (hwilling : Willing exchanges) : Carried (.moved lane exchanges next :: history) next := by
  intro hlive
  have hcarried := h (hmoves.live hlive)
  have hhanded : handed (.moved lane exchanges next :: history) =
      handed history ++ lane.stage.handedTo next.stage := rfl
  have haccepted : acceptances (.moved lane exchanges next :: history) =
      acceptances history ++ taken exchanges := rfl
  rw [hhanded, haccepted, List.map_append, hcarried, List.append_assoc, List.append_assoc]
  refine congrArg (acceptances history ++ ·) ?_
  by_cases hdelivering : ∃ delivery resolved batch,
      lane.stage = .delivering delivery resolved batch
  · obtain ⟨delivery, resolved, batch, hstage⟩ := hdelivering
    have hnone : lane.stage.handedTo next.stage = [] := by
      rw [hstage]
      rfl
    rw [hnone, List.map_nil, List.append_nil, hstage]
    exact hmoves.delivering_taken hstage hpolicy hwilling hlive
  · have hothers : ∀ delivery resolved batch,
        lane.stage ≠ .delivering delivery resolved batch :=
      fun delivery resolved batch hstage => hdelivering ⟨delivery, resolved, batch, hstage⟩
    have hnone : taken exchanges = [] := taken_eq_nil fun exchange hexchange =>
      (hmoves.mayAsk exchange hexchange).isOffer_eq hothers
    have hidle : lane.stage.underway = [] := by
      cases hstage : lane.stage with
      | delivering delivery resolved batch => exact absurd hstage (hothers _ _ _)
      | _ => rfl
    rw [hmoves.handedTo_eq hothers, hidle, hnone]
    rfl

end Carried

section Runs

variable {setup : EventLoop.Setup} {history : List (Event (Numbered σ))}
  {lane : Lane (Numbered σ)}

/-- In every run of a lane that blocks, with willing sinks, what has been handed over has been
taken, but for the completion that is being delivered. -/
theorem Run.carried (h : Run setup history lane) (hpolicy : setup.delivery = .blockWhenFull)
    (hwilling : ∀ event ∈ history, Willing event.exchanges) : Carried history lane := by
  induction h with
  | opened => exact fun _ => rfl
  | submit _ _ _ _ _ hsubmit ih =>
      obtain ⟨-, hearlier⟩ := List.forall_mem_cons.mp hwilling
      obtain ⟨⟨result, table⟩, calls, none, rfl, hcalls, hside⟩ := Program.returns_bind.mp hsubmit
      obtain ⟨rfl, hanswer⟩ := Program.returns_pure.mp hside
      rw [List.append_nil]
      refine (ih hearlier).idle rfl (fun exchange hexchange => ?_) rfl
      exact (Outstanding.submit_tends.request hcalls exchange hexchange).isOffer_eq
  | close _ hclose ih =>
      obtain ⟨-, hearlier⟩ := List.forall_mem_cons.mp hwilling
      obtain ⟨⟨result, source⟩, calls, none, rfl, hcalls, hside⟩ := Program.returns_bind.mp hclose
      obtain ⟨rfl, hanswer⟩ := Program.returns_pure.mp hside
      rw [List.append_nil]
      refine (ih hearlier).idle rfl (fun exchange hexchange => ?_) rfl
      rw [Source.close_asks.request hcalls exchange hexchange]
      rfl
  | move _ hmoves ih =>
      obtain ⟨hnow, hearlier⟩ := List.forall_mem_cons.mp hwilling
      exact (ih hearlier).move hmoves hpolicy hnow

/-- Between two dispatches of a lane that blocks, with willing sinks, the sinks have taken exactly
what has resolved. -/
theorem Run.acceptances_eq (h : Run setup history lane)
    (hpolicy : setup.delivery = .blockWhenFull)
    (hwilling : ∀ event ∈ history, Willing event.exchanges)
    (hbetween : lane.stage.isBetween = true) :
    acceptances history =
      (Lending.completed (tableHistory history)).map Resolved.parcel := by
  have hstage : lane.stage.isEnded = false ∧ lane.stage.awaiting = [] ∧
      lane.stage.underway = [] := by
    cases hnow : lane.stage with
    | starting | waiting | handling | draining => exact ⟨rfl, rfl, rfl⟩
    | _ =>
        rw [hnow] at hbetween
        cases hbetween
  obtain ⟨hlive, hawaiting, hunderway⟩ := hstage
  have hcarried := h.carried hpolicy hwilling hlive
  rw [hunderway, List.map_nil, List.append_nil] at hcarried
  rw [h.handing.rest hlive, hawaiting, List.append_nil, hcarried]

end Runs

/-- Delivery is at most once and gives a completion up only for a stated reason. So between two
dispatches of a loop that blocks, with willing sinks, every sink has taken the completions that
have resolved for it, each once and in order. -/
theorem deliveries_exact :
    (∀ (policy : DeliveryPolicy) (resolved : Resolved σ)
        (steps : List (Delivery σ × List (Exchange σ))) (outcome : Outcome (Option (Delivery σ))),
      Delivery.Run policy (.ofResolved resolved) steps outcome →
        HandsBack (Delivery.made steps) → Delivery.Delivered policy resolved steps outcome) ∧
      ∀ (setup : EventLoop.Setup) (history : List (Event (Numbered σ))) (lane : Lane (Numbered σ)),
        Run setup history lane → setup.delivery = .blockWhenFull →
          (∀ event ∈ history, Willing event.exchanges) → lane.stage.isBetween = true →
            acceptances history =
              (Lending.completed (tableHistory history)).map Resolved.parcel :=
  ⟨fun _ _ _ _ hrun hback => hrun.delivered hback,
    fun _ _ _ hrun hpolicy hwilling hbetween => hrun.acceptances_eq hpolicy hwilling hbetween⟩

/-- A sink that is polled has no room twice, and takes the completion in the next round. In a lane,
a sink that waits for room by itself has none at first. -/
theorem deliveries_exact_delayed :
    (∃ (resolved : Resolved Unit) (steps : List (Delivery Unit × List (Exchange Unit))),
      Delivery.Run .blockWhenFull (.ofResolved resolved) steps (.returned none) ∧
        HandsBack (Delivery.made steps) ∧ (offers (Delivery.made steps)).length = 3 ∧
        Delivery.Delivered .blockWhenFull resolved steps (.returned none)) ∧
      ∃ (setup : EventLoop.Setup) (history : List (Event (Numbered Unit)))
        (lane : Lane (Numbered Unit)),
        Run setup history lane ∧ setup.delivery = .blockWhenFull ∧
          (∀ event ∈ history, Willing event.exchanges) ∧ lane.stage.isBetween = true ∧
          acceptances history = [((0, ()), ⟨⟨7⟩, [1, 0], 1, none, .read⟩)] ∧
          acceptances history = (Lending.completed (tableHistory history)).map Resolved.parcel := by
  constructor
  · let completion : Completion := ⟨⟨7⟩, [1, 2], 2, none, .write⟩
    let resolved : Resolved Unit := ⟨completion, ⟨(), false⟩⟩
    let reached (point : Delivery.Point) : Delivery Unit :=
      { Delivery.ofResolved resolved with point }
    let steps : List (Delivery Unit × List (Exchange Unit)) :=
      [(reached .offering, [⟨.offer () completion, .full completion⟩]),
        (reached .refused, [⟨.stopping, false⟩]), (reached .waiting, [⟨.now, ⟨0⟩⟩]),
        (reached (.polling ⟨10000000⟩), [⟨.offer () completion, .full completion⟩,
          ⟨.now, ⟨5⟩⟩, ⟨.pause Polling.backoff, ()⟩]),
        (reached (.polling ⟨10000000⟩), [⟨.offer () completion, .accepted⟩])]
    have hdeadline : (Polling.deadline Delivery.slice).Returns
        [(⟨.now, ⟨0⟩⟩ : Exchange Unit)] ⟨10000000⟩ := by
      have hnow : (⟨0⟩ : Instant).add? Delivery.slice = some ⟨10000000⟩ := if_pos (by decide)
      refine Program.returns_ask_bind.mpr ⟨⟨0⟩, [], rfl, ?_⟩
      rw [hnow]
      exact ⟨rfl, rfl⟩
    have hpolled : ((reached .waiting).step .blockWhenFull).Returns [⟨.now, ⟨0⟩⟩]
        (some (reached (.polling ⟨10000000⟩))) :=
      Program.returns_bind.mpr ⟨_, _, _, (List.append_nil _).symm, hdeadline, rfl, rfl⟩
    have hbegun : Delivery.Run .blockWhenFull (.ofResolved resolved) []
        (.returned (some (reached .offering))) := .begun
    have hrefused := hbegun.step ⟨.full completion, _, rfl, rfl, rfl⟩
    have hclear := hrefused.step ⟨false, _, rfl, rfl, rfl⟩
    have hround := (hclear.step hpolled).step
      ⟨.full completion, _, rfl, ⟨5⟩, _, rfl, (), _, rfl, rfl, rfl⟩
    have hrun : Delivery.Run .blockWhenFull (.ofResolved resolved) steps (.returned none) :=
      hround.step ⟨.accepted, _, rfl, rfl, rfl⟩
    have hback : HandsBack (Delivery.made steps) := by
      have hoffers : offers (Delivery.made steps) = [⟨(), completion, none, .full completion⟩,
        ⟨(), completion, none, .full completion⟩, ⟨(), completion, none, .accepted⟩] := rfl
      simp [HandsBack, hoffers]
    exact ⟨resolved, steps, hrun, hback, rfl, deliveries_exact.1 _ _ _ _ hrun hback⟩
  · let setup : EventLoop.Setup := ⟨.read, .blockWhenFull, 4⟩
    let source : Source := ⟨⟨3⟩, ⟨⟨4⟩, ⟨5⟩⟩, false⟩
    let ready : RawEvent := ⟨Fd.key ⟨7⟩, EventMask.input⟩
    let completion : Completion := ⟨⟨7⟩, [1, 0], 1, none, .read⟩
    have hopened : Run (σ := Unit) setup [] ⟨⟨source, .empty .read, true⟩, .starting⟩ :=
      .opened source true
    have hsubmitted := hopened.submit ⟨7⟩ [0, 0] ⟨(), true⟩ .overwrite ⟨.ok (), [], rfl, rfl, rfl⟩
    have hstarted := hsubmitted.move (.shared rfl ⟨rfl, rfl⟩)
    have hwaited := hstarted.move (.shared rfl ⟨.ok [ready], _, rfl, rfl, rfl⟩)
    have hchecked := hwaited.move (.exclusive rfl ⟨(), _, rfl, rfl, rfl⟩)
    have hattempted := hchecked.move (.shared rfl ⟨.ok [1], _, rfl, rfl, rfl⟩)
    have hsettled := hattempted.move (.exclusive rfl ⟨.ok (), _, rfl, rfl, rfl⟩)
    have hannounced := hsettled.move (.shared rfl ⟨(), _, rfl, rfl, rfl⟩)
    have hfull := hannounced.move (.shared rfl ⟨.full completion, _, rfl, rfl, rfl⟩)
    have hclear := hfull.move (.shared rfl ⟨false, _, rfl, rfl, rfl⟩)
    have htaken := hclear.move (.shared rfl ⟨.accepted, _, rfl, rfl, rfl⟩)
    have hdone := htaken.move (.shared rfl ⟨rfl, rfl⟩)
    refine ⟨setup, _, _, hdone, rfl, ?_, rfl, ?_, deliveries_exact.2 _ _ _ hdone rfl ?_ rfl⟩
    all_goals decide

end Lane

end Proactor
