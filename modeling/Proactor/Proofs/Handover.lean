import Proactor.Proofs.Ordering

/-!
# The order in which completions are handed over

A settlement can resolve two operations at once. The loop hands their
completions to their sinks one after the other, and other threads and the sinks
themselves submit operations meanwhile. `Run.ordered` says that the completions
of a descriptor are nevertheless handed over in the order in which their
operations were submitted, and that the operation submitted last is not lost.

A loop that ends keeps what it has not handed over, so the completions handed
over are the front of those that settlements have handed back.
-/

namespace Proactor

/-- The completion on its way, with its sink. -/
def Delivery.resolved {σ : Type} (delivery : Delivery σ) : Resolved σ :=
  ⟨delivery.completion, delivery.sink⟩

namespace EventLoop.Stage

variable {σ : Type}

/-- The completions that the loop has yet to hand over. -/
def awaiting : Stage σ → List (Resolved σ)
  | announcing resolved _ => resolved
  | delivering _ resolved _ => resolved
  | _ => []

/-- The completion whose delivery begins between two stages. -/
def handedTo : Stage σ → Stage σ → List (Resolved σ)
  | announcing _ _, delivering delivery _ _ => [delivery.resolved]
  | _, _ => []

/-- A delivery begins only when one is announced, and the loop goes on with it. -/
theorem of_handedTo {stage next : Stage σ} {first : Resolved σ}
    (h : stage.handedTo next = [first]) :
    (∃ resolved batch, stage = .announcing resolved batch) ∧ next.isEnded = false := by
  unfold handedTo at h
  split at h
  · exact ⟨⟨_, _, rfl⟩, rfl⟩
  · cases h

end EventLoop.Stage

namespace Lane

variable {σ : Type}

/-- The completion that a move hands over. -/
def Event.handed : Event σ → List (Resolved σ)
  | moved before _ after => before.stage.handedTo after.stage
  | _ => []

/-- The completions that have been handed over, in the order in which they have. -/
def handed : List (Event σ) → List (Resolved σ)
  | [] => []
  | event :: history => handed history ++ event.handed

/-! ## What a move hands over -/

section Moves

variable {setup : EventLoop.Setup} {lane next : Lane σ} {exchanges : List (Exchange σ)}

/-- What the loop has yet to hand over is handed over now or later, unless the loop ends. -/
def Passes (stage next : EventLoop.Stage σ) : Prop :=
  next.isEnded = false → stage.awaiting = stage.handedTo next ++ next.awaiting

/-- A move that leaves the side alone passes on what the loop has yet to hand over, unless the loop
ends. -/
theorem FollowsShared.passes {stage next : EventLoop.Stage σ} (h : FollowsShared stage next) :
    Passes stage next := by
  cases h with
  | failed | stopped | ended => exact fun hlive => by cases hlive
  | _ => exact fun _ => rfl

/-- A move that settles nothing hands over the first of the completions that await it. -/
theorem Moves.passes (h : Moves setup lane exchanges next)
    (hsettling : ∀ operation attempt batch, lane.stage ≠ .settling operation attempt batch) :
    Passes lane.stage next.stage := by
  cases h with
  | shared hmove hact => exact ((shared_follows hmove _).of_returns hact).passes
  | exclusivePanic | sharedPanic => exact fun hlive => by cases hlive
  | exclusive hmove hact =>
      have hfollows := (exclusive_follows hmove _).of_returns hact
      generalize lane.stage = before at hfollows hsettling
      cases hfollows with
      | checkedOut | passedOver => exact fun _ => rfl
      | settled | misplaced => exact absurd rfl (hsettling _ _ _)

/-- A loop that is over stays as it is. -/
theorem Moves.of_ended (h : Moves setup lane exchanges next) {ending : EventLoop.Ending}
    (hstage : lane.stage = .ended ending) :
    next.stage = .ended ending ∧ next.side.table = lane.side.table := by
  cases h with
  | exclusive hmove | exclusivePanic hmove =>
      rw [hstage] at hmove
      cases hmove
  | shared hmove hact =>
      rw [hstage] at hmove
      cases hmove
      obtain ⟨-, rfl⟩ := Program.returns_pure.mp hact
      exact ⟨rfl, table_afterStage _ _⟩
  | sharedPanic hmove hact =>
      rw [hstage] at hmove
      cases hmove
      exact absurd hact (Program.neverPanics_pure _ _ _)

end Moves

/-! ## What a run hands over -/

section Runs

variable {setup : EventLoop.Setup} {history : List (Event (Numbered σ))}
  {lane : Lane (Numbered σ)}

/-- While the loop goes on, its moves are calls on the table or leave it alone. -/
theorem Mirrors.move {lending : Lending (Numbered σ)} (h : Mirrors setup history lane lending)
    {exchanges : List (Exchange (Numbered σ))} {next : Lane (Numbered σ)}
    (hmoves : Moves setup lane exchanges next) :
    ∃ lending, InUse setup (.moved lane exchanges next :: history) next lending := by
  cases hmoves.step with
  | idle hbefore hafter htable =>
      exact ⟨_, (h.idle (onTable_idle hbefore hafter) htable (hafter.trans hbefore.symm)).inUse⟩
  | checkedOut hstage hcheck hnext => exact ⟨_, (h.checkOut hstage hcheck hnext).inUse⟩
  | attempted hstage hattempt _ hnext htable =>
      exact ⟨_, (h.attempt hstage hattempt hnext htable).inUse⟩
  | gaveUp hstage _ hnext =>
      refine ⟨_, h.inUse.idle ?_ (hmoves.table_of_attempting hstage) fun hlive => ?_⟩
      · simp only [Event.onTable, hstage]
      · rw [hnext] at hlive
        cases hlive
  | settled hstage hsettle hnext => exact ⟨_, (h.settle hstage hsettle hnext).inUse⟩
  | misplaced hstage hsettle hnext =>
      obtain ⟨completions, kept, hresult, -⟩ := h.aftermath hstage hsettle
      cases hresult

/-- In every run the table of a lane is in use as a table in its own right. -/
theorem Run.inUse (h : Run setup history lane) : ∃ lending, InUse setup history lane lending := by
  induction h with
  | opened source dispatching => exact ⟨_, .opened, rfl, fun _ => rfl⟩
  | submit _ _ _ _ _ hsubmit ih =>
      obtain ⟨lending, hinUse⟩ := ih
      exact ⟨_, hinUse.submit hsubmit⟩
  | close _ hclose ih =>
      obtain ⟨lending, hinUse⟩ := ih
      obtain ⟨⟨result, source⟩, calls, none, rfl, -, hside⟩ := Program.returns_bind.mp hclose
      obtain ⟨-, hanswer⟩ := Program.returns_pure.mp hside
      cases hanswer
      exact ⟨lending, hinUse.idle rfl rfl fun hlive => ⟨hlive, rfl⟩⟩
  | @move _ lane _ _ _ hmoves ih =>
      obtain ⟨lending, hinUse⟩ := ih
      cases hended : lane.stage.isEnded with
      | false => exact (hinUse.mirrors hended).move hmoves
      | true =>
          obtain ⟨ending, hstage⟩ := EventLoop.Stage.isEnded_iff.mp hended
          obtain ⟨hnext, htable⟩ := hmoves.of_ended hstage
          refine ⟨lending, hinUse.idle (onTable_idle ?_ ?_) htable fun hlive => ?_⟩
          · rw [hstage]
            rfl
          · rw [hnext]
            rfl
          · rw [hnext] at hlive
            cases hlive

/-- The completions that are handed over are the front of those that settlements hand back. As
long as the loop goes on, it has the others in hand. -/
structure Handing (history : List (Event σ)) (lane : Lane σ) : Prop where
  front : handed history <+: Lending.completed (tableHistory history)
  rest : lane.stage.isEnded = false →
    Lending.completed (tableHistory history) = handed history ++ lane.stage.awaiting

section Handing

variable {history : List (Event σ)} {lane next : Lane σ} {exchanges : List (Exchange σ)}

/-- The completions of the last event come after the earlier ones. -/
theorem completed_cons (event : Event σ) (history : List (Event σ)) :
    Lending.completed (tableHistory (event :: history)) =
      Lending.completed (tableHistory history) ++ Lending.completed event.onTable := by
  rw [tableHistory, List.flatMap_cons, Lending.completed_append]
  rfl

/-- An event that hands nothing over and settles nothing. -/
theorem Handing.idle {event : Event σ} (h : Handing history lane) (hhanded : event.handed = [])
    (hcompleted : Lending.completed event.onTable = []) (hstage : next.stage = lane.stage) :
    Handing (event :: history) next := by
  constructor
  case front =>
    rw [completed_cons, hcompleted, handed, hhanded, List.append_nil, List.append_nil]
    exact h.front
  case rest =>
    rw [completed_cons, hcompleted, handed, hhanded, List.append_nil, List.append_nil, hstage]
    exact h.rest

/-- A move that settles nothing takes what it hands over away from the front. -/
theorem Handing.pass (h : Handing history lane) (hlive : lane.stage.isEnded = false)
    (hsettling : ∀ operation attempt batch, lane.stage ≠ .settling operation attempt batch)
    (hpasses : Passes lane.stage next.stage) :
    Handing (.moved lane exchanges next :: history) next := by
  have hcompleted : Lending.completed (Event.moved lane exchanges next).onTable = [] := by
    dsimp only [Event.onTable]
    split
    · rfl
    · rename_i hstage _
      exact absurd hstage (hsettling _ _ _)
    · rfl
  cases hnext : next.stage.isEnded with
  | false =>
      have hrest := h.rest hlive
      rw [hpasses hnext, ← List.append_assoc] at hrest
      constructor
      case front =>
        rw [completed_cons, hcompleted, List.append_nil, hrest]
        exact List.prefix_append _ _
      case rest =>
        rw [completed_cons, hcompleted, List.append_nil, hrest]
        exact fun _ => rfl
  | true =>
      obtain ⟨ending, hstage⟩ := EventLoop.Stage.isEnded_iff.mp hnext
      have hhanded : (Event.moved lane exchanges next).handed = [] := by
        rw [Event.handed, hstage]
        cases lane.stage <;> rfl
      constructor
      case front =>
        rw [completed_cons, hcompleted, handed, hhanded, List.append_nil, List.append_nil]
        exact h.front
      case rest => exact fun hcontra => by cases hnext.symm.trans hcontra

/-- A settlement leaves what it hands back to be handed over. -/
theorem Handing.settle (h : Handing history lane) {operation : Operation σ} {attempt : Attempt}
    {batch : List Proactor.Event} {resolved : List (Resolved σ)}
    (hstage : lane.stage = .settling operation attempt batch)
    (hnext : next.stage = .announcing resolved batch) :
    Handing (.moved lane exchanges next :: history) next := by
  have hcompleted : Lending.completed (Event.moved lane exchanges next).onTable = resolved := by
    simp only [Event.onTable, hstage, hnext]
    rfl
  have hhanded : (Event.moved lane exchanges next).handed = [] := by
    simp only [Event.handed, hstage, hnext]
    rfl
  have hrest := h.rest (by rw [hstage]; rfl)
  rw [hstage] at hrest
  have hall : Lending.completed (tableHistory (.moved lane exchanges next :: history)) =
      handed (.moved lane exchanges next :: history) ++ next.stage.awaiting := by
    rw [completed_cons, hcompleted, hrest, handed, hhanded, hnext]
    simp [EventLoop.Stage.awaiting]
  exact ⟨hall ▸ List.prefix_append _ _, fun _ => hall⟩

end Handing

/-- In every run the completions are handed over in the order of their settlements. -/
theorem Run.handing (h : Run setup history lane) : Handing history lane := by
  induction h with
  | opened => exact ⟨List.prefix_rfl, fun _ => rfl⟩
  | @submit _ _ _ result _ _ _ _ _ _ _ ih => exact ih.idle rfl (by cases result <;> rfl) rfl
  | close _ _ ih => exact ih.idle rfl rfl rfl
  | @move _ lane next exchanges hrun hmoves ih =>
      cases hended : lane.stage.isEnded with
      | true =>
          obtain ⟨ending, hstage⟩ := EventLoop.Stage.isEnded_iff.mp hended
          obtain ⟨hnext, -⟩ := hmoves.of_ended hstage
          refine ih.idle ?_ ?_ (hnext.trans hstage.symm)
          · simp only [Event.handed, hstage, hnext]
            rfl
          · simp only [Event.onTable, hstage]
            rfl
      | false =>
          by_cases hsettling : ∃ operation attempt batch,
              lane.stage = .settling operation attempt batch
          · obtain ⟨operation, attempt, batch, hstage⟩ := hsettling
            obtain ⟨lending, hinUse⟩ := hrun.inUse
            obtain ⟨completions, kept, hnext, -⟩ :=
              (hinUse.mirrors hended).announces hstage hmoves
            exact ih.settle hstage hnext
          · have hothers : ∀ operation attempt batch,
                lane.stage ≠ .settling operation attempt batch :=
              fun operation attempt batch hstage => hsettling ⟨operation, attempt, batch, hstage⟩
            exact ih.pass hended hothers (hmoves.passes hothers)

/-! ## The order of a run -/

/-- The completions of a descriptor that have been handed over, in the order in which they have. -/
def handedOn (fd : Fd) (history : List (Event σ)) : List (Ticket σ) :=
  Lending.onFd fd ((handed history).map Resolved.ticket)

/-- The part of a run before a point in it is a run. -/
theorem Run.earlier {later earlier : List (Event (Numbered σ))}
    (h : Run setup (later ++ earlier) lane) : ∃ before, Run setup earlier before := by
  induction later generalizing lane with
  | nil => exact ⟨lane, h⟩
  | cons event later ih =>
      cases h with
      | submit hrun | close hrun | move hrun => exact ih hrun

/-- What a move hands over is the first of the completions that awaited it. -/
theorem Run.of_handed {event : Event (Numbered σ)} {first : Resolved (Numbered σ)}
    (h : Run setup (event :: history) lane) (hhanded : event.handed = [first]) :
    ∃ before rest, Run setup history before ∧ before.stage.isEnded = false ∧
      before.stage.awaiting = first :: rest := by
  cases h with
  | submit | close => cases hhanded
  | @move _ before _ _ hrun hmoves =>
      obtain ⟨⟨resolved, batch, hstage⟩, hlive⟩ := EventLoop.Stage.of_handedTo hhanded
      have hpasses := hmoves.passes (fun operation attempt batch hother => by
        cases hstage.symm.trans hother) hlive
      have hhanded' : before.stage.handedTo lane.stage = [first] := hhanded
      rw [hhanded'] at hpasses
      exact ⟨before, _, hrun, by rw [hstage]; rfl, hpasses⟩

/-- The completions of every descriptor keep the order of its submissions. -/
structure Ordered (history : List (Event (Numbered σ))) (lane : Lane (Numbered σ)) : Prop where
  /-- The accepted operations of a descriptor have increasing numbers. -/
  numbered : ∀ fd,
    ((Lending.acceptedOn fd (tableHistory history)).map Ticket.number).Pairwise (· < ·)
  /-- The completions handed over are some of the accepted operations, in the same order. -/
  sublist : ∀ fd, (handedOn fd history).Sublist (Lending.acceptedOn fd (tableHistory history))
  increasing : ∀ fd, ((handedOn fd history).map Ticket.number).Pairwise (· < ·)
  /-- Whatever was accepted before a completion that is handed over has been handed over, was
  displaced by a submission, or was dropped in favour of the operation parked behind it. -/
  turn : ∀ later event earlier first, history = later ++ event :: earlier →
    event.handed = [first] →
      ∃ before behind, Lending.acceptedOn first.ticket.fd (tableHistory earlier) =
        before ++ first.ticket :: behind ∧ ∀ ticket ∈ before,
          ticket ∈ handedOn first.ticket.fd earlier ∨
            ticket ∈ Lending.displaced (tableHistory earlier) ∨
            ticket ∈ Lending.dropped (tableHistory earlier)
  /-- The operation accepted last is not given up. Unless it has resolved, it is in the slot of its
  descriptor, or it is checked out and nothing is parked behind it. -/
  newest : ∀ fd ticket, (Lending.acceptedOn fd (tableHistory history)).getLast? = some ticket →
    ticket ∉ Lending.displaced (tableHistory history) ∧
      ticket ∉ Lending.dropped (tableHistory history) ∧
      Lending.Placed fd (tableHistory history) lane.side.table ticket
  /-- What is checked out is in the hands of the loop as long as the loop goes on. -/
  checkedOut : lane.stage.isEnded = false →
    Lending.lent (tableHistory history) = lane.stage.held?.toList.map Record.ticket

/-- In every run of a lane, the completions of a descriptor are handed over in the order of their
submissions, and the newest submission wins. -/
theorem Run.ordered (h : Run setup history lane) : Ordered history lane := by
  obtain ⟨lending, hinUse⟩ := h.inUse
  have hfront : ∀ fd, (handedOn fd history).Sublist
      (Lending.acceptedOn fd (tableHistory history)) := by
    intro fd
    have hcompleted := (h.handing.front.sublist.map Resolved.ticket).filter (·.fd = fd)
    exact (hcompleted.trans (List.sublist_append_left _ _)).trans (hinUse.run.inLine fd).sublist
  constructor
  case numbered => exact hinUse.run.accepted_increasing
  case sublist => exact hfront
  case increasing =>
    exact fun fd => (hinUse.run.accepted_increasing fd).sublist ((hfront fd).map _)
  case turn =>
    rintro later event earlier first rfl hhanded
    obtain ⟨after, hafter⟩ := h.earlier
    obtain ⟨before, rest, hbefore, hlive, hawaiting⟩ := hafter.of_handed hhanded
    obtain ⟨lending, hinUse⟩ := hbefore.inUse
    have hrest := hbefore.handing.rest hlive
    rw [hawaiting] at hrest
    have hline : Lending.line first.ticket.fd (tableHistory earlier) lending =
        handedOn first.ticket.fd earlier ++ first.ticket ::
          (Lending.onFd first.ticket.fd (rest.map Resolved.ticket) ++
            Lending.remaining first.ticket.fd lending) := by
      rw [Lending.line, hrest]
      simp [handedOn, Lending.onFd]
    exact hinUse.run.in_front_or_lost hline
  case newest =>
    intro fd ticket hnewest
    rw [← hinUse.table_eq]
    exact hinUse.run.newest_placed hnewest
  case checkedOut =>
    intro hlive
    rw [hinUse.run.lent_eq, hinUse.onLoan hlive]

/-- While a first read is under way, a second one is parked behind it. The first one resolves, and
so does the second one because its descriptor cannot be rearmed. A third read is submitted while
the completion of the first one is on its way to its sink. -/
theorem ordered_resubmitted :
    ∃ (setup : EventLoop.Setup) (history : List (Event (Numbered Unit)))
      (lane : Lane (Numbered Unit)),
      Run setup history lane ∧ (handedOn ⟨7⟩ history).map Ticket.number = [0, 1] ∧
        (Lending.acceptedOn ⟨7⟩ (tableHistory history)).map Ticket.number = [0, 1, 2] ∧
        lane.side.table.size = 1 ∧ Ordered history lane := by
  let setup : EventLoop.Setup := ⟨.read, .dropWhenFull, 4⟩
  let source : Source := ⟨⟨3⟩, ⟨⟨4⟩, ⟨5⟩⟩, false⟩
  let ready : RawEvent := ⟨Fd.key ⟨7⟩, EventMask.input⟩
  have hopened : Run (σ := Unit) setup [] ⟨⟨source, .empty .read, true⟩, .starting⟩ :=
    .opened source true
  have hsubmitted := hopened.submit ⟨7⟩ [0, 0] ⟨(), false⟩ .overwrite ⟨.ok (), [], rfl, rfl, rfl⟩
  have hstarted := hsubmitted.move (.shared rfl ⟨rfl, rfl⟩)
  have hwaited := hstarted.move (.shared rfl ⟨.ok [ready], _, rfl, rfl, rfl⟩)
  have hchecked := hwaited.move (.exclusive rfl ⟨(), _, rfl, rfl, rfl⟩)
  have hparked := hchecked.submit ⟨7⟩ [0] ⟨(), false⟩ .overwrite ⟨rfl, rfl⟩
  have hattempted := hparked.move (.shared rfl ⟨.ok [1, 2], _, rfl, rfl, rfl⟩)
  have hsettled := hattempted.move
    (.exclusive rfl ⟨.error ⟨5⟩, _, rfl, .ok (), _, rfl, rfl, rfl⟩)
  have hfirst := hsettled.move (.shared rfl ⟨(), _, rfl, rfl, rfl⟩)
  have hagain := hfirst.submit ⟨7⟩ [0] ⟨(), false⟩ .overwrite ⟨.ok (), [], rfl, rfl, rfl⟩
  have hdelivered := hagain.move (.shared rfl ⟨.accepted, _, rfl, rfl, rfl⟩)
  have hsecond := hdelivered.move (.shared rfl ⟨(), _, rfl, rfl, rfl⟩)
  exact ⟨_, _, _, hsecond, rfl, rfl, rfl, hsecond.ordered⟩

end Runs

end Lane

end Proactor
