import Proactor.Proofs.Chronicle
import Proactor.Proofs.Progress

/-!
# Shutting a reactor down

An owner that shuts its reactor down waits for the loops. `Life.Reachable.comesTo_gone` says that it
does not wait for ever: whatever happens, the reactor is gone after finitely many steps, or the
system has put the end of its loops off more often than any limit that is given. Nothing gets stuck
on the way.

Between two delays only the loops and the owner make steps. With each step of a loop the ranks of
the loops go down, and the owner has only finitely many requests to make.
-/

namespace Proactor

namespace Reactor

variable {σ : Type}

/-- Why the owner is shutting the reactor down, or has shut it down. -/
def Lifecycle.purpose? : Lifecycle → Option Purpose
  | signalling purpose | joining purpose | releasing purpose | gone purpose _ => some purpose
  | _ => none

/-! ## The release comes to its end -/

/-- Closing a side cannot panic. -/
theorem close_neverPanics (side : Side σ) : side.close.NeverPanics := by
  refine Program.NeverPanics.bind ?_ fun _ => Program.neverPanics_pure _
  unfold Source.close
  split
  · exact Program.neverPanics_pure _
  · exact (Program.neverPanics_ask _).bind fun _ => Program.neverPanics_pure _

/-- Closing both sources cannot panic. -/
theorem closeSources_neverPanics (reactor : Reactor σ) : reactor.closeSources.NeverPanics := by
  have hboth : (closeBoth reactor).NeverPanics := by
    refine (close_neverPanics _).bind fun _ => (close_neverPanics _).bind fun _ => ?_
    exact Program.neverPanics_pure _
  unfold closeSources
  dsimp only
  split
  · exact (Program.neverPanics_ask _).bind fun _ => hboth
  · exact hboth

/-- Reporting how a shutdown has gone cannot panic. -/
theorem reportShutdown_neverPanics (purpose : Purpose) (result : Except ReactorError Unit) :
    (reportShutdown purpose result : Program σ _).NeverPanics := by
  unfold reportShutdown
  split
  · exact Program.neverPanics_pure _
  · exact Program.neverPanics_pure _
  · exact Program.neverPanics_ask _

/-- Releasing handles cannot panic. -/
theorem releaseHandles_neverPanics (handles : List Handle) :
    (releaseHandles handles : Program σ _).NeverPanics := by
  induction handles with
  | nil => exact Program.neverPanics_pure _
  | cons handle handles ih => exact (Program.neverPanics_ask _).bind fun _ => ih

/-- What the owner does once its loops have ended cannot panic. -/
theorem releasing_neverPanics {purpose : Purpose}
    {act : Reactor σ → Program σ (Lifecycle × Reactor σ)}
    (hmove : (Lifecycle.releasing purpose).move = .exclusive act) (reactor : Reactor σ) :
    (act reactor).NeverPanics := by
  cases hmove
  refine (closeSources_neverPanics reactor).bind fun answer => ?_
  refine (reportShutdown_neverPanics _ _).bind fun _ => ?_
  exact (releaseHandles_neverPanics _).bind fun _ => Program.neverPanics_pure _

/-- What a loop has to know does not change with a side. -/
@[simp]
theorem loopSetup_withSide (reactor : Reactor σ) (direction other : Direction) (side : Side σ) :
    (reactor.withSide direction side).loopSetup other = reactor.loopSetup other := by
  cases direction <;> rfl

/-- The owner waits only for loops that were started. -/
theorem Lifecycle.MayAsk.join {sources : Direction → Source} {started : List Direction}
    {point : Lifecycle} {direction : Direction}
    (h : point.MayAsk (σ := σ) sources started (.join direction)) : direction ∈ started := by
  cases point with
  | starting | running | releasing | gone => exact h.elim
  | signalling => rcases h with heq | ⟨_, heq⟩ | ⟨_, heq⟩ <;> cases heq
  | joining =>
      rcases h with ⟨_, hstarted, heq⟩ | ⟨_, heq⟩
      · cases heq
        exact hstarted
      · cases heq

namespace State

/-! ## Delays and ranks -/

/-- The wake pipes of the two loops, by their read ends. -/
def pipes (state : State σ) : List Fd :=
  [(state.reactor.sources .read).wakePipe.readEnd, (state.reactor.sources .write).wakePipe.readEnd]

/-- How often the end of a loop that is to stop has been put off. -/
def delays (state : State σ) : Nat :=
  state.trace.countP (Exchange.delays state.pipes)

/-- The number of moves that the loops can make without a delay, at most. -/
def rank (state : State σ) : Nat :=
  (state.stage .read).rank (state.reactor.loopSetup .read) +
    (state.stage .write).rank (state.reactor.loopSetup .write)

/-- Whatever happens, the goal is reached, or there are more delays than the limit allows. Until
then something can happen. -/
inductive ComesTo (limit : Nat) (goal : State σ → Prop) : State σ → Prop where
  | reached {state : State σ} (hgoal : goal state) : ComesTo limit goal state
  | delayed {state : State σ} (hdelays : limit < state.delays) : ComesTo limit goal state
  | goesOn {state : State σ} (hstep : ∃ next, state.Step next)
      (hnext : ∀ next, state.Step next → ComesTo limit goal next) : ComesTo limit goal state

variable {state : State σ} {limit : Nat} {goal : State σ → Prop} {point : Lifecycle}
  {rest : Program (Numbered σ) Lifecycle}

/-- When one loop goes on, its rank is the only one that changes. -/
theorem moved_rank {direction : Direction} {exchanges : List (Exchange (Numbered σ))}
    {lane : Lane (Numbered σ)} (hlower : lane.stage.rank (state.reactor.loopSetup direction) <
      (state.stage direction).rank (state.reactor.loopSetup direction)) :
    (state.moved direction exchanges lane).rank < state.rank := by
  cases direction with
  | read => simpa [rank, moved] using hlower
  | write => simpa [rank, moved] using hlower

/-- A move with a delay is counted, and one without a delay takes its loop nearer to its end. -/
theorem moved_nearer {direction : Direction} {exchanges : List (Exchange (Numbered σ))}
    {lane : Lane (Numbered σ)} (hlive : (state.stage direction).isEnded = false)
    (hmoves : Lane.Moves (state.reactor.loopSetup direction) (state.lane direction)
      exchanges lane) :
    state.delays < (state.moved direction exchanges lane).delays ∨
      (state.moved direction exchanges lane).delays = state.delays ∧
        (state.moved direction exchanges lane).rank < state.rank := by
  have hpipes : (state.moved direction exchanges lane).pipes = state.pipes := by
    rw [pipes, (continues_move hlive hmoves).sources, pipes]
  have hdelays : (state.moved direction exchanges lane).delays =
      state.delays + exchanges.countP (Exchange.delays state.pipes) := by
    rw [delays, hpipes]
    exact List.countP_append
  rw [hdelays]
  by_cases hprompt : Prompt state.pipes exchanges
  · have hnone : exchanges.countP (Exchange.delays state.pipes) = 0 :=
      List.countP_eq_zero.mpr fun exchange hexchange => by simp [hprompt exchange hexchange]
    have hpipe : (state.reactor.sources direction).wakePipe.readEnd ∈ state.pipes := by
      cases direction <;> simp [pipes]
    exact .inr ⟨by rw [hnone, Nat.add_zero], moved_rank (hmoves.rank_lt hlive hpipe hprompt)⟩
  · left
    simp only [Prompt, not_forall, Bool.not_eq_false] at hprompt
    obtain ⟨exchange, hexchange, hdelayed⟩ := hprompt
    exact Nat.lt_add_of_pos_right (List.countP_pos_iff.mpr ⟨exchange, hexchange, hdelayed⟩)

/-! ## What the owner comes to -/

/-- As long as the owner stays where it is only the loops go on, and they do so for a limited
time. -/
theorem comesTo_of_owner {stance : Stance (Numbered σ)} (hbusy : stance ≠ .resting .running)
    (hstep : ∀ other : State σ, Life.Reachable (.led other) → other.stance = stance →
      ∃ next, other.Step next)
    (howner : ∀ other next : State σ, Life.Reachable (.led other) → other.stance = stance →
      other.OwnerStep next → next.ComesTo limit goal)
    {state : State σ} (hreachable : Life.Reachable (.led state))
    (hstance : state.stance = stance) : state.ComesTo limit goal := by
  by_cases hdelays : limit < state.delays
  · exact .delayed hdelays
  refine .goesOn (hstep state hreachable hstance) fun next hnext => ?_
  have hrunning : state.stance ≠ .resting .running := hstance ▸ hbusy
  cases hnext with
  | owner hown => exact howner state next hreachable hstance hown
  | shutDown hresting | submit hresting | watch hresting | stopWatch hresting =>
      exact absurd hresting hrunning
  | move direction hstarted hlive hmoves =>
      have hnearer := moved_nearer hlive hmoves
      exact comesTo_of_owner hbusy hstep howner
        (hreachable.step (.move direction hstarted hlive hmoves)) hstance
-- a delay can raise the ranks, but only so many delays are left
termination_by (limit + 1 - state.delays, state.rank)
decreasing_by
  rcases hnearer with hdelayed | ⟨hsame, hlower⟩
  · exact .left _ _ (by omega)
  · rw [hsame]
    exact .right _ hlower

/-- An owner in the middle of its work can go on, or the loop that it waits for can. -/
theorem Managed.exists_step (h : state.Managed) (hstance : state.stance = .acting point rest) :
    ∃ next, state.Step next := by
  have hacting := h.acting point rest hstance
  cases rest with
  | done following => exact ⟨_, .owner (.arrived hstance)⟩
  | panic cause => exact absurd ⟨rfl, rfl⟩ (hacting.safe [] cause)
  | call request next =>
      by_cases hadmits : ∃ answer, state.Admits ⟨request, answer⟩
      · obtain ⟨answer, hanswer⟩ := hadmits
        exact ⟨_, .owner (.asked hstance answer hanswer)⟩
      · obtain ⟨answer⟩ := request.exists_answer
        cases request with
        | join direction =>
            have hstarted := hacting.asks.1.join
            have hlive : (state.stage direction).isEnded = false := by
              by_contra hended
              exact hadmits ⟨_, eq_true_of_ne_false hended, rfl⟩
            obtain ⟨exchanges, after, hmoves⟩ :=
              Lane.exists_moves (state.reactor.loopSetup direction) (state.lane direction)
            exact ⟨_, .move direction hstarted hlive hmoves⟩
        | _ => exact absurd ⟨answer, trivial⟩ hadmits

/-- An owner comes to what it can arrive at. -/
theorem comesTo_of_yields (h : rest.Yields fun following => ∀ next : State σ,
      Life.Reachable (.led next) → next.stance = .resting following → next.ComesTo limit goal)
    (hreachable : Life.Reachable (.led state)) (hstance : state.stance = .acting point rest) :
    state.ComesTo limit goal := by
  -- the induction is on what the owner has yet to run
  induction rest generalizing state with
  | panic cause => exact absurd ⟨rfl, rfl⟩ ((hreachable.managed.acting _ _ hstance).safe [] cause)
  | done following =>
      refine comesTo_of_owner (fun hresting => by cases hresting)
        (fun _ hother => hother.managed.exists_step) ?_ hreachable hstance
      intro other next hother hat hown
      have harrived := hother.step (.owner hown)
      cases hown with
      | arrived hbefore =>
          cases hat.symm.trans hbefore
          exact h _ harrived rfl
      | acted hbefore | began hbefore | asked hbefore => cases hat.symm.trans hbefore
  | call request next ih =>
      refine comesTo_of_owner (fun hresting => by cases hresting)
        (fun _ hother => hother.managed.exists_step) ?_ hreachable hstance
      intro other next hother hat hown
      have hasked := hother.step (.owner hown)
      cases hown with
      | asked hbefore answer =>
          cases hat.symm.trans hbefore
          exact ih answer (h answer) hasked rfl
      | acted hbefore | began hbefore | arrived hbefore => cases hat.symm.trans hbefore

/-- Wherever the owner arrives from a point, it comes to the goal from there. -/
def Onward (point : Lifecycle) (limit : Nat) (goal : State σ → Prop) : Prop :=
  ∀ {sources : Direction → Source} {started : List Direction}
    {made : List (Exchange (Numbered σ))} {following : Lifecycle},
    Arrival sources started made point following → ∀ next : State σ,
      Life.Reachable (.led next) → next.stance = .resting following → next.ComesTo limit goal

/-- An owner in the middle of an act comes to the goal if it does so from wherever the act can take
it. -/
theorem comesTo_of_acting (h : Onward point limit goal)
    (hreachable : Life.Reachable (.led state)) (hstance : state.stance = .acting point rest) :
    state.ComesTo limit goal := by
  obtain ⟨reactor, act, made, hmove, -, -, hleaves, -, -⟩ :=
    (hreachable.managed.acting point rest hstance).begun
  refine comesTo_of_yields (Program.yields_of_returns fun more following hreturns => ?_)
    hreachable hstance
  exact h (shared_arrival hmove (hleaves more _ hreturns))

/-- An owner at rest comes to the goal if its next act leaves the reactor alone and it does so from
wherever that act can take it. -/
theorem comesTo_of_resting (h : Onward point limit goal)
    {act : Reactor (Numbered σ) → Program (Numbered σ) Lifecycle}
    (hmove : point.move = .shared act) (hrunning : point ≠ .running)
    (hreachable : Life.Reachable (.led state)) (hstance : state.stance = .resting point) :
    state.ComesTo limit goal := by
  refine comesTo_of_owner (fun hresting => hrunning (by cases hresting; rfl))
    (fun other _ hat => ⟨_, .owner (.began hat hmove)⟩) ?_ hreachable hstance
  intro other next hother hat hown
  have hbegun := hother.step (.owner hown)
  cases hown with
  | began hbefore =>
      cases hat.symm.trans hbefore
      exact comesTo_of_acting h hbegun rfl
  | acted hbefore hother =>
      cases hat.symm.trans hbefore
      cases hmove.symm.trans hother
  | asked hbefore | arrived hbefore => cases hat.symm.trans hbefore

/-- The reactor is gone, for the given reason. -/
def IsGoneBy (purpose : Purpose) (state : State σ) : Prop :=
  ∃ result, state.point = .gone purpose result

variable {purpose : Purpose}

/-- The release is one step. -/
theorem comesTo_of_releasing (hreachable : Life.Reachable (.led state))
    (hstance : state.stance = .resting (.releasing purpose)) :
    state.ComesTo limit (IsGoneBy purpose) := by
  refine comesTo_of_owner (fun hresting => by cases hresting) ?_ ?_ hreachable hstance
  · intro other _ hat
    obtain ⟨exchanges, ⟨following, reactor⟩, hact⟩ :=
      (releasing_neverPanics rfl other.reactor).exists_returns
    exact ⟨_, .owner (.acted hat rfl hact)⟩
  · intro other next hother hat hown
    cases hown with
    | acted hbefore hmove hact =>
        cases hat.symm.trans hbefore
        obtain ⟨_, _, result, _, -, -, -, rfl, -⟩ := releasing_returns hmove hact
        exact .reached ⟨result, rfl⟩
    | began hbefore hmove =>
        cases hat.symm.trans hbefore
        cases hmove
    | asked hbefore | arrived hbefore => cases hat.symm.trans hbefore

/-- An owner that waits for its loops gets to the point at which all is released, and is gone in the
end. -/
theorem onward_joining : Onward (σ := σ) (.joining purpose) limit (IsGoneBy purpose) := by
  intro sources started made following harrival next hreachable hstance
  cases harrival
  exact comesTo_of_releasing hreachable hstance

/-- An owner that signals its loops gets to the point at which it waits for them, and is gone in the
end. -/
theorem onward_signalling :
    Onward (σ := σ) (.signalling purpose) limit (IsGoneBy purpose) := by
  intro sources started made following harrival next hreachable hstance
  cases harrival
  exact comesTo_of_resting onward_joining rfl (by simp) hreachable hstance

end State

/-- A reactor that is being shut down is gone in the end. -/
theorem Life.Reachable.comesTo_gone {state : State σ} (h : Life.Reachable (.led state))
    {purpose : Purpose} (hpurpose : state.point.purpose? = some purpose) (limit : Nat) :
    state.ComesTo limit (State.IsGoneBy purpose) := by
  cases hstance : state.stance with
  | resting point =>
      have hpoint : state.point = point := congrArg Stance.point hstance
      rw [hpoint] at hpurpose
      cases point with
      | starting | running => cases hpurpose
      | gone other result =>
          cases hpurpose
          exact .reached ⟨result, hpoint⟩
      | releasing =>
          cases hpurpose
          exact State.comesTo_of_releasing h hstance
      | joining =>
          cases hpurpose
          exact State.comesTo_of_resting State.onward_joining rfl (by simp) h hstance
      | signalling =>
          cases hpurpose
          exact State.comesTo_of_resting State.onward_signalling rfl (by simp) h hstance
  | acting point rest =>
      have hpoint : state.point = point := congrArg Stance.point hstance
      rw [hpoint] at hpurpose
      cases point with
      | starting | running => cases hpurpose
      | gone other result =>
          cases hpurpose
          exact .reached ⟨result, hpoint⟩
      | releasing =>
          obtain ⟨_, _, _, hmove, -⟩ := (h.managed.acting _ _ hstance).begun
          cases hmove
      | joining =>
          cases hpurpose
          exact State.comesTo_of_acting State.onward_joining h hstance
      | signalling =>
          cases hpurpose
          exact State.comesTo_of_acting State.onward_signalling h hstance

end Reactor

end Proactor
