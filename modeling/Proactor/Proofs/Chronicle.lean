import Proactor.Proofs.Endings
import Proactor.Proofs.Lifetime

/-!
# The two lanes of a reactor

Whatever happens to a reactor happens to one of its lanes, to both, or to neither.
`Life.Reachable.chronicle` reads the history of each direction off a life. It is the history of a
run of the lane, so everything that holds of all runs of a lane holds of every reactor at every
time. The submissions are numbered as in the histories.
-/

namespace Proactor

variable {σ : Type}

/-- Without a history a lane is as it was opened. -/
theorem Lane.Run.of_nil {setup : EventLoop.Setup} {lane : Lane (Numbered σ)}
    (h : Lane.Run setup [] lane) : ∃ source dispatching,
      lane = ⟨⟨source, .empty setup.direction, dispatching⟩, .starting⟩ := by
  cases h with
  | opened source dispatching => exact ⟨source, dispatching, rfl⟩

/-- A move is no submission. -/
theorem Lane.submissions_moved (before : Lane (Numbered σ))
    (exchanges : List (Exchange (Numbered σ))) (after : Lane (Numbered σ))
    (history : List (Lane.Event (Numbered σ))) :
    Lane.submissions (.moved before exchanges after :: history) = Lane.submissions history := by
  have honTable : Lending.offered (Lane.Event.moved before exchanges after).onTable = [] := by
    dsimp only [Lane.Event.onTable]
    split <;> rfl
  unfold Lane.submissions Lending.submissions
  rw [Lane.tableHistory, List.flatMap_cons, Lending.offered, List.flatMap_append,
    Lending.tickets_append, List.length_append, ← Lending.offered, honTable]
  exact Nat.zero_add _

namespace Reactor

namespace State

/-- What has happened in a direction, the last event first. -/
structure Chronicle (state : State σ) (direction : Direction)
    (history : List (Lane.Event (Numbered σ))) : Prop where
  run : Lane.Run (state.reactor.loopSetup direction) history (state.lane direction)
  traced : ∀ event ∈ history, ∀ exchange ∈ event.exchanges, exchange ∈ state.trace
  numbered : Lane.submissions history = state.offered direction
  flagged : direction ∈ state.reactor.started → (state.lane direction).IsFlagged
  /-- Until the end nothing happens in a direction whose loop has not been started. -/
  fresh : state.point.isGone = false → direction ∉ state.reactor.started → history = []

variable {state next : State σ} {direction : Direction}
  {history : List (Lane.Event (Numbered σ))} {exchanges : List (Exchange (Numbered σ))}

/-- The lane of a direction is as before if its side and the stage of its loop are. -/
theorem lane_eq (hside : next.reactor.side direction = state.reactor.side direction)
    (hstage : next.stage direction = state.stage direction) :
    next.lane direction = state.lane direction := by
  rw [lane, lane, hside, hstage]

namespace Chronicle

/-- What does not change a lane leaves its history as it is. -/
theorem idle (h : state.Chronicle direction history)
    (hsettings : next.reactor.settings = state.reactor.settings)
    (hstarted : direction ∈ next.reactor.started ↔ direction ∈ state.reactor.started)
    (hlane : next.lane direction = state.lane direction)
    (hoffered : next.offered direction = state.offered direction)
    (htrace : next.trace = state.trace ++ exchanges)
    (hgone : next.point.isGone = false → state.point.isGone = false) :
    next.Chronicle direction history := by
  constructor
  case run =>
    rw [hlane, loopSetup, hsettings]
    exact h.run
  case traced =>
    intro event hevent exchange hexchange
    rw [htrace]
    exact List.mem_append_left _ (h.traced event hevent exchange hexchange)
  case numbered => rw [hoffered, h.numbered]
  case flagged =>
    rw [hstarted, hlane]
    exact h.flagged
  case fresh =>
    rw [hstarted]
    exact fun hlive => h.fresh (hgone hlive)

/-- A history goes on with each event of its lane. -/
theorem extend (h : state.Chronicle direction history) {event : Lane.Event (Numbered σ)}
    {lane : Lane (Numbered σ)}
    (hrun : Lane.Run (state.reactor.loopSetup direction) (event :: history) lane)
    (hsettings : next.reactor.settings = state.reactor.settings)
    (hlane : next.lane direction = lane) (htrace : next.trace = state.trace ++ exchanges)
    (hevent : ∀ exchange ∈ event.exchanges, exchange ∈ exchanges)
    (hnumber : Lane.submissions (event :: history) = next.offered direction)
    (hflagged : direction ∈ next.reactor.started → lane.IsFlagged)
    (hstarted : direction ∈ next.reactor.started ∨ next.point.isGone = true) :
    next.Chronicle direction (event :: history) := by
  constructor
  case run =>
    rw [hlane, loopSetup, hsettings]
    exact hrun
  case traced =>
    rw [htrace]
    refine List.forall_mem_cons.mpr ⟨fun exchange hexchange => ?_, fun earlier hearlier => ?_⟩
    · exact List.mem_append_right _ (hevent exchange hexchange)
    · intro exchange hexchange
      exact List.mem_append_left _ (h.traced earlier hearlier exchange hexchange)
  case numbered => exact hnumber
  case flagged =>
    rw [hlane]
    exact hflagged
  case fresh =>
    intro hlive hnot
    rcases hstarted with hstarted | hgone
    · exact absurd hstarted hnot
    · cases hlive.symm.trans hgone

/-- The flag of a side can be raised as long as its loop has not been started. -/
theorem raise (h : state.Chronicle direction history) (hlive : state.point.isGone = false)
    (hfresh : direction ∉ state.reactor.started)
    (hside : next.reactor.side direction =
      { state.reactor.side direction with dispatching := true })
    (hstage : next.stage direction = state.stage direction)
    (hoffered : next.offered direction = state.offered direction) :
    next.Chronicle direction [] := by
  obtain rfl := h.fresh hlive hfresh
  obtain ⟨source, dispatching, hlane⟩ := h.run.of_nil
  have hbefore : state.reactor.side direction = ⟨source, .empty direction, dispatching⟩ :=
    congrArg Lane.side hlane
  have hstarting : state.stage direction = .starting := congrArg Lane.stage hlane
  have hnow : next.lane direction = ⟨⟨source, .empty direction, true⟩, .starting⟩ := by
    rw [lane, hside, hbefore, hstage, hstarting]
  constructor
  case run =>
    rw [hnow]
    exact .opened source true
  case traced => exact List.forall_mem_nil _
  case numbered => rw [hoffered, ← h.numbered]
  case flagged =>
    intro _
    rw [hnow]
    rfl
  case fresh => exact fun _ _ => rfl

/-- The start of a loop raises the flag of its side. -/
theorem start (h : state.Chronicle direction history) (hmanaged : state.Managed)
    {other : Direction} {reactor : Reactor (Numbered σ)} {following : Lifecycle}
    (hstance : state.stance = .resting (.starting other))
    (hstart : Start state.reactor other exchanges following reactor) :
    ∃ history, ({ state.asked exchanges with
      reactor, stance := .resting following } : State σ).Chronicle direction history := by
  have hpoint : state.point = .starting other := congrArg Stance.point hstance
  have hlive : state.point.isGone = false := by rw [hpoint]; rfl
  have hfresh : other ∉ state.reactor.started := by
    have hloops := hmanaged.loops
    rw [hpoint] at hloops
    cases other with
    | read => simp [hloops [] rfl]
    | write => simp [hloops [.read] rfl]
  have hstarted : (state.reactor.raised other).started = state.reactor.started :=
    started_withSide _ _ _
  have hsettings : (state.reactor.raised other).settings = state.reactor.settings :=
    settings_withSide _ _ _
  by_cases hother : direction = other
  · subst hother
    have hside : (state.reactor.raised direction).side direction =
        { state.reactor.side direction with dispatching := true } := side_withSide_same _ _ _
    cases hstart with
    | started name =>
        refine ⟨[], h.raise hlive hfresh (Eq.trans ?_ hside) rfl rfl⟩
        cases direction <;> rfl
    | unnamed => exact ⟨[], h.raise hlive hfresh hside rfl rfl⟩
    | refused => exact ⟨history, h.idle rfl Iff.rfl rfl rfl rfl fun _ => hlive⟩
  · have hside : (state.reactor.raised other).side direction = state.reactor.side direction :=
      side_withSide_other _ _ hother
    cases hstart with
    | started name =>
        refine ⟨history, h.idle hsettings ?_ (lane_eq (Eq.trans ?_ hside) rfl) rfl rfl
          fun _ => hlive⟩
        · simp [hstarted, hother]
        · cases direction <;> rfl
    | unnamed =>
        exact ⟨history, h.idle hsettings (by rw [hstarted]) (lane_eq hside rfl) rfl rfl
          fun _ => hlive⟩
    | refused => exact ⟨history, h.idle rfl Iff.rfl rfl rfl rfl fun _ => hlive⟩

/-- The release of the sources closes both sides. -/
theorem release (h : state.Chronicle direction history) {purpose : Purpose}
    {act : Reactor (Numbered σ) → Program (Numbered σ) (Lifecycle × Reactor (Numbered σ))}
    {reactor : Reactor (Numbered σ)} {following : Lifecycle}
    (hmove : (Lifecycle.releasing purpose).move = .exclusive act)
    (hact : (act state.reactor).Returns exchanges (following, reactor)) :
    ∃ history, ({ state.asked exchanges with
      reactor, stance := .resting following } : State σ).Chronicle direction history := by
  obtain ⟨closing, rest, result, left, rfl, hclosing, -, rfl, rfl⟩ :=
    releasing_returns hmove hact
  obtain ⟨logs, firstCalls, first, reads, secondCalls, second, writes, rfl, -, hfirst, hsecond,
    rfl, rfl⟩ := closeSources_returns hclosing
  have hflag : ∀ {calls : List (Exchange (Numbered σ))} {result : Except Fault Unit}
      {side : Side (Numbered σ)},
      (state.reactor.side direction).close.Returns calls (result, side) →
        direction ∈ state.reactor.started →
          Lane.IsFlagged ⟨side, state.stage direction⟩ := by
    intro calls result side hclose hdirection
    obtain ⟨rfl, -⟩ := Side.close_returns hclose
    exact h.flagged hdirection
  have hcalls : ∀ exchange ∈ firstCalls ++ secondCalls,
      exchange ∈ logs ++ (firstCalls ++ secondCalls) ++ rest :=
    fun exchange hexchange => List.mem_append_left _ (List.mem_append_right _ hexchange)
  cases direction with
  | read =>
      exact ⟨_, h.extend (h.run.close hfirst) rfl rfl rfl
        (fun exchange hexchange => hcalls exchange (List.mem_append_left _ hexchange))
        h.numbered (hflag hfirst) (.inr rfl)⟩
  | write =>
      exact ⟨_, h.extend (h.run.close hsecond) rfl rfl rfl
        (fun exchange hexchange => hcalls exchange (List.mem_append_right _ hexchange))
        h.numbered (hflag hsecond) (.inr rfl)⟩

/-- A submission is one to its lane. -/
theorem submit (h : state.Chronicle direction history) (hmanaged : state.Managed)
    (hstance : state.stance = .resting .running) {other : Direction} {fd : Fd} {buffer : Bytes}
    {sink : Sink σ} {result : Except ReactorError Unit} {reactor : Reactor (Numbered σ)}
    (hsubmit : (state.reactor.submit other fd buffer
      (sink.numbered (state.offered other))).Returns exchanges (result, reactor)) :
    ∃ history, ({ state.asked exchanges with
      reactor
      offered := Function.update state.offered other (state.offered other + 1) } :
        State σ).Chronicle direction history := by
  have hpoint : state.point = .running := congrArg Stance.point hstance
  have hlive : state.point.isGone = false := by rw [hpoint]; rfl
  have hloops : state.reactor.started = [.read, .write] := by
    have hloops := hmanaged.loops
    rw [hpoint] at hloops
    exact hloops _ rfl
  obtain ⟨answer, side, calls, logs, rfl, hcalls, -, rfl, -⟩ := submit_side hsubmit
  have hdirection : direction ∈ (state.reactor.withSide other side).started := by
    rw [started_withSide, hloops]
    cases direction <;> simp
  by_cases hother : direction = other
  · subst hother
    rw [← h.numbered] at hcalls
    have hrun := h.run.submit fd buffer sink state.reactor.settings.overlap hcalls
    have hflag := Side.submit_dispatching.of_returns hcalls
    have hstarted : direction ∈ state.reactor.started := by
      rwa [started_withSide] at hdirection
    refine ⟨_, h.extend hrun (settings_withSide _ _ _) ?_ rfl
      (fun exchange hexchange => List.mem_append_left _ hexchange) ?_ (fun _ => ?_)
      (.inl hdirection)⟩
    · rw [lane, side_withSide_same]
      rfl
    · show _ = Function.update state.offered direction (state.offered direction + 1) direction
      rw [Function.update_self, ← h.numbered]
      rfl
    · exact hflag.trans (h.flagged hstarted)
  · refine ⟨history, h.idle (settings_withSide _ _ _) (by rw [started_withSide])
      (lane_eq (side_withSide_other _ _ hother) rfl) ?_ rfl fun _ => hlive⟩
    exact Function.update_of_ne hother _ _

/-- A move of a loop is one of its lane. -/
theorem move (h : state.Chronicle direction history) {other : Direction}
    {after : Lane (Numbered σ)} (hlive : (state.stage other).isEnded = false)
    (hstarted : other ∈ state.reactor.started)
    (hmoves : Lane.Moves (state.reactor.loopSetup other) (state.lane other) exchanges after) :
    ∃ history, (state.moved other exchanges after).Chronicle direction history := by
  have hsame : (state.moved other exchanges after).reactor.started = state.reactor.started :=
    started_withSide _ _ _
  by_cases hother : direction = other
  · subst hother
    exact ⟨_, h.extend (h.run.move hmoves) (settings_withSide _ _ _)
      (state.lane_moved_same direction exchanges after) rfl (fun _ hexchange => hexchange)
      ((Lane.submissions_moved _ _ _ _).trans h.numbered)
      (fun _ => hmoves.isFlagged hlive (h.flagged hstarted)) (.inl (hsame ▸ hstarted))⟩
  · exact ⟨history, h.idle (settings_withSide _ _ _) (by rw [hsame])
      (state.lane_moved_other exchanges after hother) rfl rfl fun hlive => hlive⟩

/-- Everything that happens to a reactor has its place in the histories. -/
theorem step (h : state.Chronicle direction history) (hmanaged : state.Managed)
    (hstep : state.Step next) : ∃ history, next.Chronicle direction history := by
  have hgone : next.point.isGone = false → state.point.isGone = false := by
    intro hlive
    by_contra hgone
    have hpoint := (hmanaged.gone_step (eq_true_of_ne_false hgone) hstep).1
    exact hgone (hpoint ▸ hlive)
  cases hstep with
  | shutDown hstance purpose hpurpose =>
      exact ⟨history, h.idle rfl Iff.rfl rfl rfl (List.append_nil _).symm hgone⟩
  | submit hstance other fd buffer sink hsubmit => exact h.submit hmanaged hstance hsubmit
  | watch hstance handle hwatch =>
      obtain ⟨custody, hreactor⟩ := (watch_ordinary state.reactor handle).2.of_returns hwatch
      obtain rfl : _ = { state.reactor with custody } := hreactor
      refine ⟨history, h.idle rfl Iff.rfl ?_ rfl rfl hgone⟩
      cases direction <;> rfl
  | stopWatch hstance fd hstop =>
      obtain ⟨custody, rfl⟩ := (stopWatch_ordinary state.reactor fd).2.of_returns hstop
      refine ⟨history, h.idle rfl Iff.rfl ?_ rfl rfl hgone⟩
      cases direction <;> rfl
  | move other hstarted hlive hmoves => exact h.move hlive hstarted hmoves
  | owner hstep =>
      cases hstep with
      | @acted point _ _ _ _ hstance hmove hact =>
          cases point with
          | starting => exact h.start hmanaged hstance (starting_cases hmove hact)
          | releasing => exact h.release hmove hact
          | running | signalling | joining | gone => cases hmove
      | began => exact ⟨history, h.idle rfl Iff.rfl rfl rfl (List.append_nil _).symm hgone⟩
      | asked => exact ⟨history, h.idle rfl Iff.rfl rfl rfl rfl hgone⟩
      | arrived => exact ⟨history, h.idle rfl Iff.rfl rfl rfl (List.append_nil _).symm hgone⟩

end Chronicle

end State

/-- At every time each lane of a reactor has a history. -/
theorem Life.Reachable.chronicle {state : State σ} (h : Life.Reachable (.led state))
    (direction : Direction) : ∃ history, state.Chronicle direction history := by
  generalize hlife : Life.led state = life at h
  induction h generalizing state with
  | refused => cases hlife
  | @opened settings reactor _ hcreate =>
      cases hlife
      have htable := create_table hcreate direction
      have hstarted : reactor.started = [] := (create_started _).of_returns hcreate _ rfl
      refine ⟨[], ?_, List.forall_mem_nil _, rfl, ?_, fun _ _ => rfl⟩
      · rw [State.lane]
        generalize reactor.side direction = side at htable
        obtain ⟨source, table, dispatching⟩ := side
        obtain rfl : table = _ := htable
        exact .opened source dispatching
      · intro hdirection
        rw [hstarted] at hdirection
        cases hdirection
  | step hreachable hstep ih =>
      cases hlife
      obtain ⟨history, hchronicle⟩ := ih rfl
      exact hchronicle.step hreachable.managed hstep

end Reactor

end Proactor
