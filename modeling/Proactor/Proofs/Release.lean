import Proactor.Proofs.Lifetime
import Mathlib.Data.List.Perm.Subperm

/-!
# Releasing the sources of a reactor

A reactor opens two sources and closes them at its end. `Life.Reachable.released` says that each
source is closed once, whatever fails: the creation of the second source, the start of a loop, or
the closing itself. The loops have ended by then, and nothing is asked of a source that has been
closed.

What follows the first closing in a trace is the end of the trace, so each trace is cut there.
-/

namespace Proactor

variable {σ : Type}

/-! ## Sources in a trace -/

namespace Exchange

/-- The source that an exchange has opened. -/
def opened : Exchange σ → List Fd
  | ⟨.openSource, .ok fd⟩ => [fd]
  | _ => []

/-- The source that was to be closed in an exchange. -/
def closed : Exchange σ → List Fd
  | ⟨.close fd, _⟩ => [fd]
  | _ => []

end Exchange

/-- The sources that have been opened. -/
def sourcesOpened (exchanges : List (Exchange σ)) : List Fd :=
  exchanges.flatMap Exchange.opened

/-- The sources that were to be closed, whatever came of it. -/
def sourcesClosed (exchanges : List (Exchange σ)) : List Fd :=
  exchanges.flatMap Exchange.closed

/-- The sources opened in two parts are those of the first and then those of the second. -/
@[simp]
theorem sourcesOpened_append (first second : List (Exchange σ)) :
    sourcesOpened (first ++ second) = sourcesOpened first ++ sourcesOpened second :=
  List.flatMap_append

/-- The sources closed in two parts are those of the first and then those of the second. -/
@[simp]
theorem sourcesClosed_append (first second : List (Exchange σ)) :
    sourcesClosed (first ++ second) = sourcesClosed first ++ sourcesClosed second :=
  List.flatMap_append

/-- The request is one of those with which a reactor ends: it closes a source, releases a handle or
writes a log record. -/
def Request.IsFinal : Request σ → Prop
  | .close _ => True
  | .release _ => True
  | .log _ => True
  | _ => False

/-- What a reactor does after its sources have been closed opens and closes none. -/
theorem Request.ends_ordinarily {request : Request σ}
    (h : request.Logs ∨ ∃ handle, request = .release handle) :
    request.IsOrdinary ∧ request.IsFinal := by
  rcases h with ⟨record, rfl⟩ | ⟨handle, rfl⟩
  · exact ⟨trivial, trivial⟩
  · exact ⟨trivial, trivial⟩

/-- A reactor that ends opens no source. -/
theorem sourcesOpened_of_final {exchanges : List (Exchange σ)}
    (h : ∀ exchange ∈ exchanges, exchange.request.IsFinal) : sourcesOpened exchanges = [] := by
  refine List.flatMap_eq_nil_iff.mpr fun exchange hexchange => ?_
  have hfinal := h exchange hexchange
  obtain ⟨request, answer⟩ := exchange
  cases request with
  | openSource => exact hfinal.elim
  | _ => rfl

/-- Ordinary requests open and close no source. -/
theorem sources_of_ordinary {exchanges : List (Exchange σ)}
    (h : ∀ exchange ∈ exchanges, exchange.request.IsOrdinary) :
    sourcesOpened exchanges = [] ∧ sourcesClosed exchanges = [] := by
  constructor
  all_goals
    refine List.flatMap_eq_nil_iff.mpr fun exchange hexchange => ?_
    have hordinary := h exchange hexchange
    obtain ⟨request, answer⟩ := exchange
    cases request with
    | openSource | close => exact hordinary.elim
    | _ => rfl

/-! ## Traces that are cut -/

/-- A trace that is cut where the first source is closed. What follows is the end of the reactor,
and all loops that were started have been waited for. -/
structure Cut (before after : List (Exchange σ)) : Prop where
  unclosed : sourcesClosed before = []
  final : ∀ exchange ∈ after, exchange.request.IsFinal
  joined : after ≠ [] → ∀ direction name, ⟨.spawn direction name, .ok ()⟩ ∈ before →
    ∃ panicked, ⟨.join direction, panicked⟩ ∈ before

namespace Cut

variable {before after front back : List (Exchange σ)} {exchange : Exchange σ}

/-- Every source is closed behind the cut. -/
theorem split (h : Cut before after) (hclosed : exchange.closed ≠ [])
    (htrace : before ++ after = front ++ exchange :: back) :
    ∃ middle, front = before ++ middle ∧ after = middle ++ exchange :: back := by
  rcases List.append_eq_append_iff.mp htrace with
    ⟨middle, hfront, hafter⟩ | ⟨middle, hbefore, hback⟩
  · exact ⟨middle, hfront, hafter⟩
  · cases middle with
    | nil =>
        rw [List.nil_append] at hback
        rw [List.append_nil] at hbefore
        exact ⟨[], by rw [hbefore, List.append_nil], hback.symm⟩
    | cons first middle =>
        obtain ⟨rfl, -⟩ := List.cons.inj hback
        have hnone := h.unclosed
        rw [hbefore, sourcesClosed_append] at hnone
        have hfirst := (List.append_eq_nil_iff.mp hnone).2
        exact absurd (List.append_eq_nil_iff.mp hfirst).1 hclosed

/-- Sources are opened before the cut and closed behind it. -/
theorem sources (h : Cut before after) :
    sourcesOpened (before ++ after) = sourcesOpened before ∧
      sourcesClosed (before ++ after) = sourcesClosed after := by
  rw [sourcesOpened_append, sourcesOpened_of_final h.final, List.append_nil,
    sourcesClosed_append, h.unclosed, List.nil_append]
  exact ⟨rfl, rfl⟩

/-- A trace in which nothing has been closed is cut at its end. -/
theorem of_unclosed (h : sourcesClosed before = []) : Cut before [] :=
  ⟨h, List.forall_mem_nil _, fun hne => absurd rfl hne⟩

end Cut

/-! ## Reactors that cannot be created -/

/-- A source that cannot be opened is closed if its descriptor was opened. -/
theorem Source.create_fails {exchanges : List (Exchange σ)} {fault : Fault}
    (h : Source.create.Returns exchanges (.error fault)) :
    ∃ before after, exchanges = before ++ after ∧ sourcesClosed before = [] ∧
      (∀ exchange ∈ after, ∃ fd, exchange.request = .close fd) ∧
      sourcesClosed after = sourcesOpened before ∧
      ∀ direction name answer, ⟨.spawn direction name, answer⟩ ∉ before := by
  obtain ⟨opened, rest, rfl, hopened⟩ := Program.returns_ask_bind.mp h
  cases opened with
  | error errno =>
      obtain ⟨rfl, -⟩ := Program.returns_pure.mp hopened
      exact ⟨[_], [], rfl, rfl, List.forall_mem_nil _, rfl, by simp⟩
  | ok descriptor =>
      obtain ⟨piped, asked, others, rfl, hpiped, hothers⟩ := Program.returns_bind.mp hopened
      obtain ⟨ends, none, rfl, hends⟩ := Program.returns_ask_bind.mp hpiped
      obtain rfl : none = [] := by
        cases ends <;> exact (Program.returns_pure.mp hends).1
      cases piped with
      | error piping =>
          obtain ⟨_, closing, last, rfl, hclosing, hlast⟩ := Program.returns_bind.mp hothers
          obtain ⟨answer, left, rfl, hleft⟩ := Program.returns_ask_bind.mp hclosing
          obtain ⟨rfl, -⟩ := Program.returns_pure.mp hleft
          obtain ⟨rfl, -⟩ := Program.returns_pure.mp hlast
          exact ⟨[_, _], [⟨.close descriptor, answer⟩], rfl, rfl, by simp, rfl, by simp⟩
      | ok wakePipe =>
          obtain ⟨added, last, rfl, hadded⟩ := Program.returns_ask_bind.mp hothers
          cases added with
          | ok value => cases (Program.returns_pure.mp hadded).2
          | error errno =>
              obtain ⟨_, closing, final, rfl, hclosing, hfinal⟩ := Program.returns_bind.mp hadded
              obtain ⟨answer, left, rfl, hleft⟩ := Program.returns_ask_bind.mp hclosing
              obtain ⟨rfl, -⟩ := Program.returns_pure.mp hleft
              obtain ⟨rfl, -⟩ := Program.returns_pure.mp hfinal
              exact ⟨[_, _, _], [⟨.close descriptor, answer⟩], rfl, rfl, by simp, rfl, by simp⟩

/-- A side that cannot be created has failed to create its source. -/
theorem Side.create_fails {direction : Direction} {exchanges : List (Exchange σ)} {fault : Fault}
    (h : (Side.create direction).Returns exchanges (.error fault)) :
    Source.create.Returns exchanges (.error fault) := by
  obtain ⟨created, before, after, rfl, hcreated, hside⟩ := Program.returns_bind.mp h
  cases created with
  | ok source => cases (Program.returns_pure.mp hside).2
  | error other =>
      obtain ⟨rfl, hvalue⟩ := Program.returns_pure.mp hside
      cases hvalue
      rw [List.append_nil]
      exact hcreated

namespace Reactor

/-- What was opened for a reactor that cannot be created is closed again. -/
theorem create_fails {settings : Settings} {exchanges : List (Exchange σ)} {error : ReactorError}
    (h : (create settings).Returns exchanges (.error error)) :
    ∃ before after, exchanges = before ++ after ∧ Cut before after ∧
      (sourcesClosed after).Perm (sourcesOpened before) := by
  obtain ⟨reads, first, rest, rfl, hreads, hrest⟩ := Program.returns_bind.mp h
  cases reads with
  | error fault =>
      obtain ⟨rfl, -⟩ := Program.returns_pure.mp hrest
      obtain ⟨before, after, rfl, hunclosed, hafter, hclosed, hquiet⟩ :=
        Source.create_fails (Side.create_fails hreads)
      refine ⟨before, after, List.append_nil _, ⟨hunclosed, ?_, ?_⟩, .of_eq hclosed⟩
      · intro exchange hexchange
        obtain ⟨fd, hrequest⟩ := hafter exchange hexchange
        rw [hrequest]
        trivial
      · intro _ direction name hspawn
        exact absurd hspawn (hquiet direction name _)
  | ok reads =>
      obtain ⟨hopen, hfirst⟩ := Source.create_exchanges (Side.create_source hreads).1
      have hopened : sourcesOpened first = [reads.source.descriptor] := by rw [hfirst]; rfl
      have hunclosed : sourcesClosed first = [] := by rw [hfirst]; rfl
      obtain ⟨writes, second, last, rfl, hwrites, hlast⟩ := Program.returns_bind.mp hrest
      cases writes with
      | ok writes => cases (Program.returns_pure.mp hlast).2
      | error fault =>
          obtain ⟨before, after, rfl, hbefore, hafter, hclosed, hquiet⟩ :=
            Source.create_fails (Side.create_fails hwrites)
          obtain ⟨_, closing, none, rfl, hclosing, hnone⟩ := Program.returns_bind.mp hlast
          obtain ⟨rfl, -⟩ := Program.returns_pure.mp hnone
          obtain ⟨-, ⟨hshut, -⟩ | ⟨-, answer, rfl, -⟩⟩ := Side.close_returns hclosing
          · cases hopen.symm.trans hshut
          · refine ⟨first ++ before, after ++ [⟨.close reads.source.descriptor, answer⟩],
              by simp, ⟨by simp [hunclosed, hbefore], ?_, ?_⟩, ?_⟩
            · intro exchange hexchange
              rcases List.mem_append.mp hexchange with hbefore | hnow
              · obtain ⟨fd, hrequest⟩ := hafter exchange hbefore
                rw [hrequest]
                trivial
              · rw [List.mem_singleton.mp hnow]
                trivial
            · intro _ direction name hspawn
              rcases List.mem_append.mp hspawn with hreading | hwriting
              · rw [hfirst] at hreading
                simp at hreading
              · exact absurd hwriting (hquiet direction name _)
            · rw [sourcesClosed_append, sourcesOpened_append, hclosed, hopened]
              exact List.perm_append_comm

namespace State

variable {state next : State σ} {exchanges : List (Exchange (Numbered σ))}

/-! ## Reactors until they are gone -/

/-- As long as a reactor is not gone, its sources are open. -/
structure Holding (state : State σ) : Prop where
  opened : sourcesOpened state.trace =
    [state.reactor.reads.source.descriptor, state.reactor.writes.source.descriptor]
  unclosed : sourcesClosed state.trace = []
  live : ∀ direction, (state.reactor.sources direction).closed = false

/-- When a reactor is gone, its sources have been closed, the reading one first, after all loops
had been waited for. The result is the first fault. -/
structure Dissolved (state : State σ) (result : Except ReactorError Unit) : Prop where
  shut : ∀ direction, (state.reactor.sources direction).closed = true
  ends : ∃ before first second after,
    state.trace = before ++ ⟨.close state.reactor.reads.source.descriptor, first⟩ ::
      ⟨.close state.reactor.writes.source.descriptor, second⟩ :: after ∧
    sourcesOpened before =
      [state.reactor.reads.source.descriptor, state.reactor.writes.source.descriptor] ∧
    sourcesClosed before = [] ∧
    (∀ exchange ∈ after, exchange.request.IsOrdinary ∧ exchange.request.IsFinal) ∧
    (∀ direction ∈ state.reactor.started, ∃ panicked, ⟨.join direction, panicked⟩ ∈ before) ∧
    result = firstFault (Fault.ofCall first) (Fault.ofCall second)

/-- What a reactor holds or has held. -/
structure Sourced (state : State σ) : Prop where
  holding : state.point.isGone = false → state.Holding
  dissolved : ∀ purpose result, state.point = .gone purpose result → state.Dissolved result

/-- A reactor goes on to hold its sources while nothing is opened and closed. -/
theorem Holding.keep (h : state.Holding)
    (hsources : next.reactor.sources = state.reactor.sources)
    (htrace : next.trace = state.trace ++ exchanges) (hopened : sourcesOpened exchanges = [])
    (hclosed : sourcesClosed exchanges = []) : next.Holding := by
  have hreads : next.reactor.reads.source = state.reactor.reads.source := congrFun hsources .read
  have hwrites : next.reactor.writes.source = state.reactor.writes.source :=
    congrFun hsources .write
  constructor
  case opened => rw [htrace, sourcesOpened_append, h.opened, hopened, hreads, hwrites]; rfl
  case unclosed => rw [htrace, sourcesClosed_append, h.unclosed, hclosed]; rfl
  case live =>
    rw [hsources]
    exact h.live

/-- For a reactor that is not gone it is enough that it holds its sources. -/
theorem Sourced.of_holding (h : state.Holding) (hlive : state.point.isGone = false) :
    state.Sourced := by
  refine ⟨fun _ => h, fun purpose result hpoint => ?_⟩
  rw [hpoint] at hlive
  cases hlive

/-- The release of a reactor closes both of its sources. -/
theorem Holding.release (h : state.Holding) (hjoined : state.Joined) {purpose : Purpose}
    {act : Reactor (Numbered σ) → Program (Numbered σ) (Lifecycle × Reactor (Numbered σ))}
    {reactor : Reactor (Numbered σ)} {following : Lifecycle}
    (hmove : (Lifecycle.releasing purpose).move = .exclusive act)
    (hact : (act state.reactor).Returns exchanges (following, reactor)) :
    ({ state.asked exchanges with reactor, stance := .resting following } : State σ).Sourced := by
  obtain ⟨closing, rest, result, left, rfl, hclosing, hrest, rfl, rfl⟩ :=
    releasing_returns hmove hact
  obtain ⟨logs, firstCalls, first, reads, secondCalls, second, writes, rfl, hlogs, hfirst,
    hsecond, rfl, rfl⟩ := closeSources_returns hclosing
  obtain ⟨rfl, ⟨hshut, -⟩ | ⟨-, firstAnswer, rfl, rfl⟩⟩ := Side.close_returns hfirst
  · cases (h.live .read).symm.trans hshut
  obtain ⟨rfl, ⟨hshut, -⟩ | ⟨-, secondAnswer, rfl, rfl⟩⟩ := Side.close_returns hsecond
  · cases (h.live .write).symm.trans hshut
  obtain ⟨hopened, hclosed⟩ := sources_of_ordinary fun exchange hexchange =>
    (hlogs exchange hexchange).isOrdinary
  refine ⟨fun hlive => (by cases hlive), fun purpose result hpoint => ?_⟩
  cases hpoint
  constructor
  case shut =>
    intro direction
    cases direction <;> rfl
  case ends =>
    refine ⟨state.trace ++ logs, firstAnswer, secondAnswer, rest, ?_, ?_, ?_, ?_, ?_, rfl⟩
    · simp [asked]
    · rw [sourcesOpened_append, h.opened, hopened]
      rfl
    · rw [sourcesClosed_append, h.unclosed, hclosed]
      rfl
    · exact fun exchange hexchange => Request.ends_ordinarily (hrest exchange hexchange)
    · intro direction hdirection
      obtain ⟨-, panicked, hpanicked⟩ := hjoined direction hdirection
      exact ⟨panicked, List.mem_append_left _ hpanicked⟩

/-- A reactor goes on to hold its sources when a loop is started or fails to start. -/
theorem Holding.start (h : state.Holding) {direction : Direction}
    {reactor : Reactor (Numbered σ)} {following : Lifecycle}
    (hstart : Start state.reactor direction exchanges following reactor) :
    ({ state.asked exchanges with reactor, stance := .resting following } : State σ).Sourced := by
  have hraised : (state.reactor.raised direction).sources = state.reactor.sources :=
    sources_withSide rfl
  cases hstart with
  | started name =>
      refine .of_holding (h.keep (Eq.trans ?_ hraised) rfl rfl rfl) (by cases direction <;> rfl)
      funext other
      cases other <;> rfl
  | refused name errno => exact .of_holding (h.keep rfl rfl rfl rfl) rfl
  | unnamed => exact .of_holding (h.keep hraised rfl rfl rfl) rfl

/-- What a reactor holds or has held is known after every step of its owner. -/
theorem Sourced.owner (h : state.Sourced) (hmanaged : state.Managed)
    (hlive : state.point.isGone = false) (hstep : state.OwnerStep next) : next.Sourced := by
  have hholding := h.holding hlive
  cases hstep with
  | @acted point _ _ _ _ hstance hmove hact =>
      cases point with
      | starting => exact hholding.start (starting_cases hmove hact)
      | releasing =>
          have hpoint : state.point = .releasing _ := congrArg Stance.point hstance
          exact hholding.release (hmanaged.joined (by rw [hpoint]; rfl)) hmove hact
      | running | signalling | joining | gone => cases hmove
  | began hstance =>
      refine .of_holding (hholding.keep rfl (List.append_nil _).symm rfl rfl) ?_
      rw [point, hstance] at hlive
      exact hlive
  | @asked _ request _ hstance answer =>
      have hordinary : ∀ exchange ∈ [(⟨request, answer⟩ : Exchange (Numbered σ))],
          exchange.request.IsOrdinary := by
        intro exchange hexchange
        rw [List.mem_singleton.mp hexchange]
        exact (hmanaged.acting _ _ hstance).asks.1.isOrdinary
      obtain ⟨hopened, hclosed⟩ := sources_of_ordinary hordinary
      refine .of_holding (hholding.keep rfl rfl hopened hclosed) ?_
      rw [point, hstance] at hlive
      exact hlive
  | arrived hstance =>
      refine .of_holding (hholding.keep rfl (List.append_nil _).symm rfl rfl) ?_
      obtain ⟨_, _, _, hmove, _, _, hleaves, _, _⟩ := (hmanaged.acting _ _ hstance).begun
      rw [point, hstance] at hlive
      cases shared_arrival hmove hleaves.returns with
      | gone => cases hlive
      | _ => rfl

/-- What a reactor holds or has held is known whatever happens to it. -/
theorem Sourced.step (h : state.Sourced) (hmanaged : state.Managed) (hstep : state.Step next) :
    next.Sourced := by
  cases hgone : state.point.isGone with
  | true =>
      obtain ⟨hpoint, hreactor, htrace⟩ := hmanaged.gone_step hgone hstep
      constructor
      case holding =>
        intro hlive
        rw [hpoint] at hlive
        cases hgone.symm.trans hlive
      case dissolved =>
        intro purpose result hnext
        obtain ⟨hshut, hends⟩ := h.dissolved purpose result (hpoint.symm.trans hnext)
        constructor
        case shut => rwa [hreactor]
        case ends => rwa [hreactor, htrace]
  | false =>
      rcases hstep.inversion with howner | ⟨purpose, -, -, rfl⟩ | ⟨exchanges, hcontinues⟩
      · exact h.owner hmanaged hgone howner
      · exact .of_holding ((h.holding hgone).keep rfl (List.append_nil _).symm rfl rfl) rfl
      · obtain ⟨hopened, hclosed⟩ := sources_of_ordinary hcontinues.ordinary
        refine .of_holding
          ((h.holding hgone).keep hcontinues.sources hcontinues.trace hopened hclosed) ?_
        rw [point, hcontinues.stance]
        exact hgone

end State

/-- What a reactor holds or has held is known at every time. -/
theorem Life.Reachable.sourced {state : State σ} (h : Life.Reachable (.led state)) :
    state.Sourced := by
  generalize hlife : Life.led state = life at h
  induction h generalizing state with
  | refused => cases hlife
  | opened hcreate =>
      cases hlife
      obtain ⟨first, second, rfl, hreads, hwrites⟩ := create_returns hcreate
      obtain ⟨hreading, rfl⟩ := Source.create_exchanges (Side.create_source hreads).1
      obtain ⟨hwriting, rfl⟩ := Source.create_exchanges (Side.create_source hwrites).1
      refine .of_holding ⟨rfl, rfl, fun direction => ?_⟩ rfl
      cases direction with
      | read => exact hreading
      | write => exact hwriting
  | step hreachable hstep ih =>
      cases hlife
      exact (ih rfl).step hreachable.managed hstep

/-! ## No source is left behind -/

namespace Life

/-- Everything that has been asked in a life. -/
def trace : Life σ → List (Exchange (Numbered σ))
  | refused _ trace => trace
  | led state => state.trace

/-- The reactor could not be created, or it is gone. -/
def isOver : Life σ → Bool
  | refused _ _ => true
  | led state => state.point.isGone

variable {life : Life σ}

/-- The trace of a life is cut where the first source is closed. In the end all sources are closed
behind the cut. -/
theorem Reachable.cut (h : life.Reachable) :
    ∃ before after, life.trace = before ++ after ∧ Cut before after ∧
      (life.isOver = true → (sourcesClosed after).Perm (sourcesOpened before)) ∧
      (life.isOver = false → after = []) := by
  cases life with
  | refused error trace =>
      cases h with
      | refused hcreate =>
          obtain ⟨before, after, rfl, hcut, hclosed⟩ := create_fails hcreate
          exact ⟨before, after, rfl, hcut, fun _ => hclosed, fun hover => by cases hover⟩
  | led state =>
      have hmanaged := h.managed
      have hsourced := h.sourced
      cases hpoint : state.point with
      | gone purpose result =>
          obtain ⟨-, before, first, second, after, htrace, hopened, hunclosed, hafter, hjoined,
            -⟩ := hsourced.dissolved purpose result hpoint
          refine ⟨before, _, htrace, ⟨hunclosed, ?_, ?_⟩, ?_, ?_⟩
          · refine List.forall_mem_cons.mpr ⟨trivial, List.forall_mem_cons.mpr ⟨trivial, ?_⟩⟩
            exact fun exchange hexchange => (hafter exchange hexchange).2
          · intro _ direction name hspawn
            refine hjoined direction (hmanaged.spawned direction name ?_)
            rw [htrace]
            exact List.mem_append_left _ hspawn
          · intro _
            rw [hopened]
            refine .of_eq ?_
            show _ :: _ :: sourcesClosed after = _
            rw [(sources_of_ordinary fun exchange hexchange => (hafter exchange hexchange).1).2]
          · intro hover
            rw [isOver, hpoint] at hover
            cases hover
      | _ =>
          have hlive : state.point.isGone = false := by rw [hpoint]; rfl
          refine ⟨state.trace, [], (List.append_nil _).symm,
            .of_unclosed (hsourced.holding hlive).unclosed, ?_, fun _ => rfl⟩
          intro hover
          cases hlive.symm.trans hover

/-- What holds of the sources of a reactor all its life. -/
structure Released (life : Life σ) : Prop where
  /-- No source is closed that has not been opened, and none more than once. -/
  atMostOnce : (sourcesClosed life.trace).Subperm (sourcesOpened life.trace)
  /-- In the end each source has been closed once, whatever came of it. -/
  once : life.isOver = true → (sourcesClosed life.trace).Perm (sourcesOpened life.trace)
  /-- When a source is closed, all loops that were started have been waited for. From then on no
  registration changes, nobody waits for events, and no completion is offered. -/
  last : ∀ before fd answer after, life.trace = before ++ ⟨.close fd, answer⟩ :: after →
    (∀ direction name, ⟨.spawn direction name, .ok ()⟩ ∈ life.trace →
      ∃ panicked, ⟨.join direction, panicked⟩ ∈ before) ∧
    ∀ exchange ∈ after, exchange.request.IsFinal
  /-- No loop runs any more when a source has been closed. -/
  ended : ∀ state, life = .led state → sourcesClosed state.trace ≠ [] →
    ∀ direction ∈ state.reactor.started, (state.stage direction).isEnded = true
  /-- Both sources are closed even if the first one cannot be, and the first fault is the result. -/
  result : ∀ state purpose result, life = .led state → state.point = .gone purpose result →
    ∃ before first second after, state.trace =
        before ++ ⟨.close state.reactor.reads.source.descriptor, first⟩ ::
          ⟨.close state.reactor.writes.source.descriptor, second⟩ :: after ∧
      sourcesClosed before = [] ∧ sourcesClosed after = [] ∧
      result = firstFault (Fault.ofCall first) (Fault.ofCall second)
  /-- Nothing is asked for a reactor that is gone. To close its sources again does nothing. -/
  quiet : ∀ state, life = .led state → state.point.isGone = true →
    (∀ next, state.Step next → next.point = state.point ∧ next.trace = state.trace) ∧
    ∀ direction, (state.reactor.side direction).close =
      pure (.ok (), state.reactor.side direction)

/-- Whatever fails, each source of a reactor is closed once, and nothing is asked of it
afterwards. -/
theorem Reachable.released (h : life.Reachable) : Released life := by
  obtain ⟨before, after, htrace, hcut, hover, hlive⟩ := h.cut
  obtain ⟨hopened, hclosed⟩ := hcut.sources
  rw [← htrace] at hopened hclosed
  constructor
  case once =>
    intro hend
    rw [hopened, hclosed]
    exact hover hend
  case atMostOnce =>
    rw [hopened, hclosed]
    cases hend : life.isOver with
    | true => exact (hover hend).subperm
    | false =>
        rw [hlive hend]
        exact List.nil_subperm
  case last =>
    intro front fd answer back hsplit
    obtain ⟨middle, rfl, rfl⟩ := hcut.split (by simp [Exchange.closed]) (htrace.symm.trans hsplit)
    constructor
    · intro direction name hspawn
      rw [htrace] at hspawn
      rcases List.mem_append.mp hspawn with hbefore | hafter
      · obtain ⟨panicked, hjoin⟩ := hcut.joined (by simp) direction name hbefore
        exact ⟨panicked, List.mem_append_left _ hjoin⟩
      · exact (hcut.final _ hafter).elim
    · intro exchange hexchange
      exact hcut.final exchange (List.mem_append_right _ (List.mem_cons_of_mem _ hexchange))
  case ended =>
    rintro state rfl hsome direction hdirection
    have hgone : state.point.isGone = true := by
      by_contra hne
      exact hsome (h.sourced.holding (Bool.eq_false_iff.mpr hne)).unclosed
    obtain ⟨purpose, result, hpoint⟩ := Lifecycle.isGone_iff.mp hgone
    exact (h.managed.joined (by rw [hpoint]; rfl) direction hdirection).1
  case result =>
    rintro state purpose result rfl hpoint
    obtain ⟨-, before, first, second, after, htrace, -, hunclosed, hafter, -, hresult⟩ :=
      h.sourced.dissolved purpose result hpoint
    refine ⟨before, first, second, after, htrace, hunclosed, ?_, hresult⟩
    exact (sources_of_ordinary fun exchange hexchange => (hafter exchange hexchange).1).2
  case quiet =>
    rintro state rfl hgone
    constructor
    · intro next hstep
      obtain ⟨hpoint, -, htrace⟩ := h.managed.gone_step hgone hstep
      exact ⟨hpoint, htrace⟩
    · intro direction
      obtain ⟨purpose, result, hpoint⟩ := Lifecycle.isGone_iff.mp hgone
      have hshut := (h.sourced.dissolved purpose result hpoint).shut direction
      exact Side.close_shut hshut

/-- A reactor is closed whose reading loop could no longer wait for events. The first of its two
sources cannot be closed. -/
theorem released_despite_fault :
    ∃ state : State Unit, Reachable (.led state) ∧
      state.point = .gone .closing (.error (.close (.system ⟨5⟩))) ∧
      sourcesClosed state.trace = [⟨3⟩, ⟨6⟩] ∧ Released (.led state) := by
  let reads : Source := ⟨⟨3⟩, ⟨⟨4⟩, ⟨5⟩⟩, false⟩
  let writes : Source := ⟨⟨6⟩, ⟨⟨7⟩, ⟨8⟩⟩, false⟩
  let settings : Settings := .build [.eventsCapacity 4]
  let reactor : Reactor (Numbered Unit) :=
    ⟨⟨reads, .empty .read, false⟩, ⟨writes, .empty .write, false⟩, .empty, settings, []⟩
  have hcreate : (create settings).Returns _ (.ok reactor) :=
    ⟨.ok ⟨3⟩, _, rfl, .ok (⟨4⟩, ⟨5⟩), _, rfl, .ok (), _, rfl,
      .ok ⟨6⟩, _, rfl, .ok (⟨7⟩, ⟨8⟩), _, rfl, .ok (), _, rfl, rfl, rfl⟩
  have hopened := Reachable.opened hcreate
  have hreading := hopened.step (State.startable rfl (by decide))
  have hrunning := hreading.step (State.startable rfl (by decide))
  have hstarted := hrunning.step (.move .read (by decide) rfl (.shared rfl ⟨rfl, rfl⟩))
  have hfailed := hstarted.step (.move .read (by decide) rfl
    (.shared rfl ⟨.error .badDescriptor, _, rfl, (), _, rfl, rfl, rfl⟩))
  have hjoining := hfailed.toJoining rfl .closing rfl
  have hwriting := hjoining.step (.move .write (by decide) rfl (.shared rfl ⟨rfl, rfl⟩))
  have hnoticed := hwriting.step (.move .write (by decide) rfl
    (.shared rfl ⟨.ok [⟨notifyKey, EventMask.input⟩], _, rfl, rfl, rfl⟩))
  have hstopped := hnoticed.step (.move .write (by decide) rfl
    (.shared rfl ⟨true, _, rfl, (), _, rfl, rfl, rfl⟩))
  have hwaiting := hstopped.step (.owner (.began rfl rfl))
  have hfirst := hwaiting.step
    (.owner (@State.OwnerStep.asked _ _ _ (.join .read) _ rfl false ⟨rfl, rfl⟩))
  have hsecond := hfirst.step
    (.owner (@State.OwnerStep.asked _ _ _ (.join .write) _ rfl false ⟨rfl, rfl⟩))
  have hjoined := hsecond.step (.owner (.arrived rfl))
  have hgone := hjoined.step (.owner (.acted rfl rfl
    ⟨.error ⟨5⟩, _, rfl, .ok (), _, rfl, rfl, rfl⟩))
  exact ⟨_, hgone, rfl, by decide, hgone.released⟩

end Life

end Reactor

end Proactor
