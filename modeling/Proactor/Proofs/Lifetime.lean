import Proactor.Proofs.Panics
import Proactor.Proofs.Shutdown

/-!
# Reactors from their creation to their end

The owner of a reactor creates it, starts its loops and in the end shuts it down. The loops make
their moves meanwhile, and as long as the reactor runs operations are submitted and handles are
given to it. `Life.Reachable` interleaves all of this, with a trace of everything that is asked of
the system. The answers are arbitrary but for one: an owner that waits for a loop is answered when
the loop has ended.

An owner that does something without holding the reactor makes one request at a time. What it has
yet to run is then in its `Stance`, and `Program.Leaves` ties this to what it has begun.
-/

namespace Proactor

/-! ## What is left of a program -/

namespace Program

variable {σ α : Type} {program rest : Program σ α} {made : List (Exchange σ)}

/-- The rest is left of the program after some exchanges: every run of the rest goes on with a run
of the program that has begun with them. -/
def Leaves (program : Program σ α) (made : List (Exchange σ)) (rest : Program σ α) : Prop :=
  ∀ more outcome, rest.Runs more outcome → program.Runs (made ++ more) outcome

/-- Before any exchange all of a program is left. -/
theorem Leaves.refl (program : Program σ α) : program.Leaves [] program :=
  fun _ _ hruns => hruns

/-- After the answer to a request, what follows that answer is left. -/
theorem Leaves.call {request : Request σ} {next : request.Answer → Program σ α}
    (h : program.Leaves made (.call request next)) (answer : request.Answer) :
    program.Leaves (made ++ [⟨request, answer⟩]) (next answer) := by
  intro more outcome hruns
  rw [List.append_assoc]
  exact h _ _ ⟨answer, more, rfl, hruns⟩

/-- When only a value is left, the program has returned it. -/
theorem Leaves.returns {value : α} (h : program.Leaves made (.done value)) :
    program.Returns made value := by
  have hruns := h [] (.returned value) ⟨rfl, rfl⟩
  rwa [List.append_nil] at hruns

end Program

/-- The sink with the number of the submission that it is given with. -/
def Sink.numbered {σ : Type} (sink : Sink σ) (number : Nat) : Sink (Numbered σ) :=
  ⟨(number, sink.target), sink.waitsForRoom⟩

/-! ## Closing sides -/

/-- Closing a side asks for nothing but the closing of its source. -/
theorem Side.close_asks {σ : Type} {side : Side σ} :
    side.close.Asks fun request => request = .close side.source.descriptor :=
  Source.close_asks.bind fun _ => Program.asks_pure _

/-! ## Ordinary requests -/

/-- The request opens and closes no source and starts no loop. -/
def Request.IsOrdinary {σ : Type} : Request σ → Prop
  | .openSource => False
  | .close _ => False
  | .spawn _ _ => False
  | _ => True

namespace Request

variable {σ : Type} {request : Request σ}

/-- Telling the log something opens and closes no source and starts no loop. -/
theorem Logs.isOrdinary (h : request.Logs) : request.IsOrdinary := by
  obtain ⟨record, rfl⟩ := h
  trivial

/-- Tending a registration opens and closes no source and starts no loop. -/
theorem Tends.isOrdinary {source : Source} {fd : Fd} {event : RawEvent}
    (h : request.Tends source fd event) : request.IsOrdinary := by
  cases h <;> trivial

/-- Offering a completion to a sink opens and closes no source and starts no loop. -/
theorem Delivers.isOrdinary (h : request.Delivers) : request.IsOrdinary := by
  cases h <;> trivial

/-- Transferring bytes opens and closes no source and starts no loop. -/
theorem isOrdinary_of_transferOn? {fd : Fd} (h : request.transferOn? = some fd) :
    request.IsOrdinary := by
  cases request with
  | openSource | close | spawn => cases h
  | _ => trivial

/-- A loop makes ordinary requests only. -/
theorem isOrdinary_of_mayAsk {setup : EventLoop.Setup} {side : Side σ}
    {stage : EventLoop.Stage σ} (h : stage.MayAsk setup side request) : request.IsOrdinary := by
  cases stage with
  | starting | ended => exact h.elim
  | waiting =>
      rcases h with ⟨millis, rfl⟩ | hlogs
      · trivial
      · exact hlogs.isOrdinary
  | handling =>
      rcases h with rfl | hlogs
      · trivial
      · exact hlogs.isOrdinary
  | draining =>
      obtain ⟨count, rfl⟩ := h
      trivial
  | attempting =>
      rcases h with htransfer | hlogs
      · exact isOrdinary_of_transferOn? htransfer
      · exact hlogs.isOrdinary
  | settling => exact Tends.isOrdinary h
  | announcing => exact Logs.isOrdinary h
  | delivering => exact Delivers.isOrdinary h

end Request

namespace Reactor

/-! ## The points of a life -/

/-- The reactor could not be started. -/
def Purpose.abandons : Purpose → Bool
  | .abandoning _ => true
  | _ => false

namespace Lifecycle

/-- Whether the owner has been given the reactor. -/
def isConstructed : Lifecycle → Bool
  | starting _ => false
  | running => true
  | signalling purpose | joining purpose | releasing purpose | gone purpose _ =>
      !purpose.abandons

/-- Whether both loops have been woken. -/
def isSignalled : Lifecycle → Bool
  | joining _ | releasing _ | gone _ _ => true
  | _ => false

/-- Whether the owner has waited for the loops. -/
def isJoined : Lifecycle → Bool
  | releasing _ | gone _ _ => true
  | _ => false

/-- Whether the reactor is gone. -/
def isGone : Lifecycle → Bool
  | gone _ _ => true
  | _ => false

/-- A reactor is gone if and only if it has come to some result. -/
theorem isGone_iff {point : Lifecycle} :
    point.isGone = true ↔ ∃ purpose result, point = gone purpose result := by
  cases point <;> simp [isGone]

/-- The loops that have been started, if this is known of a point. A start that fails is followed
by a shutdown, whichever loop it was of. -/
def loops? : Lifecycle → Option (List Direction)
  | starting .read => some []
  | starting .write => some [.read]
  | point => if point.isConstructed then some [.read, .write] else none

/-- What the owner can ask for while it does not hold the reactor. -/
def MayAsk {σ : Type} (sources : Direction → Source) (started : List Direction)
    (point : Lifecycle) (request : Request σ) : Prop :=
  match point with
  | signalling _ => request = .raiseStop ∨ Owner.Wakes sources request
  | joining _ => (∃ direction ∈ started, request = .join direction) ∨ request.Logs
  | _ => False

end Lifecycle

/-! ## States -/

/-- Where the owner of a reactor is: at a point of its life, or in the middle of what it does there
with the program that it has yet to run. -/
inductive Stance (σ : Type) where
  | resting (point : Lifecycle)
  | acting (point : Lifecycle) (rest : Program σ Lifecycle)

/-- The point at which the owner is, or which it is about to leave. -/
def Stance.point {σ : Type} : Stance σ → Lifecycle
  | resting point => point
  | acting point _ => point

/-- A reactor at one moment, with the stages of its loops, its owner, the number of submissions in
each direction, and the trace of what has been asked. -/
structure State (σ : Type) where
  reactor : Reactor (Numbered σ)
  stage : Direction → EventLoop.Stage (Numbered σ)
  stance : Stance (Numbered σ)
  offered : Direction → Nat
  trace : List (Exchange (Numbered σ))

namespace State

variable {σ : Type}

/-- The point in the life of the reactor. -/
def point (state : State σ) : Lifecycle :=
  state.stance.point

/-- The lane of a direction. -/
def lane (state : State σ) (direction : Direction) : Lane (Numbered σ) :=
  ⟨state.reactor.side direction, state.stage direction⟩

/-- The state after some exchanges. -/
def asked (state : State σ) (exchanges : List (Exchange (Numbered σ))) : State σ :=
  { state with trace := state.trace ++ exchanges }

/-- The state after a move of a loop. -/
def moved (state : State σ) (direction : Direction) (exchanges : List (Exchange (Numbered σ)))
    (lane : Lane (Numbered σ)) : State σ :=
  { state.asked exchanges with
    reactor := state.reactor.withSide direction lane.side
    stage := Function.update state.stage direction lane.stage }

/-- The answers that the owner can get. It waits for a loop until the loop has ended, and learns
whether it panicked. -/
def Admits (state : State σ) : Exchange (Numbered σ) → Prop
  | ⟨.join direction, panicked⟩ =>
      (state.stage direction).isEnded = true ∧ panicked = (state.stage direction).panic?.isSome
  | _ => True

/-- What the owner can do. -/
inductive OwnerStep (state : State σ) : State σ → Prop where
  | acted {point next : Lifecycle} {reactor : Reactor (Numbered σ)}
      {act : Reactor (Numbered σ) → Program (Numbered σ) (Lifecycle × Reactor (Numbered σ))}
      {exchanges : List (Exchange (Numbered σ))} (hstance : state.stance = .resting point)
      (hmove : point.move = .exclusive act)
      (hact : (act state.reactor).Returns exchanges (next, reactor)) :
      OwnerStep state { state.asked exchanges with reactor, stance := .resting next }
  | began {point : Lifecycle} {act : Reactor (Numbered σ) → Program (Numbered σ) Lifecycle}
      (hstance : state.stance = .resting point) (hmove : point.move = .shared act) :
      OwnerStep state { state with stance := .acting point (act state.reactor) }
  | asked {point : Lifecycle} {request : Request (Numbered σ)}
      {next : request.Answer → Program (Numbered σ) Lifecycle}
      (hstance : state.stance = .acting point (.call request next)) (answer : request.Answer)
      (hadmits : state.Admits ⟨request, answer⟩) :
      OwnerStep state
        { state.asked [⟨request, answer⟩] with stance := .acting point (next answer) }
  | arrived {point next : Lifecycle} (hstance : state.stance = .acting point (.done next)) :
      OwnerStep state { state with stance := .resting next }

/-- What can happen to a reactor. Only while it runs does anybody but its owner and its loops have
access to it. A loop moves from its start to its end. -/
inductive Step (state : State σ) : State σ → Prop where
  | owner {next : State σ} (hstep : state.OwnerStep next) : Step state next
  | shutDown (hstance : state.stance = .resting .running) (purpose : Purpose)
      (hpurpose : purpose.abandons = false) :
      Step state { state with stance := .resting (.signalling purpose) }
  | submit {exchanges : List (Exchange (Numbered σ))} {result : Except ReactorError Unit}
      {reactor : Reactor (Numbered σ)} (hstance : state.stance = .resting .running)
      (direction : Direction) (fd : Fd) (buffer : Bytes) (sink : Sink σ)
      (hsubmit : (state.reactor.submit direction fd buffer
        (sink.numbered (state.offered direction))).Returns exchanges (result, reactor)) :
      Step state { state.asked exchanges with
        reactor
        offered := Function.update state.offered direction (state.offered direction + 1) }
  | watch {exchanges : List (Exchange (Numbered σ))} {result : Except ReactorError Fd}
      {reactor : Reactor (Numbered σ)} (hstance : state.stance = .resting .running)
      (handle : Handle)
      (hwatch : (state.reactor.watch handle).Returns exchanges (result, reactor)) :
      Step state { state.asked exchanges with reactor }
  | stopWatch {exchanges : List (Exchange (Numbered σ))} {reactor : Reactor (Numbered σ)}
      (hstance : state.stance = .resting .running) (fd : Fd)
      (hstop : (state.reactor.stopWatch fd).Returns exchanges reactor) :
      Step state { state.asked exchanges with reactor }
  | move {exchanges : List (Exchange (Numbered σ))} {lane : Lane (Numbered σ)}
      (direction : Direction) (hstarted : direction ∈ state.reactor.started)
      (hlive : (state.stage direction).isEnded = false)
      (hmoves : Lane.Moves (state.reactor.loopSetup direction) (state.lane direction)
        exchanges lane) : Step state (state.moved direction exchanges lane)

end State

/-- What has become of the attempt to create a reactor. -/
inductive Life (σ : Type) where
  | refused (error : ReactorError) (trace : List (Exchange (Numbered σ)))
  | led (state : State σ)

/-- All that can become of it. -/
inductive Life.Reachable {σ : Type} : Life σ → Prop where
  | refused {settings : Settings} {error : ReactorError} {exchanges : List (Exchange (Numbered σ))}
      (hcreate : (create settings).Returns exchanges (.error error)) :
      Reachable (.refused error exchanges)
  | opened {settings : Settings} {reactor : Reactor (Numbered σ)}
      {exchanges : List (Exchange (Numbered σ))}
      (hcreate : (create settings).Returns exchanges (.ok reactor)) :
      Reachable (.led ⟨reactor, fun _ => .starting, .resting (.starting .read), fun _ => 0,
        exchanges⟩)
  | step {state next : State σ} (h : Reachable (.led state)) (hstep : state.Step next) :
      Reachable (.led next)

/-! ## What the owner does -/

/-- Changing a side starts no loop. -/
@[simp]
theorem started_withSide {σ : Type} (reactor : Reactor σ) (direction : Direction)
    (side : Side σ) : (reactor.withSide direction side).started = reactor.started := by
  cases direction <;> rfl

/-- Changing a side changes no settings. -/
@[simp]
theorem settings_withSide {σ : Type} (reactor : Reactor σ) (direction : Direction)
    (side : Side σ) : (reactor.withSide direction side).settings = reactor.settings := by
  cases direction <;> rfl

variable {σ : Type} {reactor after : Reactor σ} {exchanges : List (Exchange σ)}
  {point next : Lifecycle}

/-- The reactor with the flag of a side raised. -/
def raised (reactor : Reactor σ) (direction : Direction) : Reactor σ :=
  reactor.withSide direction { reactor.side direction with dispatching := true }

/-- What the start of a loop can come to. -/
inductive Start (reactor : Reactor σ) (direction : Direction) :
    List (Exchange σ) → Lifecycle → Reactor σ → Prop where
  | started (name : String) :
      Start reactor direction [⟨.spawn direction name, .ok ()⟩] (.afterStart direction)
        { reactor.raised direction with
          started := (reactor.raised direction).started ++ [direction] }
  | refused (name : String) (errno : Errno) :
      Start reactor direction [⟨.spawn direction name, .error errno⟩]
        (.signalling (.abandoning (.refused (.init (.system errno))))) reactor
  | unnamed : Start reactor direction []
      (.signalling (.abandoning (.panicked .nulInThreadName))) (reactor.raised direction)

/-- All that the start of a loop can come to is listed in `Start`. -/
theorem starting_cases {direction : Direction}
    {act : Reactor σ → Program σ (Lifecycle × Reactor σ)}
    (hmove : (Lifecycle.starting direction).move = .exclusive act)
    (hact : (act reactor).Returns exchanges (next, after)) :
    Start reactor direction exchanges next after := by
  cases hmove
  obtain ⟨⟨result, started⟩, asked, none, rfl, hstart, hrest⟩ := Program.returns_bind.mp hact
  unfold startLoop at hstart
  dsimp only at hstart
  split at hstart
  · obtain ⟨rfl, hvalue⟩ := Program.returns_pure.mp hstart
    cases hvalue
    obtain ⟨rfl, hvalue⟩ := Program.returns_pure.mp hrest
    cases hvalue
    exact .unnamed
  · obtain ⟨answer, rest, rfl, hanswer⟩ := Program.returns_ask_bind.mp hstart
    cases answer with
    | ok value =>
        obtain ⟨rfl, hvalue⟩ := Program.returns_pure.mp hanswer
        cases hvalue
        obtain ⟨rfl, hvalue⟩ := Program.returns_pure.mp hrest
        cases hvalue
        exact .started _
    | error errno =>
        obtain ⟨rfl, hvalue⟩ := Program.returns_pure.mp hanswer
        cases hvalue
        obtain ⟨rfl, hvalue⟩ := Program.returns_pure.mp hrest
        cases hvalue
        exact .refused _ errno

/-- A loop is started on a thread that can have its name. -/
theorem startLoop_returns {direction : Direction}
    (hname : Char.ofNat 0 ∉ reactor.settings.threadNamePrefix.toList) :
    (reactor.startLoop direction).Returns
      [⟨.spawn direction (threadName reactor.settings direction), .ok ()⟩]
      (.ok (), { reactor.raised direction with
        started := (reactor.raised direction).started ++ [direction] }) := by
  unfold startLoop
  dsimp only
  split
  case isTrue hcontains =>
    have hdirection : Char.ofNat 0 ∉ direction.text.toList := by
      cases direction <;> decide
    simp [threadName, hname, hdirection] at hcontains
  case isFalse => exact ⟨.ok (), [], rfl, rfl, rfl⟩

/-- A loop can be started if its thread can have its name. -/
theorem State.starts {σ : Type} {state : State σ} {direction : Direction}
    (hstance : state.stance = .resting (.starting direction))
    (hname : Char.ofNat 0 ∉ state.reactor.settings.threadNamePrefix.toList) :
    state.OwnerStep { state.asked
        [⟨.spawn direction (threadName state.reactor.settings direction), .ok ()⟩] with
      reactor := { state.reactor.raised direction with
        started := (state.reactor.raised direction).started ++ [direction] }
      stance := .resting (.afterStart direction) } :=
  .acted hstance rfl (Program.returns_bind.mpr
    ⟨_, _, [], (List.append_nil _).symm, startLoop_returns hname, rfl, rfl⟩)

/-- A reactor that is to start a loop can do so if the name of its thread allows it. -/
theorem State.startable {σ : Type} {state : State σ} {direction : Direction}
    (hstance : state.stance = .resting (.starting direction))
    (hname : Char.ofNat 0 ∉ state.reactor.settings.threadNamePrefix.toList) :
    state.Step { state.asked
        [⟨.spawn direction (threadName state.reactor.settings direction), .ok ()⟩] with
      reactor := { state.reactor.raised direction with
        started := (state.reactor.raised direction).started ++ [direction] }
      stance := .resting (.afterStart direction) } :=
  .owner (State.starts hstance hname)

/-- An owner that shuts a running reactor down can wake both loops. -/
theorem Life.Reachable.toJoining {σ : Type} {state : State σ} (h : Life.Reachable (.led state))
    (hstance : state.stance = .resting .running) (purpose : Purpose)
    (hpurpose : purpose.abandons = false) :
    Life.Reachable (.led { state.asked [⟨.raiseStop, ()⟩,
        ⟨.write state.reactor.reads.source.wakePipe.writeEnd [1], .ok 1⟩,
        ⟨.write state.reactor.writes.source.wakePipe.writeEnd [1], .ok 1⟩] with
      stance := .resting (.joining purpose) }) := by
  have hbegun := (h.step (.shutDown hstance purpose hpurpose)).step (.owner (.began rfl rfl))
  have hraised := hbegun.step (.owner (@State.OwnerStep.asked _ _ _ .raiseStop _ rfl () trivial))
  have hwoken := hraised.step
    (.owner (@State.OwnerStep.asked _ _ _ (.write _ [1]) _ rfl (.ok 1) trivial))
  have hboth := hwoken.step
    (.owner (@State.OwnerStep.asked _ _ _ (.write _ [1]) _ rfl (.ok 1) trivial))
  have hjoining := hboth.step (.owner (.arrived rfl))
  simpa [State.asked] using hjoining

/-- The result of closing both sources: the first fault that there is. -/
def firstFault (first second : Except Fault Unit) : Except ReactorError Unit :=
  match first, second with
  | .error fault, _ => .error (.close fault)
  | .ok (), .error fault => .error (.close fault)
  | .ok (), .ok () => .ok ()

/-- Close both sources without a word about what is pending. -/
def closeBoth (reactor : Reactor σ) : Program σ (Except ReactorError Unit × Reactor σ) := do
  let (first, reads) ← reactor.reads.close
  let (second, writes) ← reactor.writes.close
  return (firstFault first second, { reactor with reads, writes })

/-- Both sources are closed, whatever comes of closing the first one. -/
theorem closeSources_returns {result : Except ReactorError Unit}
    (h : reactor.closeSources.Returns exchanges (result, after)) :
    ∃ logs firstCalls first reads secondCalls second writes,
      exchanges = logs ++ (firstCalls ++ secondCalls) ∧
        (∀ exchange ∈ logs, exchange.request.Logs) ∧
        reactor.reads.close.Returns firstCalls (first, reads) ∧
        reactor.writes.close.Returns secondCalls (second, writes) ∧
        result = firstFault first second ∧ after = { reactor with reads, writes } := by
  obtain ⟨logs, rest, rfl, hlogs, hrest⟩ : ∃ logs rest, exchanges = logs ++ rest ∧
      (∀ exchange ∈ logs, exchange.request.Logs) ∧
      (closeBoth reactor).Returns rest (result, after) := by
    unfold closeSources at h
    dsimp only at h
    split at h
    · obtain ⟨_, rest, rfl, hrest⟩ := Program.returns_ask_bind.mp h
      exact ⟨[_], rest, rfl, by simp [Request.Logs], hrest⟩
    · exact ⟨[], exchanges, rfl, List.forall_mem_nil _, h⟩
  obtain ⟨⟨first, reads⟩, firstCalls, others, rfl, hfirst, hothers⟩ :=
    Program.returns_bind.mp hrest
  obtain ⟨⟨second, writes⟩, secondCalls, none, rfl, hsecond, hpure⟩ :=
    Program.returns_bind.mp hothers
  obtain ⟨rfl, hvalue⟩ := Program.returns_pure.mp hpure
  cases hvalue
  refine ⟨logs, firstCalls, first, reads, secondCalls, second, writes, ?_, hlogs, hfirst, hsecond,
    rfl, rfl⟩
  rw [List.append_nil]

/-- Releasing a list of handles asks for nothing but the release of handles. -/
theorem releaseHandles_asks (handles : List Handle) : (releaseHandles handles : Program σ _).Asks
    fun request => ∃ handle, request = .release handle := by
  induction handles with
  | nil => exact Program.asks_pure _
  | cons handle handles ih => exact Program.asks_ask_bind.mpr ⟨⟨handle, rfl⟩, fun _ => ih⟩

/-- Reporting how a shutdown has gone only tells the log something. -/
theorem reportShutdown_asks (purpose : Purpose) (result : Except ReactorError Unit) :
    (reportShutdown purpose result : Program σ _).Asks Request.Logs := by
  unfold reportShutdown
  split
  · exact Program.asks_pure _
  · exact Program.asks_pure _
  · exact Program.asks_log ⟨_, rfl⟩

/-- When the sources have been closed, a report may be written, and the handles are released. -/
theorem releasing_returns {purpose : Purpose}
    {act : Reactor σ → Program σ (Lifecycle × Reactor σ)}
    (hmove : (Lifecycle.releasing purpose).move = .exclusive act)
    (hact : (act reactor).Returns exchanges (next, after)) :
    ∃ closing rest result left, exchanges = closing ++ rest ∧
      reactor.closeSources.Returns closing (result, left) ∧
      (∀ exchange ∈ rest,
        exchange.request.Logs ∨ ∃ handle, exchange.request = .release handle) ∧
      next = .gone purpose result ∧ after = { left with custody := .empty } := by
  cases hmove
  obtain ⟨⟨result, left⟩, closing, rest, rfl, hclosing, hrest⟩ := Program.returns_bind.mp hact
  obtain ⟨_, reports, others, rfl, hreports, hothers⟩ := Program.returns_bind.mp hrest
  obtain ⟨_, releases, none, rfl, hreleases, hpure⟩ := Program.returns_bind.mp hothers
  obtain ⟨rfl, hvalue⟩ := Program.returns_pure.mp hpure
  cases hvalue
  refine ⟨closing, _, result, left, rfl, hclosing, ?_, rfl, rfl⟩
  rw [List.append_nil]
  intro exchange hexchange
  rcases List.mem_append.mp hexchange with hreport | hrelease
  · exact .inl ((reportShutdown_asks purpose result).request hreports exchange hreport)
  · exact .inr ((releaseHandles_asks _).request hreleases exchange hrelease)

/-! ### What the owner does without holding the reactor -/

/-- Waking a loop cannot panic. -/
theorem wakeLoop_neverPanics (side : Side σ) : (wakeLoop side).NeverPanics := by
  refine Program.NeverPanics.bind ?_ fun result => ?_
  · refine (Program.neverPanics_ask _).bind fun answer => ?_
    cases answer with
    | ok count => exact Program.neverPanics_pure _
    | error errno =>
        dsimp only
        split <;> exact Program.neverPanics_pure _
  · cases result with
    | ok value => exact Program.neverPanics_pure _
    | error fault => exact Program.neverPanics_ask _

/-- A loop that has panicked is reported before the next one is waited for. -/
theorem joinLoops_cons (direction : Direction) (rest : List Direction) :
    (joinLoops (direction :: rest) : Program σ Unit) =
      Program.ask (.join direction) >>= fun panicked =>
        (if panicked then Program.log .loopPanicked else pure ()) >>= fun _ => joinLoops rest := by
  refine congrArg (Program.call (.join direction)) (funext fun panicked => ?_)
  cases panicked <;> rfl

/-- Waiting for loops cannot panic. -/
theorem joinLoops_neverPanics (directions : List Direction) :
    (joinLoops directions : Program σ _).NeverPanics := by
  induction directions with
  | nil => exact Program.neverPanics_pure _
  | cons direction rest ih =>
      rw [joinLoops_cons]
      refine (Program.neverPanics_ask _).bind fun panicked => ?_
      refine Program.NeverPanics.bind ?_ fun _ => ih
      cases panicked with
      | true => exact Program.neverPanics_ask _
      | false => exact Program.neverPanics_pure _

/-- Waiting for loops asks for these loops only, and tells the log about those that panicked. -/
theorem joinLoops_asks (directions : List Direction) :
    (joinLoops directions : Program σ _).Asks fun request =>
      (∃ direction ∈ directions, request = .join direction) ∨ request.Logs := by
  induction directions with
  | nil => exact Program.asks_pure _
  | cons direction rest ih =>
      rw [joinLoops_cons]
      refine Program.asks_ask_bind.mpr
        ⟨.inl ⟨direction, List.mem_cons_self, rfl⟩, fun panicked => ?_⟩
      refine Program.Asks.bind ?_ fun _ => ih.mono ?_
      · cases panicked with
        | true => exact Program.asks_log (.inr ⟨_, rfl⟩)
        | false => exact Program.asks_pure _
      · rintro request (⟨other, hother, rfl⟩ | hlogs)
        · exact .inl ⟨other, List.mem_cons_of_mem _ hother, rfl⟩
        · exact .inr hlogs

/-- All loops that are to be waited for have been waited for in the end. -/
theorem joinLoops_returns {directions : List Direction} {value : Unit}
    (h : (joinLoops directions).Returns exchanges value) :
    ∀ direction ∈ directions, ∃ panicked, ⟨.join direction, panicked⟩ ∈ exchanges := by
  induction directions generalizing exchanges with
  | nil => exact List.forall_mem_nil _
  | cons direction rest ih =>
      rw [joinLoops_cons] at h
      obtain ⟨panicked, others, rfl, hothers⟩ := Program.returns_ask_bind.mp h
      obtain ⟨_, logs, later, rfl, -, hlater⟩ := Program.returns_bind.mp hothers
      refine List.forall_mem_cons.mpr ⟨⟨panicked, List.mem_cons_self⟩, fun other hother => ?_⟩
      obtain ⟨answer, hanswer⟩ := ih hlater other hother
      exact ⟨answer, List.mem_cons_of_mem _ (List.mem_append_right _ hanswer)⟩

/-- What the owner asks for without holding the reactor. -/
theorem shared_asks {act : Reactor σ → Program σ Lifecycle} (hmove : point.move = .shared act) :
    (act reactor).Asks (point.MayAsk reactor.sources reactor.started) := by
  cases point with
  | starting | releasing => cases hmove
  | running | gone =>
      cases hmove
      exact Program.asks_pure _
  | signalling purpose =>
      cases hmove
      refine Program.Asks.bind ?_ fun _ => Program.asks_pure _
      refine Program.asks_ask_bind.mpr ⟨.inl rfl, fun _ => ?_⟩
      exact ((wakeLoop_asks .read).bind fun _ => wakeLoop_asks .write).mono fun _ => .inr
  | joining purpose =>
      cases hmove
      exact (joinLoops_asks _).bind fun _ => Program.asks_pure _

/-- An act of the owner that leaves the reactor alone cannot panic. -/
theorem shared_neverPanics {act : Reactor σ → Program σ Lifecycle}
    (hmove : point.move = .shared act) : (act reactor).NeverPanics := by
  cases point with
  | starting | releasing => cases hmove
  | running | gone =>
      cases hmove
      exact Program.neverPanics_pure _
  | signalling purpose =>
      cases hmove
      refine Program.NeverPanics.bind ?_ fun _ => Program.neverPanics_pure _
      refine (Program.neverPanics_ask _).bind fun _ => ?_
      exact (wakeLoop_neverPanics _).bind fun _ => wakeLoop_neverPanics _
  | joining purpose =>
      cases hmove
      exact (joinLoops_neverPanics _).bind fun _ => Program.neverPanics_pure _

/-- Where the owner arrives, and what it has done on the way. -/
inductive Arrival (sources : Direction → Source) (started : List Direction)
    (made : List (Exchange σ)) : Lifecycle → Lifecycle → Prop where
  | running : Arrival sources started made .running .running
  | signalled (purpose : Purpose) (hraised : ⟨.raiseStop, ()⟩ ∈ made)
      (hwoken : ∀ direction, ∃ answer,
        ⟨.write (sources direction).wakePipe.writeEnd [1], answer⟩ ∈ made) :
      Arrival sources started made (.signalling purpose) (.joining purpose)
  | joined (purpose : Purpose) (hjoined : ∀ direction ∈ started, ∃ panicked,
      ⟨.join direction, panicked⟩ ∈ made) :
      Arrival sources started made (.joining purpose) (.releasing purpose)
  | gone (purpose : Purpose) (result : Except ReactorError Unit) :
      Arrival sources started made (.gone purpose result) (.gone purpose result)

/-- Waking a loop writes a byte into its wake pipe, whatever comes of it. -/
theorem wakeLoop_returns {side : Side σ} {value : Unit}
    (h : (wakeLoop side).Returns exchanges value) :
    ∃ answer, ⟨.write side.source.wakePipe.writeEnd [1], answer⟩ ∈ exchanges := by
  obtain ⟨_, asked, rest, rfl, hasked, -⟩ := Program.returns_bind.mp h
  obtain ⟨answer, _, rfl, -⟩ := Program.returns_ask_bind.mp hasked
  exact ⟨answer, List.mem_append_left _ List.mem_cons_self⟩

/-- All places where an owner can arrive without holding the reactor are listed in `Arrival`. -/
theorem shared_arrival {act : Reactor σ → Program σ Lifecycle} (hmove : point.move = .shared act)
    (hact : (act reactor).Returns exchanges next) :
    Arrival reactor.sources reactor.started exchanges point next := by
  cases point with
  | starting | releasing => cases hmove
  | running =>
      cases hmove
      obtain ⟨-, rfl⟩ := Program.returns_pure.mp hact
      exact .running
  | gone purpose result =>
      cases hmove
      obtain ⟨-, rfl⟩ := Program.returns_pure.mp hact
      exact .gone purpose result
  | joining purpose =>
      cases hmove
      obtain ⟨_, asked, none, rfl, hjoin, hlast⟩ := Program.returns_bind.mp hact
      obtain ⟨rfl, rfl⟩ := Program.returns_pure.mp hlast
      rw [List.append_nil]
      exact .joined purpose (joinLoops_returns hjoin)
  | signalling purpose =>
      cases hmove
      obtain ⟨_, asked, none, rfl, hsignal, hlast⟩ := Program.returns_bind.mp hact
      obtain ⟨rfl, rfl⟩ := Program.returns_pure.mp hlast
      obtain ⟨_, wakes, rfl, hwakes⟩ := Program.returns_ask_bind.mp hsignal
      obtain ⟨_, first, second, rfl, hfirst, hsecond⟩ := Program.returns_bind.mp hwakes
      rw [List.append_nil]
      refine .signalled purpose List.mem_cons_self fun direction => ?_
      cases direction with
      | read =>
          obtain ⟨answer, hanswer⟩ := wakeLoop_returns hfirst
          exact ⟨answer, List.mem_cons_of_mem _ (List.mem_append_left _ hanswer)⟩
      | write =>
          obtain ⟨answer, hanswer⟩ := wakeLoop_returns hsecond
          exact ⟨answer, List.mem_cons_of_mem _ (List.mem_append_right _ hanswer)⟩

/-- The requests of an owner that does not hold the reactor are ordinary. -/
theorem Lifecycle.MayAsk.isOrdinary {sources : Direction → Source} {started : List Direction}
    {request : Request σ} (h : point.MayAsk sources started request) : request.IsOrdinary := by
  cases point with
  | starting | running | releasing | gone => exact h.elim
  | signalling =>
      rcases h with rfl | ⟨_, rfl⟩ | hlogs
      · trivial
      · trivial
      · exact hlogs.isOrdinary
  | joining =>
      rcases h with ⟨_, -, rfl⟩ | hlogs
      · trivial
      · exact hlogs.isOrdinary

/-! ### Handles and submissions -/

/-- Making a descriptor non-blocking opens and closes no source and starts no loop. -/
theorem setNonBlocking_asks (fd : Fd) :
    (setNonBlocking fd : Program σ _).Asks Request.IsOrdinary := by
  refine Program.asks_ask_bind.mpr ⟨trivial, fun answer => ?_⟩
  cases answer with
  | error errno => exact Program.asks_pure _
  | ok flags =>
      dsimp only
      split
      · exact Program.asks_ask_bind.mpr ⟨trivial, fun _ => Program.asks_pure _⟩
      · exact Program.asks_pure _

/-- Keeping a handle changes the custody alone. -/
theorem keep_ordinary (fd : Fd) (handle : Handle) :
    (reactor.keep fd handle).Asks Request.IsOrdinary ∧
      (reactor.keep fd handle).Yields fun after => ∃ custody, after = { reactor with custody } := by
  unfold keep Custody.insert
  cases reactor.custody.handles.get? fd with
  | none => exact ⟨⟨trivial, fun _ => trivial⟩, fun _ => ⟨_, rfl⟩⟩
  | some previous =>
      exact ⟨⟨trivial, fun _ => ⟨trivial, fun _ => ⟨trivial, fun _ => trivial⟩⟩⟩,
        fun _ _ _ => ⟨_, rfl⟩⟩

/-- Watching a handle makes ordinary requests and changes nothing of the reactor but the custody. -/
theorem watch_ordinary (reactor : Reactor σ) (handle : Handle) :
    (reactor.watch handle).Asks Request.IsOrdinary ∧
      (reactor.watch handle).Yields fun answer =>
        ∃ custody, answer.2 = { reactor with custody } := by
  unfold watch
  cases handle.descriptor with
  | none => exact ⟨⟨trivial, fun _ => trivial⟩, fun _ => ⟨reactor.custody, rfl⟩⟩
  | some fd =>
      refine ⟨(setNonBlocking_asks fd).bind fun result => ?_, .bind fun result => ?_⟩
      · cases result with
        | error fault => exact ⟨trivial, fun _ => trivial⟩
        | ok value => exact (keep_ordinary fd handle).1.bind fun _ => Program.asks_pure _
      · cases result with
        | error fault => exact fun _ => ⟨reactor.custody, rfl⟩
        | ok value => exact (keep_ordinary fd handle).2.chain fun _ hkept => hkept

/-- Giving up a handle makes ordinary requests and changes nothing of the reactor but the custody.
-/
theorem stopWatch_ordinary (reactor : Reactor σ) (fd : Fd) :
    (reactor.stopWatch fd).Asks Request.IsOrdinary ∧
      (reactor.stopWatch fd).Yields fun after => ∃ custody, after = { reactor with custody } := by
  unfold stopWatch Custody.remove
  cases reactor.custody.handles.get? fd with
  | none => exact ⟨trivial, ⟨_, rfl⟩⟩
  | some removed =>
      exact ⟨⟨trivial, fun _ => ⟨trivial, fun _ => trivial⟩⟩, fun _ _ => ⟨_, rfl⟩⟩

/-! ## The owner and its loops -/

namespace State

variable {state next : State σ} {exchanges : List (Exchange (Numbered σ))}
  {point : Lifecycle} {rest : Program (Numbered σ) Lifecycle}

/-- The trace grows, and what has ended stays so. -/
structure Grows (state next : State σ) (exchanges : List (Exchange (Numbered σ))) : Prop where
  started : next.reactor.started = state.reactor.started
  pipes : ∀ direction, (next.reactor.sources direction).wakePipe =
    (state.reactor.sources direction).wakePipe
  trace : next.trace = state.trace ++ exchanges
  ended : ∀ direction, (state.stage direction).isEnded = true →
    (next.stage direction).isEnded = true

/-- Both loops have been told to stop. -/
structure Signalled (state : State σ) : Prop where
  raised : ⟨.raiseStop, ()⟩ ∈ state.trace
  woken : ∀ direction, ∃ answer,
    ⟨.write (state.reactor.sources direction).wakePipe.writeEnd [1], answer⟩ ∈ state.trace

/-- All loops that were started have ended, and the owner has waited for them. -/
def Joined (state : State σ) : Prop :=
  ∀ direction ∈ state.reactor.started, (state.stage direction).isEnded = true ∧
    ∃ panicked, ⟨.join direction, panicked⟩ ∈ state.trace

/-- What an owner in the middle of its work has begun, what it has done of it and what it has yet
to do. -/
structure Acting (state : State σ) (point : Lifecycle)
    (rest : Program (Numbered σ) Lifecycle) : Prop where
  asks : rest.Asks (point.MayAsk state.reactor.sources state.reactor.started)
  safe : rest.NeverPanics
  begun : ∃ (reactor : Reactor (Numbered σ))
      (act : Reactor (Numbered σ) → Program (Numbered σ) Lifecycle) (made : List _),
    point.move = .shared act ∧ reactor.sources = state.reactor.sources ∧
      reactor.started = state.reactor.started ∧ (act reactor).Leaves made rest ∧
      (∀ exchange ∈ made, exchange ∈ state.trace) ∧
      ∀ direction panicked, ⟨.join direction, panicked⟩ ∈ made →
        (state.stage direction).isEnded = true

/-- What is known of the owner and its loops at each point. -/
structure Managed (state : State σ) : Prop where
  loops : ∀ started, state.point.loops? = some started → state.reactor.started = started
  spawned : ∀ direction name, ⟨.spawn direction name, .ok ()⟩ ∈ state.trace →
    direction ∈ state.reactor.started
  signalled : state.point.isSignalled = true → state.Signalled
  joined : state.point.isJoined = true → state.Joined
  acting : ∀ point rest, state.stance = .acting point rest → state.Acting point rest

/-- Loops that have been told to stop have been told so for ever. -/
theorem Grows.signalled (h : state.Grows next exchanges) (hbefore : state.Signalled) :
    next.Signalled := by
  constructor
  case raised =>
    rw [h.trace]
    exact List.mem_append_left _ hbefore.raised
  case woken =>
    intro direction
    obtain ⟨answer, hanswer⟩ := hbefore.woken direction
    rw [h.trace, h.pipes]
    exact ⟨answer, List.mem_append_left _ hanswer⟩

/-- Loops that have been waited for have ended for ever. -/
theorem Grows.joined (h : state.Grows next exchanges) (hbefore : state.Joined) : next.Joined := by
  intro direction hdirection
  rw [h.started] at hdirection
  obtain ⟨hended, panicked, hpanicked⟩ := hbefore direction hdirection
  rw [h.trace]
  exact ⟨h.ended direction hended, panicked, List.mem_append_left _ hpanicked⟩

/-- An owner in the middle of its work stays so while the trace grows. -/
theorem Acting.grows (h : state.Acting point rest) (hgrows : state.Grows next exchanges)
    (hsources : next.reactor.sources = state.reactor.sources) : next.Acting point rest := by
  constructor
  case asks =>
    rw [hsources, hgrows.started]
    exact h.asks
  case safe => exact h.safe
  case begun =>
    obtain ⟨reactor, act, made, hmove, hsame, hstarted, hleaves, hmade, hjoined⟩ := h.begun
    refine ⟨reactor, act, made, hmove, hsame.trans hsources.symm,
      hstarted.trans hgrows.started.symm, hleaves, ?_, ?_⟩
    · intro exchange hexchange
      rw [hgrows.trace]
      exact List.mem_append_left _ (hmade exchange hexchange)
    · intro direction panicked hjoin
      exact hgrows.ended direction (hjoined direction panicked hjoin)

/-- What is known is kept as the trace grows, and comes to be known as the owner goes on. -/
theorem Managed.grows (h : state.Managed) (hgrows : state.Grows next exchanges)
    (hspawned : ∀ direction name, ⟨.spawn direction name, .ok ()⟩ ∉ exchanges)
    (hloops : ∀ started, next.point.loops? = some started → state.point.loops? = some started)
    (hsignalled : next.point.isSignalled = true →
      state.point.isSignalled = true ∨ next.Signalled)
    (hjoined : next.point.isJoined = true → state.point.isJoined = true ∨ next.Joined)
    (hacting : ∀ point rest, next.stance = .acting point rest → next.Acting point rest) :
    next.Managed := by
  constructor
  case loops =>
    intro started hstarted
    rw [hgrows.started]
    exact h.loops started (hloops started hstarted)
  case spawned =>
    intro direction name hspawn
    rw [hgrows.trace] at hspawn
    rw [hgrows.started]
    rcases List.mem_append.mp hspawn with hbefore | hnow
    · exact h.spawned direction name hbefore
    · exact absurd hnow (hspawned direction name)
  case signalled =>
    intro hpoint
    rcases hsignalled hpoint with hbefore | hnow
    · exact hgrows.signalled (h.signalled hbefore)
    · exact hnow
  case joined =>
    intro hpoint
    rcases hjoined hpoint with hbefore | hnow
    · exact hgrows.joined (h.joined hbefore)
    · exact hnow
  case acting => exact hacting

/-! ### Steps of others -/

/-- The lane of a loop that has moved is where the move has led to. -/
@[simp]
theorem lane_moved_same (state : State σ) (direction : Direction)
    (exchanges : List (Exchange (Numbered σ))) (lane : Lane (Numbered σ)) :
    (state.moved direction exchanges lane).lane direction = lane := by
  simp [State.lane, moved]

/-- The lane of the other loop stays as it is. -/
theorem lane_moved_other (state : State σ) {direction other : Direction}
    (exchanges : List (Exchange (Numbered σ))) (lane : Lane (Numbered σ))
    (hne : other ≠ direction) :
    (state.moved direction exchanges lane).lane other = state.lane other := by
  simp [State.lane, moved, side_withSide_other _ _ hne, hne]

/-- The trace grows by something ordinary, and the owner stays where it is. -/
structure Continues (state next : State σ) (exchanges : List (Exchange (Numbered σ))) : Prop
    extends Grows state next exchanges where
  sources : next.reactor.sources = state.reactor.sources
  stance : next.stance = state.stance
  ordinary : ∀ exchange ∈ exchanges, exchange.request.IsOrdinary

/-- A submission is ordinary and leaves the owner where it is. -/
theorem continues_submit {direction : Direction} {fd : Fd} {buffer : Bytes}
    {sink : Sink (Numbered σ)} {result : Except ReactorError Unit} {reactor : Reactor (Numbered σ)}
    {offered : Direction → Nat}
    (hsubmit : (state.reactor.submit direction fd buffer sink).Returns exchanges
      (result, reactor)) :
    state.Continues { state.asked exchanges with reactor, offered } exchanges := by
  obtain ⟨side, rfl, hsource, -⟩ := submit_returns hsubmit
  obtain ⟨answer, _, calls, logs, rfl, hcalls, hlogs, -⟩ := submit_side hsubmit
  have hsources := sources_withSide hsource
  constructor
  case toGrows =>
    exact ⟨started_withSide _ _ _, fun other => by rw [hsources], rfl, fun _ hended => hended⟩
  case sources => exact hsources
  case stance => rfl
  case ordinary =>
    intro exchange hexchange
    rcases List.mem_append.mp hexchange with hcall | hlog
    · obtain ⟨_, asked, none, rfl, htable, hpure⟩ := Program.returns_bind.mp hcalls
      obtain ⟨rfl, -⟩ := Program.returns_pure.mp hpure
      rw [List.append_nil] at hcall
      exact (Outstanding.submit_tends.request htable exchange hcall).isOrdinary
    · exact (hlogs exchange hlog).isOrdinary

/-- A change of the custody with ordinary requests leaves the owner where it is. -/
theorem continues_custody {custody : Custody}
    (hordinary : ∀ exchange ∈ exchanges, exchange.request.IsOrdinary) :
    state.Continues { state.asked exchanges with reactor := { state.reactor with custody } }
      exchanges where
  started := rfl
  pipes direction := by cases direction <;> rfl
  trace := rfl
  ended _ hended := hended
  sources := funext fun direction => by cases direction <;> rfl
  stance := rfl
  ordinary := hordinary

/-- A move of a loop is ordinary and leaves the owner where it is. -/
theorem continues_move {direction : Direction} {lane : Lane (Numbered σ)}
    (hlive : (state.stage direction).isEnded = false)
    (hmoves : Lane.Moves (state.reactor.loopSetup direction) (state.lane direction)
      exchanges lane) : state.Continues (state.moved direction exchanges lane) exchanges := by
  have hsources : (state.moved direction exchanges lane).reactor.sources =
      state.reactor.sources := sources_withSide hmoves.source_eq
  constructor
  case toGrows =>
    refine ⟨started_withSide _ _ _, fun other => by rw [hsources], rfl, ?_⟩
    intro other hended
    by_cases hother : other = direction
    · subst hother
      cases hlive.symm.trans hended
    · have hsame := congrArg Lane.stage (state.lane_moved_other exchanges lane hother)
      exact (congrArg EventLoop.Stage.isEnded hsame).trans hended
  case sources => exact hsources
  case stance => rfl
  case ordinary =>
    intro exchange hexchange
    exact Request.isOrdinary_of_mayAsk (hmoves.mayAsk exchange hexchange)

/-- A step is one of the owner, or the owner begins to shut the reactor down, or it stays where it
is. -/
theorem Step.inversion (h : state.Step next) :
    state.OwnerStep next ∨
      (∃ purpose : Purpose, state.stance = .resting .running ∧ purpose.abandons = false ∧
        next = { state with stance := .resting (.signalling purpose) }) ∨
      ∃ exchanges, state.Continues next exchanges := by
  cases h with
  | owner hstep => exact .inl hstep
  | shutDown hstance purpose hpurpose => exact .inr (.inl ⟨purpose, hstance, hpurpose, rfl⟩)
  | submit _ _ _ _ _ hsubmit => exact .inr (.inr ⟨_, continues_submit hsubmit⟩)
  | watch _ handle hwatch =>
      obtain ⟨hasks, hyields⟩ := watch_ordinary state.reactor handle
      obtain ⟨custody, hreactor⟩ := hyields.of_returns hwatch
      obtain rfl : _ = { state.reactor with custody } := hreactor
      exact .inr (.inr ⟨_, continues_custody (hasks.request hwatch)⟩)
  | stopWatch _ fd hstop =>
      obtain ⟨hasks, hyields⟩ := stopWatch_ordinary state.reactor fd
      obtain ⟨custody, rfl⟩ := hyields.of_returns hstop
      exact .inr (.inr ⟨_, continues_custody (hasks.request hstop)⟩)
  | move _ _ hlive hmoves => exact .inr (.inr ⟨_, continues_move hlive hmoves⟩)

/-- What is known of the owner and its loops stays true while the owner stays where it is. -/
theorem Managed.continues (h : state.Managed) (hcontinues : state.Continues next exchanges) :
    next.Managed := by
  have hpoint : next.point = state.point := congrArg Stance.point hcontinues.stance
  refine h.grows hcontinues.toGrows ?_ (fun _ hnext => hpoint ▸ hnext)
    (fun hnext => .inl (hpoint ▸ hnext)) (fun hnext => .inl (hpoint ▸ hnext)) ?_
  · intro direction name hspawn
    exact (hcontinues.ordinary _ hspawn).elim
  · intro point rest hstance
    rw [hcontinues.stance] at hstance
    exact (h.acting point rest hstance).grows hcontinues.toGrows hcontinues.sources

/-! ### Steps of the owner -/

/-- What is known of the owner and its loops stays true when the owner begins to shut a running
reactor down. -/
theorem Managed.shutDown (h : state.Managed) (hstance : state.stance = .resting .running)
    {purpose : Purpose} (hpurpose : purpose.abandons = false) :
    ({ state with stance := .resting (.signalling purpose) } : State σ).Managed := by
  have hpoint : state.point = .running := congrArg Stance.point hstance
  refine h.grows ⟨rfl, fun _ => rfl, (List.append_nil _).symm, fun _ hended => hended⟩
    (fun _ _ => List.not_mem_nil) ?_ (fun hnext => by cases hnext) (fun hnext => by cases hnext)
    (fun _ _ hacting => by cases hacting)
  intro started hstarted
  have hloops : (Lifecycle.signalling purpose).loops? = some started := hstarted
  rw [hpoint, ← hloops]
  simp [Lifecycle.loops?, Lifecycle.isConstructed, hpurpose]

/-- The start of a loop that succeeds adds it to those that were started. -/
theorem Managed.start (h : state.Managed) {direction : Direction}
    {reactor : Reactor (Numbered σ)} {following : Lifecycle}
    (hstance : state.stance = .resting (.starting direction))
    (hstart : Start state.reactor direction exchanges following reactor) :
    ({ state.asked exchanges with reactor, stance := .resting following } : State σ).Managed := by
  have hpoint : state.point = .starting direction := congrArg Stance.point hstance
  have hraised : (state.reactor.raised direction).started = state.reactor.started :=
    started_withSide _ _ _
  cases hstart with
  | started name =>
      have hloops := h.loops
      rw [hpoint] at hloops
      constructor
      case loops =>
        intro started hstarted
        show (state.reactor.raised direction).started ++ [direction] = started
        rw [hraised]
        cases direction with
        | read =>
            cases hstarted
            rw [hloops [] rfl]
            rfl
        | write =>
            cases hstarted
            rw [hloops [.read] rfl]
            rfl
      case spawned =>
        intro other otherName hspawn
        show other ∈ (state.reactor.raised direction).started ++ [direction]
        rw [hraised]
        rcases List.mem_append.mp hspawn with hbefore | hnow
        · exact List.mem_append_left _ (h.spawned other otherName hbefore)
        · cases List.mem_singleton.mp hnow
          exact List.mem_append_right _ (List.mem_singleton_self _)
      case signalled =>
        intro hsignalled
        cases direction <;> cases hsignalled
      case joined =>
        intro hjoined
        cases direction <;> cases hjoined
      case acting =>
        intro point rest hacting
        cases hacting
  | refused name errno =>
      refine h.grows ⟨rfl, fun _ => rfl, rfl, fun _ hended => hended⟩ ?_
        (fun _ hnext => by cases hnext) (fun hnext => by cases hnext) (fun hnext => by cases hnext)
        (fun _ _ hacting => by cases hacting)
      intro other otherName hspawn
      cases List.mem_singleton.mp hspawn
  | unnamed =>
      have hsources : (state.reactor.raised direction).sources = state.reactor.sources :=
        sources_withSide rfl
      exact h.grows ⟨hraised, fun other => by rw [hsources], rfl, fun _ hended => hended⟩
        (fun _ _ => List.not_mem_nil) (fun _ hnext => by cases hnext) (fun hnext => by cases hnext)
        (fun hnext => by cases hnext) (fun _ _ hacting => by cases hacting)

/-- The release of the sources leaves the loops as they are. -/
theorem Managed.release (h : state.Managed) {purpose : Purpose}
    {act : Reactor (Numbered σ) → Program (Numbered σ) (Lifecycle × Reactor (Numbered σ))}
    {reactor : Reactor (Numbered σ)} {following : Lifecycle}
    (hstance : state.stance = .resting (.releasing purpose))
    (hmove : (Lifecycle.releasing purpose).move = .exclusive act)
    (hact : (act state.reactor).Returns exchanges (following, reactor)) :
    ({ state.asked exchanges with reactor, stance := .resting following } : State σ).Managed := by
  have hpoint : state.point = .releasing purpose := congrArg Stance.point hstance
  obtain ⟨closing, rest, result, left, rfl, hclosing, hrest, rfl, rfl⟩ :=
    releasing_returns hmove hact
  obtain ⟨logs, firstCalls, first, reads, secondCalls, second, writes, rfl, hlogs, hfirst,
    hsecond, rfl, rfl⟩ := closeSources_returns hclosing
  refine h.grows ⟨rfl, ?_, rfl, fun _ hended => hended⟩ ?_ (fun _ hnext => hpoint ▸ hnext)
    (fun _ => .inl (by rw [hpoint]; rfl)) (fun _ => .inl (by rw [hpoint]; rfl))
    (fun _ _ hacting => by cases hacting)
  · obtain ⟨rfl, -⟩ := Side.close_returns hfirst
    obtain ⟨rfl, -⟩ := Side.close_returns hsecond
    intro direction
    cases direction <;> rfl
  · intro direction name hspawn
    rcases List.mem_append.mp hspawn with hclose | hafter
    · rcases List.mem_append.mp hclose with hlog | hcalls
      · exact (hlogs _ hlog).isOrdinary
      · rcases List.mem_append.mp hcalls with hcall | hcall
        · cases Side.close_asks.request hfirst _ hcall
        · cases Side.close_asks.request hsecond _ hcall
    · rcases hrest _ hafter with ⟨_, hlog⟩ | ⟨_, hrelease⟩
      · cases hlog
      · cases hrelease

/-- What is known of the owner and its loops stays true when the owner gets an answer in the middle
of its work. -/
theorem Managed.ask (h : state.Managed) {point : Lifecycle} {request : Request (Numbered σ)}
    {rest : request.Answer → Program (Numbered σ) Lifecycle}
    (hstance : state.stance = .acting point (.call request rest)) (answer : request.Answer)
    (hadmits : state.Admits ⟨request, answer⟩) :
    ({ state.asked [⟨request, answer⟩] with
      stance := .acting point (rest answer) } : State σ).Managed := by
  have hpoint : state.point = point := congrArg Stance.point hstance
  have hacting := h.acting point _ hstance
  have hgrows : state.Grows
      { state.asked [⟨request, answer⟩] with stance := .acting point (rest answer) }
      [⟨request, answer⟩] := ⟨rfl, fun _ => rfl, rfl, fun _ hended => hended⟩
  refine h.grows hgrows ?_ (fun _ hnext => hpoint ▸ hnext) (fun hnext => .inl (hpoint ▸ hnext))
    (fun hnext => .inl (hpoint ▸ hnext)) ?_
  · intro direction name hspawn
    cases List.mem_singleton.mp hspawn
    exact hacting.asks.1.isOrdinary
  · rintro other remaining hother
    cases hother
    obtain ⟨reactor, act, made, hmove, hsources, hstarted, hleaves, hmade, hjoined⟩ :=
      hacting.begun
    constructor
    case asks => exact hacting.asks.2 answer
    case safe => exact Program.neverPanics_call.mp hacting.safe answer
    case begun =>
      refine ⟨reactor, act, _, hmove, hsources, hstarted, hleaves.call answer, ?_, ?_⟩
      · intro exchange hexchange
        rcases List.mem_append.mp hexchange with hbefore | hnow
        · exact List.mem_append_left _ (hmade exchange hbefore)
        · exact List.mem_append_right _ hnow
      · intro direction panicked hjoin
        rcases List.mem_append.mp hjoin with hbefore | hnow
        · exact hjoined direction panicked hbefore
        · cases List.mem_singleton.mp hnow
          exact hadmits.1

/-- When the owner is done with its work, what is to be known at the next point has come true. -/
theorem Managed.arrive (h : state.Managed) {point following : Lifecycle}
    (hstance : state.stance = .acting point (.done following)) :
    ({ state with stance := .resting following } : State σ).Managed := by
  have hpoint : state.point = point := congrArg Stance.point hstance
  obtain ⟨reactor, act, made, hmove, hsources, hstarted, hleaves, hmade, hjoined⟩ :=
    (h.acting point _ hstance).begun
  have harrival := shared_arrival hmove hleaves.returns
  rw [hsources, hstarted] at harrival
  have hgrows : state.Grows { state with stance := .resting following } [] :=
    ⟨rfl, fun _ => rfl, (List.append_nil _).symm, fun _ hended => hended⟩
  have hloops : following.loops? = state.point.loops? := by
    rw [hpoint]
    cases harrival <;> rfl
  refine h.grows hgrows (fun _ _ => List.not_mem_nil) (fun _ hnext => hloops ▸ hnext) ?_ ?_
    (fun _ _ hacting => by cases hacting)
  · intro hsignalled
    rw [hpoint]
    cases harrival with
    | running => exact .inl hsignalled
    | signalled purpose hraised hwoken =>
        refine .inr ⟨hmade _ hraised, fun direction => ?_⟩
        obtain ⟨answer, hanswer⟩ := hwoken direction
        exact ⟨answer, hmade _ hanswer⟩
    | joined | gone => exact .inl rfl
  · intro hnext
    rw [hpoint]
    cases harrival with
    | running | signalled => cases hnext
    | joined purpose hwaited =>
        refine .inr fun direction hdirection => ?_
        obtain ⟨panicked, hpanicked⟩ := hwaited direction hdirection
        exact ⟨hjoined direction panicked hpanicked, panicked, hmade _ hpanicked⟩
    | gone => exact .inl rfl

/-- What is known of the owner and its loops stays true whatever the owner does. -/
theorem Managed.owner (h : state.Managed) (hstep : state.OwnerStep next) : next.Managed := by
  cases hstep with
  | @acted point _ _ _ _ hstance hmove hact =>
      cases point with
      | starting => exact h.start hstance (starting_cases hmove hact)
      | releasing => exact h.release hstance hmove hact
      | running | signalling | joining | gone => cases hmove
  | @began point act hstance hmove =>
      have hpoint : state.point = point := congrArg Stance.point hstance
      refine h.grows ⟨rfl, fun _ => rfl, (List.append_nil _).symm, fun _ hended => hended⟩
        (fun _ _ => List.not_mem_nil) (fun _ hnext => hpoint ▸ hnext)
        (fun hnext => .inl (hpoint ▸ hnext)) (fun hnext => .inl (hpoint ▸ hnext)) ?_
      rintro other rest hother
      cases hother
      exact ⟨shared_asks hmove, shared_neverPanics hmove, state.reactor, act, [], hmove, rfl, rfl,
        .refl _, List.forall_mem_nil _, fun _ _ hjoin => absurd hjoin List.not_mem_nil⟩
  | asked hstance answer hadmits => exact h.ask hstance answer hadmits
  | arrived hstance => exact h.arrive hstance

/-- What is known of the owner and its loops stays true whatever happens to the reactor. -/
theorem Managed.step (h : state.Managed) (hstep : state.Step next) : next.Managed := by
  rcases hstep.inversion with howner | ⟨purpose, hstance, hpurpose, rfl⟩ | ⟨_, hcontinues⟩
  · exact h.owner howner
  · exact h.shutDown hstance hpurpose
  · exact h.continues hcontinues

/-- When a reactor is gone, nothing is asked any more. -/
theorem Managed.gone_step (h : state.Managed) (hgone : state.point.isGone = true)
    (hstep : state.Step next) :
    next.point = state.point ∧ next.reactor = state.reactor ∧ next.trace = state.trace := by
  have hrunning : state.stance ≠ .resting .running := by
    intro hstance
    have hpoint : state.point = .running := congrArg Stance.point hstance
    rw [hpoint] at hgone
    cases hgone
  obtain ⟨purpose, result, hpoint⟩ := Lifecycle.isGone_iff.mp hgone
  cases hstep with
  | shutDown hstance | submit hstance | watch hstance | stopWatch hstance =>
      exact absurd hstance hrunning
  | move direction hstarted hlive =>
      have hjoined := h.joined (by rw [hpoint]; rfl)
      cases hlive.symm.trans (hjoined direction hstarted).1
  | owner hstep =>
      cases hstep with
      | acted hstance hmove =>
          have hat : _ = Lifecycle.gone purpose result :=
            (congrArg Stance.point hstance).symm.trans hpoint
          cases hat
          cases hmove
      | began hstance => exact ⟨(congrArg Stance.point hstance).symm, rfl, rfl⟩
      | asked hstance =>
          have hat : _ = Lifecycle.gone purpose result :=
            (congrArg Stance.point hstance).symm.trans hpoint
          cases hat
          exact (h.acting _ _ hstance).asks.1.elim
      | @arrived point following hstance =>
          have hat : point = Lifecycle.gone purpose result :=
            (congrArg Stance.point hstance).symm.trans hpoint
          subst hat
          obtain ⟨_, _, _, hmove, _, _, hleaves, _, _⟩ := (h.acting _ _ hstance).begun
          refine ⟨?_, rfl, rfl⟩
          rw [hpoint]
          cases shared_arrival hmove hleaves.returns
          rfl

end State

/-- The start of a reactor finds no loop that runs. -/
theorem create_started (settings : Settings) : (create settings : Program σ _).Yields
    fun result => ∀ reactor, result = .ok reactor → reactor.started = [] := by
  refine .bind fun reads => ?_
  cases reads with
  | error fault => exact fun reactor heq => by cases heq
  | ok reads =>
      refine .bind fun writes => ?_
      cases writes with
      | error fault => exact .bind fun _ reactor heq => by cases heq
      | ok writes =>
          intro reactor heq
          cases heq
          rfl

/-- What is known of the owner and its loops is true of every reactor at every time. -/
theorem Life.Reachable.managed {state : State σ} (h : Life.Reachable (.led state)) :
    state.Managed := by
  generalize hlife : Life.led state = life at h
  induction h generalizing state with
  | refused => cases hlife
  | opened hcreate =>
      cases hlife
      constructor
      case loops =>
        intro started hstarted
        cases hstarted
        exact (create_started _).of_returns hcreate _ rfl
      case spawned =>
        intro direction name hspawn
        obtain ⟨first, second, rfl, hreads, hwrites⟩ := create_returns hcreate
        obtain ⟨-, rfl⟩ := Source.create_exchanges (Side.create_source hreads).1
        obtain ⟨-, rfl⟩ := Source.create_exchanges (Side.create_source hwrites).1
        simp at hspawn
      case signalled => exact fun hsignalled => by cases hsignalled
      case joined => exact fun hjoined => by cases hjoined
      case acting => exact fun _ _ hacting => by cases hacting
  | step _ hstep ih =>
      cases hlife
      exact (ih rfl).step hstep

end Reactor

end Proactor
