import Proactor.Proofs.Attendance
import Proactor.Proofs.Signals
import Mathlib.Logic.Function.Basic

/-!
# Waking the loops at the end

The owner of a reactor ends it by raising the stop flag and writing a byte into
the wake pipe of each side. Both loops go on meanwhile, and operations are
submitted. `Snapshot.Reachable` interleaves all of this: the owner makes one
request at a time, and a loop one move. At most one request of a move concerns
the flag or a pipe, and a loop reads the flag and empties its pipe in different
moves.

A loop that found a wake-up in its pipe before the flag was up would empty the
pipe, and the byte of the owner might go with it. That this cannot happen is
seen from an invariant between the pipes and the flag: as soon as there is a
byte in a pipe, the flag is up. Nobody else writes into the pipes, because
operations on their descriptors are not submitted, and no other descriptor is
registered under the key of wake-ups.
-/

namespace Proactor

variable {σ : Type}

namespace Reactor

/-- The sources of both sides. -/
def sources (reactor : Reactor σ) (direction : Direction) : Source :=
  (reactor.side direction).source

/-- The descriptors that a reactor has opened for itself. -/
def descriptors (reactor : Reactor σ) : List Fd :=
  reactor.reads.source.descriptors ++ reactor.writes.source.descriptors

/-- A side that keeps its source leaves the sources of the reactor as they are. -/
theorem sources_withSide {reactor : Reactor σ} {direction : Direction} {side : Side σ}
    (h : side.source = reactor.sources direction) :
    (reactor.withSide direction side).sources = reactor.sources := by
  funext other
  by_cases hother : other = direction
  · subst hother
    rw [sources, side_withSide_same, h]
  · rw [sources, side_withSide_other _ _ hother, sources]

/-- The descriptors of a reactor are those of its sources. -/
theorem descriptors_eq {reactor other : Reactor σ} (h : other.sources = reactor.sources) :
    other.descriptors = reactor.descriptors := by
  have hreads : other.reads.source = reactor.reads.source := congrFun h .read
  have hwrites : other.writes.source = reactor.writes.source := congrFun h .write
  rw [descriptors, descriptors, hreads, hwrites]

/-- What a source has opened for itself is among what its reactor has. -/
theorem mem_descriptors {reactor : Reactor σ} (direction : Direction) (fd : Fd)
    (h : fd ∈ (reactor.sources direction).descriptors) : fd ∈ reactor.descriptors := by
  cases direction with
  | read => exact List.mem_append_left _ h
  | write => exact List.mem_append_right _ h

/-! ## Submissions and creation -/

/-- A submission spares the descriptors of the reactor if it is on another one. -/
theorem submit_spares {reactor : Reactor σ} {direction : Direction} {fd : Fd} {buffer : Bytes}
    {sink : Sink σ} {own : List Fd} (hfd : fd ∉ own) :
    (reactor.submit direction fd buffer sink).Asks (Request.Spares own) := by
  have hsubmit : ((reactor.side direction).submit (.submitted fd buffer sink)
      reactor.settings.overlap).Asks (Request.Spares own) := by
    refine Program.Asks.bind (Outstanding.submit_tends.mono fun request htends => ?_)
      fun _ => Program.asks_pure _
    exact htends.spares hfd
  refine hsubmit.bind fun answer => ?_
  obtain ⟨result, side⟩ := answer
  cases result with
  | error error => exact Program.asks_pure _
  | ok displaced =>
      cases displaced with
      | none => exact Program.asks_ask_bind.mpr ⟨trivial, fun _ => Program.asks_pure _⟩
      | some displaced =>
          exact Program.asks_ask_bind.mpr ⟨trivial, fun _ =>
            Program.asks_ask_bind.mpr ⟨trivial, fun _ => Program.asks_pure _⟩⟩

/-- A submission is one to a side. What it asks for besides is written to the log. -/
theorem submit_side {reactor next : Reactor σ} {direction : Direction} {fd : Fd} {buffer : Bytes}
    {sink : Sink σ} {exchanges : List (Exchange σ)} {result : Except ReactorError Unit}
    (h : (reactor.submit direction fd buffer sink).Returns exchanges (result, next)) :
    ∃ answer side calls logs, exchanges = calls ++ logs ∧
      ((reactor.side direction).submit (.submitted fd buffer sink)
        reactor.settings.overlap).Returns calls (answer, side) ∧
      (∀ exchange ∈ logs, exchange.request.Logs) ∧
      next = reactor.withSide direction side ∧ result = answer.map fun _ => () := by
  obtain ⟨⟨answer, side⟩, calls, logs, rfl, hside, hrest⟩ := Program.returns_bind.mp h
  refine ⟨answer, side, calls, logs, rfl, hside, ?_⟩
  cases answer with
  | error error =>
      obtain ⟨rfl, hvalue⟩ := Program.returns_pure.mp hrest
      cases hvalue
      exact ⟨List.forall_mem_nil _, rfl, rfl⟩
  | ok displaced =>
      cases displaced with
      | none =>
          obtain ⟨_, _, rfl, hlast⟩ := Program.returns_ask_bind.mp hrest
          obtain ⟨rfl, hvalue⟩ := Program.returns_pure.mp hlast
          cases hvalue
          exact ⟨by simp [Request.Logs], rfl, rfl⟩
      | some displaced =>
          obtain ⟨_, _, rfl, hlogged⟩ := Program.returns_ask_bind.mp hrest
          obtain ⟨_, _, rfl, hlast⟩ := Program.returns_ask_bind.mp hlogged
          obtain ⟨rfl, hvalue⟩ := Program.returns_pure.mp hlast
          cases hvalue
          exact ⟨by simp [Request.Logs], rfl, rfl⟩

/-- A submission changes the table of one side, to which it adds at most its operation. -/
theorem submit_returns {reactor next : Reactor σ} {direction : Direction} {fd : Fd}
    {buffer : Bytes} {sink : Sink σ} {exchanges : List (Exchange σ)}
    {result : Except ReactorError Unit}
    (h : (reactor.submit direction fd buffer sink).Returns exchanges (result, next)) :
    ∃ side, next = reactor.withSide direction side ∧ side.source = reactor.sources direction ∧
      ∀ operation ∈ side.table.picked Slot.stored?,
        operation.fd = fd ∨ operation ∈ (reactor.side direction).table.picked Slot.stored? := by
  obtain ⟨answer, side, calls, logs, -, hside, -, hnext, -⟩ := submit_side h
  obtain ⟨⟨answer, table⟩, asked, none, rfl, htable, hpure⟩ := Program.returns_bind.mp hside
  obtain ⟨-, hvalue⟩ := Program.returns_pure.mp hpure
  cases hvalue
  refine ⟨_, hnext, rfl, fun operation hoperation => ?_⟩
  have hcases := Outstanding.submit_cases htable
  cases answer with
  | error error =>
      obtain rfl := hcases.refusal
      exact .inr hoperation
  | ok displaced =>
      obtain ⟨slot, hadmission, rfl⟩ := hcases.admission
      rcases Outstanding.mem_picked_put hoperation with heq | hbefore
      · rw [hadmission.takes_over.1] at heq
        cases heq
        exact .inl rfl
      · exact .inr hbefore

/-- A reactor is created with two new sides. -/
theorem create_returns {settings : Settings} {reactor : Reactor σ}
    {exchanges : List (Exchange σ)} (h : (create settings).Returns exchanges (.ok reactor)) :
    ∃ first second, exchanges = first ++ second ∧
      (Side.create .read).Returns first (.ok reactor.reads) ∧
      (Side.create .write).Returns second (.ok reactor.writes) := by
  obtain ⟨reads, first, rest, rfl, hreads, hrest⟩ := Program.returns_bind.mp h
  cases reads with
  | error fault => cases (Program.returns_pure.mp hrest).2
  | ok reads =>
      obtain ⟨writes, second, last, rfl, hwrites, hlast⟩ := Program.returns_bind.mp hrest
      cases writes with
      | error fault =>
          obtain ⟨_, _, _, _, -, hfailed⟩ := Program.returns_bind.mp hlast
          cases (Program.returns_pure.mp hfailed).2
      | ok writes =>
          obtain ⟨rfl, hreactor⟩ := Program.returns_pure.mp hlast
          cases hreactor
          exact ⟨first, second, by rw [List.append_nil], hreads, hwrites⟩

/-- A reactor begins with empty tables. -/
theorem create_table {settings : Settings} {reactor : Reactor σ}
    {exchanges : List (Exchange σ)} (h : (create settings).Returns exchanges (.ok reactor))
    (direction : Direction) : (reactor.side direction).table = .empty direction := by
  obtain ⟨first, second, -, hreads, hwrites⟩ := create_returns h
  cases direction with
  | read => exact (Side.create_source hreads).2
  | write => exact (Side.create_source hwrites).2

/-- A reactor begins with its wake pipes registered and nothing else. -/
theorem create_signals {settings : Settings} {reactor : Reactor σ}
    {exchanges : List (Exchange σ)} (h : (create settings).Returns exchanges (.ok reactor))
    (hdistinct : reactor.descriptors.Nodup) :
    Signals.silent.afterAll reactor.sources exchanges =
      ⟨false, fun _ => 0, fun _ => some ⟨notifyKey, EventMask.input⟩, fun _ => []⟩ := by
  obtain ⟨first, second, rfl, hreads, hwrites⟩ := create_returns h
  obtain ⟨-, rfl⟩ := Source.create_exchanges (Side.create_source hreads).1
  obtain ⟨-, rfl⟩ := Source.create_exchanges (Side.create_source hwrites).1
  have hne : reactor.reads.source.descriptor ≠ reactor.writes.source.descriptor := by
    intro heq
    simp [descriptors, Source.descriptors, heq] at hdistinct
  simp only [Signals.afterAll, List.cons_append, List.nil_append, List.foldl_cons,
    List.foldl_nil, Signals.after, Signals.afterControl]
  congr 1
  all_goals
    funext direction
    cases direction <;>
      simp [sources, side, hne, hne.symm, Control.fd, Control.event?, Signals.silent]

/-! ## Owners -/

/-- How far the owner of a reactor has come with ending its loops. Once it has begun, these are the
exchanges that it has made and the program that it has yet to run. -/
inductive Owner (σ : Type) where
  | running
  | signalling (made : List (Exchange σ)) (rest : Program σ Unit)

namespace Owner

/-- The owner has woken the loop of a source, and was told so. -/
def HasWoken (source : Source) : Owner σ → Prop
  | running => False
  | signalling made _ =>
      ∃ exchange ∈ made, (source.wake : Program σ _).Returns [exchange] (.ok ())

/-- The request writes a wake-up or a log record. -/
def Wakes (sources : Direction → Source) (request : Request σ) : Prop :=
  (∃ direction, request = .write (sources direction).wakePipe.writeEnd [1]) ∨ request.Logs

/-- The owner raises the stop flag before it wakes a loop, and a wake-up stays in its pipe. -/
inductive Orderly (sources : Direction → Source) (signals : Signals) : Owner σ → Prop where
  | running : Orderly sources signals .running
  | raising {next : (Request.raiseStop : Request σ).Answer → Program σ Unit}
      (hnext : ∀ answer, (next answer).Asks (Wakes sources)) :
      Orderly sources signals (.signalling [] (.call .raiseStop next))
  | waking {made : List (Exchange σ)} {rest : Program σ Unit} (hstopping : signals.stopping = true)
      (hrest : rest.Asks (Wakes sources))
      (hmade : ∀ direction, (signalling made rest).HasWoken (sources direction) →
        0 < signals.held direction) : Orderly sources signals (.signalling made rest)

variable {sources : Direction → Source} {signals later : Signals} {owner : Owner σ}

/-- What leaves the signals alone leaves the owner in order. -/
theorem Orderly.undisturbed (h : owner.Orderly sources signals)
    (hlater : signals.Undisturbed later) : owner.Orderly sources later := by
  cases h with
  | running => exact .running
  | raising hnext => exact .raising hnext
  | waking hstopping hrest hmade =>
      refine .waking (hlater.stopping.trans hstopping) hrest fun direction hwoken => ?_
      rw [hlater.held]
      exact hmade direction hwoken

/-- What an owner asks for after it has raised the flag adds to the pipes at most. -/
theorem Wakes.after (signals : Signals) (exchange : Exchange σ)
    (h : Wakes sources exchange.request) :
    (signals.after sources exchange).stopping = signals.stopping ∧
      (signals.after sources exchange).wakeEvent = signals.wakeEvent ∧
      (signals.after sources exchange).otherKeys = signals.otherKeys ∧
      ∀ direction, signals.held direction ≤ (signals.after sources exchange).held direction := by
  obtain ⟨request, answer⟩ := exchange
  rcases h with ⟨written, rfl⟩ | ⟨record, rfl⟩
  · cases answer with
    | error errno => exact ⟨rfl, rfl, rfl, fun _ => Nat.le_refl _⟩
    | ok count =>
        refine ⟨rfl, rfl, rfl, fun direction => ?_⟩
        dsimp only [Signals.after]
        split
        · exact Nat.le_add_right _ _
        · exact Nat.le_refl _
  · exact ⟨rfl, rfl, rfl, fun _ => Nat.le_refl _⟩

/-- Once the loop of a source has been woken, there is a byte in its pipe. -/
theorem held_of_wake {exchange : Exchange σ} {direction : Direction}
    (hwake : ((sources direction).wake : Program σ _).Returns [exchange] (.ok ()))
    (hallows : signals.Allows sources exchange) :
    0 < (signals.after sources exchange).held direction := by
  obtain ⟨answer, rest, heq, hrest⟩ := Program.returns_ask_bind.mp hwake
  cases heq
  cases answer with
  | ok count =>
      have hcount : 0 < count := hallows direction rfl (List.cons_ne_nil _ _)
      show 0 < if _ then _ else _
      rw [if_pos rfl]
      exact Nat.lt_of_lt_of_le hcount (Nat.le_add_left _ _)
  | error errno =>
      dsimp only at hrest
      split at hrest
      · rename_i hkind
        exact hallows direction rfl hkind
      · cases (Program.returns_pure.mp hrest).2

end Owner

/-- Waking a loop writes a wake-up or a log record and nothing else. -/
theorem wakeLoop_asks {reactor : Reactor σ} (direction : Direction) :
    (wakeLoop (reactor.side direction)).Asks (Owner.Wakes reactor.sources) := by
  refine Program.Asks.bind (Program.asks_ask_bind.mpr ⟨.inl ⟨direction, rfl⟩, fun answer => ?_⟩)
    fun result => ?_
  · cases answer with
    | ok count => exact Program.asks_pure _
    | error errno =>
        dsimp only
        split <;> exact Program.asks_pure _
  · cases result with
    | ok value => exact Program.asks_pure _
    | error fault => exact Program.asks_log (.inr ⟨_, rfl⟩)

/-- A shutdown begins with the stop flag, and then wakes loops. -/
theorem signalStop_orderly {reactor : Reactor σ} {signals : Signals} :
    (Owner.signalling [] reactor.signalStop).Orderly reactor.sources signals :=
  .raising fun _ => (wakeLoop_asks .read).bind fun _ => wakeLoop_asks .write

/-! ## Reactors and their loops at work -/

/-- A reactor at one moment, with the stages of its loops, its owner and the signals. -/
structure Snapshot (σ : Type) where
  reactor : Reactor σ
  stage : Direction → EventLoop.Stage σ
  owner : Owner σ
  signals : Signals

namespace Snapshot

/-- The lane of a direction. -/
def lane (snapshot : Snapshot σ) (direction : Direction) : Lane σ :=
  ⟨snapshot.reactor.side direction, snapshot.stage direction⟩

/-- The snapshot with the lane of a direction changed. -/
def withLane (snapshot : Snapshot σ) (direction : Direction) (lane : Lane σ) : Snapshot σ :=
  { snapshot with
    reactor := snapshot.reactor.withSide direction lane.side
    stage := Function.update snapshot.stage direction lane.stage }

/-- The snapshot with the signals after some exchanges. -/
def heard (snapshot : Snapshot σ) (exchanges : List (Exchange σ)) : Snapshot σ :=
  { snapshot with signals := snapshot.signals.afterAll snapshot.reactor.sources exchanges }

/-- The answers in some exchanges are such as the system can give at the time. -/
def Truthful (snapshot : Snapshot σ) (exchanges : List (Exchange σ)) : Prop :=
  snapshot.signals.Truthful snapshot.reactor.sources exchanges

/-- What can become of a reactor. Operations are submitted, the loops make their moves, and the
owner begins to end the loops and makes one request after the other. -/
inductive Reachable : Snapshot σ → Prop where
  | opened {settings : Settings} {exchanges : List (Exchange σ)} {reactor : Reactor σ}
      (hcreate : (create settings).Returns exchanges (.ok reactor))
      (hdistinct : reactor.descriptors.Nodup) :
      Reachable ⟨reactor, fun _ => .starting, .running,
        Signals.silent.afterAll reactor.sources exchanges⟩
  | submit {snapshot : Snapshot σ} {exchanges : List (Exchange σ)}
      {result : Except ReactorError Unit} {reactor : Reactor σ} (h : Reachable snapshot)
      (direction : Direction) (fd : Fd) (buffer : Bytes) (sink : Sink σ)
      (hfd : fd ∉ snapshot.reactor.descriptors)
      (hsubmit : (snapshot.reactor.submit direction fd buffer sink).Returns exchanges
        (result, reactor)) (htruthful : snapshot.Truthful exchanges) :
      Reachable { snapshot.heard exchanges with reactor }
  | move {snapshot : Snapshot σ} {exchanges : List (Exchange σ)} {next : Lane σ}
      (h : Reachable snapshot) (direction : Direction)
      (hmoves : Lane.Moves (snapshot.reactor.loopSetup direction) (snapshot.lane direction)
        exchanges next) (htruthful : snapshot.Truthful exchanges) :
      Reachable ((snapshot.heard exchanges).withLane direction next)
  | shutDown {snapshot : Snapshot σ} (h : Reachable snapshot)
      (howner : snapshot.owner = .running) :
      Reachable { snapshot with owner := .signalling [] snapshot.reactor.signalStop }
  | signal {snapshot : Snapshot σ} {made : List (Exchange σ)} {request : Request σ}
      {next : request.Answer → Program σ Unit} (h : Reachable snapshot)
      (howner : snapshot.owner = .signalling made (.call request next))
      (answer : request.Answer) (htruthful : snapshot.Truthful [⟨request, answer⟩]) :
      Reachable { snapshot.heard [⟨request, answer⟩] with
        owner := .signalling (made ++ [⟨request, answer⟩]) (next answer) }

/-- The flag is up as soon as there is a byte in a pipe, and no pipe is emptied. -/
structure Wakeful (snapshot : Snapshot σ) : Prop where
  wakeEvent : ∀ direction,
    snapshot.signals.wakeEvent direction = some ⟨notifyKey, EventMask.input⟩
  otherKeys : ∀ direction, notifyKey ∉ snapshot.signals.otherKeys direction
  confined : ∀ direction,
    (snapshot.lane direction).Confined (· ∉ snapshot.reactor.descriptors)
  stopping : ∀ direction, 0 < snapshot.signals.held direction →
    snapshot.signals.stopping = true
  noticed : ∀ direction, ∀ event ∈ (snapshot.stage direction).batch,
    event.isNotification = true → 0 < snapshot.signals.held direction
  draining : ∀ direction, (snapshot.stage direction).isDraining = false
  owner : snapshot.owner.Orderly snapshot.reactor.sources snapshot.signals

section Steps

variable {snapshot next : Snapshot σ} {exchanges : List (Exchange σ)}

/-- A lane that has been put in place is there. -/
@[simp]
theorem lane_withLane_same (direction : Direction) (lane : Lane σ) :
    (snapshot.withLane direction lane).lane direction = lane := by
  simp [Snapshot.lane, withLane]

/-- Putting a lane in place leaves the other one alone. -/
theorem lane_withLane_other {direction other : Direction} (lane : Lane σ)
    (hne : other ≠ direction) :
    (snapshot.withLane direction lane).lane other = snapshot.lane other := by
  simp [Snapshot.lane, withLane, side_withSide_other _ _ hne, hne]

/-- What happens to the lanes alone, on descriptors of others, keeps the loops wakeful. -/
theorem Wakeful.undisturbed (h : Wakeful snapshot)
    (hsources : next.reactor.sources = snapshot.reactor.sources)
    (howner : next.owner = snapshot.owner)
    (hsignals : snapshot.signals.Undisturbed next.signals)
    (hconfined : ∀ direction,
      (next.lane direction).Confined (· ∉ snapshot.reactor.descriptors))
    (hnoticed : ∀ direction, ∀ event ∈ (next.lane direction).stage.batch,
      event.isNotification = true → 0 < snapshot.signals.held direction)
    (hdraining : ∀ direction, (next.lane direction).stage.isDraining = false) :
    Wakeful next where
  wakeEvent := by
    rw [hsignals.wakeEvent]
    exact h.wakeEvent
  otherKeys direction hkey := h.otherKeys direction (hsignals.otherKeys direction hkey)
  confined := by
    rw [descriptors_eq hsources]
    exact hconfined
  stopping := by
    rw [hsignals.held, hsignals.stopping]
    exact h.stopping
  noticed := by
    rw [hsignals.held]
    exact hnoticed
  draining := hdraining
  owner := by
    rw [hsources, howner]
    exact h.owner.undisturbed hsignals

/-- A new reactor with distinct descriptors is wakeful. -/
theorem Wakeful.opened {settings : Settings} {reactor : Reactor σ}
    (hcreate : (create settings).Returns exchanges (.ok reactor))
    (hdistinct : reactor.descriptors.Nodup) :
    Wakeful ⟨reactor, fun _ => .starting, .running,
      Signals.silent.afterAll reactor.sources exchanges⟩ := by
  rw [create_signals hcreate hdistinct]
  constructor
  case wakeEvent => exact fun _ => rfl
  case otherKeys => exact fun _ => List.not_mem_nil
  case stopping => exact fun _ hheld => absurd hheld (Nat.lt_irrefl 0)
  case noticed => exact fun _ => List.forall_mem_nil _
  case draining => exact fun _ => rfl
  case owner => exact .running
  case confined =>
    intro direction
    constructor
    case stored =>
      show ∀ operation ∈ (reactor.side direction).table.picked Slot.stored?, _
      rw [create_table hcreate direction]
      exact List.forall_mem_nil _
    case held =>
      intro record hrecord
      cases hrecord

/-- A reactor stays wakeful when an operation is submitted on a descriptor that is not its own. -/
theorem Wakeful.submit (h : Wakeful snapshot) {direction : Direction} {fd : Fd} {buffer : Bytes}
    {sink : Sink σ} {result : Except ReactorError Unit} {reactor : Reactor σ}
    (hfd : fd ∉ snapshot.reactor.descriptors)
    (hsubmit : (snapshot.reactor.submit direction fd buffer sink).Returns exchanges
      (result, reactor)) : Wakeful { snapshot.heard exchanges with reactor } := by
  obtain ⟨side, rfl, hsource, hstored⟩ := submit_returns hsubmit
  have hspares := (submit_spares hfd).request hsubmit
  refine h.undisturbed (sources_withSide hsource) rfl
    (Signals.undisturbed_afterAll mem_descriptors hspares) (fun other => ?_) h.noticed h.draining
  by_cases hother : other = direction
  · subst hother
    constructor
    case stored =>
      intro operation hoperation
      rw [Snapshot.lane, side_withSide_same] at hoperation
      rcases hstored operation hoperation with heq | hbefore
      · exact heq ▸ hfd
      · exact (h.confined other).stored operation hbefore
    case held => exact (h.confined other).held
  · rw [Snapshot.lane, side_withSide_other _ _ hother]
    exact h.confined other

/-- What a wait reports as a wake-up is in its pipe. -/
theorem Wakeful.of_reported (h : Wakeful snapshot) {direction : Direction} {capacity : Nat}
    {millis : Option Nat} {events : List RawEvent}
    (htruthful : snapshot.Truthful
      [⟨.wait (snapshot.reactor.sources direction).descriptor capacity millis, .ok events⟩])
    {event : RawEvent} (hevent : event ∈ events)
    (hnotification : (Event.ofRaw event).isNotification = true) :
    0 < snapshot.signals.held direction := by
  have hkey : event.key = notifyKey := beq_iff_eq.mp hnotification
  have hreports : snapshot.signals.Reports direction capacity events := htruthful.1 direction rfl
  rcases hreports.origin event hevent with hother | ⟨hheld, -⟩
  · exact absurd (hkey ▸ hother) (h.otherKeys direction)
  · exact hheld

/-- When a wait ends with events, the pipe is among them if there is a byte in it and room. -/
theorem Wakeful.reported (h : Wakeful snapshot) {direction : Direction} {lane : Lane σ}
    {batch : List Event} (hheld : 0 < snapshot.signals.held direction)
    (hstage : snapshot.stage direction = .waiting)
    (hmoves : Lane.Moves (snapshot.reactor.loopSetup direction) (snapshot.lane direction)
      exchanges lane) (htruthful : snapshot.Truthful exchanges)
    (hnext : lane.stage = .handling batch)
    (hroom : batch.length <
      min (snapshot.reactor.loopSetup direction).batch Source.waitLimit) :
    ∃ event ∈ batch, event.isNotification = true := by
  have hlane : (snapshot.lane direction).stage = .waiting := hstage
  cases hmoves.course with
  | draining hother =>
      rw [hlane] at hother
      cases hother
  | onward hwaiting => exact absurd hlane hwaiting
  | unanswered _ hother =>
      rw [hnext] at hother
      rcases hother with hother | hother <;> cases hother
  | woken hother => cases hlane.symm.trans hother
  | @waited _ events _ _ hother =>
      cases hnext.symm.trans hother
      rw [List.length_map] at hroom
      have hreports : snapshot.signals.Reports direction _ events := htruthful.1 direction rfl
      obtain ⟨event, hevent, hkey⟩ :=
        hreports.level notifyKey (h.wakeEvent direction) hheld hroom
      exact ⟨_, List.mem_map_of_mem hevent, beq_iff_eq.mpr hkey⟩

/-- A loop that is about to handle a wake-up finds the stop flag up, and ends. -/
theorem Wakeful.stops (h : Wakeful snapshot) {direction : Direction} {event : Event}
    {batch : List Event} (hstage : snapshot.stage direction = .handling (event :: batch))
    (hevent : event.isNotification = true) :
    snapshot.signals.stopping = true ∧ ∀ exchanges lane,
      Lane.Moves (snapshot.reactor.loopSetup direction) (snapshot.lane direction) exchanges lane →
        snapshot.Truthful exchanges → lane.stage = .ended .stopped := by
  have hmem : event ∈ (snapshot.stage direction).batch := by
    rw [hstage]
    exact List.mem_cons_self
  have hstopping := h.stopping direction (h.noticed direction event hmem hevent)
  refine ⟨hstopping, fun exchanges lane hmoves htruthful => ?_⟩
  have hlane : (snapshot.lane direction).stage = .handling (event :: batch) := hstage
  cases hmoves.course with
  | draining hother =>
      rw [hlane] at hother
      cases hother
  | onward _ hquiet =>
      rw [hlane] at hquiet
      cases hquiet.symm.trans hevent
  | unanswered hother | waited hother => cases hlane.symm.trans hother
  | woken hother _ hnext =>
      have hanswer : _ = snapshot.signals.stopping := htruthful.1
      rw [hnext, hanswer, hstopping]
      rfl

/-- A loop comes by wake-ups only if there are bytes in its pipe, and does not empty it. -/
theorem Wakeful.move_stage (h : Wakeful snapshot) {direction : Direction} {lane : Lane σ}
    (hmoves : Lane.Moves (snapshot.reactor.loopSetup direction) (snapshot.lane direction)
      exchanges lane) (htruthful : snapshot.Truthful exchanges) :
    (∀ event ∈ lane.stage.batch, event.isNotification = true →
      0 < snapshot.signals.held direction) ∧ lane.stage.isDraining = false := by
  cases hmoves.course with
  | draining hother => cases (h.draining direction).symm.trans hother
  | onward _ _ honward =>
      exact ⟨fun event hevent => h.noticed direction event (honward.1 hevent), honward.2⟩
  | unanswered _ hnext =>
      rcases hnext with hnext | hended
      · rw [hnext]
        exact ⟨List.forall_mem_nil _, rfl⟩
      · obtain ⟨ending, hnext⟩ := EventLoop.Stage.isEnded_iff.mp hended
        rw [hnext]
        exact ⟨List.forall_mem_nil _, rfl⟩
  | waited _ hnext =>
      rw [hnext]
      refine ⟨fun event hevent hnotification => ?_, rfl⟩
      obtain ⟨reported, hreported, rfl⟩ := List.mem_map.mp hevent
      exact h.of_reported htruthful hreported hnotification
  | woken hstage hevent =>
      obtain ⟨-, hended⟩ := h.stops hstage hevent
      rw [hended _ _ hmoves htruthful]
      exact ⟨List.forall_mem_nil _, rfl⟩

/-- A reactor stays wakeful when one of its loops moves. -/
theorem Wakeful.move (h : Wakeful snapshot) {direction : Direction} {lane : Lane σ}
    (hmoves : Lane.Moves (snapshot.reactor.loopSetup direction) (snapshot.lane direction)
      exchanges lane) (htruthful : snapshot.Truthful exchanges) :
    Wakeful ((snapshot.heard exchanges).withLane direction lane) := by
  obtain ⟨hnoticed, hdraining⟩ := h.move_stage hmoves htruthful
  have hspares := hmoves.spares (h.confined direction) (h.draining direction)
  refine h.undisturbed (sources_withSide hmoves.source_eq) rfl
    (Signals.undisturbed_afterAll mem_descriptors hspares) ?_ ?_ ?_
  all_goals
    intro other
    by_cases hother : other = direction
  · subst hother
    rw [lane_withLane_same]
    exact hmoves.confined (h.confined other)
  · rw [lane_withLane_other lane hother]
    exact h.confined other
  · subst hother
    rw [lane_withLane_same]
    exact hnoticed
  · rw [lane_withLane_other lane hother]
    exact h.noticed other
  · subst hother
    rw [lane_withLane_same]
    exact hdraining
  · rw [lane_withLane_other lane hother]
    exact h.draining other

/-- Raising the flag and adding to the pipes keeps the loops wakeful. -/
theorem Wakeful.raised (h : Wakeful snapshot) {owner : Owner σ} {later : Signals}
    (hstopping : later.stopping = true)
    (hevent : later.wakeEvent = snapshot.signals.wakeEvent)
    (hkeys : later.otherKeys = snapshot.signals.otherKeys)
    (hheld : ∀ direction, snapshot.signals.held direction ≤ later.held direction)
    (howner : owner.Orderly snapshot.reactor.sources later) :
    Wakeful { snapshot with owner, signals := later } where
  wakeEvent := by
    rw [hevent]
    exact h.wakeEvent
  otherKeys := by
    rw [hkeys]
    exact h.otherKeys
  confined := h.confined
  stopping _ _ := hstopping
  noticed direction event hmem hnotification :=
    Nat.lt_of_lt_of_le (h.noticed direction event hmem hnotification) (hheld direction)
  draining := h.draining
  owner := howner

/-- A reactor stays wakeful when its owner makes the next request to end the loops. -/
theorem Wakeful.signal (h : Wakeful snapshot) {made : List (Exchange σ)} {request : Request σ}
    {next : request.Answer → Program σ Unit}
    (howner : snapshot.owner = .signalling made (.call request next)) {answer : request.Answer}
    (htruthful : snapshot.Truthful [⟨request, answer⟩]) :
    Wakeful { snapshot.heard [⟨request, answer⟩] with
      owner := .signalling (made ++ [⟨request, answer⟩]) (next answer) } := by
  have horderly := h.owner
  rw [howner] at horderly
  cases horderly with
  | raising hnext =>
      refine h.raised rfl rfl rfl (fun _ => Nat.le_refl _) (.waking rfl (hnext answer) ?_)
      -- raising the flag wakes nobody yet
      rintro direction ⟨exchange, hexchange, hwake⟩
      obtain rfl := List.mem_singleton.mp hexchange
      obtain ⟨_, _, heq, -⟩ := Program.returns_ask_bind.mp hwake
      cases heq
  | waking hstopping hrest hmade =>
      obtain ⟨hrequest, hnext⟩ := hrest
      obtain ⟨hflag, hevent, hkeys, hheld⟩ :=
        Owner.Wakes.after snapshot.signals ⟨request, answer⟩ hrequest
      have hraised := hflag.trans hstopping
      refine h.raised hraised hevent hkeys hheld (.waking hraised (hnext answer) ?_)
      rintro direction ⟨exchange, hexchange, hwake⟩
      rcases List.mem_append.mp hexchange with hearlier | hnow
      · exact Nat.lt_of_lt_of_le (hmade direction ⟨exchange, hearlier, hwake⟩) (hheld direction)
      · obtain rfl := List.mem_singleton.mp hnow
        exact Owner.held_of_wake hwake htruthful.1

/-- A reactor is wakeful at every time. -/
theorem Reachable.wakeful (h : Reachable snapshot) : Wakeful snapshot := by
  induction h with
  | opened hcreate hdistinct => exact .opened hcreate hdistinct
  | submit _ _ _ _ _ hfd hsubmit _ ih => exact ih.submit hfd hsubmit
  | move _ _ hmoves htruthful ih => exact ih.move hmoves htruthful
  | signal _ howner _ htruthful ih => exact ih.signal howner htruthful
  | shutDown _ _ ih =>
      exact ⟨ih.wakeEvent, ih.otherKeys, ih.confined, ih.stopping, ih.noticed, ih.draining,
        signalStop_orderly⟩

end Steps

/-! ## No wake-up is lost -/

/-- What the shutdown of a reactor can rely on. -/
structure Roused (snapshot : Snapshot σ) : Prop where
  /-- There is a byte in the pipe of every loop that has been woken, so that no loop waits on an
  empty pipe from then on. -/
  held : ∀ direction, snapshot.owner.HasWoken (snapshot.reactor.sources direction) →
    0 < snapshot.signals.held direction
  /-- When the wait of such a loop ends with events, there is a wake-up among them if there was
  room for it. -/
  reported : ∀ direction, snapshot.owner.HasWoken (snapshot.reactor.sources direction) →
    snapshot.stage direction = .waiting → ∀ exchanges lane batch,
      Lane.Moves (snapshot.reactor.loopSetup direction) (snapshot.lane direction) exchanges lane →
        snapshot.Truthful exchanges → lane.stage = .handling batch →
          batch.length < min (snapshot.reactor.loopSetup direction).batch Source.waitLimit →
            ∃ event ∈ batch, event.isNotification = true
  /-- No loop takes bytes out of a wake pipe. -/
  undrained : ∀ direction exchanges lane,
    Lane.Moves (snapshot.reactor.loopSetup direction) (snapshot.lane direction) exchanges lane →
      ∀ exchange ∈ exchanges, ∀ other count,
        exchange.request ≠ .read (snapshot.reactor.sources other).wakePipe.readEnd count
  /-- A loop that handles a wake-up finds the stop flag up, and ends. -/
  stops : ∀ direction event batch, snapshot.stage direction = .handling (event :: batch) →
    event.isNotification = true → snapshot.signals.stopping = true ∧ ∀ exchanges lane,
      Lane.Moves (snapshot.reactor.loopSetup direction) (snapshot.lane direction) exchanges lane →
        snapshot.Truthful exchanges → lane.stage = .ended .stopped

/-- A loop that the owner has woken has a byte in its pipe. -/
theorem Wakeful.held_of_hasWoken {snapshot : Snapshot σ} (h : Wakeful snapshot)
    {direction : Direction}
    (hwoken : snapshot.owner.HasWoken (snapshot.reactor.sources direction)) :
    0 < snapshot.signals.held direction := by
  have horderly := h.owner
  generalize snapshot.owner = owner at horderly hwoken
  cases horderly with
  | running => exact hwoken.elim
  | raising =>
      obtain ⟨exchange, hexchange, -⟩ := hwoken
      cases hexchange
  | waking _ _ hmade => exact hmade direction hwoken

/-- In every interleaving of the loops, the submissions and the shutdown, no wake-up is lost. -/
theorem Reachable.roused {snapshot : Snapshot σ} (h : Reachable snapshot) : Roused snapshot := by
  have hwakeful := h.wakeful
  constructor
  case held => exact fun direction => hwakeful.held_of_hasWoken
  case reported =>
    intro direction hwoken hstage exchanges lane batch hmoves htruthful hnext hroom
    exact hwakeful.reported (hwakeful.held_of_hasWoken hwoken) hstage hmoves htruthful hnext hroom
  case undrained =>
    intro direction exchanges lane hmoves exchange hexchange other count hread
    have hspares := hmoves.spares (hwakeful.confined direction) (hwakeful.draining direction)
      exchange hexchange
    rw [hread] at hspares
    exact hspares (mem_descriptors other _ (by simp [Source.descriptors]))
  case stops => exact fun direction event batch => hwakeful.stops

/-- A read is waiting for its descriptor when the shutdown begins. The reading loop is woken while
it handles the readiness of the descriptor, and finds the wake-up with its next wait. -/
theorem roused_while_reading :
    ∃ snapshot : Snapshot Unit, Reachable snapshot ∧
      snapshot.owner.HasWoken (snapshot.reactor.sources .read) ∧
      (∃ event, snapshot.stage .read = .handling [event] ∧ event.isNotification = true) ∧
      Roused snapshot := by
  let ready : RawEvent := ⟨Fd.key ⟨20⟩, EventMask.input⟩
  let wakeUp : RawEvent := ⟨notifyKey, EventMask.input⟩
  let reads : Source := ⟨⟨3⟩, ⟨⟨4⟩, ⟨5⟩⟩, false⟩
  let writes : Source := ⟨⟨6⟩, ⟨⟨7⟩, ⟨8⟩⟩, false⟩
  let settings : Settings := .build [.eventsCapacity 4]
  let reactor : Reactor Unit :=
    ⟨⟨reads, .empty .read, false⟩, ⟨writes, .empty .write, false⟩, .empty, settings, []⟩
  have hcreate : (create settings).Returns _ (.ok reactor) :=
    ⟨.ok ⟨3⟩, _, rfl, .ok (⟨4⟩, ⟨5⟩), _, rfl, .ok (), _, rfl,
      .ok ⟨6⟩, _, rfl, .ok (⟨7⟩, ⟨8⟩), _, rfl, .ok (), _, rfl, rfl, rfl⟩
  have hopened := Reachable.opened hcreate (by decide)
  have hsubmitted := hopened.submit .read ⟨20⟩ [0] ⟨(), false⟩ (by decide)
    ⟨.ok (), _, rfl, (), _, rfl, rfl, rfl⟩ ⟨trivial, trivial, trivial⟩
  have hstarted := hsubmitted.move .read (.shared rfl ⟨rfl, rfl⟩) trivial
  have hwaited := hstarted.move .read (.shared rfl ⟨.ok [ready], _, rfl, rfl, rfl⟩) <| by
    refine ⟨fun direction hsource => ?_, trivial⟩
    cases direction with
    | write => exact absurd hsource (by decide)
    | read =>
        refine ⟨fun event hevent => .inl ?_, fun _ _ hheld => absurd hheld (by decide)⟩
        rw [List.mem_singleton.mp hevent]
        decide
  have hbegun := hwaited.shutDown rfl
  have hraised := hbegun.signal rfl () ⟨trivial, trivial⟩
  have hchecked := hraised.move .read (.exclusive rfl ⟨(), _, rfl, rfl, rfl⟩) ⟨trivial, trivial⟩
  have hwoken := hchecked.signal rfl (.ok 1) ⟨fun _ _ _ => Nat.one_pos, trivial⟩
  have hattempted := hwoken.move .read
    (.shared rfl ⟨.error .wouldBlock, _, rfl, (), _, rfl, rfl, rfl⟩) ⟨trivial, trivial, trivial⟩
  have hsettled := hattempted.move .read (.exclusive rfl ⟨.ok (), _, rfl, rfl, rfl⟩)
    ⟨trivial, trivial⟩
  have hannounced := hsettled.move .read (.shared rfl ⟨rfl, rfl⟩) trivial
  have hagain := hannounced.move .read (.shared rfl ⟨rfl, rfl⟩) trivial
  have hnotified := hagain.move .read (.shared rfl ⟨.ok [wakeUp], _, rfl, rfl, rfl⟩) <| by
    refine ⟨fun direction hsource => ?_, trivial⟩
    cases direction with
    | write => exact absurd hsource (by decide)
    | read =>
        refine ⟨fun event hevent => .inr ⟨by decide, _, rfl, ?_⟩, fun key hkey _ _ => ?_⟩
        · rw [List.mem_singleton.mp hevent]
        · cases hkey
          exact ⟨wakeUp, List.mem_singleton_self _, rfl⟩
  exact ⟨_, hnotified, ⟨_, List.mem_cons_of_mem _ List.mem_cons_self, .ok 1, _, rfl, rfl, rfl⟩,
    ⟨_, rfl, rfl⟩, hnotified.roused⟩

end Snapshot

end Reactor

end Proactor
