import Proactor.Proofs.Arming
import Proactor.Proofs.Lane

/-!
# What is asked of the system

Each program makes requests of a few kinds only, whatever the answers are: a call
on a table tends the registration of one descriptor, an attempt moves data of
its operation, a delivery addresses its sink. `Stage.MayAsk` puts together what a
loop can ask for at each of its stages, and `Moves.mayAsk` says that it asks for
nothing else.
-/

namespace Proactor

variable {σ : Type}

open Program

/-! ## Kinds of requests -/

namespace Request

/-- The request writes a log record. -/
def Logs (request : Request σ) : Prop :=
  ∃ record, request = .log record

/-- The request has a source await an event of a descriptor that can be open, or nothing of the
descriptor any more. Log records are written along with it. -/
inductive Tends (source : Source) (fd : Fd) (event : RawEvent) : Request σ → Prop where
  | set {change : Fd → RawEvent → Control} (hchange : Control.Sets change)
      (hopen : fd.isNegative = false) :
      Tends source fd event (.control source.descriptor (change fd event))
  | delete : Tends source fd event (.control source.descriptor (.delete fd))
  | log (record : Log) : Tends source fd event (.log record)

/-- The request is one of those that a delivery makes. -/
inductive Delivers : Request σ → Prop where
  | offer (target : σ) (completion : Completion) : Delivers (.offer target completion)
  | offerWithin (target : σ) (completion : Completion) (patience : Duration) :
      Delivers (.offerWithin target completion patience)
  | stopping : Delivers .stopping
  | now : Delivers .now
  | pause (duration : Duration) : Delivers (.pause duration)
  | log (record : Log) : Delivers (.log record)

end Request

/-- Telling the log something asks for requests of a kind if log records are of that kind. -/
theorem Program.asks_log {kind : Request σ → Prop} {record : Log} (h : kind (.log record)) :
    (Program.log record : Program σ Unit).Asks kind :=
  asks_ask.mpr h

/-! ## Sources -/

namespace Source

variable {source : Source} {fd : Fd} {key : UInt64} {interest : Interest} {event : RawEvent}

/-- A change that registers asks for nothing but the registration of its descriptor. -/
theorem control_tends {change : Fd → RawEvent → Control} (hchange : Control.Sets change) :
    (source.control change fd key interest : Program σ _).Asks
      (Request.Tends source fd ⟨key, interest.mask⟩) := by
  unfold control live
  split
  · exact asks_pure _
  · rename_i hopen
    split
    · exact asks_panic _
    · split
      · exact asks_pure _
      · rename_i heq
        split at heq <;> cases heq
        exact asks_ask_bind.mpr
          ⟨.set hchange (Bool.eq_false_iff.mpr hopen), fun _ => asks_pure _⟩

/-- A change with a fallback asks for nothing but the registration of its descriptor. -/
theorem changeOr_tends {first second : Fd → RawEvent → Control} {fallback : Errno}
    (hfirst : Control.Sets first) (hsecond : Control.Sets second) :
    (source.changeOr first second fallback fd key interest : Program σ _).Asks
      (Request.Tends source fd ⟨key, interest.mask⟩) := by
  refine (control_tends hfirst).bind fun answer => ?_
  cases answer with
  | ok value => exact asks_pure _
  | error fault =>
      dsimp only
      split
      · exact control_tends hsecond
      · exact asks_pure _

/-- A deletion asks for nothing of the descriptor any more. -/
theorem delete_tends : (source.delete fd : Program σ _).Asks (Request.Tends source fd event) := by
  unfold delete live
  split
  · exact asks_pure _
  · rename_i heq
    split at heq <;> cases heq
    refine asks_ask_bind.mpr ⟨.delete, fun answer => ?_⟩
    cases answer with
    | ok value => exact asks_pure _
    | error errno =>
        dsimp only
        split <;> exact asks_pure _

/-- Closing a source asks for nothing but the closing of its own descriptor. -/
theorem close_asks : (source.close : Program σ _).Asks fun request =>
    request = .close source.descriptor := by
  unfold close
  split
  · exact asks_pure _
  · exact asks_ask_bind.mpr ⟨rfl, fun _ => asks_pure _⟩

/-- Making room for events asks for nothing. -/
theorem reserve_asks {batch : Nat} {kind : Request σ → Prop} :
    (reserve batch : Program σ _).Asks kind := by
  unfold reserve
  split
  · exact asks_pure _
  · exact asks_panic _

/-- A step of draining reads from the wake pipe only. -/
theorem drainStep_asks : (source.drainStep : Program σ _).Asks fun request =>
    ∃ count, request = .read source.wakePipe.readEnd count := by
  refine asks_ask_bind.mpr ⟨⟨_, rfl⟩, fun answer => ?_⟩
  cases answer <;> exact asks_pure _

/-- A wait asks its own source for events, and for no more than there is room for. -/
theorem wait_asks {batch : Nat} {timeout : Option Duration} :
    (source.wait batch timeout : Program σ _).Asks fun request =>
      ∃ millis, request = .wait source.descriptor (min batch waitLimit) millis := by
  unfold wait live
  split
  · exact asks_pure _
  · rename_i heq
    split at heq <;> cases heq
    refine asks_ask_bind.mpr ⟨⟨_, rfl⟩, fun answer => ?_⟩
    cases answer with
    | error errno => exact asks_pure _
    | ok events =>
        dsimp only
        split
        · exact asks_pure _
        · exact asks_panic _

end Source

/-! ## Tables -/

namespace Outstanding

variable {table : Outstanding σ} {source : Source} {operation : Operation σ} {fd : Fd}

/-- Arming a descriptor asks for nothing but its registration for what the table waits for. -/
theorem armFor_tends : (table.armFor fd source : Program σ _).Asks
    (Request.Tends source fd (table.event fd)) := by
  refine (Source.changeOr_tends Control.sets_add Control.sets_modify).bind fun armed => ?_
  cases armed <;> exact asks_pure _

/-- A submission tends the descriptor of its operation. -/
theorem submit_tends {policy : OverlapPolicy} :
    (table.submit operation policy source).Asks
      (Request.Tends source operation.fd (table.event operation.fd)) := by
  unfold submit
  split
  · refine armFor_tends.bind fun armed => ?_
    cases armed <;> exact asks_pure _
  · refine (Source.control_tends Control.sets_modify).bind fun modified => ?_
    cases modified with
    | ok value => cases policy <;> exact asks_pure _
    | error fault =>
        dsimp only
        split
        · refine armFor_tends.bind fun armed => ?_
          cases armed with
          | error error => exact asks_pure _
          | ok value => exact asks_ask_bind.mpr ⟨.log _, fun _ => asks_pure _⟩
        · exact asks_pure _
  · cases policy <;> exact asks_pure _

/-- Keeping an operation asks for nothing but the registration of its descriptor. -/
theorem retain_tends : (table.retain fd operation source).Asks
    (Request.Tends source fd (table.event fd)) := by
  refine (Source.changeOr_tends Control.sets_modify Control.sets_add).bind fun rearmed => ?_
  cases rearmed with
  | ok value => exact asks_pure _
  | error fault => exact Source.delete_tends.bind fun _ => asks_pure _

/-- Disarming a descriptor asks for nothing of it any more. -/
theorem disarm_tends {event : RawEvent} : (table.disarm fd source : Program σ _).Asks
    (Request.Tends source fd event) := by
  refine Source.delete_tends.bind fun deletion => ?_
  cases deletion with
  | ok value => exact asks_pure _
  | error fault =>
      dsimp only
      split
      · exact asks_pure _
      · exact asks_log (.log _)

/-- A settlement tends the descriptor of its operation. -/
theorem settle_tends {attempt : Attempt} :
    (table.settle operation attempt source).Asks
      (Request.Tends source operation.fd (table.event operation.fd)) := by
  unfold settle
  dsimp only
  split
  · exact asks_pure _
  · rename_i successor cleared hcheck
    have hevent : cleared.event operation.fd = table.event operation.fd := by
      rw [event, interest, checkIn_direction hcheck]
      rfl
    rw [← hevent]
    split
    · exact retain_tends.bind fun _ => asks_pure _
    · exact disarm_tends.bind fun _ => asks_pure _
    · exact retain_tends.bind fun _ => asks_ask_bind.mpr ⟨.log _, fun _ => asks_pure _⟩
    · exact retain_tends.bind fun _ => asks_pure _

end Outstanding

/-! ## Deliveries -/

namespace Delivery

variable {delivery : Delivery σ}

/-- A reception is followed by what deliveries ask for, if what follows a refusal is of that kind.
-/
theorem received_asks {whenFull : Completion → Program σ (Option (Delivery σ))}
    (h : ∀ completion, (whenFull completion).Asks Request.Delivers) (reception : Reception) :
    (delivery.received whenFull reception).Asks Request.Delivers := by
  cases reception with
  | accepted => exact asks_pure _
  | full completion => exact h completion
  | disconnected completion => exact asks_ask_bind.mpr ⟨.log _, fun _ => asks_pure _⟩
  | panicked cause => exact asks_panic _

/-- Finding out how long to wait for room asks for what deliveries ask for. -/
theorem deadline_asks {patience : Duration} :
    (Polling.deadline patience : Program σ _).Asks Request.Delivers := by
  refine asks_ask_bind.mpr ⟨.now, fun now => ?_⟩
  cases now.add? patience with
  | some instant => exact asks_pure _
  | none => exact asks_panic _

/-- A round of polling a sink asks for what deliveries ask for. -/
theorem round_asks {target : σ} {completion : Completion} {deadline : Instant} :
    (Polling.round target completion deadline).Asks Request.Delivers := by
  refine asks_ask_bind.mpr ⟨.offer _ _, fun reception => ?_⟩
  cases reception with
  | accepted | disconnected => exact asks_pure _
  | panicked => exact asks_panic _
  | full returned =>
      refine asks_ask_bind.mpr ⟨.now, fun now => ?_⟩
      split
      · exact asks_ask_bind.mpr ⟨.pause _, fun _ => asks_pure _⟩
      · exact asks_pure _

/-- A step of a delivery addresses the sink and looks at the stop flag and the clock. -/
theorem step_asks {policy : DeliveryPolicy} : (delivery.step policy).Asks Request.Delivers := by
  unfold step
  split
  · refine asks_ask_bind.mpr ⟨.offer _ _, received_asks fun completion => ?_⟩
    cases policy with
    | blockWhenFull => exact asks_pure _
    | dropWhenFull => exact asks_ask_bind.mpr ⟨.log _, fun _ => asks_pure _⟩
  · refine asks_ask_bind.mpr ⟨.stopping, fun stopping => ?_⟩
    cases stopping with
    | false => exact asks_pure _
    | true => exact asks_ask_bind.mpr ⟨.log _, fun _ => asks_pure _⟩
  · split
    · exact asks_ask_bind.mpr ⟨.offerWithin _ _ _, received_asks fun _ => asks_pure _⟩
    · exact deadline_asks.bind fun _ => asks_pure _
  · refine round_asks.bind fun answer => ?_
    cases answer with
    | inr completion => exact asks_pure _
    | inl reception => exact received_asks (fun _ => asks_pure _) reception

end Delivery

/-! ## Attempts -/

namespace Transfer

variable {operation : Operation σ}

/-- Writing bytes moves data on the descriptor of the operation only. -/
theorem writeBytes_asks {bytes : Bytes} :
    (writeBytes operation bytes).Asks fun request =>
      request.transferOn? = some operation.fd := by
  unfold writeBytes
  split
  · exact asks_ask_bind.mpr ⟨rfl, fun _ => asks_pure _⟩
  · refine asks_ask_bind.mpr ⟨rfl, fun answer => ?_⟩
    cases answer with
    | ok count => exact asks_pure _
    | error errno =>
        dsimp only
        split
        · exact asks_ask_bind.mpr ⟨rfl, fun _ => asks_pure _⟩
        · exact asks_pure _

/-- An attempt moves data of the descriptor of its operation only. -/
theorem attempt_asks {direction : Direction} :
    (Transfer.attempt direction operation).Asks fun request =>
      request.transferOn? = some operation.fd := by
  cases direction with
  | read =>
      refine asks_ask_bind.mpr ⟨rfl, fun answer => ?_⟩
      cases answer <;> exact asks_pure _
  | write =>
      show (write operation).Asks _
      unfold write
      split
      · refine writeBytes_asks.bind fun answer => ?_
        obtain ⟨pushed, result⟩ := answer
        cases result with
        | ok count =>
            dsimp only
            split <;> exact asks_pure _
        | error errno => exact asks_pure _
      · exact asks_panic _

end Transfer

/-! ## Moves -/

/-- What a loop can ask for at a stage. -/
def EventLoop.Stage.MayAsk (setup : EventLoop.Setup) (side : Side σ) (stage : EventLoop.Stage σ)
    (request : Request σ) : Prop :=
  match stage with
  | waiting =>
      (∃ millis, request =
        .wait side.source.descriptor (min setup.batch Source.waitLimit) millis) ∨ request.Logs
  | handling _ => request = .stopping ∨ request.Logs
  | draining _ => ∃ count, request = .read side.source.wakePipe.readEnd count
  | attempting operation _ => request.transferOn? = some operation.fd ∨ request.Logs
  | settling operation _ _ =>
      request.Tends side.source operation.fd (side.table.event operation.fd)
  | announcing _ _ => request.Logs
  | delivering _ _ _ => request.Delivers
  | starting | ended _ => False

namespace Lane

open EventLoop.Stage

/-- A loop that waits asks for events of its own source, and tells the log what went wrong. -/
theorem waitMove_asks {setup : EventLoop.Setup} {act : Side σ → Program σ (EventLoop.Stage σ)}
    (hmove : waitMove setup = .shared act) (side : Side σ) :
    (act side).Asks (MayAsk setup side waiting) := by
  cases hmove
  refine (Source.wait_asks.mono fun _ hwait => .inl hwait).bind fun result => ?_
  cases result with
  | ok batch => exact asks_pure _
  | error fault =>
      dsimp only
      split
      · exact asks_pure _
      · exact asks_ask_bind.mpr ⟨.inr ⟨_, rfl⟩, fun _ => asks_pure _⟩

/-- A loop that is woken looks at the stop flag, and tells the log. -/
theorem wakeMove_asks {setup : EventLoop.Setup} {batch rest : List Proactor.Event}
    {act : Side σ → Program σ (EventLoop.Stage σ)}
    (hmove : wakeMove setup batch = .shared act) (side : Side σ) :
    (act side).Asks (MayAsk setup side (handling rest)) := by
  cases hmove
  refine asks_ask_bind.mpr ⟨.inl rfl, fun stopping => ?_⟩
  cases stopping with
  | true => exact asks_ask_bind.mpr ⟨.inr ⟨_, rfl⟩, fun _ => asks_pure _⟩
  | false => exact asks_pure _

/-- A move that leaves the side alone asks for what can be asked for at its stage. -/
theorem shared_asks {setup : EventLoop.Setup} {stage : EventLoop.Stage σ}
    {act : Side σ → Program σ (EventLoop.Stage σ)} (hmove : stage.move setup = .shared act)
    (side : Side σ) : (act side).Asks (stage.MayAsk setup side) := by
  cases stage with
  | settling => cases hmove
  | starting =>
      cases hmove
      exact Source.reserve_asks.bind fun _ => asks_pure _
  | waiting => exact waitMove_asks hmove side
  | handling batch =>
      cases batch with
      | nil =>
          cases hmove
          exact asks_pure _
      | cons event batch =>
          rw [move_handling] at hmove
          split at hmove
          · exact wakeMove_asks hmove side
          · cases hmove
  | draining batch =>
      cases hmove
      refine Source.drainStep_asks.bind fun more => ?_
      cases more <;> exact asks_pure _
  | attempting operation batch =>
      cases hmove
      refine (Transfer.attempt_asks.mono fun _ htransfer => .inl htransfer).bind fun answer => ?_
      dsimp only
      split
      · exact asks_ask_bind.mpr ⟨.inr ⟨_, rfl⟩, fun _ => asks_pure _⟩
      · exact asks_pure _
  | announcing resolved batch =>
      cases resolved with
      | nil =>
          cases hmove
          exact asks_pure _
      | cons first resolved =>
          cases hmove
          exact asks_ask_bind.mpr ⟨⟨_, rfl⟩, fun _ => asks_pure _⟩
  | delivering delivery resolved batch =>
      cases hmove
      refine Delivery.step_asks.bind fun delivery => ?_
      cases delivery <;> exact asks_pure _
  | ended ending =>
      cases hmove
      exact asks_pure _

/-- A move that changes the side asks for what can be asked for at its stage. -/
theorem exclusive_asks {setup : EventLoop.Setup} {stage : EventLoop.Stage σ}
    {act : Side σ → Program σ (EventLoop.Stage σ × Side σ)}
    (hmove : stage.move setup = .exclusive act) (side : Side σ) :
    (act side).Asks (stage.MayAsk setup side) := by
  rcases exclusive_cases hmove with ⟨event, batch, rfl, hready⟩ | ⟨operation, attempt, batch, rfl⟩
  · cases hready
    refine asks_ask_bind.mpr ⟨.inr ⟨_, rfl⟩, fun _ => ?_⟩
    cases side.checkOut event.fd with
    | none => exact asks_ask_bind.mpr ⟨.inr ⟨_, rfl⟩, fun _ => asks_pure _⟩
    | some checked => exact asks_pure _
  · cases hmove
    refine Asks.bind ?_ fun answer => ?_
    · exact Outstanding.settle_tends.bind fun _ => asks_pure _
    · obtain ⟨result, settled⟩ := answer
      cases result <;> exact asks_pure _

/-- A move asks only for what belongs to its stage. -/
theorem Moves.mayAsk {setup : EventLoop.Setup} {lane next : Lane σ}
    {exchanges : List (Exchange σ)} (h : Moves setup lane exchanges next) :
    ∀ exchange ∈ exchanges, lane.stage.MayAsk setup lane.side exchange.request := by
  cases h with
  | exclusive hmove hact | exclusivePanic hmove hact => exact (exclusive_asks hmove _).request hact
  | shared hmove hact | sharedPanic hmove hact => exact (shared_asks hmove _).request hact

end Lane

/-! ## Requests of all runs -/

/-- The request awaits some side of a descriptor, if it has the descriptor awaited at all, so that
its mask holds input (1) or output (4). It asks for no more events than there is room for. -/
def Request.Proper (batch : Nat) : Request σ → Prop
  | .control _ change => ∃ fd, change = .delete fd ∨ ∃ interest : Interest,
      interest.isEmpty = false ∧ interest.mask &&& 5 ≠ 0 ∧
        (change = .add fd ⟨fd.key, interest.mask⟩ ∨ change = .modify fd ⟨fd.key, interest.mask⟩)
  | .wait _ capacity _ => capacity ≤ batch
  | _ => True

namespace Request

variable {request : Request σ} {batch : Nat}

/-- Telling the log something is proper. -/
theorem Logs.proper (h : request.Logs) : request.Proper batch := by
  obtain ⟨record, rfl⟩ := h
  trivial

/-- Tending a registration for what a table waits for is proper. -/
theorem Tends.proper {source : Source} {table : Outstanding σ} {fd : Fd}
    (h : request.Tends source fd (table.event fd)) : request.Proper batch := by
  cases h with
  | set hchange =>
      refine ⟨fd, .inr ⟨table.interest, table.isEmpty_interest, ?mask, ?change⟩⟩
      case mask => exact Interest.mask_ofDirection_awaits table.direction
      case change =>
        obtain rfl | rfl := hchange
        · exact .inl rfl
        · exact .inr rfl
  | delete => exact ⟨fd, .inl rfl⟩
  | log record => trivial

/-- Offering a completion to a sink is proper. -/
theorem Delivers.proper (h : request.Delivers) : request.Proper batch := by
  cases h <;> trivial

/-- Transferring bytes is proper. -/
theorem proper_of_transferOn? {fd : Fd} (h : request.transferOn? = some fd) :
    request.Proper batch := by
  cases request with
  | control | wait => cases h
  | _ => trivial

end Request

namespace Lane

/-- Whatever a loop can ask for at a stage is proper. -/
theorem proper_of_mayAsk {setup : EventLoop.Setup} {side : Side σ}
    {stage : EventLoop.Stage σ} {request : Request σ} (h : stage.MayAsk setup side request) :
    request.Proper setup.batch := by
  cases stage with
  | starting | ended => exact h.elim
  | waiting =>
      rcases h with ⟨millis, rfl⟩ | hlogs
      · exact Nat.min_le_left _ _
      · exact hlogs.proper
  | handling =>
      rcases h with rfl | hlogs
      · trivial
      · exact hlogs.proper
  | draining =>
      obtain ⟨count, rfl⟩ := h
      trivial
  | attempting =>
      rcases h with htransfer | hlogs
      · exact Request.proper_of_transferOn? htransfer
      · exact hlogs.proper
  | settling => exact Request.Tends.proper h
  | announcing => exact Request.Logs.proper h
  | delivering => exact Request.Delivers.proper h

variable {setup : EventLoop.Setup} {history : List (Event (Numbered σ))}
  {lane : Lane (Numbered σ)}

/-- All requests of a run are proper. -/
theorem Run.proper (h : Run setup history lane) :
    ∀ event ∈ history, ∀ exchange ∈ event.exchanges, exchange.request.Proper setup.batch := by
  induction h with
  | opened => exact List.forall_mem_nil _
  | submit hrun fd buffer sink policy hsubmit ih =>
      obtain ⟨⟨result, table⟩, calls, none, rfl, hcalls, hside⟩ := Program.returns_bind.mp hsubmit
      obtain ⟨rfl, hanswer⟩ := Program.returns_pure.mp hside
      refine List.forall_mem_cons.mpr ⟨fun exchange hexchange => ?_, ih⟩
      rw [Event.exchanges, List.append_nil] at hexchange
      exact (Outstanding.submit_tends.request hcalls exchange hexchange).proper
  | close hrun hclose ih =>
      obtain ⟨⟨result, source⟩, calls, none, rfl, hcalls, hside⟩ := Program.returns_bind.mp hclose
      obtain ⟨rfl, hanswer⟩ := Program.returns_pure.mp hside
      refine List.forall_mem_cons.mpr ⟨fun exchange hexchange => ?_, ih⟩
      rw [Event.exchanges, List.append_nil] at hexchange
      rw [Source.close_asks.request hcalls exchange hexchange]
      trivial
  | move hrun hmoves ih =>
      exact List.forall_mem_cons.mpr
        ⟨fun exchange hexchange => proper_of_mayAsk (hmoves.mayAsk exchange hexchange), ih⟩

end Lane

end Proactor
