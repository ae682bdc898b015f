import Proactor.Proofs.Arming
import Proactor.Proofs.Lending
import Proactor.Side

/-!
# Registrations follow the slots of a table

A registration is disarmed by its first event. An operation that waits without
one would wait for ever, and a registration without an operation would report
events for nothing. `Run.attended` says that neither happens, in terms of the
calls that have been made: a waiting operation has had its descriptor armed
since the last check-out there, and a descriptor without a slot was to be
deleted since it was last registered. Where the system fails no call without
need, the registered descriptors are then exactly those with a slot.
-/

namespace Proactor

/-! ## The calls of a new side -/

/-- What the creation of a source has asked for when it succeeds. -/
theorem Source.create_exchanges {σ : Type} {start : List (Exchange σ)} {source : Source}
    (h : Source.create.Returns start (.ok source)) :
    source.closed = false ∧
      start = [⟨.openSource, .ok source.descriptor⟩,
        ⟨.openPipe, .ok (source.wakePipe.readEnd, source.wakePipe.writeEnd)⟩,
        ⟨.control source.descriptor
          (.add source.wakePipe.readEnd ⟨notifyKey, EventMask.input⟩), .ok ()⟩] := by
  obtain ⟨opened, rest, rfl, hopened⟩ := Program.returns_ask_bind.mp h
  -- whichever call fails, the creation returns its fault and no source
  cases opened with
  | error errno => cases (Program.returns_pure.mp hopened).2
  | ok descriptor =>
      obtain ⟨piped, asked, others, rfl, hpiped, hadd⟩ := Program.returns_bind.mp hopened
      obtain ⟨ends, none, rfl, hends⟩ := Program.returns_ask_bind.mp hpiped
      cases piped with
      | error fault =>
          obtain ⟨_, _, _, hlast⟩ := Program.returns_ask_bind.mp hadd
          cases (Program.returns_pure.mp hlast).2
      | ok wakePipe =>
          obtain ⟨added, last, rfl, hadded⟩ := Program.returns_ask_bind.mp hadd
          cases added with
          | error errno =>
              obtain ⟨_, _, _, hlast⟩ := Program.returns_ask_bind.mp hadded
              cases (Program.returns_pure.mp hlast).2
          | ok value =>
              obtain ⟨rfl, hsource⟩ := Program.returns_pure.mp hadded
              cases hsource
              cases ends with
              | error errno => cases (Program.returns_pure.mp hends).2
              | ok pair =>
                  obtain ⟨rfl, hpipe⟩ := Program.returns_pure.mp hends
                  cases hpipe
                  exact ⟨rfl, rfl⟩

/-- A new source is open. Its only call registers its wake pipe. -/
theorem Source.create_returns {σ : Type} {start : List (Exchange σ)} {source : Source}
    (h : Source.create.Returns start (.ok source)) :
    source.closed = false ∧
      controlCalls start = [⟨source.descriptor,
        .add source.wakePipe.readEnd ⟨notifyKey, EventMask.input⟩, .ok ()⟩] := by
  obtain ⟨hopen, rfl⟩ := Source.create_exchanges h
  exact ⟨hopen, rfl⟩

/-- A side is created with a new source and an empty table. -/
theorem Side.create_source {σ : Type} {direction : Direction} {start : List (Exchange σ)}
    {side : Side σ} (h : (Side.create direction).Returns start (.ok side)) :
    Source.create.Returns start (.ok side.source) ∧ side.table = .empty direction := by
  obtain ⟨created, before, after, rfl, hcreated, hside⟩ := Program.returns_bind.mp h
  cases created with
  | error fault => cases (Program.returns_pure.mp hside).2
  | ok source =>
      obtain ⟨rfl, hvalue⟩ := Program.returns_pure.mp hside
      cases hvalue
      rw [List.append_nil]
      exact ⟨hcreated, rfl⟩

/-- A new side has an open source and an empty table. Its only call registers its wake pipe. -/
theorem Side.create_returns {σ : Type} {direction : Direction} {start : List (Exchange σ)}
    {side : Side σ} (h : (Side.create direction).Returns start (.ok side)) :
    side.source.closed = false ∧ side.table = .empty direction ∧
      controlCalls start = [⟨side.source.descriptor,
        .add side.source.wakePipe.readEnd ⟨notifyKey, EventMask.input⟩, .ok ()⟩] := by
  obtain ⟨hcreated, htable⟩ := Side.create_source h
  obtain ⟨hopen, hcalls⟩ := Source.create_returns hcreated
  exact ⟨hopen, htable, hcalls⟩

namespace Lending

variable {σ : Type}

/-- What a call on a table has asked of the system. -/
def Event.exchanges : Event σ → List (Exchange σ)
  | submitted _ _ exchanges _ => exchanges
  | checkedOut _ _ => []
  | settled _ _ _ exchanges _ => exchanges

/-- Whether a call has checked out the operation of a descriptor. -/
def Event.checksOut (fd : Fd) : Event σ → Bool
  | checkedOut other (some _) => other = fd
  | _ => false

/-- The calls about registrations that have been made at first and in a history. -/
def calls (start : List ControlCall) : List (Event σ) → List ControlCall
  | [] => start
  | event :: history => calls start history ++ controlCalls event.exchanges

/-- Those of the calls that have been made since the last check-out of an operation of the
descriptor. -/
def callsSince (start : List ControlCall) (fd : Fd) : List (Event σ) → List ControlCall
  | [] => start
  | event :: history =>
      if event.checksOut fd then []
      else callsSince start fd history ++ controlCalls event.exchanges

/-- The registration that operations of a descriptor and a direction wait for. Its key is the
number of the descriptor. It is one-shot (0x40000000), for input (1) and the peer's hang-up (0x2000)
when reading and for output (4) when writing. -/
def awaited : Direction → Fd → RawEvent
  | .read, fd => ⟨.ofInt fd.number.toInt, 0x40002001⟩
  | .write, fd => ⟨.ofInt fd.number.toInt, 0x40000004⟩

/-- That registration has the key of the descriptor and the mask of the direction. -/
theorem awaited_eq (direction : Direction) (fd : Fd) :
    awaited direction fd = ⟨fd.key, (Interest.ofDirection direction).mask⟩ := by
  cases direction with
  | read => rw [awaited, Fd.key_eq_ofInt, Interest.mask_ofDirection_read]
  | write => rw [awaited, Fd.key_eq_ofInt, Interest.mask_ofDirection_write]

/-- The calls of a history have done for a descriptor what its slot needs. -/
structure Tended (start : List ControlCall) (direction : Direction) (source : Source) (fd : Fd)
    (history : List (Event σ)) (lending : Lending σ) : Prop where
  waiting : ∀ operation, lending.table.slots.get? fd = some (.pending operation) →
    Armed (callsSince start fd history) source.descriptor fd (awaited direction fd)
  present : (lending.table.slots.get? fd).isSome →
    Armed (calls start history) source.descriptor fd (awaited direction fd)
  absent : lending.table.slots.get? fd = none →
    Cleared (calls start history) source.descriptor fd

namespace Tended

variable {start : List ControlCall} {direction : Direction} {source : Source} {fd : Fd}
  {history : List (Event σ)} {lending : Lending σ}

/-- Calls about other descriptors change nothing. -/
theorem elsewhere {event : Event σ} {next : Lending σ}
    (h : Tended start direction source fd history lending)
    (hslot : next.table.slots.get? fd = lending.table.slots.get? fd)
    (hcheck : event.checksOut fd = false)
    (hcalls : ∀ call ∈ controlCalls event.exchanges, ¬ call.Concerns source.descriptor fd) :
    Tended start direction source fd (event :: history) next := by
  have hdeletes : ∀ call ∈ controlCalls event.exchanges, ¬ call.Deletes source.descriptor fd :=
    fun call hcall hdeletes => hcalls call hcall hdeletes.concerns
  constructor
  case waiting =>
    intro operation hpending
    rw [hslot] at hpending
    rw [callsSince, hcheck]
    exact (h.waiting operation hpending).lasts hdeletes
  case present =>
    intro hsome
    rw [hslot] at hsome
    exact (h.present hsome).lasts hdeletes
  case absent =>
    intro hnone
    rw [hslot] at hnone
    exact (h.absent hnone).lasts fun call hcall event hregisters =>
      hcalls call hcall hregisters.concerns

/-- Nothing is asked of the system when an operation is checked out. -/
theorem checkOut {operation : Operation σ} {loans : List (Operation σ)}
    (h : Tended start direction source fd history lending)
    (hslot : lending.table.slots.get? fd = some (.pending operation)) :
    Tended start direction source fd (.checkedOut fd (some operation) :: history)
      ⟨lending.table.put fd (.inFlight none), loans⟩ := by
  constructor
  case waiting => simp
  case present =>
    intro _
    have hbefore := h.present (by simp [hslot])
    exact hbefore.lasts (List.forall_mem_nil _)
  case absent => simp

/-- A submission arms its own descriptor, or leaves its slot as it was. -/
theorem submit {operation : Operation σ} {policy : OverlapPolicy}
    {exchanges : List (Exchange σ)} {result : Except ReactorError (Option (Operation σ))}
    {table : Outstanding σ} {loans : List (Operation σ)}
    (h : Tended start direction source operation.fd history lending)
    (hevent : lending.table.event operation.fd = awaited direction operation.fd)
    (hsubmit : lending.table.Submission operation policy source exchanges (result, table)) :
    Tended start direction source operation.fd
      (.submitted operation policy exchanges result :: history) ⟨table, loans⟩ := by
  have hdeletes : ∀ call ∈ controlCalls exchanges,
      ¬ call.Deletes source.descriptor operation.fd := hsubmit.registering.not_deletes
  have hsame := hsubmit.armed_or_same
  rw [hevent] at hsame
  constructor
  case waiting =>
    intro waiting hpending
    show Armed (callsSince start operation.fd history ++ controlCalls exchanges) _ _ _
    rcases hsame with harmed | ⟨hwaiting, -⟩
    · exact harmed.after
    · exact (h.waiting waiting (hwaiting waiting hpending)).lasts hdeletes
  case present =>
    intro hsome
    rcases hsame with harmed | ⟨-, hpresent⟩
    · exact harmed.after
    · exact (h.present (hpresent hsome)).lasts hdeletes
  case absent =>
    intro hnone
    obtain ⟨hbefore, hfailing⟩ := hsubmit.failing_of_none hnone
    exact (h.absent hbefore).lasts hfailing.not_registers

/-- A settlement arms its descriptor or deletes it, as what it leaves there needs. -/
theorem settle {operation : Operation σ} {attempt : Attempt} {successor : Option (Operation σ)}
    {exchanges : List (Exchange σ)} {result : Except Panic (List (Resolved σ))}
    {table : Outstanding σ} {loans : List (Operation σ)} {kept : Option (Operation σ)}
    (htable : table.slots.get? operation.fd = kept.map .pending)
    (hrearming : Outstanding.Rearming source operation.fd (awaited direction operation.fd)
      (controlCalls exchanges) kept.isSome) :
    Tended start direction source operation.fd
      (.settled operation attempt successor exchanges result :: history) ⟨table, loans⟩ := by
  cases kept with
  | some next =>
      constructor
      case waiting => exact fun _ _ => hrearming.isArmed.after
      case present => exact fun _ => hrearming.isArmed.after
      case absent => simp [htable]
  | none =>
      constructor
      case waiting => simp [htable]
      case present => simp [htable]
      case absent => exact fun _ => hrearming.isCleared _

end Tended

/-- An operation that comes back has its descriptor armed for what waits there next, or deleted. -/
theorem Orderly.rearming {lending : Lending σ} (h : lending.Orderly)
    {before after : List (Operation σ)} {loan operation : Operation σ} {attempt : Attempt}
    {source : Source} {exchanges : List (Exchange σ)}
    {result : Except Panic (List (Resolved σ))} {table : Outstanding σ}
    (hopen : source.closed = false) (hloan : lending.onLoan = before ++ loan :: after)
    (hticket : operation.ticket = loan.ticket)
    (hsettle : (lending.table.settle operation attempt source).Returns exchanges
      (result, table)) :
    ∃ kept, table = (lending.table.erase operation.fd).keep operation.fd kept ∧
      Outstanding.Rearming source operation.fd (lending.table.event operation.fd)
        (controlCalls exchanges) kept.isSome := by
  have hfd : operation.fd = loan.fd := congrArg Ticket.fd hticket
  obtain ⟨successor, hslot⟩ := h.slot_inFlight hloan
  rw [← hfd] at hslot
  exact (Outstanding.settle_cases hsettle).rearming hopen hslot

section Runs

variable {direction : Direction} {source : Source} {history : List (Event (Numbered σ))}
  {lending : Lending (Numbered σ)}

/-- The operations of a run wait for the same registration throughout. -/
theorem Run.event_eq {sources : Source → Prop} (h : Run sources direction history lending)
    (fd : Fd) : lending.table.event fd = awaited direction fd := by
  rw [Outstanding.event, Outstanding.interest, h.direction_eq, awaited_eq]

/-- In every run the calls have done for a descriptor what its slot needs. -/
theorem Run.tended {start : List ControlCall} {fd : Fd} (hopen : source.closed = false)
    (hstart : ∀ call ∈ start, ¬ call.Concerns source.descriptor fd)
    (h : Run (· = source) direction history lending) :
    Tended start direction source fd history lending := by
  induction h with
  | opened =>
      constructor
      case waiting => simp [Outstanding.empty]
      case present => simp [Outstanding.empty]
      case absent =>
        exact fun _ => .of_quiet fun call hcall event hregisters =>
          hstart call hcall hregisters.concerns
  | submit hrun operation policy _ hsource hsubmit ih =>
      subst hsource
      have hcases := Outstanding.submit_cases hsubmit
      -- the calls are about the descriptor of the operation and no other
      by_cases hfd : fd = operation.fd
      · subst hfd
        exact ih.submit (hrun.event_eq _) hcases
      · refine ih.elsewhere ?_ rfl fun call hcall hconcerns => hfd ?_
        · exact hcases.get?_other hfd
        · exact hconcerns.fd_eq (hcases.registering.concerns call hcall)
  | checkOut hrun other hcheck ih =>
      obtain ⟨hslot, rfl⟩ := Outstanding.checkOut_eq_some.mp hcheck
      by_cases hfd : fd = other
      · subst hfd
        exact ih.checkOut hslot
      · refine ih.elsewhere (Outstanding.get?_put_other _ _ hfd) ?_ (List.forall_mem_nil _)
        exact decide_eq_false fun heq => hfd heq.symm
  | passOver _ _ _ ih =>
      exact ih.elsewhere rfl rfl (List.forall_mem_nil _)
  | settle hrun operation attempt _ hsource hloan hticket hsettle ih =>
      subst hsource
      obtain ⟨kept, rfl, hrearming⟩ := hrun.orderly.rearming hopen hloan hticket hsettle
      by_cases hfd : fd = operation.fd
      · subst hfd
        rw [hrun.event_eq] at hrearming
        exact .settle (Outstanding.get?_erase_keep_same _ _ _) hrearming
      · refine ih.elsewhere (Outstanding.get?_erase_keep_other _ _ hfd) rfl
          fun call hcall hconcerns => hfd ?_
        exact hconcerns.fd_eq (hrearming.concerns call hcall)

/-- In every run all calls go to the source of the table. -/
theorem Run.calls_source {start : List ControlCall} (hopen : source.closed = false)
    (hstart : ∀ call ∈ start, call.source = source.descriptor)
    (h : Run (· = source) direction history lending) :
    ∀ call ∈ calls start history, call.source = source.descriptor := by
  induction h with
  | opened => exact hstart
  | submit _ _ _ _ hsource hsubmit ih =>
      subst hsource
      have hcases := Outstanding.submit_cases hsubmit
      exact List.forall_mem_append.mpr ⟨ih, fun call hcall => (hcases.registering call hcall).1⟩
  | checkOut _ _ _ ih | passOver _ _ _ ih =>
      exact List.forall_mem_append.mpr ⟨ih, List.forall_mem_nil _⟩
  | settle hrun _ _ _ hsource hloan hticket hsettle ih =>
      subst hsource
      obtain ⟨kept, -, hrearming⟩ := hrun.orderly.rearming hopen hloan hticket hsettle
      exact List.forall_mem_append.mpr ⟨ih, fun call hcall => (hrearming.concerns call hcall).1⟩

/-- The registration of a descriptor follows its slot. -/
structure Attended (start : List (Exchange (Numbered σ))) (direction : Direction)
    (source : Source) (fd : Fd) (history : List (Event (Numbered σ)))
    (lending : Lending (Numbered σ)) : Prop where
  /-- A waiting operation has had its descriptor armed since the last check-out there. -/
  armed : ∀ operation, lending.table.slots.get? fd = some (.pending operation) →
    Armed (callsSince (controlCalls start) fd history) source.descriptor fd (awaited direction fd)
  /-- A descriptor without a slot was to be deleted after each of its registrations. -/
  cleared : lending.table.slots.get? fd = none →
    Cleared (calls (controlCalls start) history) source.descriptor fd
  /-- Where no call fails without need, a descriptor is registered if and only if it has a slot. -/
  registered : ∀ registered,
    AllServed source.descriptor fd false (calls (controlCalls start) history) registered →
      (registered = true ↔ (lending.table.slots.get? fd).isSome)
  /-- All calls go to the source of the table. -/
  own : ∀ call ∈ calls (controlCalls start) history, call.source = source.descriptor

/-- From the creation of a side on, registrations follow the slots of its table. Only the read end
of the wake pipe is registered without a slot. -/
theorem Run.attended {start : List (Exchange (Numbered σ))} {side : Side (Numbered σ)} {fd : Fd}
    (hcreate : (Side.create direction).Returns start (.ok side))
    (hrun : Run (· = side.source) direction history lending)
    (hfd : fd ≠ side.source.wakePipe.readEnd) :
    Attended start direction side.source fd history lending := by
  obtain ⟨hopen, -, hstart⟩ := Side.create_returns hcreate
  have helsewhere : ∀ call ∈ controlCalls start,
      ¬ call.Concerns side.source.descriptor fd := by
    rw [hstart, List.forall_mem_singleton]
    intro hconcerns
    exact hfd hconcerns.2.symm
  have htended := hrun.tended hopen helsewhere
  constructor
  case armed => exact htended.waiting
  case cleared => exact htended.absent
  case registered =>
    intro registered hserved
    cases hslot : lending.table.slots.get? fd with
    | none =>
        have hcleared := hserved.of_cleared (htended.absent hslot) Bool.noConfusion
        simp [hcleared]
    | some slot =>
        have harmed := hserved.of_armed (htended.present (by simp [hslot]))
        simp [harmed]
  case own =>
    refine hrun.calls_source hopen ?_
    rw [hstart, List.forall_mem_singleton]

/-- The registration of a descriptor was lost while its operation was checked out. Keeping the
operation registers the descriptor again. -/
theorem attended_restored :
    ∃ (start : List (Exchange (Numbered Unit))) (side : Side (Numbered Unit))
      (history : List (Event (Numbered Unit))) (lending : Lending (Numbered Unit)),
      (Side.create .write).Returns start (.ok side) ∧
        Run (· = side.source) .write history lending ∧
        (⟨7⟩ : Fd) ≠ side.source.wakePipe.readEnd ∧
        callsSince (controlCalls start) ⟨7⟩ history =
          [⟨⟨3⟩, .modify ⟨7⟩ ⟨7, 0x40000004⟩, .error .noEntry⟩,
            ⟨⟨3⟩, .add ⟨7⟩ ⟨7, 0x40000004⟩, .ok ()⟩] ∧
        Attended start .write side.source ⟨7⟩ history lending := by
  let side : Side (Numbered Unit) := ⟨⟨⟨3⟩, ⟨⟨4⟩, ⟨5⟩⟩, false⟩, .empty .write, false⟩
  let operation : Operation Unit := .submitted ⟨7⟩ [1, 2] ⟨(), false⟩
  have hcreate : (Side.create .write).Returns
      [⟨.openSource, .ok ⟨3⟩⟩, ⟨.openPipe, .ok (⟨4⟩, ⟨5⟩)⟩,
        ⟨.control ⟨3⟩ (.add ⟨4⟩ ⟨notifyKey, EventMask.input⟩), .ok ()⟩] (.ok side) :=
    ⟨.ok ⟨3⟩, _, rfl, .ok (⟨4⟩, ⟨5⟩), _, rfl, .ok (), _, rfl, rfl, rfl⟩
  have hopened : Run (· = side.source) .write []
      (⟨.empty .write, []⟩ : Lending (Numbered Unit)) := .opened
  have hstored := hopened.submit operation .overwrite side.source rfl ⟨.ok (), [], rfl, rfl, rfl⟩
  have hout := hstored.checkOut ⟨7⟩ rfl
  have hback := hout.settle (operation.numbered 0) .retry side.source rfl
    (rfl : _ = [] ++ operation.numbered 0 :: []) rfl
    ⟨.error .noEntry, _, rfl, .ok (), _, rfl, rfl, rfl⟩
  have hfd : (⟨7⟩ : Fd) ≠ side.source.wakePipe.readEnd := by decide
  have hevent : (⟨7, 0x40000004⟩ : RawEvent) = ⟨Fd.key ⟨7⟩, Interest.write.mask⟩ := by decide
  refine ⟨_, side, _, _, hcreate, hback, hfd, ?calls, hback.attended hcreate hfd⟩
  case calls =>
    rw [hevent]
    rfl

end Runs

end Lending

end Proactor
