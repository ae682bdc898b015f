import Proactor.Proofs.Alike
import Proactor.Proofs.Records
import Proactor.Reactor

/-!
# Descriptors and directions do not interfere

The two sides of a reactor serve many descriptors at once. `Bench.run` lets
submissions, check-outs, attempts and settlements follow one another in any
order on both sides, and `Bench.run_separate` says that those of one descriptor
and one direction come to the same when all the others are left out. The system
may answer a call as it likes, as long as it looks only at the calls that the
same side has made before for the same descriptor.
-/

namespace Proactor

variable {σ : Type}

/-! ## Benches -/

/-- An operation that is checked out, and the outcome of its last attempt. -/
structure Loan (σ : Type) where
  operation : Operation σ
  attempt : Attempt

/-- The two sides of a reactor in use: what is checked out of their tables, and what each side
has called so far. -/
structure Bench (σ : Type) where
  reactor : Reactor σ
  loans : Direction → Fd → Option (Loan σ)
  calls : Direction → List (Exchange σ)

namespace Bench

/-- What can be done on one side. A settlement goes by the last attempt, or by another outcome
that is given. -/
inductive Act (σ : Type) where
  | submit (operation : Operation σ) (policy : OverlapPolicy)
  | checkOut (fd : Fd)
  | attempt (fd : Fd)
  | settle (fd : Fd) (outcome : Option Attempt)

/-- What an act comes to. -/
inductive Result (σ : Type) where
  | submitted (result : Except ReactorError (Option (Operation σ)))
  | checkedOut (operation : Option (Operation σ))
  | attempted (operation : Operation σ) (attempt : Attempt)
  | settled (result : Except Panic (List (Resolved σ)))
  | nothingOnLoan

/-- What is left of an act: its result, the side, and what is checked out. -/
structure Effect (σ : Type) where
  result : Result σ
  side : Side σ
  loan : Option (Loan σ)

namespace Act

/-- The descriptor that an act is about. -/
def fd : Act σ → Fd
  | submit operation _ => operation.fd
  | checkOut fd => fd
  | attempt fd => fd
  | settle fd _ => fd

/-- Carry out an act on the side of a direction, given what is checked out on its descriptor. Only
a checked-out operation is attempted or settled. -/
def program (direction : Direction) (side : Side σ) (loan : Option (Loan σ)) :
    Act σ → Program σ (Effect σ)
  | submit operation policy => do
      let (result, side) ← side.submit operation policy
      return ⟨.submitted result, side, loan⟩
  | checkOut fd =>
      match side.checkOut fd with
      | some (operation, side) =>
          return ⟨.checkedOut (some operation), side, some ⟨operation, .retry⟩⟩
      | none => return ⟨.checkedOut none, side, loan⟩
  | attempt _ =>
      match loan with
      | some loan => do
          let (operation, outcome) ← Transfer.attempt direction loan.operation
          return ⟨.attempted operation outcome, side, some ⟨operation, outcome⟩⟩
      | none => return ⟨.nothingOnLoan, side, none⟩
  | settle _ outcome =>
      match loan with
      | some loan => do
          let (result, side) ← side.settle loan.operation (outcome.getD loan.attempt)
          return ⟨.settled result, side, none⟩
      | none => return ⟨.nothingOnLoan, side, none⟩

end Act

/-- What an act has come to and what it has asked of the system. -/
structure Report (σ : Type) where
  outcome : Outcome (Result σ)
  exchanges : List (Exchange σ)

/-- A direction's part of a bench with a change on one descriptor. -/
def change (bench : Bench σ) (direction : Direction) (fd : Fd) (side : Side σ)
    (loan : Option (Loan σ)) (exchanges : List (Exchange σ)) : Bench σ where
  reactor := bench.reactor.withSide direction side
  loans other target :=
    if other = direction ∧ target = fd then loan else bench.loans other target
  calls other := if other = direction then bench.calls other ++ exchanges else bench.calls other

/-- What the program of an act comes to on a bench, and the exchanges in which it does. -/
def served (system : System σ) (bench : Bench σ) (direction : Direction) (act : Act σ) :
    Outcome (Effect σ) × List (Exchange σ) :=
  system.serve direction
    (act.program direction (bench.reactor.side direction) (bench.loans direction act.fd))
    (bench.calls direction)

/-- One act. An operation is lost whose attempt panics. -/
def step (system : System σ) (bench : Bench σ) (direction : Direction) (act : Act σ) :
    Report σ × Bench σ :=
  match bench.served system direction act with
  | (.returned effect, exchanges) =>
      (⟨.returned effect.result, exchanges⟩,
        bench.change direction act.fd effect.side effect.loan exchanges)
  | (.panicked cause, exchanges) =>
      (⟨.panicked cause, exchanges⟩,
        bench.change direction act.fd (bench.reactor.side direction) none exchanges)

/-- Whether an act is on a descriptor and a direction. -/
def onPair (direction : Direction) (fd : Fd) (act : Direction × Act σ) : Bool :=
  act.1 = direction ∧ act.2.fd = fd

/-- Acts on both sides, one after the other, each with its report. -/
def run (system : System σ) :
    List (Direction × Act σ) → Bench σ → List ((Direction × Act σ) × Report σ) × Bench σ
  | [], bench => ([], bench)
  | act :: acts, bench =>
      let done := bench.step system act.1 act.2
      let rest := run system acts done.2
      ((act, done.1) :: rest.1, rest.2)

end Bench

namespace Bench

open Program

/-! ## Single acts -/

/-- What is in the slot of a descriptor and what is checked out there belong to it, and what is
checked out has its slot in flight. -/
structure FiledOn (fd : Fd) (table : Outstanding σ) (loan : Option (Loan σ)) : Prop where
  stored : ∀ operation, (table.slots.get? fd).bind Slot.stored? = some operation →
    operation.fd = fd
  loaned : ∀ lent, loan = some lent → lent.operation.fd = fd ∧
    ∃ successor, table.slots.get? fd = some (.inFlight successor)

namespace Act

variable {direction : Direction} {side other : Side σ} {loan : Option (Loan σ)} {act : Act σ}
  {exchanges : List (Exchange σ)} {effect : Effect σ}

/-- Two acts come to the same on sides that agree. -/
structure SameEffect (fd : Fd) (first second : Effect σ) : Prop where
  result : first.result = second.result
  side : Side.AgreeOn fd first.side second.side
  loan : first.loan = second.loan

/-- An act looks at nothing of other descriptors. -/
theorem program_alike (hside : Side.AgreeOn act.fd side other)
    (hfiled : FiledOn act.fd side.table loan) :
    Alike (SameEffect act.fd) (act.program direction side loan)
      (act.program direction other loan) := by
  cases act with
  | submit operation policy =>
      have hagree : Side.AgreeOn operation.fd side other := hside
      refine (hagree.submit policy).bind fun first second hsame => ?_
      exact .pure ⟨congrArg Result.submitted hsame.1, hsame.2, rfl⟩
  | checkOut fd =>
      have hchecked : Option.Rel (Side.SameResult fd) (side.checkOut fd) (other.checkOut fd) :=
        Side.AgreeOn.checkOut hside
      unfold program
      dsimp only
      generalize side.checkOut fd = first at hchecked
      generalize other.checkOut fd = second at hchecked
      cases hchecked with
      | none => exact .pure ⟨rfl, hside, rfl⟩
      | @some first second hsame =>
          obtain ⟨operation, left⟩ := first
          obtain ⟨_, rest⟩ := second
          obtain ⟨rfl, hleft⟩ := hsame
          exact .pure ⟨rfl, hleft, rfl⟩
  | attempt fd =>
      cases loan with
      | none => exact .pure ⟨rfl, hside, rfl⟩
      | some loan => exact Alike.bind_same fun _ => .pure ⟨rfl, hside, rfl⟩
  | settle fd outcome =>
      cases loan with
      | none => exact .pure ⟨rfl, hside, rfl⟩
      | some loan =>
          obtain ⟨hfd, -⟩ := hfiled.loaned loan rfl
          have hagree : Side.AgreeOn loan.operation.fd side other := hfd ▸ hside
          refine (hagree.settle _).bind fun first second hsame => ?_
          rw [hfd] at hsame
          exact .pure ⟨congrArg Result.settled hsame.1, hsame.2, rfl⟩

/-- An act asks for calls of its descriptor only. -/
theorem program_concerns (hfiled : FiledOn act.fd side.table loan) :
    (act.program direction side loan).Asks (System.Concerns act.fd) := by
  cases act with
  | submit operation policy =>
      exact Side.submit_concerns.bind fun _ => asks_pure _
  | checkOut fd =>
      unfold program
      dsimp only
      split <;> exact asks_pure _
  | attempt fd =>
      cases loan with
      | none => exact asks_pure _
      | some loan =>
          obtain ⟨hfd, -⟩ := hfiled.loaned loan rfl
          refine Asks.bind (Transfer.attempt_asks.mono fun request hrequest => ?_)
            fun _ => asks_pure _
          exact .inl (hfd ▸ request.subject?_of_transferOn? hrequest)
  | settle fd outcome =>
      cases loan with
      | none => exact asks_pure _
      | some loan =>
          obtain ⟨hfd, -⟩ := hfiled.loaned loan rfl
          rw [← hfd]
          exact Side.settle_concerns.bind fun _ => asks_pure _

/-- What an act leaves behind: on other descriptors nothing has changed, and on its own one all is
still filed. -/
structure Local (fd : Fd) (side : Side σ) (effect : Effect σ) : Prop where
  elsewhere : ∀ other, other ≠ fd → Side.AgreeOn other side effect.side
  filed : FiledOn fd effect.side.table effect.loan

/-- A submission changes nothing on other descriptors and leaves its own one filed. -/
theorem local_submit {operation : Operation σ} {policy : OverlapPolicy}
    {result : Except ReactorError (Option (Operation σ))} {left : Side σ}
    (hfiled : FiledOn operation.fd side.table loan)
    (h : (side.submit operation policy).Returns exchanges (result, left)) :
    Local operation.fd side ⟨.submitted result, left, loan⟩ := by
  obtain ⟨hcases, hsource⟩ := Side.submit_returns h
  constructor
  case elsewhere =>
    intro other hother
    exact ⟨hsource.symm, hcases.agreeOn hother⟩
  case filed =>
    cases result with
    | error error =>
        rw [hcases.refusal]
        exact hfiled
    | ok displaced =>
        obtain ⟨slot, hadmission, hleft⟩ := hcases.admission
        dsimp only
        rw [hleft]
        constructor
        case stored =>
          intro stored hstored
          rw [Outstanding.get?_put_same, Option.bind_some, hadmission.takes_over.1] at hstored
          cases hstored
          rfl
        case loaned =>
          intro lent hlent
          obtain ⟨hfd, successor, hslot⟩ := hfiled.loaned lent hlent
          rw [hslot] at hadmission
          cases hadmission
          exact ⟨hfd, _, Outstanding.get?_put_same _ _ _⟩

/-- A check-out changes nothing on other descriptors and leaves its own one filed. -/
theorem local_checkOut {operation : Operation σ} {left : Side σ} {fd : Fd}
    (hfiled : FiledOn fd side.table loan) (hcheck : side.checkOut fd = some (operation, left)) :
    Local fd side ⟨.checkedOut (some operation), left, some ⟨operation, .retry⟩⟩ := by
  obtain ⟨⟨_, table⟩, htable, heq⟩ := Option.map_eq_some_iff.mp hcheck
  cases heq
  obtain ⟨hslot, rfl⟩ := Outstanding.checkOut_eq_some.mp htable
  constructor
  case elsewhere =>
    intro other hother
    exact ⟨rfl, rfl, (Outstanding.get?_put_other _ _ hother).symm⟩
  case filed =>
    refine ⟨fun stored hstored => ?_, fun lent hlent => ?_⟩
    · rw [Outstanding.get?_put_same] at hstored
      cases hstored
    · cases hlent
      refine ⟨hfiled.stored operation ?_, none, Outstanding.get?_put_same _ _ _⟩
      rw [hslot]
      rfl

/-- A settlement changes nothing on other descriptors and leaves its own one filed. -/
theorem local_settle {lent : Loan σ} {attempt : Attempt}
    {result : Except Panic (List (Resolved σ))} {left : Side σ} {fd : Fd}
    (hfiled : FiledOn fd side.table (some lent))
    (h : (side.settle lent.operation attempt).Returns exchanges (result, left)) :
    Local fd side ⟨.settled result, left, none⟩ := by
  obtain ⟨hcases, hsource⟩ := Side.settle_returns h
  obtain ⟨rfl, successor, hslot⟩ := hfiled.loaned lent rfl
  obtain ⟨resolved, kept, -, haftermath, hleft⟩ := hcases.aftermath hslot
  constructor
  case elsewhere =>
    intro other hother
    refine ⟨hsource.symm, ?_⟩
    dsimp only
    rw [hleft]
    exact ⟨(Outstanding.direction_keep (side.table.erase _) _ _).symm,
      (Outstanding.get?_erase_keep_other _ _ hother).symm⟩
  case filed =>
    refine ⟨fun operation hoperation => ?_, fun _ hnone => by cases hnone⟩
    dsimp only at hoperation
    rw [hleft, Outstanding.get?_erase_keep_same] at hoperation
    have hkept : kept = some operation := by
      cases kept with
      | none => cases hoperation
      | some waiting => exact hoperation
    refine haftermath.kept_fd (fun next hnext => hfiled.stored next ?_) hkept
    rw [hslot]
    exact hnext

/-- An act changes nothing on other descriptors. -/
theorem program_local (hfiled : FiledOn act.fd side.table loan)
    (h : (act.program direction side loan).Returns exchanges effect) :
    Local act.fd side effect := by
  cases act with
  | submit operation policy =>
      obtain ⟨⟨result, left⟩, before, after, rfl, hsubmit, hrest⟩ := returns_bind.mp h
      obtain ⟨-, rfl⟩ := returns_pure.mp hrest
      exact local_submit hfiled hsubmit
  | checkOut fd =>
      unfold program at h
      dsimp only at h
      split at h
      · rename_i operation left hcheck
        obtain ⟨-, rfl⟩ := returns_pure.mp h
        exact local_checkOut hfiled hcheck
      · obtain ⟨-, rfl⟩ := returns_pure.mp h
        exact ⟨fun _ _ => .refl _, hfiled⟩
  | attempt fd =>
      cases loan with
      | none =>
          obtain ⟨-, rfl⟩ := returns_pure.mp h
          exact ⟨fun _ _ => .refl _, hfiled⟩
      | some lent =>
          obtain ⟨⟨changed, outcome⟩, before, after, rfl, hattempt, hrest⟩ := returns_bind.mp h
          obtain ⟨-, rfl⟩ := returns_pure.mp hrest
          obtain ⟨hfd, hslot⟩ := hfiled.loaned lent rfl
          have hsame := congrArg Ticket.fd (Transfer.attempt_ticket hattempt)
          refine ⟨fun _ _ => .refl _, hfiled.stored, fun other hother => ?_⟩
          cases hother
          exact ⟨hsame.trans hfd, hslot⟩
  | settle fd outcome =>
      cases loan with
      | none =>
          obtain ⟨-, rfl⟩ := returns_pure.mp h
          exact ⟨fun _ _ => .refl _, hfiled⟩
      | some lent =>
          obtain ⟨⟨result, left⟩, before, after, rfl, hsettle, hrest⟩ := returns_bind.mp h
          obtain ⟨-, rfl⟩ := returns_pure.mp hrest
          exact local_settle hfiled hsettle

end Act

/-! ## Benches -/

/-- Everything in the slots of both sides and everything that is checked out is filed under its own
descriptor, and what is checked out has its slot in flight. -/
def Filed (bench : Bench σ) : Prop :=
  ∀ direction fd, FiledOn fd (bench.reactor.side direction).table (bench.loans direction fd)

/-- For a descriptor and a direction two benches are the same. -/
structure AgreeOn (direction : Direction) (fd : Fd) (bench other : Bench σ) : Prop where
  side : Side.AgreeOn fd (bench.reactor.side direction) (other.reactor.side direction)
  loan : bench.loans direction fd = other.loans direction fd
  calls : callsFor fd (bench.calls direction) = callsFor fd (other.calls direction)

/-- Every bench agrees with itself. -/
theorem AgreeOn.refl (direction : Direction) (fd : Fd) (bench : Bench σ) :
    AgreeOn direction fd bench bench :=
  ⟨.refl _, rfl, rfl⟩

/-- Agreement of benches goes both ways. -/
theorem AgreeOn.symm {direction : Direction} {fd : Fd} {bench other : Bench σ}
    (h : AgreeOn direction fd bench other) : AgreeOn direction fd other bench :=
  ⟨h.side.symm, h.loan.symm, h.calls.symm⟩

/-- Two benches that agree with a third one agree with each other. -/
theorem AgreeOn.trans {direction : Direction} {fd : Fd} {first second third : Bench σ}
    (h : AgreeOn direction fd first second) (hnext : AgreeOn direction fd second third) :
    AgreeOn direction fd first third :=
  ⟨h.side.trans hnext.side, h.loan.trans hnext.loan, h.calls.trans hnext.calls⟩

section Change

variable {bench : Bench σ} {direction : Direction} {fd : Fd} {side : Side σ}
  {loan : Option (Loan σ)} {exchanges : List (Exchange σ)}

/-- After a change of one side that side is the changed one. -/
@[simp]
theorem side_change_same :
    (bench.change direction fd side loan exchanges).reactor.side direction = side :=
  Reactor.side_withSide_same _ _ _

/-- After a change on a descriptor its loan is the changed one. -/
@[simp]
theorem loans_change_same :
    (bench.change direction fd side loan exchanges).loans direction fd = loan :=
  if_pos ⟨rfl, rfl⟩

/-- After a change of one side its calls go on with those of the change. -/
@[simp]
theorem calls_change_same :
    (bench.change direction fd side loan exchanges).calls direction =
      bench.calls direction ++ exchanges :=
  if_pos rfl

/-- What is called for a descriptor is not called for another one. -/
theorem callsFor_of_concerns {other : Fd}
    (hexchanges : ∀ exchange ∈ exchanges, System.Concerns fd exchange.request)
    (hother : other ≠ fd) : callsFor other exchanges = [] := by
  refine List.filter_eq_nil_iff.mpr fun exchange hmem hfor => ?_
  have hsubject := of_decide_eq_true hfor
  rcases hexchanges exchange hmem with heq | ⟨record, hlog⟩
  · exact hother (Option.some.inj (hsubject.symm.trans heq))
  · rw [hlog] at hsubject
    cases hsubject

/-- A change on one descriptor leaves the others of both directions alone. -/
theorem change_elsewhere
    (hside : ∀ target, target ≠ fd → Side.AgreeOn target (bench.reactor.side direction) side)
    (hexchanges : ∀ exchange ∈ exchanges, System.Concerns fd exchange.request)
    {other : Direction} {target : Fd} (hother : ¬ (other = direction ∧ target = fd)) :
    AgreeOn other target bench (bench.change direction fd side loan exchanges) := by
  have hloan : (bench.change direction fd side loan exchanges).loans other target =
      bench.loans other target := if_neg hother
  by_cases hsame : other = direction
  · subst hsame
    have htarget : target ≠ fd := fun heq => hother ⟨rfl, heq⟩
    refine ⟨?_, hloan.symm, ?_⟩
    · rw [side_change_same]
      exact hside target htarget
    · rw [calls_change_same, callsFor_append, callsFor_of_concerns hexchanges htarget,
        List.append_nil]
  · refine ⟨?_, hloan.symm, ?_⟩
    · have hkept : (bench.change direction fd side loan exchanges).reactor.side other =
          bench.reactor.side other := Reactor.side_withSide_other _ _ hsame
      rw [hkept]
      exact .refl _
    · exact congrArg (callsFor target) (if_neg hsame).symm

/-- Benches agree after the same change. -/
theorem AgreeOn.change {other : Bench σ} {changed : Side σ}
    (h : AgreeOn direction fd bench other) (hside : Side.AgreeOn fd side changed) :
    AgreeOn direction fd (bench.change direction fd side loan exchanges)
      (other.change direction fd changed loan exchanges) := by
  refine ⟨?_, ?_, ?_⟩
  · rw [side_change_same, side_change_same]
    exact hside
  · rw [loans_change_same, loans_change_same]
  · rw [calls_change_same, calls_change_same, callsFor_append, callsFor_append, h.calls]

/-- What is filed stays so on benches that agree. -/
theorem AgreeOn.filedOn {other : Bench σ} (h : AgreeOn direction fd bench other)
    (hfiled : FiledOn fd (bench.reactor.side direction).table (bench.loans direction fd)) :
    FiledOn fd (other.reactor.side direction).table (other.loans direction fd) := by
  rw [← h.loan]
  constructor
  case stored =>
    intro operation hoperation
    rw [← h.side.table.slot] at hoperation
    exact hfiled.stored operation hoperation
  case loaned =>
    intro lent hlent
    rw [← h.side.table.slot]
    exact hfiled.loaned lent hlent

/-- A bench stays filed when what has changed is filed. -/
theorem Filed.change (h : bench.Filed)
    (hside : ∀ target, target ≠ fd → Side.AgreeOn target (bench.reactor.side direction) side)
    (hexchanges : ∀ exchange ∈ exchanges, System.Concerns fd exchange.request)
    (hfiled : FiledOn fd side.table loan) :
    (bench.change direction fd side loan exchanges).Filed := by
  intro other target
  by_cases hother : other = direction ∧ target = fd
  · obtain ⟨rfl, rfl⟩ := hother
    rw [side_change_same, loans_change_same]
    exact hfiled
  · exact (change_elsewhere hside hexchanges hother).filedOn (h other target)

end Change

section Steps

variable {system : System σ} {bench other : Bench σ}

/-- An act changes a bench on its own descriptor and direction only, and leaves it filed. -/
theorem step_local (system : System σ) (direction : Direction) (act : Act σ)
    (hfiled : bench.Filed) :
    (bench.step system direction act).2.Filed ∧
      ∀ other fd, ¬ (other = direction ∧ fd = act.fd) →
        AgreeOn other fd bench (bench.step system direction act).2 := by
  have hact := hfiled direction act.fd
  have hruns : (act.program direction (bench.reactor.side direction)
      (bench.loans direction act.fd)).Runs (bench.served system direction act).2
        (bench.served system direction act).1 := System.serve_runs _ _
  have hconcerns := (Act.program_concerns hact).request hruns
  unfold step
  generalize bench.served system direction act = served at hruns hconcerns
  obtain ⟨outcome, exchanges⟩ := served
  cases outcome with
  | returned effect =>
      have hlocal := Act.program_local hact hruns
      exact ⟨hfiled.change hlocal.elsewhere hconcerns hlocal.filed,
        fun _ _ hother => change_elsewhere hlocal.elsewhere hconcerns hother⟩
  | panicked cause =>
      have hsame : ∀ target, target ≠ act.fd →
          Side.AgreeOn target (bench.reactor.side direction) (bench.reactor.side direction) :=
        fun _ _ => .refl _
      have hdropped : FiledOn act.fd (bench.reactor.side direction).table none :=
        ⟨hact.stored, fun _ hnone => by cases hnone⟩
      exact ⟨hfiled.change hsame hconcerns hdropped,
        fun _ _ hother => change_elsewhere hsame hconcerns hother⟩

/-- On benches that agree for it, an act comes to the same. -/
theorem step_agree (system : System σ) (direction : Direction) (act : Act σ)
    (hfiled : bench.Filed) (h : AgreeOn direction act.fd bench other) :
    (bench.step system direction act).1 = (other.step system direction act).1 ∧
      AgreeOn direction act.fd (bench.step system direction act).2
        (other.step system direction act).2 := by
  have hact := hfiled direction act.fd
  have hserved : (bench.served system direction act).2 = (other.served system direction act).2 ∧
      Outcome.Alike (Act.SameEffect act.fd) (bench.served system direction act).1
        (other.served system direction act).1 := by
    unfold served
    rw [← h.loan]
    exact System.serve_alike (Act.program_alike h.side hact) (Act.program_concerns hact) h.calls
  unfold step
  generalize bench.served system direction act = first at hserved
  generalize other.served system direction act = second at hserved
  obtain ⟨outcome, exchanges⟩ := first
  obtain ⟨ending, _⟩ := second
  obtain ⟨rfl, hends⟩ := hserved
  cases hends with
  | returned hsame =>
      dsimp only
      rw [hsame.result, hsame.loan]
      exact ⟨rfl, h.change hsame.side⟩
  | panicked cause => exact ⟨rfl, h.change h.side⟩

/-- The report of a first act comes before those of the acts after it. -/
@[simp]
theorem run_cons (act : Direction × Act σ) (acts : List (Direction × Act σ)) :
    run system (act :: acts) bench =
      ((act, (bench.step system act.1 act.2).1) ::
        (run system acts (bench.step system act.1 act.2).2).1,
        (run system acts (bench.step system act.1 act.2).2).2) :=
  rfl

/-- The report of a last act comes after those of the acts before it. -/
theorem run_concat (acts : List (Direction × Act σ)) (act : Direction × Act σ) :
    (run system (acts ++ [act]) bench).1 = (run system acts bench).1 ++
      [(act, ((run system acts bench).2.step system act.1 act.2).1)] := by
  induction acts generalizing bench with
  | nil => rfl
  | cons first acts ih => simp only [List.cons_append, run_cons, ih]

/-- Acts of others change nothing for a descriptor and a direction, and its own acts come to the
same without them. -/
theorem run_agree (system : System σ) (direction : Direction) (fd : Fd)
    (acts : List (Direction × Act σ)) (hfiled : bench.Filed)
    (h : AgreeOn direction fd bench other) :
    (run system acts bench).1.filter (fun entry => onPair direction fd entry.1) =
        (run system (acts.filter (onPair direction fd)) other).1 ∧
      AgreeOn direction fd (run system acts bench).2
        (run system (acts.filter (onPair direction fd)) other).2 := by
  induction acts generalizing bench other with
  | nil => exact ⟨rfl, h⟩
  | cons act acts ih =>
      obtain ⟨hnext, helsewhere⟩ := step_local system act.1 act.2 hfiled
      by_cases hpair : onPair direction fd act = true
      · obtain ⟨rfl, rfl⟩ := of_decide_eq_true hpair
        obtain ⟨hreport, hstep⟩ := step_agree system act.1 act.2 hfiled h
        obtain ⟨hreports, hlast⟩ := ih hnext hstep
        simp only [run_cons, List.filter_cons, hpair, if_true, hreport, hreports]
        exact ⟨trivial, hlast⟩
      · have hother : ¬ (direction = act.1 ∧ fd = act.2.fd) := fun ⟨hdirection, hfd⟩ =>
          hpair (decide_eq_true ⟨hdirection.symm, hfd.symm⟩)
        have hsame := (helsewhere direction fd hother).symm.trans h
        simp only [run_cons, List.filter_cons, hpair, Bool.false_eq_true, if_false]
        exact ih hnext hsame

end Steps

/-! ## Separation -/

/-- A bench on which nothing has happened. -/
def opened (reads writes : Source) (settings : Settings) : Bench σ where
  reactor := ⟨⟨reads, .empty .read, true⟩, ⟨writes, .empty .write, true⟩, .empty, settings,
    [.read, .write]⟩
  loans _ _ := none
  calls _ := []

/-- On a bench on which nothing has happened everything is filed. -/
theorem filed_opened (reads writes : Source) (settings : Settings) :
    (opened reads writes settings : Bench σ).Filed := by
  intro direction fd
  constructor
  case stored =>
    intro operation hstored
    cases direction <;> cases hstored
  case loaned =>
    intro lent hlent
    cases hlent

/-- The registration of a descriptor after another exchange of the same side. -/
def registered (fd : Fd) (registration : Option RawEvent) : Exchange σ → Option RawEvent
  | ⟨.control _ change, .ok _⟩ => if change.fd = fd then change.event? else registration
  | _ => registration

/-- An exchange for another descriptor or for none leaves a registration alone. -/
theorem registered_of_other {fd : Fd} {exchange : Exchange σ} {registration : Option RawEvent}
    (h : exchange.request.subject? ≠ some fd) :
    registered fd registration exchange = registration := by
  obtain ⟨request, answer⟩ := exchange
  cases request with
  | control source change =>
      cases answer with
      | error errno => rfl
      | ok value => exact if_neg fun heq => h (congrArg some heq)
  | _ => rfl

/-- The event that a descriptor is registered for after the calls of a side, if it is. -/
def registration (fd : Fd) (calls : List (Exchange σ)) : Option RawEvent :=
  calls.foldl (registered fd) none

/-- Only the calls for a descriptor matter to its registration. -/
theorem registration_callsFor (fd : Fd) (calls : List (Exchange σ)) :
    registration fd (callsFor fd calls) = registration fd calls := by
  unfold registration
  generalize (none : Option RawEvent) = start
  induction calls generalizing start with
  | nil => rfl
  | cons exchange calls ih =>
      by_cases hfor : exchange.request.subject? = some fd
      · simp only [callsFor, List.filter_cons, hfor, decide_true, if_true, List.foldl_cons]
        exact ih _
      · simp only [callsFor, List.filter_cons, hfor, decide_false, Bool.false_eq_true, if_false,
          List.foldl_cons, registered_of_other hfor]
        exact ih _

/-- A descriptor and a direction fare as they do without the acts on all others. -/
structure Separate (system : System σ) (start : Bench σ) (acts : List (Direction × Act σ))
    (direction : Direction) (fd : Fd) : Prop where
  /-- Each act comes to the same, with the same exchanges. -/
  reports : (run system acts start).1.filter (fun entry => onPair direction fd entry.1) =
    (run system (acts.filter (onPair direction fd)) start).1
  /-- The side makes the same calls for the descriptor. -/
  calls : callsFor fd ((run system acts start).2.calls direction) =
    callsFor fd ((run system (acts.filter (onPair direction fd)) start).2.calls direction)
  /-- The same is left in the slot of the descriptor. -/
  slot : ((run system acts start).2.reactor.side direction).table.slots.get? fd =
    ((run system (acts.filter (onPair direction fd)) start).2.reactor.side
      direction).table.slots.get? fd
  /-- The same is left checked out. -/
  loan : (run system acts start).2.loans direction fd =
    (run system (acts.filter (onPair direction fd)) start).2.loans direction fd
  /-- The descriptor is left with the same registration. -/
  registration : registration fd ((run system acts start).2.calls direction) =
    registration fd ((run system (acts.filter (onPair direction fd)) start).2.calls direction)

/-- Descriptors and directions do not interfere. -/
theorem run_separate (system : System σ) {start : Bench σ} (hfiled : start.Filed)
    (acts : List (Direction × Act σ)) (direction : Direction) (fd : Fd) :
    Separate system start acts direction fd := by
  obtain ⟨hreports, hagree⟩ := run_agree system direction fd acts hfiled (.refl direction fd start)
  constructor
  case reports => exact hreports
  case calls => exact hagree.calls
  case slot => exact hagree.side.table.slot
  case loan => exact hagree.loan
  case registration => rw [← registration_callsFor, hagree.calls, registration_callsFor]

/-- When the last act is on the descriptor and the direction, its report is also the last one
without the acts on others. -/
theorem Separate.getLast?_eq {system : System σ} {start : Bench σ} {acts : List (Direction × Act σ)}
    {act : Direction × Act σ} {direction : Direction} {fd : Fd}
    (h : Separate system start (acts ++ [act]) direction fd)
    (hpair : onPair direction fd act = true) :
    (run system (acts ++ [act]) start).1.getLast? =
      (run system ((acts ++ [act]).filter (onPair direction fd)) start).1.getLast? := by
  rw [← h.reports, run_concat, List.filter_append]
  simp [hpair]

/-- A system that grants everything, but at the second change of a registration it finds that this
has vanished. -/
def forgetful : System Unit := fun _ earlier request =>
  match request with
  | .control _ (.modify _ _) => if earlier.length = 1 then .error .noEntry else .ok ()
  | request => request.granted

/-- A read resolves in the same way whether or not, in between, a write on its descriptor is
submitted and checked out, and a read on another descriptor loses its registration and gives way to
another one. -/
theorem separate_despite_loss :
    ∃ (system : System Unit) (start : Bench Unit) (acts : List (Direction × Act Unit)),
      acts.length = 8 ∧ (acts.filter (onPair .read ⟨7⟩)).length = 4 ∧
        Separate system start acts .read ⟨7⟩ ∧
        (run system acts start).1.getLast?.map (fun entry => entry.2.outcome) =
          some (.returned (.settled (.ok [⟨⟨⟨7⟩, [0, 0], 2, none, .read⟩, ⟨(), false⟩⟩]))) := by
  let source : Source := ⟨⟨3⟩, ⟨⟨4⟩, ⟨5⟩⟩, false⟩
  let start : Bench Unit := opened source source {}
  let operation (fd : Fd) : Operation Unit := .submitted fd [1, 2] ⟨(), false⟩
  let acts : List (Direction × Act Unit) :=
    [(.read, .submit (operation ⟨7⟩) .reject), (.write, .submit (operation ⟨7⟩) .reject),
      (.read, .submit (operation ⟨8⟩) .reject), (.read, .checkOut ⟨7⟩),
      (.write, .checkOut ⟨7⟩), (.read, .attempt ⟨7⟩),
      (.read, .submit (operation ⟨8⟩) .reject)] ++ [(.read, .settle ⟨7⟩ none)]
  have hseparate : Separate forgetful start acts .read ⟨7⟩ :=
    run_separate forgetful (filed_opened source source _) acts .read ⟨7⟩
  -- The acts on the read alone, one after the other.
  let armed : Exchange Unit := ⟨.control ⟨3⟩ (.add ⟨7⟩ ⟨Fd.key ⟨7⟩, Interest.read.mask⟩), .ok ()⟩
  let arrived : Exchange Unit := ⟨.read ⟨7⟩ 2, .ok [0, 0]⟩
  let waiting : Outstanding Unit := (Outstanding.empty .read).put ⟨7⟩ (.pending (operation ⟨7⟩))
  let lent : Side Unit := ⟨source, waiting.put ⟨7⟩ (.inFlight none), true⟩
  let filled : Operation Unit := ⟨⟨7⟩, [0, 0], 2, ⟨(), false⟩, false⟩
  let submitted : Bench Unit := start.change .read ⟨7⟩ ⟨source, waiting, true⟩ none [armed]
  let checkedOut : Bench Unit :=
    submitted.change .read ⟨7⟩ lent (some ⟨operation ⟨7⟩, .retry⟩) []
  let attempted : Bench Unit :=
    checkedOut.change .read ⟨7⟩ lent (some ⟨filled, .finished none⟩) [arrived]
  have hsubmit : start.step forgetful .read (.submit (operation ⟨7⟩) .reject) =
      (⟨.returned (.submitted (.ok none)), [armed]⟩, submitted) := rfl
  have hcheckOut : submitted.step forgetful .read (.checkOut ⟨7⟩) =
      (⟨.returned (.checkedOut (some (operation ⟨7⟩))), []⟩, checkedOut) := rfl
  have hattempt : checkedOut.step forgetful .read (.attempt ⟨7⟩) =
      (⟨.returned (.attempted filled (.finished none)), [arrived]⟩, attempted) := rfl
  have hsettle : (attempted.step forgetful .read (.settle ⟨7⟩ none)).1.outcome =
      .returned (.settled (.ok [⟨⟨⟨7⟩, [0, 0], 2, none, .read⟩, ⟨(), false⟩⟩])) := rfl
  have halone : acts.filter (onPair .read ⟨7⟩) =
      [(.read, .submit (operation ⟨7⟩) .reject), (.read, .checkOut ⟨7⟩), (.read, .attempt ⟨7⟩),
        (.read, .settle ⟨7⟩ none)] := rfl
  refine ⟨forgetful, start, acts, rfl, rfl, hseparate, ?_⟩
  rw [hseparate.getLast?_eq rfl, halone]
  simp only [run_cons, hsubmit, hcheckOut, hattempt]
  exact congrArg some hsettle

end Bench

end Proactor
