import Proactor.Proofs.Arming
import Proactor.Proofs.Batching
import Proactor.Proofs.DataTransfers

/-!
# Sides that match

Two sides match on some descriptors if nothing but the slots of other descriptors tells them apart.
What a side is asked to do for one of these descriptors comes to the same on both, and they match
on the same descriptors afterwards. `Moves.same` says this of everything that a loop does.
-/

namespace Proactor

open EventLoop

variable {σ : Type}

/-! ## Slots -/

namespace Outstanding

variable {table left : Outstanding σ} {source : Source} {operation : Operation σ}
  {exchanges : List (Exchange σ)} {fd : Fd}

/-- To keep an operation leaves the slots of other descriptors alone. -/
theorem Retention.get?_other {target : Fd} {resolved : List (Resolved σ)}
    (h : table.Retention target operation source exchanges (resolved, left)) (hfd : fd ≠ target) :
    left.slots.get? fd = table.slots.get? fd := by
  cases h with
  | kept => exact get?_put_other _ _ hfd
  | lost => rfl

/-- So does checking in. -/
theorem checkIn_get?_other {target : Fd} {successor : Option (Operation σ)}
    (h : table.checkIn target = (.ok successor, left)) (hfd : fd ≠ target) :
    left.slots.get? fd = table.slots.get? fd := by
  rcases checkIn_ok h with ⟨-, rfl⟩ | ⟨-, rfl⟩
  · exact get?_erase_other _ hfd
  · rfl

/-- So does a settlement. -/
theorem Settlement.get?_other {attempt : Attempt} {result : Except Panic (List (Resolved σ))}
    (h : table.Settlement operation source attempt exchanges (result, left))
    (hfd : fd ≠ operation.fd) : left.slots.get? fd = table.slots.get? fd := by
  cases h with
  | misplaced => exact get?_erase_other _ hfd
  | finished hslot => exact checkIn_get?_other hslot hfd
  | succeeded hslot hkeep | dropped hslot hkeep | continued hslot hkeep =>
      exact (hkeep.get?_other hfd).trans (checkIn_get?_other hslot hfd)

end Outstanding

namespace Side

/-- Two sides agree on all of these descriptors, and both loops run or neither does. -/
structure Matches (fds : Fd → Prop) (side other : Side σ) : Prop where
  source : side.source = other.source
  direction : side.table.direction = other.table.direction
  dispatching : side.dispatching = other.dispatching
  slots : ∀ fd, fds fd → side.table.slots.get? fd = other.table.slots.get? fd

/-- Two sides agree on all descriptors. -/
abbrev Same (side other : Side σ) : Prop :=
  Matches (fun _ => True) side other

variable {fds : Fd → Prop} {side other left : Side σ} {operation : Operation σ}
  {exchanges : List (Exchange σ)}

/-- Every side matches itself. -/
theorem Matches.refl (side : Side σ) : Matches fds side side :=
  ⟨rfl, rfl, rfl, fun _ _ => rfl⟩

/-- Sides that match on a descriptor agree there. -/
theorem Matches.agreeOn (h : Matches fds side other) {fd : Fd} (hfd : fds fd) :
    AgreeOn fd side other :=
  ⟨h.source, h.direction, h.slots fd hfd⟩

/-- Sides match after changes on a descriptor on which they agree then. -/
theorem Matches.change {rest : Side σ} (h : Matches fds side other) {fd : Fd}
    (hagree : AgreeOn fd left rest) (hdispatching : left.dispatching = rest.dispatching)
    (hside : ∀ target, target ≠ fd →
      left.table.slots.get? target = side.table.slots.get? target)
    (hother : ∀ target, target ≠ fd →
      rest.table.slots.get? target = other.table.slots.get? target) : Matches fds left rest := by
  refine ⟨hagree.source, hagree.table.direction, hdispatching, fun target htarget => ?_⟩
  by_cases hfd : target = fd
  · rw [hfd]
    exact hagree.table.slot
  · rw [hside target hfd, hother target hfd]
    exact h.slots target htarget

/-- A submission to one of two sides comes to the same on the other one. -/
theorem Matches.submit (h : Matches fds side other) {policy : OverlapPolicy}
    {result : Except ReactorError (Option (Operation σ))} (hfd : fds operation.fd)
    (hsubmit : (side.submit operation policy).Returns exchanges (result, left)) :
    ∃ rest, (other.submit operation policy).Returns exchanges (result, rest) ∧
      Matches fds left rest ∧ ∀ fd, fd ≠ operation.fd →
        left.table.slots.get? fd = side.table.slots.get? fd ∧
          rest.table.slots.get? fd = other.table.slots.get? fd := by
  obtain ⟨outcome, hagain, hsame⟩ := ((h.agreeOn hfd).submit policy).runs hsubmit
  cases hsame with
  | @returned _ second hsame =>
      obtain ⟨answer, rest⟩ := second
      obtain ⟨rfl, hagree⟩ := hsame
      have hside := (submit_returns hsubmit).1
      have hother := (submit_returns hagain).1
      have hdispatching : left.dispatching = rest.dispatching :=
        (submit_dispatching.of_returns hsubmit).trans
          (h.dispatching.trans (submit_dispatching.of_returns hagain).symm)
      refine ⟨rest, hagain, ?_, fun fd hne => ⟨hside.get?_other hne, hother.get?_other hne⟩⟩
      exact h.change hagree hdispatching (fun _ => hside.get?_other) fun _ => hother.get?_other

/-- So does a settlement. -/
theorem Matches.settle (h : Matches fds side other) {attempt : Attempt}
    {result : Except Panic (List (Resolved σ))} (hfd : fds operation.fd)
    (hsettle : (side.settle operation attempt).Returns exchanges (result, left)) :
    ∃ rest, (other.settle operation attempt).Returns exchanges (result, rest) ∧
      Matches fds left rest := by
  obtain ⟨outcome, hagain, hsame⟩ := ((h.agreeOn hfd).settle attempt).runs hsettle
  cases hsame with
  | @returned _ second hsame =>
      obtain ⟨answer, rest⟩ := second
      obtain ⟨rfl, hagree⟩ := hsame
      have hside := (settle_returns hsettle).1
      have hother := (settle_returns hagain).1
      have hdispatching : left.dispatching = rest.dispatching :=
        (settle_dispatching.of_returns hsettle).trans
          (h.dispatching.trans (settle_dispatching.of_returns hagain).symm)
      exact ⟨rest, hagain, h.change hagree hdispatching (fun _ => hside.get?_other)
        fun _ => hother.get?_other⟩

/-- What waits on a descriptor can be checked out of a side. -/
theorem checkOut_eq_some {fd : Fd} :
    side.checkOut fd = some (operation, left) ↔
      side.table.slots.get? fd = some (.pending operation) ∧
        left = { side with table := side.table.put fd (.inFlight none) } := by
  unfold checkOut
  rw [Option.map_eq_some_iff]
  constructor
  · rintro ⟨⟨checked, table⟩, hcheck, heq⟩
    cases heq
    obtain ⟨hslot, rfl⟩ := Outstanding.checkOut_eq_some.mp hcheck
    exact ⟨hslot, rfl⟩
  · rintro ⟨hslot, rfl⟩
    exact ⟨(operation, side.table.put fd (.inFlight none)),
      Outstanding.checkOut_eq_some.mpr ⟨hslot, rfl⟩, rfl⟩

/-- Nothing is checked out of a side where no operation waits. -/
theorem checkOut_eq_none {fd : Fd} :
    side.checkOut fd = none ↔
      ∀ operation, side.table.slots.get? fd ≠ some (.pending operation) := by
  rw [Option.eq_none_iff_forall_not_mem]
  constructor
  · intro h operation hslot
    exact h (operation, _) (checkOut_eq_some.mpr ⟨hslot, rfl⟩)
  · rintro h ⟨operation, left⟩ hcheck
    exact h operation (checkOut_eq_some.mp hcheck).1

/-- Sides that match still do when the same is put into the same slot. -/
theorem Matches.put (h : Matches fds side other) (fd : Fd) (slot : Slot σ) :
    Matches fds { side with table := side.table.put fd slot }
      { other with table := other.table.put fd slot } := by
  refine h.change ⟨h.source, h.direction, ?_⟩ h.dispatching
    (fun _ => Outstanding.get?_put_other _ _) fun _ => Outstanding.get?_put_other _ _
  exact (Outstanding.get?_put_same _ _ _).trans (Outstanding.get?_put_same _ _ _).symm

/-- Sides that match on all other descriptors are the same when the operation that waits on this
one is put back. -/
theorem Matches.put_back {fd : Fd} (h : side.Matches (· ≠ fd) other)
    (hslot : other.table.slots.get? fd = some (.pending operation)) :
    Same { side with table := side.table.put fd (.pending operation) } other := by
  refine ⟨h.source, h.direction, h.dispatching, fun target _ => ?_⟩
  by_cases htarget : target = fd
  · rw [htarget, hslot]
    exact Outstanding.get?_put_same _ _ _
  · exact (Outstanding.get?_put_other _ _ htarget).trans (h.slots target htarget)

/-- To close one of two sides comes to the same as to close the other one. -/
theorem Matches.close (h : Matches fds side other) {result : Except Fault Unit}
    (hclose : side.close.Returns exchanges (result, left)) :
    ∃ rest, other.close.Returns exchanges (result, rest) ∧ Matches fds left rest := by
  obtain ⟨⟨answer, source⟩, calls, none, rfl, hsource, hpure⟩ := Program.returns_bind.mp hclose
  obtain ⟨rfl, hvalue⟩ := Program.returns_pure.mp hpure
  cases hvalue
  rw [h.source] at hsource
  refine ⟨{ other with source }, ?_, rfl, h.direction, h.dispatching, h.slots⟩
  exact Program.returns_bind.mpr ⟨_, calls, [], rfl, hsource, rfl, rfl⟩

/-- Sides that match still do when their loops reach the same stage. -/
theorem Matches.afterStage (h : Matches fds side other) (stage : Stage σ) :
    Matches fds (side.afterStage stage) (other.afterStage stage) := by
  unfold Side.afterStage
  split
  · exact ⟨h.source, h.direction, rfl, h.slots⟩
  · exact h

end Side

/-! ## Moves -/

namespace Lane

variable {setup : Setup} {side other : Side σ} {stage : Stage σ} {next : Lane σ}
  {exchanges : List (Exchange σ)}

/-- A shared move looks at nothing but the source of its side. -/
theorem shared_congr {act : Side σ → Program σ (Stage σ)} (hmove : stage.move setup = .shared act)
    (hsource : side.source = other.source) : act side = act other := by
  cases stage with
  | settling => cases hmove
  | starting | attempting | delivering | ended =>
      cases hmove
      rfl
  | waiting | draining =>
      cases hmove
      dsimp only
      rw [hsource]
  | announcing resolved =>
      cases resolved with
      | nil | cons =>
          cases hmove
          rfl
  | handling batch =>
      cases batch with
      | nil =>
          cases hmove
          rfl
      | cons event batch =>
          rw [move_handling] at hmove
          split at hmove
          · cases hmove
            rfl
          · cases hmove

/-- What handling the readiness of a descriptor can come to, it comes to. -/
theorem Readied.moves {event : Proactor.Event} {batch : List Proactor.Event}
    (h : Readied setup side event batch exchanges next) (hevent : event.isNotification = false) :
    Moves setup ⟨side, .handling (event :: batch)⟩ exchanges next := by
  have hmove : (Stage.handling (event :: batch) : Stage σ).move setup =
      Stage.readyMove setup event batch := by
    rw [move_handling, if_neg (by rw [hevent]; exact Bool.false_ne_true)]
  cases h with
  | @checkedOut operation changed hcheck =>
      refine (moves_exclusive hmove).mpr ?_
      refine ⟨.returned (.attempting operation batch, changed), ⟨(), _, rfl, ?_⟩, rfl⟩
      rw [hcheck]
      exact ⟨rfl, rfl⟩
  | nothing hcheck =>
      refine (moves_exclusive hmove).mpr ?_
      refine ⟨.returned (.handling batch, side), ⟨(), _, rfl, ?_⟩, rfl⟩
      rw [hcheck]
      exact ⟨(), _, rfl, rfl, rfl⟩

/-- The lane after a settlement. -/
def settled (left : Side σ) (batch : List Proactor.Event) :
    Except Panic (List (Resolved σ)) → Lane σ
  | .ok resolved => ⟨left, .announcing resolved batch⟩
  | .error cause => ⟨left.afterStage (.ended (.panicked cause)), .ended (.panicked cause)⟩

/-- A loop that settles an operation does nothing else. -/
theorem moves_settling {operation : Operation σ} {attempt : Attempt}
    {batch : List Proactor.Event} :
    Moves setup ⟨side, .settling operation attempt batch⟩ exchanges next ↔
      ∃ result left, (side.settle operation attempt).Returns exchanges (result, left) ∧
        next = settled left batch result := by
  rw [moves_exclusive rfl]
  constructor
  · rintro ⟨outcome, hruns, rfl⟩
    rcases Program.runs_bind hruns with ⟨cause, -, hpanics⟩ |
      ⟨⟨result, left⟩, calls, last, rfl, hsettle, hrest⟩
    · exact absurd hpanics
        (Outstanding.settle_neverPanics.bind (fun _ => Program.neverPanics_pure _) _ _)
    · refine ⟨result, left, ?_⟩
      cases result with
      | ok | error =>
          obtain ⟨rfl, rfl⟩ := hrest
          rw [List.append_nil]
          exact ⟨hsettle, rfl⟩
  · rintro ⟨result, left, hsettle, rfl⟩
    cases result with
    | ok resolved =>
        refine ⟨.returned (.announcing resolved batch, left), ?_, rfl⟩
        exact Program.returns_bind.mpr ⟨_, _, [], (List.append_nil _).symm, hsettle, rfl, rfl⟩
    | error cause =>
        refine ⟨.returned (.ended (.panicked cause), left), ?_, rfl⟩
        exact Program.returns_bind.mpr ⟨_, _, [], (List.append_nil _).symm, hsettle, rfl, rfl⟩

/-- Loops do the same on sides that are the same. -/
theorem Moves.same (h : side.Same other) (hmoves : Moves setup ⟨side, stage⟩ exchanges next) :
    ∃ after, Moves setup ⟨other, stage⟩ exchanges after ∧ after.stage = next.stage ∧
      next.side.Same after.side := by
  cases hmove : stage.move setup with
  | shared act =>
      obtain ⟨outcome, hruns, rfl⟩ := (moves_shared hmove).mp hmoves
      rw [shared_congr hmove h.source] at hruns
      refine ⟨other.reached outcome, (moves_shared hmove).mpr ⟨outcome, hruns, rfl⟩, ?_⟩
      cases outcome with
      | returned stage => exact ⟨rfl, h.afterStage stage⟩
      | panicked cause => exact ⟨rfl, h.afterStage (.ended (.panicked cause))⟩
  | exclusive act =>
      rcases exclusive_cases hmove with ⟨event, batch, rfl, hready⟩ |
        ⟨operation, attempt, batch, rfl⟩
      · have hevent : event.isNotification = false := by
          rw [move_handling] at hmove
          split at hmove
          · cases hmove
          · rename_i hevent
            exact Bool.eq_false_iff.mpr hevent
        cases hmoves.readied rfl hevent with
        | checkedOut hcheck =>
            obtain ⟨hslot, rfl⟩ := Side.checkOut_eq_some.mp hcheck
            have hagain := Side.checkOut_eq_some.mpr
              ⟨(h.slots event.fd trivial).symm.trans hslot, rfl⟩
            exact ⟨_, (Readied.checkedOut hagain).moves hevent, rfl, h.put _ _⟩
        | nothing hcheck =>
            have hagain := Side.checkOut_eq_none.mpr fun operation hslot =>
              Side.checkOut_eq_none.mp hcheck operation ((h.slots event.fd trivial).trans hslot)
            exact ⟨_, (Readied.nothing hagain).moves hevent, rfl, h⟩
      · obtain ⟨result, left, hsettle, rfl⟩ := moves_settling.mp hmoves
        obtain ⟨rest, hagain, hsame⟩ := h.settle trivial hsettle
        refine ⟨_, moves_settling.mpr ⟨result, rest, hagain, rfl⟩, ?_⟩
        cases result with
        | ok => exact ⟨rfl, hsame⟩
        | error cause => exact ⟨rfl, hsame.afterStage (.ended (.panicked cause))⟩

end Lane

end Proactor
