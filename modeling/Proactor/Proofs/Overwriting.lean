import Proactor.Proofs.Records
import Proactor.Proofs.Serving

/-!
# Overwriting around a transfer attempt

An operation can be overwritten while its transfer is attempted, and it can be
overwritten once the attempt has settled. The two ways share no code: the first
parks the newer operations and keeps the last of them waiting in the end, the
second stores them one after the other. `overwriting_agrees` shows that a system
that grants what it can does not see a difference. Only the call that gives an
unfinished operation up is another one.
-/

namespace Proactor

variable {σ : Type}

/-- The slot that an overwriting submission leaves. A transfer that is under way stays so. -/
def Slot.overwritten (found : Option (Slot σ)) (operation : Operation σ) : Slot σ :=
  match found with
  | some (.inFlight _) => .inFlight (some operation)
  | _ => .pending operation

/-- An overwriting submission leaves its own operation in the slot, waiting or parked. -/
@[simp]
theorem Slot.stored?_overwritten (found : Option (Slot σ)) (operation : Operation σ) :
    (Slot.overwritten found operation).stored? = some operation := by
  unfold Slot.overwritten
  split <;> rfl

/-- Of two submissions that overwrite, only the second one shows in the slot. -/
@[simp]
theorem Slot.overwritten_twice (found : Option (Slot σ)) (first second : Operation σ) :
    Slot.overwritten (some (Slot.overwritten found first)) second =
      Slot.overwritten found second := by
  cases found with
  | none => rfl
  | some slot => cases slot <;> rfl

/-- What goes on waiting after an attempt unless something takes its place. -/
def Attempt.unfinished (attempt : Attempt) (operation : Operation σ) : Option (Operation σ) :=
  match attempt with
  | .retry => some operation
  | .finished _ => none

/-- The completion of a finished attempt. -/
def Attempt.completions (attempt : Attempt) (direction : Direction) (operation : Operation σ) :
    List (Resolved σ) :=
  match attempt with
  | .retry => []
  | .finished fault => [operation.resolve direction fault]

/-- Of two slots put in the same place the second one remains. -/
theorem Outstanding.put_put (table : Outstanding σ) (fd : Fd) (first second : Slot σ) :
    (table.put fd first).put fd second = table.put fd second := by
  simp only [Outstanding.put, FdMap.insert_insert]

/-- A slot hides what was kept before it. -/
theorem Outstanding.put_keep (table : Outstanding σ) (fd : Fd) (kept : Option (Operation σ))
    (slot : Slot σ) : ((table.erase fd).keep fd kept).put fd slot = table.put fd slot := by
  cases kept with
  | none => exact table.put_erase fd slot
  | some operation =>
      show ((table.erase fd).put fd (.pending operation)).put fd slot = _
      rw [Outstanding.put_put, Outstanding.put_erase]

/-! ## Programs of submissions -/

/-- The answer to a submission. -/
abbrev Answer (σ : Type) := Except ReactorError (Option (Operation σ))

/-- The operations that the answers to submissions hand back. -/
def handedBack (answers : List (Answer σ)) : List (Operation σ) :=
  answers.flatMap fun answer => (answer.toOption.bind id).toList

/-- The answers to submissions each of which displaces the one before it. -/
def displacing (current : Option (Operation σ)) : List (Operation σ) → List (Answer σ)
  | [] => []
  | operation :: newer => .ok current :: displacing (some operation) newer

/-- Each of these submissions hands back what was there before it. -/
theorem handedBack_displacing (current : Option (Operation σ)) (older : List (Operation σ))
    (newest : Operation σ) :
    handedBack (displacing current (older ++ [newest])) = current.toList ++ older := by
  induction older generalizing current with
  | nil => simp [displacing, handedBack, Except.toOption]
  | cons operation older ih =>
      have hrest := ih (some operation)
      simp only [handedBack, displacing, List.cons_append, List.flatMap_cons] at hrest ⊢
      rw [hrest]
      rfl

namespace Outstanding

/-- Submit operations one after the other, each of which may overwrite. -/
def submitAll (source : Source) :
    List (Operation σ) → Outstanding σ → Program σ (List (Answer σ) × Outstanding σ)
  | [], table => return ([], table)
  | operation :: newer, table => do
      let (answer, table) ← table.submit operation .overwrite source
      let (answers, table) ← submitAll source newer table
      return (answer :: answers, table)

/-- What comes of a settlement and of submissions on the same descriptor. -/
structure Overlap (σ : Type) where
  answers : List (Answer σ)
  settled : Except Panic (List (Resolved σ))
  dropped : List (Operation σ)
  table : Outstanding σ

/-- The operations that have ended without a completion. -/
def Overlap.lost (overlap : Overlap σ) : List (Operation σ) :=
  handedBack overlap.answers ++ overlap.dropped

/-- Settle an operation and note what is given up in favour of what is parked. -/
def settleNoting (table : Outstanding σ) (operation : Operation σ) (attempt : Attempt)
    (source : Source) :
    Program σ (Except Panic (List (Resolved σ)) × List (Operation σ) × Outstanding σ) := do
  let (settled, left) ← table.settle operation attempt source
  let event := Lending.Event.settled operation attempt (table.parkedOn operation.fd) [] settled
  return (settled, event.dropped, left)

/-- Overwrite an operation while its transfer is attempted. -/
def overwriteDuring (table : Outstanding σ) (operation : Operation σ) (attempt : Attempt)
    (newer : List (Operation σ)) (source : Source) : Program σ (Overlap σ) := do
  let (answers, table) ← submitAll source newer table
  let (settled, dropped, table) ← table.settleNoting operation attempt source
  return ⟨answers, settled, dropped, table⟩

/-- Overwrite an operation once the attempt of its transfer has settled. -/
def overwriteAfter (table : Outstanding σ) (operation : Operation σ) (attempt : Attempt)
    (newer : List (Operation σ)) (source : Source) : Program σ (Overlap σ) := do
  let (settled, dropped, table) ← table.settleNoting operation attempt source
  let (answers, table) ← submitAll source newer table
  return ⟨answers, settled, dropped, table⟩

end Outstanding

/-! ## What the system makes of them -/

namespace Simulation.Kernel

open Outstanding

variable {α : Type} {kernel : Kernel α} {table : Outstanding σ} {source : Source} {fd : Fd}
  {operation : Operation σ}

/-- The system once a descriptor is armed, if something waits there, or disarmed. -/
def tend (kernel : Kernel α) (source fd : Fd) (event : RawEvent) (waits : Bool) : Kernel α :=
  if waits then kernel.register source fd event else kernel.unregister source fd

/-- Tending a registration leaves a descriptor serviceable. -/
theorem Serviceable.tend (h : kernel.Serviceable source fd) (target other : Fd)
    (event : RawEvent) (waits : Bool) :
    (kernel.tend target other event waits).Serviceable source fd := by
  cases waits with
  | false => exact h.unregister target other
  | true => exact h.register target other event

/-- The system after an overwriting submission. Nothing is armed during a transfer. -/
def submittedOn (kernel : Kernel α) (source : Source) (fd : Fd) (event : RawEvent) :
    Option (Slot σ) → Kernel α
  | some (.inFlight _) => kernel
  | _ => kernel.register source.descriptor fd event

/-- An overwriting submission leaves a descriptor serviceable. -/
theorem Serviceable.submittedOn (h : kernel.Serviceable source fd) (target : Source) (other : Fd)
    (event : RawEvent) (found : Option (Slot σ)) :
    (kernel.submittedOn target other event found).Serviceable source fd := by
  unfold Kernel.submittedOn
  split
  · exact h
  · exact h.register _ _ _

/-- The first of several submissions settles what is registered. -/
theorem submittedOn_overwritten (event : RawEvent) (found : Option (Slot σ)) :
    (kernel.submittedOn source fd event found).submittedOn source fd event
        (some (Slot.overwritten found operation)) =
      kernel.submittedOn source fd event found := by
  cases found with
  | none => exact register_register _ _ _
  | some slot =>
      cases slot with
      | pending current => exact register_register _ _ _
      | inFlight successor => rfl

/-- Arming a serviceable descriptor succeeds and leaves it registered for what its operations wait
for. -/
theorem serve_armFor (h : kernel.Serviceable source fd) :
    kernel.serve (table.armFor fd source) =
      some (.ok (), kernel.register source.descriptor fd (table.event fd)) := by
  unfold armFor
  rw [serve_bind, serve_arm h table.isEmpty_interest]
  rfl

/-- A submission that may overwrite is accepted, and displaces what its slot stores. -/
theorem serve_submit (h : kernel.Serviceable source operation.fd) :
    kernel.serve (table.submit operation .overwrite source) =
      some ((.ok ((table.slots.get? operation.fd).bind Slot.stored?),
          table.put operation.fd (Slot.overwritten (table.slots.get? operation.fd) operation)),
        kernel.submittedOn source operation.fd (table.event operation.fd)
          (table.slots.get? operation.fd)) := by
  unfold submit
  cases table.slots.get? operation.fd with
  | none =>
      show kernel.serve (table.submitFresh operation source) = _
      unfold submitFresh
      rw [serve_bind, serve_armFor h]
      rfl
  | some slot =>
      cases slot with
      | inFlight successor => rfl
      | pending current =>
          show kernel.serve (table.submitOver operation current .overwrite source) = _
          unfold submitOver
          dsimp only
          rw [serve_bind, serve_modify h table.isEmpty_interest]
          -- without a registration the descriptor is armed anew
          by_cases hregistered :
              (kernel.registration? source.descriptor operation.fd).isSome = true
          · rw [if_pos hregistered]
            rfl
          · rw [if_neg hregistered]
            show kernel.serve (table.armFor operation.fd source >>= _) = _
            rw [serve_bind, serve_armFor h]
            rfl

/-- Each of several submissions displaces the one before it, and the last one stays. -/
theorem serve_submitAll (h : kernel.Serviceable source fd) (older : List (Operation σ))
    (newest : Operation σ) (hfd : ∀ operation ∈ older ++ [newest], operation.fd = fd) :
    kernel.serve (submitAll source (older ++ [newest]) table) =
      some ((displacing ((table.slots.get? fd).bind Slot.stored?) (older ++ [newest]),
          table.put fd (Slot.overwritten (table.slots.get? fd) newest)),
        kernel.submittedOn source fd (table.event fd) (table.slots.get? fd)) := by
  induction older generalizing kernel table with
  | nil =>
      obtain rfl : newest.fd = fd := hfd newest (List.mem_singleton_self newest)
      show kernel.serve (table.submit newest .overwrite source >>= _) = _
      rw [serve_bind, serve_submit h]
      rfl
  | cons operation older ih =>
      obtain rfl : operation.fd = fd := hfd operation List.mem_cons_self
      have hrest := fun other hother => hfd other (List.mem_cons_of_mem _ hother)
      show kernel.serve (table.submit operation .overwrite source >>= _) = _
      rw [serve_bind, serve_submit h, Option.bind_some]
      show Kernel.serve _ (submitAll source (older ++ [newest]) _ >>= _) = _
      rw [serve_bind, ih (h.submittedOn _ _ _ _) hrest, get?_put_same, Slot.overwritten_twice,
        put_put, Option.bind_some, Option.bind_some, Slot.stored?_overwritten]
      exact congrArg (fun last => some (_, last)) (submittedOn_overwritten _ _)

/-- An operation that is kept on a serviceable descriptor waits there again, and the descriptor is
registered. -/
theorem serve_retain (h : kernel.Serviceable source fd) :
    kernel.serve (table.retain fd operation source) =
      some (([], table.put fd (.pending operation)),
        kernel.register source.descriptor fd (table.event fd)) := by
  unfold retain
  rw [serve_bind, serve_rearm h table.isEmpty_interest]
  rfl

/-- Disarming a serviceable descriptor leaves it without a registration. -/
theorem serve_disarm (h : kernel.Serviceable source fd) :
    kernel.serve (table.disarm fd source) =
      some ((), kernel.unregister source.descriptor fd) := by
  obtain ⟨result, hresult, hserve⟩ := serve_delete (σ := σ) h
  unfold disarm
  rw [serve_bind, hserve]
  obtain rfl | rfl := hresult <;> rfl

/-- After a settlement what is parked goes on waiting, or else what is unfinished. -/
theorem serve_settle (h : kernel.Serviceable source operation.fd) (attempt : Attempt)
    {successor : Option (Operation σ)}
    (hslot : table.slots.get? operation.fd = some (.inFlight successor)) :
    kernel.serve (table.settle operation attempt source) =
      some ((.ok (attempt.completions table.direction operation),
          (table.erase operation.fd).keep operation.fd
            (successor.or (attempt.unfinished operation))),
        kernel.tend source.descriptor operation.fd (table.event operation.fd)
          (successor.or (attempt.unfinished operation)).isSome) := by
  unfold settle
  dsimp only
  rw [checkIn_inFlight hslot]
  cases attempt with
  | finished fault =>
      cases successor with
      | none =>
          show kernel.serve (disarm _ _ _ >>= _) = _
          rw [serve_bind, serve_disarm h]
          rfl
      | some next =>
          show kernel.serve (retain _ _ _ _ >>= _) = _
          rw [serve_bind, serve_retain h]
          rfl
  | retry =>
      cases successor with
      | none | some next =>
          show kernel.serve (retain _ _ _ _ >>= _) = _
          rw [serve_bind, serve_retain h]
          rfl

/-- An unfinished operation is given up if something is parked behind it. -/
theorem serve_settleNoting (h : kernel.Serviceable source operation.fd) (attempt : Attempt)
    {successor : Option (Operation σ)}
    (hslot : table.slots.get? operation.fd = some (.inFlight successor)) :
    kernel.serve (table.settleNoting operation attempt source) =
      some ((.ok (attempt.completions table.direction operation),
          if successor.isSome then (attempt.unfinished operation).toList else [],
          (table.erase operation.fd).keep operation.fd
            (successor.or (attempt.unfinished operation))),
        kernel.tend source.descriptor operation.fd (table.event operation.fd)
          (successor.or (attempt.unfinished operation)).isSome) := by
  have hparked : table.parkedOn operation.fd = successor := by
    simp [parkedOn, hslot, Slot.parked?]
  unfold settleNoting
  rw [serve_bind, serve_settle h attempt hslot, hparked]
  cases attempt <;> cases successor <;> rfl

/-! ## The two ways -/

section Ways

variable (h : kernel.Serviceable source operation.fd)
  (hslot : table.slots.get? operation.fd = some (.inFlight none)) (attempt : Attempt)
  (older : List (Operation σ)) (newest : Operation σ)
  (hfd : ∀ newer ∈ older ++ [newest], newer.fd = operation.fd)

include h hslot hfd

/-- During the attempt the newer operations are parked, and the last one waits in the end. -/
theorem serve_overwriteDuring :
    kernel.serve (table.overwriteDuring operation attempt (older ++ [newest]) source) =
      some (⟨displacing none (older ++ [newest]),
          .ok (attempt.completions table.direction operation),
          (attempt.unfinished operation).toList, table.put operation.fd (.pending newest)⟩,
        kernel.register source.descriptor operation.fd (table.event operation.fd)) := by
  let parking : Outstanding σ := table.put operation.fd (.inFlight (some newest))
  have hparking : parking.slots.get? operation.fd = some (.inFlight (some newest)) :=
    get?_put_same _ _ _
  have hleft : (parking.erase operation.fd).keep operation.fd (some newest) =
      table.put operation.fd (.pending newest) := by
    show (parking.erase operation.fd).put operation.fd (.pending newest) = _
    rw [put_erase, put_put]
  unfold overwriteDuring
  rw [serve_bind, serve_submitAll h older newest hfd, hslot, Option.bind_some]
  show kernel.serve (parking.settleNoting operation attempt source >>= _) = _
  rw [serve_bind, serve_settleNoting h attempt hparking, Option.some_or, hleft]
  rfl

/-- After the attempt the first of the newer operations displaces what is unfinished. -/
theorem serve_overwriteAfter :
    kernel.serve (table.overwriteAfter operation attempt (older ++ [newest]) source) =
      some (⟨displacing (attempt.unfinished operation) (older ++ [newest]),
          .ok (attempt.completions table.direction operation), [],
          table.put operation.fd (.pending newest)⟩,
        kernel.register source.descriptor operation.fd (table.event operation.fd)) := by
  unfold overwriteAfter
  rw [serve_bind, serve_settleNoting h attempt hslot, Option.none_or, Option.bind_some]
  dsimp only
  rw [serve_bind, serve_submitAll (h.tend _ _ _ _) older newest hfd, get?_erase_keep_same,
    put_keep, Option.bind_some]
  cases attempt with
  | finished fault =>
      show some (_, (kernel.unregister _ _).register _ _ _) = _
      rw [register_unregister]
      rfl
  | retry =>
      show some (_, (kernel.register _ _ _).register _ _ _) = _
      rw [register_register]
      rfl

end Ways

end Simulation.Kernel

/-! ## Agreement -/

namespace Outstanding

/-- Overwriting an operation during its attempt has come to the same as overwriting it afterwards.
An unfinished operation is dropped during the attempt and displaced by the first of the newer ones
afterwards. -/
structure Overlap.Agree (table : Outstanding σ) (operation : Operation σ) (attempt : Attempt)
    (older : List (Operation σ)) (newest : Operation σ) (during after : Overlap σ) : Prop where
  same_table : during.table = after.table
  newest_waits : after.table.slots.get? operation.fd = some (.pending newest)
  others_kept : ∀ other, other ≠ operation.fd →
    after.table.slots.get? other = table.slots.get? other
  same_settled : during.settled = after.settled
  completed : after.settled = .ok (attempt.completions table.direction operation)
  answers_during : during.answers = displacing none (older ++ [newest])
  answers_after : after.answers = displacing (attempt.unfinished operation) (older ++ [newest])
  dropped_during : during.dropped = (attempt.unfinished operation).toList
  dropped_after : after.dropped = []
  same_lost : during.lost.Perm after.lost
  lost_after : after.lost = (attempt.unfinished operation).toList ++ older

end Outstanding

namespace Simulation.Kernel

open Outstanding

variable {α : Type} {kernel : Kernel α} {table : Outstanding σ} {source : Source}
  {operation : Operation σ}

/-- Operations that overwrite another one during its attempt come to what they come to after it.
The system serves both ways, and afterwards the same registrations stand. -/
theorem overwriting_agrees (h : kernel.Serviceable source operation.fd)
    (hslot : table.slots.get? operation.fd = some (.inFlight none)) (attempt : Attempt)
    (older : List (Operation σ)) (newest : Operation σ)
    (hfd : ∀ newer ∈ older ++ [newest], newer.fd = operation.fd) :
    ∃ during after last,
      kernel.serve (table.overwriteDuring operation attempt (older ++ [newest]) source) =
          some (during, last) ∧
        kernel.serve (table.overwriteAfter operation attempt (older ++ [newest]) source) =
          some (after, last) ∧
        last = kernel.register source.descriptor operation.fd (table.event operation.fd) ∧
        Overlap.Agree table operation attempt older newest during after := by
  refine ⟨_, _, _, serve_overwriteDuring h hslot attempt older newest hfd,
    serve_overwriteAfter h hslot attempt older newest hfd, rfl, ?_⟩
  constructor
  case newest_waits => exact get?_put_same _ _ _
  case others_kept => exact fun other hother => get?_put_other _ _ hother
  case same_lost =>
    unfold Overlap.lost
    rw [handedBack_displacing, handedBack_displacing, List.append_nil]
    exact List.perm_append_comm
  case lost_after =>
    unfold Overlap.lost
    rw [handedBack_displacing, List.append_nil]
  all_goals rfl

/-- Two operations race with a transfer that is to be repeated, on a descriptor whose registration
has vanished. -/
theorem overwriting_agrees_vanished :
    ∃ (kernel : Kernel Unit) (source : Source) (table : Outstanding Unit)
      (operation first second : Operation Unit) (during after : Overlap Unit)
      (last : Kernel Unit),
      kernel.registration? source.descriptor operation.fd = none ∧
        table.slots.get? operation.fd = some (.inFlight none) ∧
        kernel.serve (table.overwriteDuring operation .retry [first, second] source) =
          some (during, last) ∧
        kernel.serve (table.overwriteAfter operation .retry [first, second] source) =
          some (after, last) ∧
        during.answers = [.ok none, .ok (some first)] ∧
        after.answers = [.ok (some operation), .ok (some first)] ∧
        Overlap.Agree table operation .retry [first] second during after := by
  let source : Source := ⟨⟨3⟩, ⟨⟨4⟩, ⟨5⟩⟩, false⟩
  let operation : Operation Unit := .submitted ⟨7⟩ [1, 2] ⟨(), false⟩
  let first : Operation Unit := .submitted ⟨7⟩ [3] ⟨(), false⟩
  let second : Operation Unit := .submitted ⟨7⟩ [] ⟨(), true⟩
  let table : Outstanding Unit := (Outstanding.empty .write).put ⟨7⟩ (.inFlight none)
  have hserviceable : Kernel.Serviceable (Kernel.initial : Kernel Unit) source operation.fd :=
    ⟨rfl, rfl, by decide, by decide⟩
  have hfd : ∀ newer ∈ [first] ++ [second], newer.fd = operation.fd := by
    intro newer hnewer
    simp only [List.cons_append, List.nil_append, List.mem_cons, List.not_mem_nil, or_false]
      at hnewer
    obtain rfl | rfl := hnewer <;> rfl
  have hslot : table.slots.get? operation.fd = some (.inFlight none) := rfl
  obtain ⟨during, after, last, hduring, hafter, -, hagree⟩ :=
    overwriting_agrees hserviceable hslot .retry [first] second hfd
  exact ⟨_, source, table, operation, first, second, during, after, last, rfl, hslot, hduring,
    hafter, hagree.answers_during, hagree.answers_after, hagree⟩

end Simulation.Kernel

end Proactor
