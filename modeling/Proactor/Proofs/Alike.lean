import Proactor.Proofs.Requests

/-!
# Programs that cannot be told apart

Two programs are alike if they make the same requests whatever the answers are,
and end alike. A call on a table looks at one slot of it only, so on tables that
agree there it is the same call. A system that looks only at the earlier calls
for a descriptor serves alike programs for it alike.
-/

namespace Proactor

variable {σ α β γ δ : Type}

/-- Two runs end alike: they return related values, or panic for the same cause. -/
inductive Outcome.Alike (related : α → β → Prop) : Outcome α → Outcome β → Prop where
  | returned {first : α} {second : β} (h : related first second) :
      Alike related (.returned first) (.returned second)
  | panicked (cause : Panic) : Alike related (.panicked cause) (.panicked cause)

namespace Program

/-- Two programs make the same requests whatever the answers are, and end alike. -/
inductive Alike (related : α → β → Prop) : Program σ α → Program σ β → Prop where
  | done {first : α} {second : β} (h : related first second) :
      Alike related (.done first) (.done second)
  | panic (cause : Panic) : Alike related (.panic cause) (.panic cause)
  | call (request : Request σ) {first : request.Answer → Program σ α}
      {second : request.Answer → Program σ β}
      (h : ∀ answer, Alike related (first answer) (second answer)) :
      Alike related (.call request first) (.call request second)

variable {related : α → β → Prop}

/-- Programs that return related values at once are alike. -/
theorem Alike.pure {first : α} {second : β} (h : related first second) :
    Alike related (pure first : Program σ α) (pure second) :=
  .done h

/-- Every program is like itself. -/
theorem Alike.refl (program : Program σ α) : Alike Eq program program := by
  induction program with
  | done value => exact .done rfl
  | panic cause => exact .panic cause
  | call request next ih => exact .call request ih

/-- Programs stay alike when alike programs follow them. -/
theorem Alike.bind {ended : γ → δ → Prop} {first : Program σ α} {second : Program σ β}
    {next : α → Program σ γ} {after : β → Program σ δ} (h : Alike related first second)
    (hnext : ∀ value other, related value other → Alike ended (next value) (after other)) :
    Alike ended (first >>= next) (second >>= after) := by
  induction h with
  | done h => exact hnext _ _ h
  | panic cause => exact .panic cause
  | call request _ ih => exact .call request ih

/-- A program goes on alike after the same beginning. -/
theorem Alike.bind_same {ended : γ → δ → Prop} {program : Program σ α} {next : α → Program σ γ}
    {after : α → Program σ δ} (hnext : ∀ value, Alike ended (next value) (after value)) :
    Alike ended (program >>= next) (program >>= after) :=
  (Alike.refl program).bind fun value _ heq => heq ▸ hnext value

end Program

/-! ## Calls on tables -/

namespace Outstanding

open Program

variable {table other : Outstanding σ} {source : Source} {operation : Operation σ} {fd : Fd}

/-- Two tables of the same direction have the same slot of a descriptor. -/
structure AgreeOn (fd : Fd) (table other : Outstanding σ) : Prop where
  direction : table.direction = other.direction
  slot : table.slots.get? fd = other.slots.get? fd

/-- Two results are the same and come with tables that agree. -/
def SameResult (fd : Fd) (first second : α × Outstanding σ) : Prop :=
  first.1 = second.1 ∧ AgreeOn fd first.2 second.2

namespace AgreeOn

/-- Tables that agree on a descriptor still do when the same is put into its slot. -/
theorem put (h : AgreeOn fd table other) (slot : Slot σ) :
    AgreeOn fd (table.put fd slot) (other.put fd slot) where
  direction := h.direction
  slot := by rw [get?_put_same, get?_put_same]

/-- Tables that agree on a descriptor still do when its slot is emptied. -/
theorem erase (h : AgreeOn fd table other) : AgreeOn fd (table.erase fd) (other.erase fd) where
  direction := h.direction
  slot := by rw [get?_erase_same, get?_erase_same]

/-- Tables that agree wait for the same side of their descriptors. -/
theorem interest_eq (h : AgreeOn fd table other) : table.interest = other.interest :=
  congrArg Interest.ofDirection h.direction

/-- On tables that agree on a descriptor, arming it is the same program. -/
theorem armFor_eq (h : AgreeOn fd table other) :
    (table.armFor fd source : Program σ _) = other.armFor fd source := by
  unfold armFor
  rw [h.interest_eq, h.direction]

/-- On tables that agree on a descriptor, disarming it is the same program. -/
theorem disarm_eq (h : AgreeOn fd table other) :
    (table.disarm fd source : Program σ _) = other.disarm fd source := by
  unfold disarm
  rw [h.direction]

/-- Keeping an operation looks at no other slot than its own. -/
theorem retain (h : AgreeOn fd table other) (operation : Operation σ) :
    Alike (SameResult fd) (table.retain fd operation source)
      (other.retain fd operation source) := by
  unfold Outstanding.retain
  rw [h.interest_eq, h.direction]
  refine Alike.bind_same fun rearmed => ?_
  cases rearmed with
  | ok value => exact .pure ⟨rfl, h.put _⟩
  | error fault => exact Alike.bind_same fun deletion => .pure ⟨rfl, h⟩

/-- A submission looks at no other slot than that of its descriptor. -/
theorem submit (h : AgreeOn operation.fd table other) (policy : OverlapPolicy) :
    Alike (SameResult operation.fd) (table.submit operation policy source)
      (other.submit operation policy source) := by
  unfold Outstanding.submit
  rw [h.slot]
  cases other.slots.get? operation.fd with
  | none =>
      dsimp only
      unfold submitFresh
      rw [h.armFor_eq]
      refine Alike.bind_same fun armed => ?_
      cases armed with
      | error error => exact .pure ⟨rfl, h⟩
      | ok value => exact .pure ⟨rfl, h.put _⟩
  | some slot =>
      cases slot with
      | pending current =>
          dsimp only
          unfold submitOver
          dsimp only
          rw [h.interest_eq, h.direction, h.armFor_eq]
          refine Alike.bind_same fun modified => ?_
          cases modified with
          | ok value =>
              cases policy with
              | reject => exact .pure ⟨rfl, h⟩
              | overwrite => exact .pure ⟨rfl, h.put _⟩
          | error fault =>
              dsimp only
              split
              · refine Alike.bind_same fun armed => ?_
                cases armed with
                | error error => exact .pure ⟨rfl, h⟩
                | ok value => exact Alike.bind_same fun _ => .pure ⟨rfl, h.put _⟩
              · exact .pure ⟨rfl, h⟩
      | inFlight successor =>
          dsimp only
          cases policy with
          | reject => exact .pure ⟨by rw [h.direction], h⟩
          | overwrite => exact .pure ⟨rfl, h.put _⟩

/-- Checking in gives the same answer on both tables. -/
theorem checkIn (h : AgreeOn fd table other) :
    SameResult fd (table.checkIn fd) (other.checkIn fd) := by
  unfold Outstanding.checkIn
  rw [h.slot]
  cases other.slots.get? fd with
  | none => exact ⟨rfl, h⟩
  | some slot =>
      cases slot with
      | pending current => exact ⟨rfl, h.erase⟩
      | inFlight successor => exact ⟨rfl, h.erase⟩

/-- A settlement looks at no other slot than that of its descriptor. -/
theorem settle (h : AgreeOn operation.fd table other) (attempt : Attempt) :
    Alike (SameResult operation.fd) (table.settle operation attempt source)
      (other.settle operation attempt source) := by
  unfold Outstanding.settle
  dsimp only
  obtain ⟨hresult, hcleared⟩ := h.checkIn
  generalize table.checkIn operation.fd = first at hresult hcleared
  generalize other.checkIn operation.fd = second at hresult hcleared
  obtain ⟨result, cleared⟩ := first
  obtain ⟨_, rest⟩ := second
  obtain rfl : result = _ := hresult
  cases result with
  | error cause => exact .pure ⟨rfl, hcleared⟩
  | ok successor =>
      dsimp only at hcleared ⊢
      split
      · refine (hcleared.retain _).bind fun kept _ hkept => ?_
        obtain ⟨resolved, left⟩ := kept
        obtain ⟨rfl, hleft⟩ := hkept
        exact .pure ⟨by rw [hleft.direction], hleft⟩
      · rw [hcleared.disarm_eq]
        exact Alike.bind_same fun _ => .pure ⟨by rw [hcleared.direction], hcleared⟩
      · refine (hcleared.retain _).bind fun kept _ hkept => ?_
        obtain ⟨resolved, left⟩ := kept
        obtain ⟨rfl, hleft⟩ := hkept
        rw [hleft.direction]
        exact Alike.bind_same fun _ => .pure ⟨rfl, hleft⟩
      · refine (hcleared.retain _).bind fun kept _ hkept => ?_
        obtain ⟨resolved, left⟩ := kept
        obtain ⟨rfl, hleft⟩ := hkept
        exact .pure ⟨rfl, hleft⟩

/-- The same operation is checked out of both tables, if one is. -/
theorem checkOut (h : AgreeOn fd table other) :
    Option.Rel (SameResult fd) (table.checkOut fd) (other.checkOut fd) := by
  unfold Outstanding.checkOut
  rw [h.slot]
  cases other.slots.get? fd with
  | none => exact .none
  | some slot =>
      cases slot with
      | pending operation => exact .some ⟨rfl, h.put _⟩
      | inFlight successor => exact .none

end AgreeOn

end Outstanding

/-! ## Sides that agree on a descriptor -/

/-- A submission changes nothing on other descriptors. -/
theorem Outstanding.Submission.agreeOn {table left : Outstanding σ} {operation : Operation σ}
    {policy : OverlapPolicy} {source : Source} {exchanges : List (Exchange σ)}
    {result : Except ReactorError (Option (Operation σ))}
    (h : table.Submission operation policy source exchanges (result, left)) {fd : Fd}
    (hfd : fd ≠ operation.fd) : AgreeOn fd table left where
  direction := by cases h <;> rfl
  slot := (h.get?_other hfd).symm

namespace Side

open Program

variable {side other : Side σ} {fd : Fd}

/-- Two sides have the same source and agree on a descriptor. -/
structure AgreeOn (fd : Fd) (side other : Side σ) : Prop where
  source : side.source = other.source
  table : Outstanding.AgreeOn fd side.table other.table

/-- Two results are the same and come with sides that agree. -/
def SameResult (fd : Fd) (first second : α × Side σ) : Prop :=
  first.1 = second.1 ∧ AgreeOn fd first.2 second.2

/-- Every side agrees with itself. -/
theorem AgreeOn.refl (side : Side σ) : AgreeOn fd side side :=
  ⟨rfl, rfl, rfl⟩

/-- Agreement of sides goes both ways. -/
theorem AgreeOn.symm (h : AgreeOn fd side other) : AgreeOn fd other side :=
  ⟨h.source.symm, h.table.direction.symm, h.table.slot.symm⟩

/-- Two sides that agree with a third one agree with each other. -/
theorem AgreeOn.trans {third : Side σ} (h : AgreeOn fd side other)
    (hnext : AgreeOn fd other third) : AgreeOn fd side third :=
  ⟨h.source.trans hnext.source, h.table.direction.trans hnext.table.direction,
    h.table.slot.trans hnext.table.slot⟩

/-- On sides that agree on a descriptor, submissions there are alike. -/
theorem AgreeOn.submit {operation : Operation σ} (h : AgreeOn operation.fd side other)
    (policy : OverlapPolicy) :
    Alike (SameResult operation.fd) (side.submit operation policy)
      (other.submit operation policy) := by
  unfold Side.submit
  rw [h.source]
  refine (h.table.submit policy).bind fun first second hsame => ?_
  exact .pure ⟨hsame.1, rfl, hsame.2⟩

/-- On sides that agree on a descriptor, settlements there are alike. -/
theorem AgreeOn.settle {operation : Operation σ} (h : AgreeOn operation.fd side other)
    (attempt : Attempt) :
    Alike (SameResult operation.fd) (side.settle operation attempt)
      (other.settle operation attempt) := by
  unfold Side.settle
  rw [h.source]
  refine (h.table.settle attempt).bind fun first second hsame => ?_
  exact .pure ⟨hsame.1, rfl, hsame.2⟩

/-- On sides that agree on a descriptor, the same operation is checked out there, if one is. -/
theorem AgreeOn.checkOut (h : AgreeOn fd side other) :
    Option.Rel (SameResult fd) (side.checkOut fd) (other.checkOut fd) := by
  have hchecked := h.table.checkOut
  unfold Side.checkOut
  generalize side.table.checkOut fd = first at hchecked
  generalize other.table.checkOut fd = second at hchecked
  cases hchecked with
  | none => exact .none
  | some hsame => exact .some ⟨hsame.1, h.source, hsame.2⟩

/-- A submission to a side is one to its table. -/
theorem submit_returns {operation : Operation σ} {policy : OverlapPolicy}
    {exchanges : List (Exchange σ)} {result : Except ReactorError (Option (Operation σ))}
    {left : Side σ} (h : (side.submit operation policy).Returns exchanges (result, left)) :
    side.table.Submission operation policy side.source exchanges (result, left.table) ∧
      left.source = side.source := by
  obtain ⟨⟨answer, table⟩, before, after, rfl, hsubmit, hrest⟩ := returns_bind.mp h
  obtain ⟨rfl, hvalue⟩ := returns_pure.mp hrest
  cases hvalue
  rw [List.append_nil]
  exact ⟨Outstanding.submit_cases hsubmit, rfl⟩

/-- A settlement on a side is one in its table. -/
theorem settle_returns {operation : Operation σ} {attempt : Attempt}
    {exchanges : List (Exchange σ)} {result : Except Panic (List (Resolved σ))} {left : Side σ}
    (h : (side.settle operation attempt).Returns exchanges (result, left)) :
    side.table.Settlement operation side.source attempt exchanges (result, left.table) ∧
      left.source = side.source := by
  obtain ⟨⟨answer, table⟩, before, after, rfl, hsettle, hrest⟩ := returns_bind.mp h
  obtain ⟨rfl, hvalue⟩ := returns_pure.mp hrest
  cases hvalue
  rw [List.append_nil]
  exact ⟨Outstanding.settle_cases hsettle, rfl⟩

end Side

/-! ## Systems -/

/-- The descriptor that a call is made for. -/
def Request.subject? : Request σ → Option Fd
  | .control _ change => some change.fd
  | request => request.transferOn?

/-- The calls that are made for a descriptor. -/
def callsFor (fd : Fd) (calls : List (Exchange σ)) : List (Exchange σ) :=
  calls.filter fun exchange => exchange.request.subject? = some fd

/-- The calls for a descriptor are those of the first part and then those of the second. -/
@[simp]
theorem callsFor_append (fd : Fd) (first second : List (Exchange σ)) :
    callsFor fd (first ++ second) = callsFor fd first ++ callsFor fd second :=
  List.filter_append _ _

/-- The answer of a system that grants everything. -/
def Request.granted : (request : Request σ) → request.Answer
  | .openSource => .ok ⟨3⟩
  | .openPipe => .ok (⟨4⟩, ⟨5⟩)
  | .control _ _ | .setFlags _ _ | .close _ | .spawn _ _ => .ok ()
  | .wait _ _ _ => .ok []
  | .read _ count => .ok (List.replicate count 0)
  | .send _ bytes | .write _ bytes => .ok bytes.length
  | .flags _ => .ok 0
  | .join _ | .stopping => false
  | .release _ | .log _ | .raiseStop | .pause _ => ()
  | .offer _ _ | .offerWithin _ _ _ => .accepted
  | .now => ⟨0⟩

/-- A system answers a call of a direction in view of earlier ones. -/
abbrev System (σ : Type) :=
  Direction → List (Exchange σ) → (request : Request σ) → request.Answer

namespace System

/-- The answer to a request of a side that has made these calls. Only those for the same
descriptor matter. -/
def answer (system : System σ) (direction : Direction) (calls : List (Exchange σ))
    (request : Request σ) : request.Answer :=
  system direction (request.subject?.elim [] fun fd => callsFor fd calls) request

/-- What a program of a side comes to, and the exchanges in which it does. -/
def serve (system : System σ) (direction : Direction) :
    Program σ α → List (Exchange σ) → Outcome α × List (Exchange σ)
  | .done value, _ => (.returned value, [])
  | .panic cause, _ => (.panicked cause, [])
  | .call request next, calls =>
      let answer := system.answer direction calls request
      let served := system.serve direction (next answer) (calls ++ [⟨request, answer⟩])
      (served.1, ⟨request, answer⟩ :: served.2)

variable {system : System σ} {direction : Direction} {fd : Fd}

/-- What is served is a run of the program. -/
theorem serve_runs (program : Program σ α) (calls : List (Exchange σ)) :
    program.Runs (system.serve direction program calls).2
      (system.serve direction program calls).1 := by
  induction program generalizing calls with
  | done value => exact ⟨rfl, rfl⟩
  | panic cause => exact ⟨rfl, rfl⟩
  | call request next ih => exact ⟨_, _, rfl, ih _ _⟩

/-- A request that is made for a descriptor, or none that the system decides about. -/
def Concerns (fd : Fd) (request : Request σ) : Prop :=
  request.subject? = some fd ∨ request.Logs

/-- A system answers a request for a descriptor alike when the earlier calls for it are the same. -/
theorem answer_eq (system : System σ) (direction : Direction) {request : Request σ}
    {calls others : List (Exchange σ)} (hrequest : Concerns fd request)
    (hcalls : callsFor fd calls = callsFor fd others) :
    system.answer direction calls request = system.answer direction others request := by
  rcases hrequest with hsubject | ⟨record, rfl⟩
  · rw [answer, answer, hsubject]
    exact congrArg (system direction · request) hcalls
  · rfl

/-- Alike programs for a descriptor are served alike, whatever else has been called. -/
theorem serve_alike {related : α → β → Prop} {first : Program σ α} {second : Program σ β}
    (h : first.Alike related second) (hasks : first.Asks (Concerns fd))
    {calls others : List (Exchange σ)} (hcalls : callsFor fd calls = callsFor fd others) :
    (system.serve direction first calls).2 = (system.serve direction second others).2 ∧
      Outcome.Alike related (system.serve direction first calls).1
        (system.serve direction second others).1 := by
  induction h generalizing calls others with
  | done h => exact ⟨rfl, .returned h⟩
  | panic cause => exact ⟨rfl, .panicked cause⟩
  | call request _ ih =>
      have hanswer := answer_eq system direction hasks.1 hcalls
      have hnext : callsFor fd (calls ++ [⟨request, system.answer direction calls request⟩]) =
          callsFor fd (others ++ [⟨request, system.answer direction calls request⟩]) := by
        rw [callsFor_append, callsFor_append, hcalls]
      obtain ⟨hexchanges, houtcome⟩ := ih _ (hasks.2 _) hnext
      simp only [serve]
      rw [← hanswer]
      exact ⟨congrArg _ hexchanges, houtcome⟩

end System

/-- A transfer is made for the descriptor on which bytes are moved. -/
theorem Request.subject?_of_transferOn? (request : Request σ) {fd : Fd}
    (h : request.transferOn? = some fd) : request.subject? = some fd := by
  cases request <;> first | exact h | cases h

/-- What tends a descriptor is called for it. -/
theorem Request.Tends.concerns {request : Request σ} {source : Source} {fd : Fd}
    {event : RawEvent} (h : request.Tends source fd event) : System.Concerns fd request := by
  cases h with
  | set hchange =>
      refine .inl (congrArg some ?_)
      rcases hchange with rfl | rfl <;> rfl
  | delete => exact .inl rfl
  | log record => exact .inr ⟨record, rfl⟩

namespace Side

open Program

variable {side : Side σ} {operation : Operation σ}

/-- A submission asks for nothing about other descriptors than its own. -/
theorem submit_concerns {policy : OverlapPolicy} :
    (side.submit operation policy).Asks (System.Concerns operation.fd) := by
  refine Asks.bind ?_ fun _ => asks_pure _
  exact Outstanding.submit_tends.mono fun _ => Request.Tends.concerns

/-- A settlement asks for nothing about other descriptors than its own. -/
theorem settle_concerns {attempt : Attempt} :
    (side.settle operation attempt).Asks (System.Concerns operation.fd) := by
  refine Asks.bind ?_ fun _ => asks_pure _
  exact Outstanding.settle_tends.mono fun _ => Request.Tends.concerns

end Side

end Proactor
