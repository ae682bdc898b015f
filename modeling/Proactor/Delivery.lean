import Proactor.Program

/-!
# Delivery

A completion is offered to its sink until the sink takes it, nobody listens any
more, or a stated reason ends the effort. Waiting for room has no bound of its
own, so delivery is a machine: each step makes a few requests and names the
point at which the next one goes on.

A sink that cannot wait for room by itself is polled: offered the completion
again and again with a short sleep in between, until a deadline.
-/

namespace Proactor

/-! ## Polling a sink until a deadline -/

namespace Polling

variable {σ : Type}

/-- The sleep between two offers. -/
def backoff : Duration :=
  .ofMillis 1

/-- The instant at which polling gives up. It may lie beyond the end of time. -/
def deadline (patience : Duration) : Program σ Instant := do
  match (← Program.ask .now).add? patience with
  | some instant => return instant
  | none => .panic .deadlineOverflow

/-- One round: offer the completion and, if there is no room and time is left, sleep. The answer
is the final reception, or the completion for the next round. -/
def round (target : σ) (completion : Completion) (deadline : Instant) :
    Program σ (Reception ⊕ Completion) := do
  match ← Program.ask (.offer target completion) with
  | .full returned =>
      if (← Program.ask .now).isBefore deadline then
        Program.ask (.pause backoff)
        return .inr returned
      else return .inl (.full returned)
  | .panicked cause => .panic cause
  | reception => return .inl reception

end Polling

/-! ## Delivering a completion -/

/-- The points at which a delivery can be. -/
inductive Delivery.Point where
  /-- About to make the first offer. -/
  | offering
  /-- There was no room, and the stop flag is read next. -/
  | refused
  /-- The stop flag was clear, and the sink gets a while to find room. -/
  | waiting
  /-- The sink is polled until the deadline. -/
  | polling (deadline : Instant)

/-- A completion on its way to a sink. The descriptor and the direction for messages are those
of the completion at first. -/
structure Delivery (σ : Type) where
  fd : Fd
  direction : Direction
  sink : Sink σ
  completion : Completion
  point : Delivery.Point

namespace Delivery

variable {σ : Type}

/-- A delivery that has not begun. -/
def ofResolved (resolved : Resolved σ) : Delivery σ :=
  ⟨resolved.completion.fd, resolved.completion.direction, resolved.sink,
    resolved.completion, .offering⟩

/-- How long a sink gets to find room before the stop flag is read again. -/
def slice : Duration :=
  .ofMillis 10

/-- The delivery with the completion that a refusal handed back, at another point. -/
def back (delivery : Delivery σ) (completion : Completion) (point : Point) : Delivery σ :=
  { delivery with completion, point }

/-- Act on a reception: go on after a refusal, and end otherwise. -/
def received (delivery : Delivery σ) (whenFull : Completion → Program σ (Option (Delivery σ))) :
    Reception → Program σ (Option (Delivery σ))
  | .accepted => return none
  | .disconnected _ => do
      Program.log (.sinkDisconnected delivery.fd delivery.direction)
      return none
  | .panicked cause => .panic cause
  | .full completion => whenFull completion

/-- One step of a delivery. The answer is the delivery at its next point, or nothing when it is
over. -/
def step (policy : DeliveryPolicy) (delivery : Delivery σ) : Program σ (Option (Delivery σ)) :=
  match delivery.point with
  | .offering => do
      delivery.received
        (fun completion =>
          match policy with
          | .dropWhenFull => do
              Program.log (.sinkFull delivery.fd delivery.direction)
              return none
          | .blockWhenFull => return some (delivery.back completion .refused))
        (← Program.ask (.offer delivery.sink.target delivery.completion))
  | .refused => do
      if ← Program.ask .stopping then
        Program.log (.sinkFullAtShutdown delivery.fd delivery.direction)
        return none
      else return some { delivery with point := .waiting }
  | .waiting =>
      if delivery.sink.waitsForRoom then do
        delivery.received (fun completion => return some (delivery.back completion .refused))
          (← Program.ask (.offerWithin delivery.sink.target delivery.completion slice))
      else do
        let deadline ← Polling.deadline slice
        return some { delivery with point := .polling deadline }
  | .polling deadline => do
      match ← Polling.round delivery.sink.target delivery.completion deadline with
      | .inr completion => return some { delivery with completion }
      | .inl reception =>
          delivery.received
            (fun completion => return some (delivery.back completion .refused)) reception

end Delivery

end Proactor
