import Proactor.Proofs.Dispatching
import Proactor.Proofs.Notifications
import Proactor.Simulation.Threads

/-!
# Who clears the wake pipe

A loop that has been woken clears the pipe before it goes on with its batch: its
stage of draining makes exactly the reads of `Clears`. So does the simulation
when a scenario clears the pipe of a source. It follows the reads for a number
of steps only, and `advance_drain` says which numbers are large enough.
-/

namespace Proactor

/-! ## Loops -/

namespace Lane

variable {σ : Type} {setup : EventLoop.Setup} {start middle last : Lane σ}
  {first second : List (Event σ)}

/-- A path can be followed by another one. -/
theorem Path.trans (hfirst : Path setup start first middle)
    (hsecond : Path setup middle second last) : Path setup start (second ++ first) last := by
  induction hsecond with
  | here => exact hfirst
  | submit _ operation policy hsubmit ih => exact ih.submit operation policy hsubmit
  | close _ hclose ih => exact ih.close hclose
  | move _ hmoves ih => exact ih.move hmoves

/-- A chunk of wake-ups is one move. -/
theorem moves_draining {side : Side σ} {batch : List Proactor.Event}
    {exchanges : List (Exchange σ)} {more : Bool}
    (hdrain : side.source.drainStep.Returns exchanges more) :
    Moves setup ⟨side, .draining batch⟩ exchanges
      ⟨side, if more then .draining batch else .handling batch⟩ := by
  refine (moves_shared rfl).mpr
    ⟨.returned (if more then .draining batch else .handling batch), ?_, ?_⟩
  · refine Program.returns_bind.mpr ⟨more, exchanges, [], (List.append_nil _).symm, hdrain, ?_⟩
    cases more <;> exact ⟨rfl, rfl⟩
  · cases more <;> rfl

end Lane

namespace Simulation

namespace Kernel

variable {σ α : Type} {kernel last : Kernel α} {reads : Nat}

/-- A loop clears the pipe and goes on with the rest of its batch. -/
theorem Clears.path {side : Side σ} (h : Clears σ side.source kernel reads last)
    (setup : EventLoop.Setup) (batch : List Proactor.Event) :
    ∃ history, Lane.Path setup ⟨side, .draining batch⟩ history ⟨side, .handling batch⟩ ∧
      history.length = reads ∧ kernel.Replies (Lane.collect Lane.Event.exchanges history) last := by
  induction h with
  | last hstep =>
      obtain ⟨exchanges, hdrain, hreplies⟩ := hstep
      refine ⟨_, .move .here (Lane.moves_draining hdrain), rfl, ?_⟩
      simpa [Lane.collect, Lane.Event.exchanges] using hreplies
  | more hstep _ ih =>
      obtain ⟨exchanges, hdrain, hreplies⟩ := hstep
      obtain ⟨history, hpath, hlength, hrest⟩ := ih
      refine ⟨_, (Lane.Path.here.move (Lane.moves_draining hdrain)).trans hpath, ?_, ?_⟩
      · rw [List.length_append, hlength]
        rfl
      · simpa [Lane.collect, Lane.Event.exchanges] using hreplies.append hrest

end Kernel

/-! ## The simulation -/

/-- An activity goes on with what the first one has returned. -/
theorem Activity.advance_bind {σ α β : Type} {first : Activity σ α} {next : α → Activity σ β}
    {state after : σ} {value : α} (h : first.advance state = (.done value, after)) :
    (first >>= next).advance state = (next value).advance after := by
  induction first generalizing state with
  | done =>
      cases h
      rfl
  | panicked => cases h
  | look _ ih => exact ih state h
  | change changed _ ih => exact ih h
  | await ready _ ih =>
      unfold advance at h
      split at h
      · rename_i hready
        exact (if_pos hready).trans (ih h)
      · cases h

namespace Context

variable {world : World} {source : Source} {held : Nat}

/-- The simulation reads a chunk as the system replies to it. -/
theorem advance_drainStep (ctx : Context) (h : world.kernel.Posted source held) :
    ∃ more after, (ctx.perform source.drainStep).advance world = (.done more, after) ∧
      world.kernel.Completes (source.drainStep : Program Target _) more after.kernel := by
  obtain ⟨after, hread, hkernel⟩ := ctx.advance_answer_read h.pipeReadBy? WakePipe.drainChunk
  have hgives := Kernel.Gives.read (σ := Target) h.pipeReadBy? WakePipe.drainChunk
  rw [← hkernel] at hgives
  refine ⟨_, after, (Activity.advance_bind hread).trans ?_,
    Kernel.completes_drainStep.mpr ⟨_, hgives, rfl⟩⟩
  cases (world.kernel.readPipe (source.wakePipe.holding held) WakePipe.drainChunk).1 <;> rfl

/-- The simulation clears a pipe within as many steps as it takes chunks to empty it and one
more. -/
theorem advance_drain (ctx : Context) (h : world.kernel.Posted source held) {limit : Nat}
    (hlimit : held + WakePipe.drainChunk ≤ limit * WakePipe.drainChunk) :
    ∃ reads after, (ctx.drain source limit).advance world = (.done (), after) ∧
      Kernel.Clears Target source world.kernel reads after.kernel := by
  induction limit generalizing world held with
  | zero =>
      simp only [WakePipe.drainChunk] at hlimit
      omega
  | succ limit ih =>
      obtain ⟨more, middle, hstep, hcompletes⟩ := ctx.advance_drainStep h
      have hdrain : (ctx.drain source (limit + 1)).advance world =
          (if more then ctx.drain source limit else pure ()).advance middle :=
        Activity.advance_bind hstep
      cases more with
      | false => exact ⟨1, middle, hdrain, .last hcompletes⟩
      | true =>
          obtain ⟨hpos, hmiddle, -⟩ := h.more hcompletes
          obtain ⟨reads, after, hadvance, hclears⟩ := ih hmiddle (by
            simp only [WakePipe.drainChunk] at hlimit ⊢
            omega)
          exact ⟨reads + 1, after, hdrain.trans hadvance, .more hcompletes hclears⟩

end Context

end Simulation

end Proactor
