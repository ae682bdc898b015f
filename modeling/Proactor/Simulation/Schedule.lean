import Proactor.Simulation.Acting

/-!
# Schedules

The thread of a scenario and the threads of loops go on in turn, each as far as
it can: first the thread of the scenario, then the loops in the order of their
start. A step of the scenario is over when no thread can go on. A loop that waits
for an event or for room then is still there in the next step.
-/

namespace Proactor.Simulation

/-- The state of a scenario and the threads of loops that are not over, in the order of their
start. -/
structure Schedule where
  world : World
  loops : List (Activity World Unit)

namespace Schedule

/-- The schedule before the first step of a scenario. -/
def initial (scenario : Scenario) : Schedule :=
  ⟨.initial scenario, []⟩

/-- Give every loop that has been started a thread. -/
private def adopt (schedule : Schedule) : Schedule :=
  let started := schedule.world.started.map fun (reactor, direction) =>
    Context.loopThread hooks reactor direction
  ⟨{ schedule.world with started := [] }, schedule.loops ++ started⟩

/-- Let threads go on one after the other. -/
private def advanceEach (world : World) :
    List (Activity World Unit) → List (Activity World Unit) × World
  | [] => ([], world)
  | first :: rest =>
      let (first, world) := first.advance world
      let (rest, world) := advanceEach world rest
      (first :: rest, world)

/-- Let the thread of the scenario and then the loops go on. -/
private def round (main : Activity World Reply) (schedule : Schedule) :
    Activity World Reply × Schedule :=
  let (main, world) := main.advance schedule.world
  let schedule := adopt { schedule with world }
  let (loops, world) := advanceEach schedule.world schedule.loops
  (main, ⟨world, loops.filter fun activity => !activity.isOver⟩)

/-- Whether a thread can go on. -/
private def isBusy (main : Activity World Reply) (schedule : Schedule) : Bool :=
  main.canGoOn schedule.world || !schedule.world.started.isEmpty ||
    schedule.loops.any fun activity => activity.canGoOn schedule.world

/-- Let the threads go on until none of them can. -/
private def untilIdle : Nat → Activity World Reply → Schedule → Activity World Reply × Schedule
  | 0, main, schedule => (main, schedule)
  | limit + 1, main, schedule =>
      if isBusy main schedule then
        let (main, schedule) := round main schedule
        untilIdle limit main schedule
      else (main, schedule)

/-- The reply that has been reached. -/
private def reached : Activity World Reply → Reply
  | .done reply => reply
  | .panicked cause => .panicked cause
  | _ => .nothing

/-- Carry out an action on the thread of the scenario, and let all threads go on until none of
them can. -/
def carryOut (schedule : Schedule) (action : Action) : Reply × Schedule :=
  let main := Context.act ⟨.main, none, hooks⟩ none action
  let (main, schedule) := untilIdle stepLimit main schedule
  (reached main, schedule)

end Schedule

end Proactor.Simulation
