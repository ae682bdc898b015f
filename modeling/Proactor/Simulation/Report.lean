import Proactor.Simulation.Schedule

/-!
# Reports

After each step of a scenario a report says what came of it, what was written
into the trace, which handles were released, and how the subject stands.
-/

namespace Proactor.Simulation

namespace World

/-- The lines of the threads of a direction, or those of the scenario's own thread, first line
first. -/
private def linesOf (world : World) (direction : Option Direction) : List String :=
  (world.trace.reverse.filter fun entry => entry.1.direction? = direction).map Prod.snd

/-- The trace since the last report: one list of lines, or one for each thread of a reactor that
has written any. -/
private def traceDocument (world : World) : Document :=
  match world.subject with
  | .reactor =>
      .record
        ([("main", none), ("read", some .read), ("write", some .write)].filterMap
          fun (name, direction) =>
            match world.linesOf direction with
            | [] => none
            | lines => some (name, .texts lines))
  | _ => .texts (world.trace.reverse.map Prod.snd)

/-- The handles released since the last report. -/
private def releasedFields (world : World) : List (String × Document) :=
  match world.released.mergeSort with
  | [] => []
  | names => [("dropped", .texts names)]

/-- How the subject stands. -/
private def subjectFields (world : World) : List (String × Document) :=
  match world.subject with
  | .sinks => []
  | .side _ =>
      match world.currentSide.bind fun source => world.side? (.alone source) with
      | none => []
      | some side =>
          [("len", .count side.table.size), ("dispatching", .boolean side.dispatching)]
  | .reactor =>
      match world.currentReactor.bind world.running? with
      | none => []
      | some running =>
          let reactor := running.reactor
          [("pending", .list [.count (reactor.pending .read), .count (reactor.pending .write)]),
           ("dispatching",
             .list [.boolean (reactor.isDispatching .read),
               .boolean (reactor.isDispatching .write)]),
           ("watched", .count reactor.custody.size)]

/-- A report on a step. -/
private def report (world : World) (result : Document) : Document :=
  .record
    (("r", result) :: ("t", world.traceDocument) :: world.releasedFields ++ world.subjectFields)

end World

namespace Schedule

/-- Report on a step. The trace and the released handles are reported once. -/
private def report (schedule : Schedule) (result : Document) : Document × Schedule :=
  (schedule.world.report result,
    { schedule with world := { schedule.world with trace := [], released := [] } })

/-- Carry out the steps of a scenario one after the other, with a report on each. -/
private def steps : List Action → Schedule → List Document × Schedule
  | [], schedule => ([], schedule)
  | action :: rest, schedule =>
      let (reply, schedule) := schedule.carryOut action
      let (report, schedule) := schedule.report reply.document
      let (reports, schedule) := steps rest schedule
      (report :: reports, schedule)

/-- Let go of what is left at the end of a scenario, with a report. -/
private def finish (schedule : Schedule) : Document :=
  let (_, schedule) := schedule.carryOut .discard
  schedule.world.report .null

end Schedule

/-- Carry out a scenario: a report for each step, and one for the end. -/
def Scenario.answer (scenario : Scenario) : Document :=
  let (reports, schedule) := Schedule.steps scenario.steps (.initial scenario)
  .record [("steps", .list reports), ("end", schedule.finish)]

end Proactor.Simulation
