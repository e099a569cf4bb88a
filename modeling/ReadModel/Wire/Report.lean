import ReadModel.Simulation.Scenario
import ReadModel.Wire.Error
import ReadModel.Wire.Operation
import ReadModel.Wire.Query

/-!
What is told about supervised tasks, sweeps and scenarios, as JSON values.
-/

namespace ReadModel

/-- How a run of a task has ended, as a JSON value. -/
def TaskExit.encode : TaskExit → Json
  | .completed => .text "completed"
  | .failed message => .ofFields [("failed", .text message)]
  | .panicked message => .ofFields [("panicked", .text message)]

/-- The report as a JSON value. -/
def SupervisorReport.encode (r : SupervisorReport) : Json := .ofFields
  [("restarts", .ofNat r.restarts), ("is_failure", .bool r.lastExit.isFailure),
    ("exit", r.lastExit.encode)]

/-- The name of a regime. -/
def Regime.name : Regime → String
  | .firstRun => "first_run"
  | .steadyState => "steady_state"

/-- The outcome of a sweep as a JSON value. -/
def SweepOutcome.encode (o : SweepOutcome) : Json := .ofFields
  [("regime", .text o.regime.name), ("instances", .ofNat o.instances),
    ("failed_batches", .ofNat o.failedBatches), ("skipped", .bool o.skipped)]

/-- A stored sequence as a JSON value. -/
def CurrentSequence.encode (row : CurrentSequence) : Json :=
  .list [.text row.key.aggregateType.text, .text row.key.instanceId.text, .ofNat row.sequence]

/-- A row as a JSON value. -/
def Row.encode (row : Row) : Json := .ofFields (row.entries.map fun e => (e.1, e.2.encode))

/-- The kind of an operation and the table that it works on. -/
def Operation.summary (op : Operation) : String := op.kind.name ++ " " ++ op.table?.getD "-"

/-- The links of an event that was pushed, as a JSON value. -/
def Event.encodeLinks (e : Event) : Json :=
  .list [.ofNat e.sequence, .ofNat e.previousOfAggregate, .ofNat e.previousOfType]

/-- The result of a step as a JSON value. -/
def StepResult.encode : StepResult → Json
  | .done => .text "ok"
  | .pushed events => .list (events.map Event.encodeLinks)
  | .logged events => .list (events.map Event.encode)
  | .applied lastApplied => .ofFields [("last_applied", .ofOption Json.ofNat lastApplied)]
  | .query q => q.encode
  | .swept outcome recorded => .ofFields
    [("outcome", .ofExcept HandlerError.encode SweepOutcome.encode outcome),
      ("clean_sweep_recorded", .bool recorded)]
  | .failed e => e.encode
  | .unreduced e => e.encode
  | .workers total => .ofFields [("workers", .ofNat total)]
  | .running flags => .ofFields [("running", .list (flags.map .bool))]
  | .ended reports => .list (reports.map SupervisorReport.encode)
  | .crashed message => .ofError "Crashed" message
  | .stuck => .ofError "Stuck" "the call waits forever"

/-- What is observed, as a JSON value. Operations that may have run side by side are told in the order
of their summaries. -/
def Observation.encode (sideBySide : Bool) (o : Observation) : Json :=
  let executed := o.executed.map Operation.summary
  let executed := if sideBySide then executed.mergeSort fun a b => !KeyOrder.before b a else executed
  .ofFields
    [("tables", .ofFields (o.tables.map fun e => (e.1, .list (e.2.map Row.encode)))),
      ("sequences", .list (o.sequences.map CurrentSequence.encode)),
      ("failures", .list (o.failures.map fun e =>
        .list [.text e.1.text, .ofNat e.2.1, .ofNat e.2.2.count, .text e.2.2.error])),
      ("executed", .ofTexts executed),
      ("transactions", .ofNat o.transactions),
      ("locks", .list (o.leases.map fun e => .list [.text e.1.text, .text e.2])),
      ("log_len", .ofNat o.logLength)]

end ReadModel
