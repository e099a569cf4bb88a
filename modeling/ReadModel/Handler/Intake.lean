import ReadModel.Handler.Sweep

/-!
Workers of a projection.

A worker goes from round to round: one takes events from the bus and processes them as they come, the
other sweeps at regular times. What goes wrong in a round does not end a worker.
-/

namespace ReadModel

/-- Where a worker stands between two rounds: it takes events from a subscription, or it sweeps next
when the clock shows a time. -/
inductive WorkerState where
  | intake (subscription : Nat)
  | schedule (due : Nat) (state : SchedulerState)

/-- When the sweep after one that was due at `due` and has begun at `now` is due. One that has begun
more than five milliseconds late puts off those that follow. -/
def nextDue (due now period : Nat) : Nat :=
  if due + 5 < now then now + period else due + period

namespace Handler

/-- A round of the intake: it takes what waits in the subscription, and processes the events that the
projection cares about. It is the last where the bus is gone or the token was cancelled. -/
def intakeRound (h : Handler) (token : Token) (subscription : Nat) : Task (Option WorkerState) := do
  match ← askTask (.receive subscription token) with
  | none => return none
  | some events =>
    let wanted := events.filter fun e => h.registry.handles e.aggregateType
    if wanted.isEmpty then return some (.intake subscription)
    let child ← askTask (.childToken token)
    let _ ← (h.process { token := child } wanted).run
    return some (.intake subscription)

/-- Where a scheduler begins. Its first sweep is due at once. -/
def startSchedule (h : Handler) : Task WorkerState := do
  if h.config.requeueEvery = 0 then askTask (.crash "\x60period\x60 must be non-zero.")
  let now ← askTask .clock
  return .schedule now {}

/-- A round of the scheduler: it waits until a sweep is due, and sweeps. It is the last where the
token was cancelled. -/
def scheduleRound (h : Handler) (token : Token) (due : Nat) (state : SchedulerState) :
    Task (Option WorkerState) := do
  match ← askTask (.waitUntil due token) with
  | none => return none
  | some now =>
    let child ← askTask (.childToken token)
    let due := nextDue due now h.config.requeueEvery
    match ← (h.sweep { token := child } state).run with
    | .ok (_, state) => return some (.schedule due state)
    | .error _ => return some (.schedule due state)

/-- The next round of a worker. -/
def round (h : Handler) (token : Token) : WorkerState → Task (Option WorkerState)
  | .intake subscription => h.intakeRound token subscription
  | .schedule due state => h.scheduleRound token due state

end Handler

end ReadModel
