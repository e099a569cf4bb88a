import ReadModel.Simulation.Fiber

/-!
Running a simulation.

A simulation goes in small steps: the task whose turn it is makes one call, or the turn goes to the
next. The task of a request comes first; then those who wait for a time that has come, in the order
of their alarms; then any task that has nothing to wait for. The clock moves only when every task
waits, and then to the next alarm.
-/

namespace ReadModel

namespace Simulation

/-- One who is woken by an alarm. -/
inductive Sleeper where
  | fiber (id : Nat)
  | session (s : LockSession)
  | token (index : Nat)
  | worker (index : Nat)

/-- All alarms that are set, and who is woken by them. -/
def alarms (s : Simulation) : List (Alarm × Sleeper) :=
  s.fibers.filterMap (fun f => match f.wait with
    | some (.alarm a _) | some (.hook a) => some (a, .fiber f.id)
    | _ => none) ++
  (s.world.leases.sessions.filter (·.renewing)).map
    (fun session => (⟨session.renewAt, session.stamp⟩, .session session)) ++
  s.timers.zipIdx.map (fun entry => (entry.1.1, .token entry.2)) ++
  s.workers.zipIdx.filterMap fun entry => match entry.1.phase with
    | .waiting a _ => some (a, .worker entry.2)
    | _ => none

/-- The alarm that comes first. -/
def nextAlarm? (s : Simulation) : Option (Alarm × Sleeper) :=
  s.alarms.foldl (fun best entry =>
    match best with
    | none => some entry
    | some b => if entry.1.sooner b.1 then some entry else some b) none

/-- Whether a task has nothing to wait for any more. -/
def ready (s : Simulation) (f : Fiber) : Bool :=
  match f.wait with
  | none => true
  | some (.alarm _ token) => s.world.tokens.isCancelled token
  | some (.hook _) => false
  | some .store => s.world.transactionOf.isNone
  | some (.messages subscription token) =>
    s.world.tokens.isCancelled token || !(s.world.bus.queue subscription).isEmpty
  | some (.batches group) =>
    (s.groups.find? fun g => g.id == group).any fun g => g.results.all (·.isSome)
  | some (.turn _) => false

/-- Wakes one whose alarm has come. -/
def wake (s : Simulation) : Sleeper → Simulation
  | .fiber id => { s with current := some id }
  | .session session => { s with world := s.world.renew session }
  | .token index =>
    { s with
      world := s.world.cancelAll (s.timers[index]?.map (·.2)).toList
      timers := s.timers.eraseIdx index }
  | .worker index => s.workerResume index

/-- A worker that waits to be started again though its token was cancelled. -/
def idleWorker? (s : Simulation) : Option Nat :=
  s.workers.findIdx? fun w => match w.phase with
    | .waiting _ _ => s.world.tokens.isCancelled w.token
    | _ => false

/-- The task of a request, if it can go on. -/
def activeRequest? (s : Simulation) : Option Fiber :=
  s.fibers.find? fun f => match f.role with
    | .request => s.ready f || s.alarmDue f.wait
    | _ => false

/-- The one whose alarm has come first, if the time for it has come. -/
def dueSleeper? (s : Simulation) : Option Sleeper :=
  (s.nextAlarm?.filter fun entry => decide (entry.1.time ≤ s.world.clock)).map Prod.snd

/-- Gives the turn to the next who can go on, if there is one. -/
def nextTurn (s : Simulation) : Option Simulation :=
  match s.activeRequest?, s.dueSleeper?, s.fibers.find? s.ready with
  | some f, _, _ => some { s with current := some f.id }
  | none, some sleeper, _ => some (s.wake sleeper)
  | none, none, some f => some { s with current := some f.id }
  | none, none, none => s.idleWorker?.map s.workerResume

/-- One step, unless every task waits. -/
def step (s : Simulation) : Option Simulation :=
  match s.current with
  | some id =>
    match s.fibers.find? fun f => f.id == id with
    | some f => some (s.advance f)
    | none => some { s with current := none }
  | none => s.nextTurn

/-- Goes on until every task waits, for at most so many steps. -/
def settle : Nat → Simulation → Simulation
  | 0, s => s
  | fuel + 1, s =>
    match s.step with
    | some s => settle fuel s
    | none => s

/-- Moves the clock. The tasks of sessions that were stopped have ended by then. -/
def moveClock (s : Simulation) (time : Nat) : Simulation :=
  { s with world := { s.world with
      clock := max s.world.clock time
      leases := s.world.leases.quitAll } }

/-- Lets time go on up to a time. -/
def runUntil (target : Nat) : Nat → Simulation → Simulation
  | 0, s => s
  | fuel + 1, s =>
    let s := settle fuel s
    match s.nextAlarm? with
    | some (a, _) =>
      if a.time ≤ target then runUntil target fuel (s.moveClock a.time)
      else s.moveClock target
    | none => s.moveClock target

/-- Lets time go on until a test is passed, as long as there is something to wait for. -/
def runWhile (goesOn : Simulation → Bool) : Nat → Simulation → Simulation
  | 0, s => s
  | fuel + 1, s =>
    let s := settle fuel s
    if goesOn s then
      match s.nextAlarm? with
      | some (a, _) => runWhile goesOn fuel (s.moveClock a.time)
      | none => s
    else s

/-- How many steps a simulation goes at most. -/
def stepBudget : Nat := 1000000000000000000

/-- Runs a request of a handler to its end; gives the answer, unless the request waits forever, and
the time that it took. -/
def request (s : Simulation) (handler : Handler) (action : Action Reply) :
    Option (Except String (Except HandlerError Reply)) × Simulation :=
  let program : Task FiberResult := do return .request (← action.run)
  let (_, s) := { s with answer := none }.spawn handler .request program none
  let s := runWhile (fun s => s.answer.isNone) stepBudget s
  (s.answer, s)

end Simulation

end ReadModel
