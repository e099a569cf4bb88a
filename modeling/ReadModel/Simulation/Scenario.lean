import ReadModel.Simulation.Run

/-!
Scenarios.

A scenario is played step by step: events are pushed, handlers are called, workers are started and
time goes on. All handlers of a scenario keep the same projection up to date, each for an owner of its
own, over the same log, store, leases and bus. `Scenario.play` plays a step; `Scenario.observe` tells
what can be seen after it.
-/

namespace ReadModel

/-- The context that a step makes a call with. -/
structure Caller where
  instanceId : Option InstanceId := none
  asOf : Option Instant := none
  /-- Whether the context is cancelled before the call. -/
  cancelled : Bool := false
  /-- After how many milliseconds the context is cancelled. -/
  cancelAfter : Option Nat := none

/-- Events that a step is about: those of the log with given sequences, or others. -/
inductive EventChoice where
  | logged (sequences : List Nat)
  | literal (events : List Event)

/-- A step of a scenario. -/
inductive ScenarioStep where
  /-- Puts events into the log, dated anew if there is a date. -/
  | push (events : List NewEvent) (date : Option Instant)
  /-- Pushes events the way that handlers do, so that the bus hears of them. -/
  | pushPublished (events : List NewEvent) (date : Option Instant)
  | publish (events : EventChoice)
  | trigger (caller : Caller) (instances : List InstanceId)
  | process (caller : Caller) (events : EventChoice)
  | updateEvents (caller : Caller) (events : EventChoice)
  | updateStatements (caller : Caller) (statements : List Statement)
  | searchQuery (caller : Caller) (instances : List InstanceId)
  /-- Sweeps with what the scheduler of a name remembers. -/
  | sweep (caller : Caller) (scheduler : String)
  | lock (instances : List InstanceId) (ms : Nat)
  | unlock (instances : List InstanceId)
  | failOn (fault : Fault)
  /-- Takes all faults and hooks away. -/
  | clearFaults
  | rejectSequences (reject : Bool)
  | readStale (stale : Bool)
  | inject (hook : Hook)
  | subscribe
  | schedule
  /-- Starts all the workers that the settings ask for. -/
  | start
  | advance (ms : Nat)
  /-- Stops all workers. -/
  | shutdown
  | log

/-- What a step has led to. -/
inductive StepResult where
  | done
  | pushed (events : List Event)
  | logged (events : List Event)
  | applied (lastApplied : Option Nat)
  | query (q : SearchQuery)
  /-- How a sweep has ended, and whether the scheduler remembers a clean one. -/
  | swept (outcome : Except HandlerError SweepOutcome) (recorded : Bool)
  | failed (e : HandlerError)
  | unreduced (e : ReduceError)
  | workers (total : Nat)
  | running (flags : List Bool)
  | ended (reports : List SupervisorReport)
  | crashed (message : String)
  /-- The call waits forever. -/
  | stuck

/-- A lock session that a step has opened for an owner. -/
structure HeldLock where
  owner : String
  session : Nat
  instances : List InstanceId

/-- Where a scenario stands. -/
structure Scenario where
  /-- The handler for each owner. -/
  handler : String → Handler
  simulation : Simulation
  schedulers : Dict String SchedulerState := ∅
  held : List HeldLock := []
  /-- The instances of the events and statements that steps have brought along. -/
  named : List InstanceId := []
  /-- How many of the executed operations were seen already. -/
  observed : Nat := 0

/-- What can be seen of a scenario. `executed` has the operations since the last observation, and
`leases` those on instances that events or statements were seen of, and on the system instance. -/
structure Observation where
  tables : List (String × List Row)
  sequences : List CurrentSequence
  failures : List (InstanceId × Nat × FailedEvent)
  executed : List Operation
  transactions : Nat
  leases : List (InstanceId × String)
  logLength : Nat

namespace Scenario

/-- The scenario in which handlers for a projection have not done anything yet. -/
def begin (projection : Projection) (config : ProjectionConfig) (today pushDate : Instant) :
    Scenario where
  handler owner := { name := projection.name, registry := projection.registry, config, owner }
  simulation := { world := { projection := projection.name, today, pushDate } }

/-- Changes the world of a scenario. -/
def modifyWorld (s : Scenario) (change : World → World) : Scenario :=
  { s with simulation := { s.simulation with world := change s.simulation.world } }

/-- Does all work that is due. -/
def settled (s : Scenario) : Scenario :=
  { s with simulation := Simulation.settle Simulation.stepBudget s.simulation }

/-- The events of a choice; sequences that are not in the log are left out. -/
def choose (s : Scenario) : EventChoice → List Event
  | .logged sequences => sequences.filterMap s.simulation.world.log.find?
  | .literal events => events

/-- The instances that a step brings along. -/
def broughtBy : ScenarioStep → List InstanceId
  | .publish (.literal events) | .process _ (.literal events)
  | .updateEvents _ (.literal events) => Event.instances events
  | .updateStatements _ statements => Statement.instances statements
  | _ => []

/-- Makes the context of a caller. -/
def context (s : Scenario) (caller : Caller) : Context × Scenario :=
  let (token, tokens) := s.simulation.world.tokens.fresh
  let tokens := if caller.cancelled then tokens.cancel token else tokens
  let s := s.modifyWorld fun w => { w with tokens, latest := some token }
  let s := match caller.cancelAfter with
    | some ms =>
      let (a, simulation) := s.simulation.alarmIn ms
      { s with simulation := { simulation with timers := simulation.timers ++ [(a, token)] } }
    | none => s
  ({ instanceId := caller.instanceId, asOf := caller.asOf, token }, s)

/-- Lets the handler of an owner do something. -/
def call (s : Scenario) (owner : String) (action : Handler → Action Reply) :
    Option (Except String (Except HandlerError Reply)) × Scenario :=
  let h := s.handler owner
  let (answer, simulation) := s.simulation.request h (action h)
  (answer, { s with simulation })

/-- The result of a step that has made a call. -/
def resultOf : Option (Except String (Except HandlerError Reply)) → StepResult
  | none => .stuck
  | some (.error message) => .crashed message
  | some (.ok (.error e)) => .failed e
  | some (.ok (.ok .done)) => .done
  | some (.ok (.ok (.applied lastApplied))) => .applied lastApplied
  | some (.ok (.ok (.query q))) => .query q
  | some (.ok (.ok (.swept outcome state))) => .swept (.ok outcome) state.lastCleanSweep.isSome
  | some (.ok (.ok (.pushed events))) => .pushed events

/-- Makes a call for a caller. -/
def callFor (s : Scenario) (owner : String) (caller : Caller)
    (action : Handler → Context → Action Reply) : StepResult × Scenario :=
  let (ctx, s) := s.context caller
  let (answer, s) := s.call owner fun h => action h ctx
  (resultOf answer, s)

/-- Sweeps for a caller. -/
def sweepFor (s : Scenario) (owner : String) (caller : Caller) (scheduler : String) :
    StepResult × Scenario :=
  let state := (s.schedulers.find? scheduler).getD {}
  let (ctx, s) := s.context caller
  let (answer, s) := s.call owner fun h => do
    let (outcome, state) ← h.sweep ctx state
    return .swept outcome state
  match answer with
  | some (.ok (.error e)) => (.swept (.error e) state.lastCleanSweep.isSome, s)
  | some (.ok (.ok (.swept outcome state))) =>
    (.swept (.ok outcome) state.lastCleanSweep.isSome,
      { s with schedulers := s.schedulers.insert scheduler state })
  | answer => (resultOf answer, s)

/-- Dates what is pushed from now on. -/
def redate (s : Scenario) : Option Instant → Scenario
  | some date => s.modifyWorld fun w => { w with pushDate := date }
  | none => s

/-- Takes locks for an owner, and keeps them until they are released. -/
def lock (s : Scenario) (owner : String) (instances : List InstanceId) (ms : Nat) :
    StepResult × Scenario :=
  let w := s.simulation.world
  let (answer, leases) := w.leases.lock w.clock (s.handler owner).holder ms instances
  let s := s.modifyWorld fun w => { w with leases }
  match answer with
  | .ok session => (.done, { s with held := s.held ++ [⟨owner, session, instances⟩] })
  | .error e => (.failed (.lock e), s)

/-- Releases locks of an owner, whose sessions for them end. -/
def unlock (s : Scenario) (owner : String) (instances : List InstanceId) : Scenario :=
  let (ended, held) := s.held.partition fun lock =>
    lock.owner == owner && lock.instances.any fun id => decide (id ∈ instances)
  let s := s.modifyWorld fun w =>
    let leases := ended.foldl (fun leases lock => Leases.stop leases lock.session) w.leases
    { w with leases := leases.unlock (s.handler owner).holder instances }
  { s with held }

/-- Starts workers for an owner, which a token of their own stops. -/
def startWorkers (s : Scenario) (owner : String) (workers : Handler → List (WorkerKind × RestartPolicy)) :
    StepResult × Scenario :=
  let h := s.handler owner
  let (token, tokens) := s.simulation.world.tokens.fresh
  let s := s.modifyWorld fun w => { w with tokens }
  let simulation := (workers h).foldl
    (fun (m : Simulation) entry => m.addWorker h entry.1 entry.2 token) s.simulation
  (.workers simulation.workers.length, { s with simulation })

/-- The worker that takes events from the bus, with its policy. -/
def intakeWorker (h : Handler) : WorkerKind × RestartPolicy := (.intake, h.config.restart)

/-- The worker that sweeps, with its policy. -/
def scheduleWorker : WorkerKind × RestartPolicy := (.schedule, default)

/-- The workers that the settings of a handler ask for. -/
def workersOf (h : Handler) : List (WorkerKind × RestartPolicy) :=
  if h.config.subscribe then [intakeWorker h, scheduleWorker] else [scheduleWorker]

/-- Stops all workers, one after the other, and waits for their ends. -/
def shutdown (s : Scenario) : StepResult × Scenario :=
  let simulation := s.simulation.workers.zipIdx.foldl (fun (m : Simulation) entry =>
    let m := { m with world := m.world.cancelAll [entry.1.token] }
    Simulation.runWhile (fun m => m.workers[entry.2]?.any Worker.isRunning) Simulation.stepBudget m)
    s.simulation
  (.ended (simulation.workers.filterMap Worker.report?),
    { s with simulation := { simulation with workers := [] } })

/-- Plays a step for an owner, up to where all the others have something to wait for. -/
def play (s : Scenario) (owner : String) (step : ScenarioStep) : StepResult × Scenario :=
  let s := { s with named := s.named ++ broughtBy step }
  let (result, s) : StepResult × Scenario := match step with
    | .push events date =>
      let s := s.redate date
      let (pushed, log) := s.simulation.world.log.push s.simulation.world.pushDate events
      (.pushed pushed, s.modifyWorld fun w => { w with log })
    | .pushPublished events date =>
      let (answer, s) := (s.redate date).call owner fun _ => do
        return .pushed (← askSource (.push events))
      (resultOf answer, s)
    | .publish events =>
      let events := s.choose events
      (.done, s.modifyWorld fun w => { w with bus := w.bus.publishAll events })
    | .trigger caller instances =>
      s.callFor owner caller fun h ctx => do
        let _ ← h.trigger pageBudget ctx instances
        return .done
    | .process caller events =>
      let events := s.choose events
      s.callFor owner caller fun h ctx => do
        h.process ctx events
        return .done
    | .updateEvents caller events =>
      match (s.handler owner).registry.reduceAll (s.choose events) with
      | .error e => (.unreduced e, s)
      | .ok statements =>
        s.callFor owner caller fun h ctx => return .applied (← h.update ctx statements)
    | .updateStatements caller statements =>
      s.callFor owner caller fun h ctx => return .applied (← h.update ctx statements)
    | .searchQuery caller instances =>
      s.callFor owner caller fun h ctx => return .query (← h.searchQuery ctx instances)
    | .sweep caller scheduler => s.sweepFor owner caller scheduler
    | .lock instances ms => s.lock owner instances ms
    | .unlock instances => (.done, s.unlock owner instances)
    | .failOn fault => (.done, s.modifyWorld fun w => { w with store := w.store.failOn fault })
    | .clearFaults =>
      (.done, s.modifyWorld fun w => { w with store := w.store.clearFaults, hooks := [] })
    | .rejectSequences reject =>
      (.done, s.modifyWorld fun w => { w with store := w.store.rejectSequences reject })
    | .readStale stale => (.done, s.modifyWorld fun w => { w with hidden := fun _ => stale })
    | .inject hook => (.done, s.modifyWorld fun w => { w with hooks := w.hooks ++ [hook] })
    | .subscribe => s.startWorkers owner fun h => [intakeWorker h]
    | .schedule => s.startWorkers owner fun _ => [scheduleWorker]
    | .start => s.startWorkers owner workersOf
    | .advance ms =>
      let simulation :=
        Simulation.runUntil (s.simulation.world.clock + ms) Simulation.stepBudget s.simulation
      (.done, { s with simulation })
    | .shutdown => s.shutdown
    | .log => (.logged s.simulation.world.log.events, s)
  let s := s.settled
  match step with
  | .advance _ => (.running (s.simulation.workers.map Worker.isRunning), s)
  | _ => (result, s)

/-- The text of a row's instance, by which rows are shown in order. -/
def rowInstance (row : Row) : String :=
  match row.find? "instance_id" with
  | some (.text id) => id
  | _ => ""

/-- The tables that operations name. -/
def tablesOf (ops : List Operation) : List String := sortedKeys (ops.filterMap Operation.table?)

/-- Observes a scenario. -/
def observe (s : Scenario) : Observation × Scenario :=
  let w := s.simulation.world
  let executed := w.store.executed
  let seen := systemInstance :: s.named ++ Event.instances w.log.events
  let shown (table : String) : List Row :=
    (Tables.rows w.store.data.tables table).mergeSort fun a b =>
      !KeyOrder.before (rowInstance b) (rowInstance a)
  ({ tables := (tablesOf executed).map fun table => (table, shown table)
     sequences := w.store.data.currentSequences w.projection fun _ => true
     failures := w.store.data.failures.entries.filterMap fun e =>
       if e.1.1 = w.projection then some (e.1.2.1, e.1.2.2, e.2) else none
     executed := executed.drop s.observed
     transactions := w.store.begins
     leases := w.leases.table.entries.filterMap fun e =>
       if e.1.1 = w.projection ∧ e.1.2 ∈ seen then some (e.1.2, e.2.owner) else none
     logLength := w.log.events.length },
    { s with observed := executed.length })

end Scenario

end ReadModel
