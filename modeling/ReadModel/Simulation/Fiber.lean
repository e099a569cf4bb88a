import ReadModel.Handler.Intake
import ReadModel.Simulation.World
import ReadModel.Supervision

/-!
Tasks of a simulation.

A `Fiber` is a task that makes the calls of its program one after the other; it may have to wait for
a time, for a token or for other tasks. A `Worker` is a supervised task: it is started again after it
has ended abnormally.
-/

namespace ReadModel

/-- What a request to a handler is answered with. -/
inductive Reply where
  | done
  | applied (lastApplied : Option Nat)
  | query (q : SearchQuery)
  | swept (outcome : SweepOutcome) (state : SchedulerState)
  | pushed (events : List Event)

/-- What a task ends with: the answer to a request, whether a batch succeeded, or where a worker
stands after a round. -/
inductive FiberResult where
  | request (answer : Except HandlerError Reply)
  | batch (success : Bool)
  | round (next : Option WorkerState)

/-- What a task is for. -/
inductive Role where
  | request
  | batch (group index : Nat)
  | worker (index : Nat)

/-- A time that a task waits for; of those who wait for the same time, the lower stamp comes first. -/
structure Alarm where
  time : Nat
  stamp : Nat
  deriving DecidableEq, Inhabited

/-- Whether an alarm comes before another. -/
def Alarm.sooner (a b : Alarm) : Bool :=
  decide (a.time < b.time) || (a.time == b.time && decide (a.stamp < b.stamp))

/-- What a task waits for. -/
inductive Wait where
  /-- For a time, or for a token to be cancelled. -/
  | alarm (a : Alarm) (token : Token)
  /-- For a time, within a hook. -/
  | hook (a : Alarm)
  /-- For the end of an open transaction. -/
  | store
  /-- For messages, or for a token to be cancelled. -/
  | messages (subscription : Nat) (token : Token)
  /-- For the end of batches. -/
  | batches (group : Nat)
  /-- For its turn among the batches of a sweep. -/
  | turn (group : Nat)

/-- A task: its program, what it waits for, and the lock sessions that it keeps open. -/
structure Fiber where
  id : Nat
  handler : Handler
  role : Role
  program : Task FiberResult
  wait : Option Wait := none
  sessions : List Nat := []

/-- The batches of a sweep that run side by side, and what has become of those that have ended. -/
structure BatchGroup where
  id : Nat
  results : List (Option Bool)

/-- What a worker does. -/
inductive WorkerKind where
  | intake
  | schedule
  deriving DecidableEq

/-- Where the supervision of a worker stands: a task runs, it is to be started again, or it has ended
for good. -/
inductive WorkerPhase where
  | running (fiber : Nat) (subscription : Option Nat)
  | waiting (a : Alarm) (exit : TaskExit)
  | ended (report : SupervisorReport)

/-- A supervised task. -/
structure Worker where
  handler : Handler
  kind : WorkerKind
  policy : RestartPolicy
  token : Token
  restarts : Nat := 0
  phase : WorkerPhase

/-- Whether a worker has not ended for good. -/
def Worker.isRunning (w : Worker) : Bool :=
  match w.phase with
  | .ended _ => false
  | .running .. | .waiting .. => true

/-- How the supervision of a worker has ended. -/
def Worker.report? (w : Worker) : Option SupervisorReport :=
  match w.phase with
  | .ended report => some report
  | .running .. | .waiting .. => none

/-- How often a trigger of a simulation fetches events at most. -/
def pageBudget : Nat := 1000000000000000000

/-- A simulation: the world and the tasks in it. -/
structure Simulation where
  world : World
  fibers : List Fiber := []
  groups : List BatchGroup := []
  workers : List Worker := []
  /-- Tokens to be cancelled at some time. -/
  timers : List (Alarm × Token) := []
  nextFiber : Nat := 0
  nextGroup : Nat := 0
  /-- The task whose turn it is. -/
  current : Option Nat := none
  /-- The answer to the latest request; a message where its task has crashed. -/
  answer : Option (Except String (Except HandlerError Reply)) := none

namespace Simulation

/-- Changes a task. -/
def modifyFiber (s : Simulation) (id : Nat) (change : Fiber → Fiber) : Simulation :=
  { s with fibers := s.fibers.map fun f => if f.id = id then change f else f }

/-- Changes a worker. -/
def modifyWorker (s : Simulation) (index : Nat) (change : Worker → Worker) : Simulation :=
  { s with workers := s.workers.modify index change }

/-- Starts a task; gives its number. -/
def spawn (s : Simulation) (handler : Handler) (role : Role) (program : Task FiberResult)
    (wait : Option Wait) : Nat × Simulation :=
  (s.nextFiber,
    { s with
      nextFiber := s.nextFiber + 1
      fibers := s.fibers ++ [{ id := s.nextFiber, handler, role, program, wait }] })

/-- An alarm some milliseconds from now. -/
def alarmIn (s : Simulation) (ms : Nat) : Alarm × Simulation :=
  let (stamp, world) := s.world.takeStamp
  (⟨s.world.clock + ms, stamp⟩, { s with world })

/-- The program of the run of a worker. -/
def workerProgram (handler : Handler) (token : Token) (kind : WorkerKind) (subscription : Nat) :
    Task FiberResult :=
  match kind with
  | .intake => do return .round (← handler.round token (.intake subscription))
  | .schedule => do return .round (← handler.round token (← handler.startSchedule))

/-- Starts the task of a worker; the intake subscribes to the bus first. -/
def startWorker (s : Simulation) (index : Nat) (handler : Handler) (kind : WorkerKind)
    (token : Token) : WorkerPhase × Simulation :=
  match kind with
  | .intake =>
    let (subscription, bus) := s.world.bus.subscribe
    let (id, s) := { s with world := { s.world with bus } }.spawn handler (.worker index)
      (workerProgram handler token .intake subscription) none
    (.running id (some subscription), s)
  | .schedule =>
    let (id, s) := s.spawn handler (.worker index) (workerProgram handler token .schedule 0) none
    (.running id none, s)

/-- Adds a worker. -/
def addWorker (s : Simulation) (handler : Handler) (kind : WorkerKind) (policy : RestartPolicy)
    (token : Token) : Simulation :=
  let (phase, s) := s.startWorker s.workers.length handler kind token
  { s with workers := s.workers ++ [{ handler, kind, policy, token, phase }] }

/-- A worker's task has ended: its subscription goes, and its policy says what follows. -/
def workerExit (s : Simulation) (index : Nat) (exit : TaskExit) : Simulation :=
  match s.workers[index]? with
  | none => s
  | some w =>
    let s : Simulation := match w.phase with
      | .running _ (some subscription) =>
        { s with world := { s.world with bus := s.world.bus.drop subscription } }
      | _ => s
    match w.policy.next w.restarts (s.world.tokens.isCancelled w.token) exit with
    | .stop => s.modifyWorker index fun w => { w with phase := .ended ⟨w.restarts, exit⟩ }
    | .restartAfter backoff =>
      let (a, s) := s.alarmIn backoff
      s.modifyWorker index fun w => { w with phase := .waiting a exit }

/-- A worker that waits to be started again is started, or ends where its token was cancelled. -/
def workerResume (s : Simulation) (index : Nat) : Simulation :=
  match s.workers[index]? with
  | some w =>
    match w.phase with
    | .waiting _ exit =>
      if s.world.tokens.isCancelled w.token then
        s.modifyWorker index fun w => { w with phase := .ended ⟨w.restarts, exit⟩ }
      else
        let (phase, s) := s.startWorker index w.handler w.kind w.token
        s.modifyWorker index fun w => { w with restarts := w.restarts + 1, phase }
    | _ => s
  | none => s

/-- A batch has ended: its result is noted, and the next one gets its turn. -/
def batchExit (s : Simulation) (group index : Nat) (success : Bool) : Simulation :=
  let s : Simulation := { s with groups := s.groups.map fun (g : BatchGroup) =>
    if g.id = group then { g with results := g.results.set index (some success) } else g }
  let waits (f : Fiber) : Bool := match f.wait with
    | some (.turn g) => g == group
    | _ => false
  match s.fibers.find? waits with
  | some f => s.modifyFiber f.id fun f => { f with wait := none }
  | none => s

/-- Takes a task out. -/
def removeFiber (s : Simulation) (id : Nat) : Simulation :=
  { s with fibers := s.fibers.filter fun f => f.id != id, current := none }

/-- A task has ended with a result; a worker goes on with its next round. -/
def finish (s : Simulation) (f : Fiber) (result : FiberResult) : Simulation :=
  match f.role, result with
  | .worker index, .round (some state) =>
    match s.workers[index]? with
    | some w =>
      s.modifyFiber f.id fun f =>
        { f with program := do return .round (← f.handler.round w.token state) }
    | none => s.removeFiber f.id
  | .worker index, _ => (s.removeFiber f.id).workerExit index .completed
  | .batch group index, .batch success => (s.removeFiber f.id).batchExit group index success
  | .batch group index, _ => (s.removeFiber f.id).batchExit group index false
  | .request, .request answer => { s.removeFiber f.id with answer := some (.ok answer) }
  | .request, _ => s.removeFiber f.id

/-- A task has crashed: its transaction is given up and its lock sessions are stopped. -/
def crash (s : Simulation) (f : Fiber) (message : String) : Simulation :=
  let w := s.world
  let w := if w.transactionOf = some f.id then
      { w with store := w.store.abandon, transactionOf := none }
    else w
  let s := { s with world := { w with leases := f.sessions.foldl Leases.stop w.leases } }
  let s := s.removeFiber f.id
  match f.role with
  | .request => { s with answer := some (.error message) }
  | .batch group index => s.batchExit group index false
  | .worker index => s.workerExit index (.panicked message)

/-- A task goes on with another program. -/
def proceed (s : Simulation) (id : Nat) (program : Task FiberResult) : Simulation :=
  s.modifyFiber id fun f => { f with program, wait := none }

/-- A task waits. -/
def block (s : Simulation) (id : Nat) (wait : Wait) : Simulation :=
  { s.modifyFiber id (fun f => { f with wait := some wait }) with current := none }

/-- Whether a task waits for a time that has come. -/
def alarmDue (s : Simulation) : Option Wait → Bool
  | some (.alarm a _) | some (.hook a) => decide (a.time ≤ s.world.clock)
  | _ => false

/-- Whether the hooks for a task's call have acted already. -/
def hooksDone : Option Wait → Bool
  | some (.hook _) | some .store => true
  | _ => false

/-- Makes a task's call on the store, the hooks for it having acted. -/
def storeCall (s : Simulation) (f : Fiber) (call : StoreCall)
    (next : Except StorageError call.Value → Task FiberResult) : Simulation :=
  if s.world.blocks f.id call then s.block f.id .store
  else
    let (answer, world) := s.world.answerStore f.id call
    { s with world }.proceed f.id (next answer)

/-- Makes a task's call on the event log, the hooks for it having acted. -/
def sourceCall (s : Simulation) (f : Fiber) (call : SourceCall)
    (next : Except SourceError call.Value → Task FiberResult) : Simulation :=
  let (answer, world) := s.world.answerSource call
  { s with world }.proceed f.id (next (.ok answer))

/-- Makes a task wait within a hook. -/
def hookWait (s : Simulation) (f : Fiber) (ms : Nat) : Simulation :=
  let (a, s) := s.alarmIn ms
  s.block f.id (.hook a)

/-- Makes a task's call on the locks. The task keeps the sessions that it opens until it stops
them. -/
def lockCall (s : Simulation) (f : Fiber) (call : LockCall)
    (next : call.Answer → Task FiberResult) : Simulation :=
  let (answer, world) := s.world.answerLock call
  let program := next answer
  let sessions := match call, answer with
    | .acquire .., .ok session => session :: f.sessions
    | .stop session, _ => f.sessions.filter (· != session)
    | _, _ => f.sessions
  ({ s with world }.modifyFiber f.id fun f => { f with sessions }).proceed f.id program

/-- Starts batches, the first `limit` of them at once. -/
def startBatches (s : Simulation) (f : Fiber) (limit : Nat) (batches : List Batch) : Simulation :=
  let group := s.nextGroup
  let s : Simulation := { s with
    nextGroup := group + 1
    groups := s.groups ++ [(⟨group, batches.map fun _ => none⟩ : BatchGroup)] }
  let s := batches.zipIdx.foldl (fun (s : Simulation) entry =>
    let program : Task FiberResult := do return .batch (← f.handler.runBatch pageBudget entry.1)
    (s.spawn f.handler (.batch group entry.2) program
      (if entry.2 < limit then none else some (.turn group))).2) s
  s.block f.id (.batches group)

/-- Makes a task's call on time and on other tasks. -/
def taskCall (s : Simulation) (f : Fiber) :
    (call : TaskCall) → (call.Answer → Task FiberResult) → Simulation
  | .isCancelled token, next => s.proceed f.id (next (s.world.tokens.isCancelled token))
  | .childToken token, next =>
    let (child, tokens) := s.world.tokens.child token
    { s with world := { s.world with tokens } }.proceed f.id (next child)
  | .cancel token, next => { s with world := s.world.cancelAll [token] }.proceed f.id (next ())
  | .today, next => s.proceed f.id (next s.world.today)
  | .clock, next => s.proceed f.id (next s.world.clock)
  | .pause ms token, next =>
    if s.world.tokens.isCancelled token then s.proceed f.id (next false)
    else if s.alarmDue f.wait || ms == 0 then s.proceed f.id (next true)
    else
      let (a, s) := s.alarmIn ms
      s.block f.id (.alarm a token)
  | .waitUntil due token, next =>
    if s.world.tokens.isCancelled token then s.proceed f.id (next none)
    else if due ≤ s.world.clock then s.proceed f.id (next (some s.world.clock))
    else
      let (a, s) := s.alarmIn (due - s.world.clock)
      s.block f.id (.alarm a token)
  | .receive subscription token, next =>
    if s.world.tokens.isCancelled token then s.proceed f.id (next none)
    else
      match s.world.bus.receiveBatch subscription with
      | (.got events, bus) =>
        { s with world := { s.world with bus } }.proceed f.id (next (some events))
      | (.closed, _) => s.proceed f.id (next none)
      | (.nothing, _) => s.block f.id (.messages subscription token)
  | .batches limit batches, next =>
    match f.wait with
    | some (.batches group) =>
      let ended (g : BatchGroup) : List Bool := g.results.map (·.getD false)
      let results := ((s.groups.find? fun (g : BatchGroup) => g.id == group).map ended).getD []
      let s : Simulation := { s with groups := s.groups.filter fun (g : BatchGroup) => g.id != group }
      s.proceed f.id (next results)
    | _ => s.startBatches f limit batches
  | .crash message, _ => s.crash f message

/-- Makes the next call of a task. -/
def advance (s : Simulation) (f : Fiber) : Simulation :=
  match f.program with
  | .done result => s.finish f result
  | .ask (.store call) next =>
    if hooksDone f.wait then s.storeCall f call next
    else
      let (disturbed, world) := s.world.disturb call.name
      let s := { s with world }
      match disturbed with
      | .goOn => s.storeCall f call next
      | .fail message =>
        { s with world := s.world.failStore call }.proceed f.id
          (next (.error (.database call.name message)))
      | .failPush message =>
        { s with world := s.world.failStore call }.proceed f.id
          (next (.error (.database call.name message)))
      | .crash message => s.crash f message
      | .goOnAfter ms => if ms = 0 then s.storeCall f call next else s.hookWait f ms
  | .ask (.source call) next =>
    if hooksDone f.wait then s.sourceCall f call next
    else
      let (disturbed, world) := s.world.disturb call.name
      let s := { s with world }
      match disturbed with
      | .goOn => s.sourceCall f call next
      | .fail message => s.proceed f.id (next (.error (.storage message)))
      | .failPush message => s.proceed f.id (next (.error (.invalidPush message)))
      | .crash message => s.crash f message
      | .goOnAfter ms => if ms = 0 then s.sourceCall f call next else s.hookWait f ms
  | .ask (.lock call) next => s.lockCall f call next
  | .ask (.task call) next => s.taskCall f call next

end Simulation

end ReadModel
