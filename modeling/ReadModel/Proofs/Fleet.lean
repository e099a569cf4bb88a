import Mathlib.Data.Nat.Pairing
import ReadModel.Proofs.Team

/-!
Processes that sweep side by side.

A `Fleet` has any number of processes, each with a handler and with what its scheduler remembers.
A process sweeps time and again, one sweep after the other, and the batches of a sweep run side by
side. All calls go to one `Scene`; they take turns in any order, while events are pushed, time goes by,
leases are renewed, faults come and go, and contexts are cancelled.
-/

namespace ReadModel

/-- One that makes calls: a process, or a batch of its sweep. -/
structure Actor where
  process : Nat
  batch : Option Nat := none
  deriving DecidableEq

/-- The number under which an actor makes its calls. -/
def Actor.number (a : Actor) : Nat :=
  Nat.pair a.process (match a.batch with
    | none => 0
    | some index => index + 1)

theorem Actor.number_inj {a b : Actor} (same : a.number = b.number) : a = b := by
  obtain ⟨process, batch⟩ := a
  obtain ⟨process', batch'⟩ := b
  obtain ⟨rfl, same⟩ := Nat.pair_eq_pair.mp same
  cases batch <;> cases batch' <;> simp_all

/-- What actors share. -/
structure Scene where
  world : World
  /-- The message that calls on the storage, the log and the leases fail with. -/
  outage : Option String := none
  /-- What the batches of a process have answered that goes on. -/
  results : List Bool := []
  /-- The batches that it had asked for. -/
  asked : List Batch := []
  /-- How often the lock for a first sweep was taken when there was a marker already. -/
  late : Nat := 0

/-- The markers of a projection. -/
def EventLog.markers (log : EventLog) (projection : String) : List Event :=
  log.events.filter fun e =>
    decide (e.instanceId = systemInstance) && decide (e.aggregateType = Handler.markerType) &&
      decide (e.aggregateId = ⟨projection⟩) && decide (e.eventType = Handler.succeededOnce)

/-- Surroundings in which nothing is waited for. -/
def Surroundings.prompt : Surroundings
  | .isCancelled token, w => (w.tokens.isCancelled token, w)
  | .childToken token, w =>
    ((w.tokens.child token).1, { w with tokens := (w.tokens.child token).2 })
  | .cancel token, w => ((), w.cancelAll [token])
  | .today, w => (w.today, w)
  | .clock, w => (w.clock, w)
  | .pause _ token, w => (!w.tokens.isCancelled token, w)
  | .waitUntil _ token, w => (if w.tokens.isCancelled token then none else some w.clock, w)
  | .receive .., w => (none, w)
  | .batches .., w => ([], w)
  | .crash _, w => ((), w)

namespace Scene

/-- The scene with another world. -/
def inWorld (s : Scene) (world : World) : Scene := { s with world }

/-- Whether a lock is taken with an answer while the marker of its projection is there. -/
def takenLate (s : Scene) (holder : LockHolder) (instances : List InstanceId)
    (answer : Except LockError Nat) : Bool :=
  decide (systemInstance ∈ instances) && answer.isOk &&
    !(s.world.log.markers holder.projection).isEmpty

/-- Answers a call on the storage that is made under a number. -/
def answerStore (s : Scene) (number : Nat) (call : StoreCall) :
    Except StorageError call.Value × Scene :=
  match s.outage with
  | none => ((s.world.answerStore number call).1, s.inWorld (s.world.answerStore number call).2)
  | some message => (.error (.database call.name message), s.inWorld (s.world.failStore call))

/-- Answers a call on the log. -/
def answerSource (s : Scene) (call : SourceCall) : Except SourceError call.Value × Scene :=
  match s.outage with
  | none => (.ok (s.world.answerSource call).1, s.inWorld (s.world.answerSource call).2)
  | some message => (.error (.storage message), s)

/-- Answers a call on the leases. What a session does is not affected by outages. -/
def answerLock (s : Scene) : (call : LockCall) → call.Answer × Scene
  | .acquire holder duration instances =>
    match s.outage with
    | none =>
      let (answer, world) := s.world.answerLock (.acquire holder duration instances)
      (answer, { s with world, late := s.late + (s.takenLate holder instances answer).toNat })
    | some message => (.error (.storage message), s)
  | .release holder instances =>
    match s.outage with
    | none => (.ok (), s.inWorld (s.world.answerLock (.release holder instances)).2)
    | some message => (.error (.storage message), s)
  | .watch session token => ((), s.inWorld (s.world.answerLock (.watch session token)).2)
  | .stop session => ((), s.inWorld (s.world.answerLock (.stop session)).2)

/-- Answers a call on time and on other tasks. -/
def answerTask (s : Scene) : (call : TaskCall) → call.Answer × Scene
  | .batches _ batches => (s.results, { s with asked := batches })
  | call => ((Surroundings.prompt call s.world).1, s.inWorld (Surroundings.prompt call s.world).2)

/-- Answers a call that is made under a number. -/
def answer (number : Nat) : (call : HandlerCall) → Scene → call.Answer × Scene
  | .store call, s => s.answerStore number call
  | .source call, s => s.answerSource call
  | .lock call, s => s.answerLock call
  | .task call, s => s.answerTask call

end Scene

/-- A sweep under way: when it has begun, what is left of it to do, and its batches while they run. -/
structure Sweep where
  started : Instant
  program : Task (Except HandlerError (SweepOutcome × SchedulerState))
  batches : Option (List (Task Bool)) := none

/-- A process, with what its scheduler remembers. -/
structure Process where
  handler : Handler
  state : SchedulerState := {}
  sweep : Option Sweep := none

/-- The batches that a call asks for. -/
def HandlerCall.batches? : HandlerCall → Option (List Batch)
  | .task (.batches _ batches) => some batches
  | _ => none

/-- What batches have answered, once all have. -/
def results? : List (Task Bool) → Option (List Bool)
  | [] => some []
  | .done result :: rest => (results? rest).map (result :: ·)
  | .ask .. :: _ => none

namespace Process

/-- Begins a sweep, unless one is under way. It reads the date at once. -/
def begin (p : Process) (ctx : Context) (today : Instant) : Process :=
  match p.sweep with
  | some _ => p
  | none => { p with sweep := some ⟨today, (p.handler.sweepFrom ctx p.state today).run, none⟩ }

/-- The sweep of a process makes its next call; a call for batches starts these first, and is answered
once all of them have ended. -/
def turn (pages number : Nat) (p : Process) (s : Scene) : Process × Scene :=
  match p.sweep with
  | none => (p, s)
  | some sweep =>
    match sweep.program with
    | .done (.ok (_, state)) => ({ p with state, sweep := none }, s)
    | .done (.error _) => ({ p with sweep := none }, s)
    | .ask call next =>
      match call.batches?, sweep.batches with
      | some batches, none =>
        let tasks := batches.map (p.handler.runBatch pages)
        ({ p with sweep := some { sweep with batches := some tasks } }, s)
      | _, running =>
        match results? (running.getD []) with
        | none => (p, s)
        | some results =>
          if s.world.waits number call then (p, s)
          else
            let (answer, s) := Scene.answer number call { s with results }
            ({ p with sweep := some { sweep with program := next answer, batches := none } }, s)

/-- A batch of the sweep makes its next call. -/
def batchTurn (number : Nat) (p : Process) (index : Nat) (s : Scene) : Process × Scene :=
  match p.sweep with
  | some ⟨started, program, some batches⟩ =>
    match batches[index]? with
    | some (.ask call next) =>
      if s.world.waits number call then (p, s)
      else
        let (answer, s) := Scene.answer number call s
        ({ p with sweep := some ⟨started, program, some (batches.set index (next answer))⟩ }, s)
    | _ => (p, s)
  | _ => (p, s)

end Process

/-- Processes and what they share. -/
structure Fleet where
  scene : Scene
  processes : List Process

namespace Fleet

/-- What can happen next: events are pushed with the date of the day, the date and the clock go on, a
session renews its leases, leases are given to someone else, faults, hidden rows and outages change, a
token is cancelled, a process begins a sweep, or an actor makes its next call. -/
inductive Move where
  | push (events : List NewEvent)
  | date (date : Instant)
  | wait (ms : Nat)
  | renew (session : Nat)
  | revoke (instances : List InstanceId)
  | disturb (faults : Faults)
  | hide (hidden : SequenceKey → Bool)
  | outage (message : Option String)
  | cancel (token : Token)
  | sweep (process : Nat) (ctx : Context)
  | turn (actor : Actor)

end Fleet

open Fleet in
/-- What a move that is no process's makes of the scene. The date never goes back, and lies in no leap
second. -/
def Scene.after (s : Scene) : Move → Scene
  | .push events => s.inWorld (s.world.answerSource (.push events)).2
  | .date date =>
    if date.before s.world.today = true ∨ 1000000000 ≤ date.nanos then s
    else s.inWorld { s.world with today := date, pushDate := date }
  | .wait ms => s.inWorld { s.world with clock := s.world.clock + ms }
  | .renew id =>
    match s.world.leases.session? id with
    | some session => if session.mayRenew then s.inWorld (s.world.renew session) else s
    | none => s
  | .revoke instances =>
    s.inWorld { s.world with
      leases := s.world.leases.revoke s.world.clock s.world.projection instances }
  | .disturb faults => { s with world.store.faults := faults }
  | .hide hidden => { s with world.hidden := hidden }
  | .outage outage => { s with outage }
  | .cancel token => s.inWorld (s.world.cancelAll [token])
  | .sweep .. | .turn _ => s

namespace Fleet

/-- Puts a process and the scene in the place of what they were. -/
def put (f : Fleet) (index : Nat) (next : Process × Scene) : Fleet :=
  ⟨next.2, f.processes.set index next.1⟩

/-- What a fleet is like after a move. A trigger of a batch fetches at most so many pages. -/
def move (pages : Nat) (f : Fleet) (m : Move) : Fleet :=
  match m with
  | .sweep index ctx =>
    match f.processes[index]? with
    | some p => f.put index (p.begin ctx f.scene.world.today, f.scene)
    | none => f
  | .turn actor =>
    match f.processes[actor.process]? with
    | some p =>
      f.put actor.process <| match actor.batch with
        | none => p.turn pages actor.number f.scene
        | some index => p.batchTurn actor.number index f.scene
    | none => f
  | m => { f with scene := f.scene.after m }

/-- A fleet that has done nothing yet. -/
def start (projection : String) (day : Instant) (handlers : List Handler) : Fleet where
  scene := { world := { projection, today := day, pushDate := day } }
  processes := handlers.map fun handler => { handler }

/-- What a fleet is like after moves. -/
def run (pages : Nat) (projection : String) (day : Instant) (handlers : List Handler)
    (moves : List Move) : Fleet :=
  moves.foldl (move pages) (start projection day handlers)

end Fleet

/-- What a move can make of the process with an index: a sweep begins, goes on, or ends. -/
inductive Process.Moved (index : Nat) (today : Instant) (p : Process) : Fleet.Move → Process → Prop
  | still {m} : p.Moved index today m p
  | begins {ctx program} : p.sweep = none →
      p.Moved index today (.sweep index ctx) { p with sweep := some ⟨today, program, none⟩ }
  | goes {m sweep program batches} : p.sweep = some sweep →
      p.Moved index today m { p with sweep := some ⟨sweep.started, program, batches⟩ }
  | ends {m sweep outcome state} : p.sweep = some sweep →
      sweep.program = .done (.ok (outcome, state)) →
      p.Moved index today m { p with state, sweep := none }
  | fails {m} : p.Moved index today m { p with sweep := none }

namespace Process

variable {index : Nat} {today : Instant} {m : Fleet.Move}

theorem moved_begin (p : Process) (ctx : Context) :
    p.Moved index today (.sweep index ctx) (p.begin ctx today) := by
  unfold begin
  split
  next => exact .still
  next idle => exact .begins idle

theorem moved_turn (p : Process) (pages number : Nat) (s : Scene) :
    p.Moved index today m (p.turn pages number s).1 := by
  unfold turn
  split
  next => exact .still
  next sweep under =>
    split
    next outcome state ends => exact .ends under ends
    next => exact .fails
    next =>
      split
      next => exact .goes under
      next =>
        split
        next => exact .still
        next =>
          split
          next => exact .still
          next => exact .goes under

theorem moved_batchTurn (p : Process) (number batch : Nat) (s : Scene) :
    p.Moved index today m (p.batchTurn number batch s).1 := by
  unfold batchTurn
  split
  next under =>
    split
    next =>
      split
      next => exact .still
      next => exact .goes under
    next => exact .still
  next => exact .still

end Process

namespace Fleet

theorem processes_put {f : Fleet} {index other : Nat} {next : Process × Scene} {q : Process}
    (found : (f.put index next).processes[other]? = some q) :
    other = index ∧ q = next.1 ∨ f.processes[other]? = some q := by
  rw [put, List.getElem?_set] at found
  split at found
  next same =>
    split at found
    next => exact .inl ⟨same.symm, (Option.some.inj found).symm⟩
    next => cases found
  next => exact .inr found

theorem moved_move {pages : Nat} {f : Fleet} {m : Move} {index : Nat} {q : Process}
    (found : (f.move pages m).processes[index]? = some q) :
    ∃ p, f.processes[index]? = some p ∧ p.Moved index f.scene.world.today m q := by
  cases m with
  | sweep other ctx =>
    dsimp only [move] at found
    split at found
    next p there =>
      rcases processes_put found with ⟨rfl, rfl⟩ | same
      · exact ⟨p, there, p.moved_begin ctx⟩
      · exact ⟨q, same, .still⟩
    next => exact ⟨q, found, .still⟩
  | turn actor =>
    dsimp only [move] at found
    split at found
    next p there =>
      rcases processes_put found with ⟨rfl, rfl⟩ | same
      · refine ⟨p, there, ?_⟩
        cases actor.batch with
        | none => exact p.moved_turn pages _ f.scene
        | some number => exact p.moved_batchTurn _ number f.scene
      · exact ⟨q, same, .still⟩
    next => exact ⟨q, found, .still⟩
  | push | date | wait | renew | revoke | disturb | hide | outage | cancel =>
    exact ⟨q, found, .still⟩

/-- A sweep that is under way has begun at the time that it is said to have. -/
theorem exists_begin {pages : Nat} {projection : String} {day : Instant} {handlers : List Handler}
    {moves : List Move} {index : Nat} {p : Process} {sweep : Sweep}
    (there : (run pages projection day handlers moves).processes[index]? = some p)
    (under : p.sweep = some sweep) :
    ∃ before ctx, before ++ [.sweep index ctx] <+: moves ∧
      sweep.started = (run pages projection day handlers before).scene.world.today := by
  induction moves using List.reverseRecOn generalizing p sweep with
  | nil =>
    simp only [run, List.foldl_nil, start, List.getElem?_map, Option.map_eq_some_iff] at there
    obtain ⟨h, _, rfl⟩ := there
    cases under
  | append_singleton moves m ih =>
    rw [run, List.foldl_append] at there
    obtain ⟨q, found, moved⟩ := moved_move there
    have earlier : ∀ {sweep : Sweep}, q.sweep = some sweep → ∃ before ctx,
        before ++ [.sweep index ctx] <+: moves ++ [m] ∧
          sweep.started = (run pages projection day handlers before).scene.world.today := by
      intro sweep under
      obtain ⟨before, ctx, inside, date⟩ := ih found under
      exact ⟨before, ctx, inside.trans (List.prefix_append ..), date⟩
    cases moved with
    | still => exact earlier under
    | begins =>
      obtain rfl := Option.some.inj under
      exact ⟨moves, _, List.prefix_rfl, rfl⟩
    | goes under' =>
      obtain rfl := Option.some.inj under
      obtain ⟨before, ctx, inside, date⟩ := earlier under'
      exact ⟨before, ctx, inside, date⟩
    | ends | fails => cases under

end Fleet

end ReadModel
