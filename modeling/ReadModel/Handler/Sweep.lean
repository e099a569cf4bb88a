import ReadModel.Handler.Trigger

/-!
Sweeping all instances.

`Handler.sweep` brings all instances up to date that may have pending events. Until it has succeeded
once, which a marker in the log tells, a sweep covers all instances under the lock of the system
instance. Later sweeps take one lock for each batch of instances, and look back from the last clean
sweep, in which no batch had failed.
-/

namespace ReadModel

/-- What a scheduler remembers from one sweep to the next: when its last clean sweep has begun. -/
structure SchedulerState where
  lastCleanSweep : Option Instant := none
  deriving DecidableEq, Inhabited

/-- Whether a projection's first sweep is still to be completed. -/
inductive Regime where
  | firstRun
  | steadyState
  deriving DecidableEq

/-- What a sweep has done. It was skipped where another process is at the first one. -/
structure SweepOutcome where
  regime : Regime
  instances : Nat
  failedBatches : Nat
  skipped : Bool
  deriving DecidableEq

/-- Divides a list into parts of a length, the last of which may be shorter. -/
def chunks {α : Type} (size : Nat) : List α → List (List α)
  | [] => []
  | a :: rest => (a :: rest.take (size - 1)) :: chunks size (rest.drop (size - 1))
termination_by items => items.length
decreasing_by simp only [List.length_drop, List.length_cons]; omega

theorem chunks_ne_nil {α : Type} {size : Nat} {items part : List α}
    (member : part ∈ chunks size items) : part ≠ [] := by
  fun_induction chunks size items with
  | case1 => cases member
  | case2 a rest ih =>
    rcases List.mem_cons.mp member with rfl | later
    · exact List.cons_ne_nil _ _
    · exact ih later

theorem exists_chunk {α : Type} {size : Nat} {items : List α} {a : α} (member : a ∈ items) :
    ∃ part ∈ chunks size items, a ∈ part := by
  fun_induction chunks size items with
  | case1 => cases member
  | case2 b rest ih =>
    have early : a ∈ b :: rest.take (size - 1) ∨ a ∈ rest.drop (size - 1) := by
      rw [← List.mem_append, List.cons_append, List.take_append_drop]
      exact member
    rcases early with first | others
    · exact ⟨_, List.mem_cons_self .., first⟩
    · obtain ⟨part, inside, among⟩ := ih others
      exact ⟨part, List.mem_cons_of_mem _ inside, among⟩

theorem mem_of_mem_chunk {α : Type} {size : Nat} {items part : List α} {a : α}
    (member : part ∈ chunks size items) (among : a ∈ part) : a ∈ items := by
  fun_induction chunks size items with
  | case1 => cases member
  | case2 b rest ih =>
    rcases List.mem_cons.mp member with rfl | later
    · rcases List.mem_cons.mp among with rfl | early
      · exact List.mem_cons_self ..
      · exact List.mem_cons_of_mem _ (List.mem_of_mem_take early)
    · exact List.mem_cons_of_mem _ (List.mem_of_mem_drop (ih later))

namespace Handler

/-- The aggregate type of markers. -/
def markerType : AggregateType := ⟨"projection"⟩

/-- The event type of the marker of the first completed sweep. -/
def succeededOnce : EventType := ⟨"projection.scheduler.succeeded"⟩

/-- The query for the marker. -/
def markerQuery (h : Handler) : SearchQuery :=
  { clauses :=
      [{ instanceId := some systemInstance
         aggregateTypes := [markerType]
         aggregateIds := [⟨h.name⟩]
         eventTypes := [succeededOnce] }]
    limit := some 1 }

/-- The marker. -/
def marker (h : Handler) : NewEvent where
  aggregateType := markerType
  aggregateId := ⟨h.name⟩
  instanceId := systemInstance
  eventType := succeededOnce
  payload := .ofFields [("projection", .text h.name)]

/-- The one that takes locks for the handler. -/
def holder (h : Handler) : LockHolder := ⟨h.name, h.owner⟩

/-- Runs something with a context of its own while locks are held; losing them cancels the context.
At the end the locks are released. -/
def underLock {α : Type} (h : Handler) (ctx : Context) (session : Nat) (instances : List InstanceId)
    (work : Context → Task α) : Task α := do
  let token ← askTask (.childToken ctx.token)
  askLock (.watch session token)
  let result ← work (ctx.withToken token)
  askLock (.stop session)
  askTask (.cancel token)
  let _ ← askLock (.release h.holder instances)
  return result

/-- Brings the instances of a batch up to date; whether that has succeeded, which it has not where the
pages were used up. -/
def runUnlocked (h : Handler) (pages : Nat) (ctx : Context) (instances : List InstanceId) :
    Task Bool := do
  match ← (h.trigger pages ctx instances).run with
  | .ok .caughtUp => return true
  | .ok .outOfPages | .error _ => return false

/-- Brings the instances of a batch up to date, under their locks if it asks for that; whether that
has succeeded. -/
def runBatch (h : Handler) (pages : Nat) (batch : Batch) : Task Bool := do
  if batch.locked then
    match ← askLock (.acquire h.holder h.config.lockDuration batch.instances) with
    | .error _ => return false
    | .ok session =>
      h.underLock batch.context session batch.instances fun ctx =>
        h.runUnlocked pages ctx batch.instances
  else h.runUnlocked pages batch.context batch.instances

/-- Runs instances in batches; gives the number of batches that have failed. -/
def runBatches (h : Handler) (ctx : Context) (instances : List InstanceId) (locked : Bool) :
    Task Nat := do
  let batches := (chunks (max 1 h.config.concurrentInstances) instances).map fun ids =>
    ({ context := ctx, instances := ids, locked } : Batch)
  let results ← askTask (.batches (max 1 h.config.batchConcurrency) batches)
  return results.countP (!·)

/-- What a first sweep does under the lock of the system instance. -/
def firstRunLocked (h : Handler) (ctx : Context) (state : SchedulerState) (started : Instant) :
    Action (SweepOutcome × SchedulerState) := do
  let instances ← askSource (.instanceIds (({} : InstanceQuery).excluding systemInstance))
  let failedBatches ← h.runBatches ctx instances false
  let outcome : SweepOutcome :=
    { regime := .firstRun, instances := instances.length, failedBatches, skipped := false }
  if failedBatches = 0 ∧ ¬ (← askTask (.isCancelled ctx.token)) then
    let _ ← askSource (.push [h.marker])
    return (outcome, ⟨some started⟩)
  else return (outcome, state)

/-- A first sweep. -/
def firstRun (h : Handler) (ctx : Context) (state : SchedulerState) (started : Instant) :
    Action (SweepOutcome × SchedulerState) := do
  match ← (askLock (.acquire h.holder h.config.lockDuration [systemInstance]) : Task _) with
  | .error _ =>
    return ({ regime := .firstRun, instances := 0, failedBatches := 0, skipped := true }, state)
  | .ok session =>
    ExceptT.mk <| h.underLock ctx session [systemInstance] fun ctx =>
      (h.firstRunLocked ctx state started).run

/-- The query for the instances of a later sweep. -/
def activeQuery (h : Handler) (state : SchedulerState) : InstanceQuery :=
  let query := ({} : InstanceQuery).excluding systemInstance
  match state.lastCleanSweep.bind fun t => t.minusMillis? h.config.activeInstanceWindow with
  | some since => query.after since
  | none => query

/-- A later sweep. -/
def steadySweep (h : Handler) (ctx : Context) (state : SchedulerState) (started : Instant) :
    Action (SweepOutcome × SchedulerState) := do
  let instances ← askSource (.instanceIds (h.activeQuery state))
  let failedBatches ← h.runBatches ctx instances true
  let outcome : SweepOutcome :=
    { regime := .steadyState, instances := instances.length, failedBatches, skipped := false }
  return (outcome, if failedBatches = 0 then ⟨some started⟩ else state)

/-- What a sweep does that has begun at some time. -/
def sweepFrom (h : Handler) (ctx : Context) (state : SchedulerState) (started : Instant) :
    Action (SweepOutcome × SchedulerState) := do
  let markers ← askSource (.filter h.markerQuery)
  if markers.isEmpty then h.firstRun ctx state started
  else h.steadySweep ctx state started

/-- Sweeps once; gives what the scheduler is to remember. -/
def sweep (h : Handler) (ctx : Context) (state : SchedulerState) :
    Action (SweepOutcome × SchedulerState) := do
  h.sweepFrom ctx state (← askTask .today)

end Handler

end ReadModel
