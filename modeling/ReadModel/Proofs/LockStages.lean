import ReadModel.Proofs.Modesty

/-!
What becomes of a lock.

`LockStage.after` says which call on the locks a task may make next: it takes leases for a holder, has
the session that renews them stopped, and gives up the same leases. A batch and a sweep keep to it
whatever they are answered, and have given up everything at their end.
-/

namespace ReadModel

open Dialogue (Obeys Only)

/-- Where a task stands with the leases that it takes. -/
inductive LockStage where
  | free
  /-- Leases are taken, and a session renews them. -/
  | renewed (session : Nat) (instances : List InstanceId)
  /-- Leases are taken that nobody renews any more. -/
  | kept (instances : List InstanceId)

namespace LockStage

/-- The instances that leases are taken on. -/
def instances : LockStage → List InstanceId
  | .free => []
  | .renewed _ instances | .kept instances => instances

/-- The stage after a call on the locks, unless it is out of order. -/
def next (holder : LockHolder) : LockStage → (call : LockCall) → call.Answer → Option LockStage
  | .free, .acquire taker _ instances, answer =>
    if taker = holder then
      match answer with
      | .ok session => some (.renewed session instances)
      | .error _ => some .free
    else none
  | .renewed session instances, .watch watched _, _ =>
    if watched = session then some (.renewed session instances) else none
  | .renewed session instances, .stop stopped, _ =>
    if stopped = session then some (.kept instances) else none
  | .kept instances, .release giver given, _ =>
    if giver = holder ∧ given = instances then some .free else none
  | _, _, _ => none

/-- The stage after a call, unless it is out of order. -/
def after (holder : LockHolder) (stage : LockStage) : Exchange handlerInterface → Option LockStage
  | ⟨.lock call, answer⟩ => stage.next holder call answer
  | _ => some stage

/-- A task that is at a stage keeps to the order, and ends with everything given up. -/
def Ends {α : Type} (holder : LockHolder) (task : Task α) (stage : LockStage) : Prop :=
  task.Obeys (after holder) (fun _ last => last = .free) stage

end LockStage

/-- A call that is none on the locks. -/
def HandlerCall.Lockless : HandlerCall → Prop
  | .lock _ => False
  | _ => True

/-- A call on the event log, on time or on other tasks. -/
def HandlerCall.Aside : HandlerCall → Prop
  | .source _ | .task _ => True
  | _ => False

theorem HandlerCall.Aside.lockless {call : HandlerCall} (aside : call.Aside) : call.Lockless := by
  cases call with
  | store | source | task => trivial
  | lock => exact aside.elim

theorem HandlerCall.Inward.lockless {call : HandlerCall} (inward : call.Inward) : call.Lockless := by
  cases call with
  | store | source | task => trivial
  | lock => exact inward.elim

theorem LockStage.after_of_lockless {holder : LockHolder} {stage : LockStage}
    (x : Exchange handlerInterface) (lockless : x.call.Lockless) :
    stage.after holder x = some stage := by
  obtain ⟨call, answer⟩ := x
  cases call with
  | store | source | task => rfl
  | lock => exact lockless.elim

namespace Handler

variable {h : Handler} {ctx : Context}

theorem underLock_ends {α : Type} {session : Nat} {instances : List InstanceId}
    {work : Context → Task α} (lockless : ∀ ctx, (work ctx).Only HandlerCall.Lockless) :
    LockStage.Ends h.holder (h.underLock ctx session instances work)
      (.renewed session instances) := by
  refine fun token => ⟨_, rfl, fun _ => ⟨.renewed session instances, if_pos rfl, ?_⟩⟩
  refine Obeys.bind (d := work (ctx.withToken token)) <|
    ((lockless _).obeys LockStage.after_of_lockless).mono ?_
  rintro result _ rfl
  exact fun _ => ⟨.kept instances, if_pos rfl, fun _ => ⟨_, rfl, fun _ =>
    ⟨.free, if_pos ⟨rfl, rfl⟩, rfl⟩⟩⟩

theorem acquire_ends {α : Type} {duration : Nat} {instances : List InstanceId}
    {next : Except LockError Nat → Task α}
    (refused : ∀ e, LockStage.Ends h.holder (next (.error e)) .free)
    (granted : ∀ session,
      LockStage.Ends h.holder (next (.ok session)) (.renewed session instances)) :
    LockStage.Ends h.holder (.ask (.lock (.acquire h.holder duration instances)) next) .free := by
  intro answer
  cases answer with
  | error e => exact ⟨.free, if_pos rfl, refused e⟩
  | ok session => exact ⟨.renewed session instances, if_pos rfl, granted session⟩

theorem runBatch_ends (h : Handler) (pages : Nat) (batch : Batch) :
    LockStage.Ends h.holder (h.runBatch pages batch) .free := by
  have lockless (ctx : Context) :
      (h.runUnlocked pages ctx batch.instances).Only HandlerCall.Lockless :=
    (runUnlocked_inward pages _).mono fun _ inward => inward.lockless
  unfold Handler.runBatch
  split
  next => exact acquire_ends (fun _ => rfl) fun _ => underLock_ends lockless
  next => exact (lockless _).obeys LockStage.after_of_lockless

theorem runBatches_aside (instances : List InstanceId) (locked : Bool) :
    (h.runBatches ctx instances locked).Only HandlerCall.Aside :=
  ⟨trivial, fun _ => trivial⟩

theorem askSource_aside (call : SourceCall) :
    (askSource call).run.Only HandlerCall.Aside := by
  refine ⟨trivial, fun answer => ?_⟩
  cases answer <;> trivial

theorem firstRunLocked_aside (state : SchedulerState) (started : Instant) :
    (h.firstRunLocked ctx state started).run.Only HandlerCall.Aside := by
  refine .seq (askSource_aside _) fun instances => ?_
  refine .seq (.bind (runBatches_aside instances false) fun _ => trivial) fun failed => ?_
  refine .seq (x := ExceptT.lift (askTask (.isCancelled ctx.token)))
    ⟨trivial, fun _ => trivial⟩ fun cancelled => ?_
  split
  next => exact .seq (askSource_aside _) fun _ => trivial
  next => trivial

theorem steadySweep_aside (state : SchedulerState) (started : Instant) :
    (h.steadySweep ctx state started).run.Only HandlerCall.Aside := by
  refine .seq (askSource_aside _) fun instances => ?_
  refine .seq (.bind (runBatches_aside instances true) fun _ => trivial) fun failed => ?_
  trivial

theorem firstRun_ends (state : SchedulerState) (started : Instant) :
    LockStage.Ends h.holder (h.firstRun ctx state started).run .free := by
  refine acquire_ends (fun e => rfl) fun session => ?_
  change LockStage.Ends h.holder (h.underLock ctx session [systemInstance]
    fun ctx => (h.firstRunLocked ctx state started).run) _
  exact underLock_ends fun _ =>
    (firstRunLocked_aside state started).mono fun _ aside => aside.lockless

/-- A sweep has given up all its leases when it ends, whether or not it succeeds. -/
theorem sweep_ends (h : Handler) (ctx : Context) (state : SchedulerState) :
    LockStage.Ends h.holder (h.sweep ctx state).run .free := by
  refine fun started => ⟨.free, rfl, fun markers => ⟨.free, rfl, ?_⟩⟩
  cases markers with
  | error e => rfl
  | ok markers =>
    show LockStage.Ends h.holder (ExceptT.run (if markers.isEmpty then _ else _)) .free
    split
    next => exact firstRun_ends state started
    next =>
    exact (steadySweep_aside state started).obeys fun x aside =>
      LockStage.after_of_lockless x aside.lockless

end Handler

end ReadModel
