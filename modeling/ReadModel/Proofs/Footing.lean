import ReadModel.Handler.Intake
import ReadModel.Proofs.LockStages

/-!
When failures are counted.

`Footing.after` says which call on the storage a task may make next: one of a transaction only while it
has one, an operation only if it can run, and no failure is counted before an operation has failed. A
handler keeps to it in all that it does, whatever it is answered, if its reducers make nothing that
cannot run.
-/

namespace ReadModel

open Dialogue (Obeys Only)

/-- Where a task stands with its transaction. -/
inductive Footing where
  | outside
  | inside
  /-- An operation has failed; what comes after that is left open. -/
  | shaken

namespace Footing

/-- The footing after a call on the storage, unless it is out of order. -/
def next : Footing → (call : StoreCall) → Except StorageError call.Value → Option Footing
  | .shaken, _, _ => some .shaken
  | .outside, .begin, .ok _ => some .inside
  | .outside, .begin, .error _ | .outside, .currentSequences .., _
  | .outside, .failureCount .., _ => some .outside
  | .inside, .execute op, answer =>
    match op.validate, answer with
    | .ok _, .ok _ => some .inside
    | .ok _, .error _ => some .shaken
    | .error _, _ => none
  | .inside, .commit, _ | .inside, .rollback, _ => some .outside
  | .inside, .lockSequences .., _ | .inside, .savepoint, _ | .inside, .rollbackToSavepoint, _
  | .inside, .releaseSavepoint, _ | .inside, .upsertSequence .., _ => some .inside
  | _, _, _ => none

/-- The footing after a call, unless it is out of order. -/
def after (footing : Footing) : Exchange handlerInterface → Option Footing
  | ⟨.store call, answer⟩ => footing.next call answer
  | _ => some footing

/-- A task keeps to the order from one footing on. Unless it is shaken on its way it ends at another, with
a value that is good. -/
def Leads {α : Type} (start stop : Footing) (good : α → Prop) (task : Task α) : Prop :=
  task.Obeys after (fun a footing => footing = .shaken ∨ footing = stop ∧ good a) start

/-- What an action gives is good, if it does not fail. -/
def Gives {ε α : Type} (good : α → Prop) : Except ε α → Prop
  | .ok a => good a
  | .error _ => True

/-- An action keeps to the order, and ends where it has begun. -/
def Keeps {α : Type} (footing : Footing) (good : α → Prop) (x : Action α) : Prop :=
  Leads footing footing (Gives good) x.run

variable {α β : Type} {footing start middle stop : Footing} {good : α → Prop} {good' : β → Prop}

theorem gives_true {ε : Type} (result : Except ε α) : Gives (fun _ => True) result := by
  cases result <;> trivial

theorem obeys_shaken (task : Task α) : task.Obeys after (fun _ footing => footing = .shaken) .shaken := by
  have only : task.Only fun _ => True := by
    induction task with
    | done a => trivial
    | ask call next ih => exact ⟨trivial, ih⟩
  refine only.obeys fun x _ => ?_
  obtain ⟨call, answer⟩ := x
  cases call <;> rfl

namespace Leads

theorem done {a : α} (fine : good a) : Leads footing footing good (.done a) := .inr ⟨rfl, fine⟩

theorem of_shaken (task : Task α) : Leads .shaken stop good task :=
  (obeys_shaken task).mono fun _ _ same => .inl same

theorem mono {weaker : α → Prop} {task : Task α} (leads : Leads start stop good task)
    (fine : ∀ a, good a → weaker a) : Leads start stop weaker task :=
  Obeys.mono leads fun a _ ends => ends.imp_right fun ends => ⟨ends.1, fine a ends.2⟩

theorem bind {d : Task α} {more : α → Task β} (first : Leads start middle good d)
    (rest : ∀ a, good a → Leads middle stop good' (more a)) :
    Leads start stop good' (d.bind more) := by
  refine Obeys.bind (Obeys.mono first fun a footing ends => ?_)
  rcases ends with rfl | ⟨rfl, fine⟩
  · exact of_shaken (more a)
  · exact rest a fine

/-- What makes no calls on the storage leaves a task where it stands. -/
theorem of_only {kind : HandlerCall → Prop} {task : Task α} (only : task.Only kind)
    (apart : ∀ call, ¬kind (.store call)) : Leads footing footing (fun _ => True) task := by
  refine Obeys.mono (only.obeys fun x member => ?_) fun _ _ same => .inr ⟨same, trivial⟩
  obtain ⟨call, answer⟩ := x
  cases call with
  | store call => exact absurd member (apart call)
  | source | lock | task => rfl

end Leads

namespace Keeps

theorem seq {x : Action α} {f : α → Action β} (first : Keeps footing good x)
    (rest : ∀ a, good a → Keeps footing good' (f a)) : Keeps footing good' (x >>= f) := by
  refine Leads.bind (d := x.run) first fun result fine => ?_
  cases result with
  | ok a => exact rest a fine
  | error e => exact Leads.done trivial

theorem transact {call : StoreCall} (stays : ∀ answer, footing.next call answer = some footing) :
    Keeps footing (fun _ => True) (transact call) := by
  intro answer
  refine ⟨footing, stays answer, ?_⟩
  cases answer <;> exact Leads.done trivial

theorem checkCancelled {ctx : Context} : Keeps footing (fun _ => True) (checkCancelled ctx) := by
  intro cancelled
  refine ⟨footing, rfl, ?_⟩
  cases cancelled <;> exact Leads.done trivial

theorem askSource {call : SourceCall} : Keeps footing (fun _ => True) (askSource call) := by
  intro answer
  refine ⟨footing, rfl, ?_⟩
  cases answer <;> exact Leads.done trivial

end Keeps

end Footing

open Footing

/-- A statement whose operation can run. -/
def Statement.Runs (st : Statement) : Prop := st.operation.validate = .ok ()

/-- The reducers make statements only that can run. -/
def Registry.Runs (r : Registry) : Prop := ∀ e st, r.reduce e = .ok st → st.Runs

namespace Registry.Runs

variable {h : Handler} {ctx : Context} {batch : List Statement}

theorem reduceAll (runs : h.registry.Runs) {events : List Event}
    (reduced : h.registry.reduceAll events = .ok batch) : ∀ st ∈ batch, st.Runs := by
  intro st among
  obtain ⟨e, -, reduced⟩ := Registry.exists_event reduced among
  exact runs e st reduced

theorem fill (runs : h.registry.Runs) {events : List Event} {steps : List Step}
    (filled : h.fill events = .ok steps) : ∀ st ∈ Step.statements steps, st.Runs := by
  have reduced := h.fill_statements events
  rw [filled] at reduced
  exact runs.reduceAll reduced.symm

theorem fillGap (runs : h.registry.Runs) (st : Statement) (last : Nat) :
    Keeps .inside (fun steps => ∀ st ∈ Step.statements steps, st.Runs)
      (h.fillGap st last) := by
  unfold Handler.fillGap
  split
  next => exact Leads.done (List.forall_mem_nil _)
  next =>
    refine Keeps.seq Keeps.askSource fun events _ => ?_
    cases filled : h.fill events with
    | ok steps => exact Leads.done (runs.fill filled)
    | error e => exact Leads.done trivial

theorem plan (runs : h.registry.Runs) (known : SequenceMap) (index : Nat)
    (valid : ∀ st ∈ batch, st.Runs) :
    Keeps .inside (fun steps => ∀ st ∈ Step.statements steps, st.Runs)
      (h.plan known index batch) := by
  induction batch generalizing known index with
  | nil => exact Leads.done (List.forall_mem_nil _)
  | cons st rest ih =>
    obtain ⟨first, others⟩ := List.forall_mem_cons.mp valid
    unfold Handler.plan
    dsimp only
    split
    next => exact Keeps.seq (ih _ _ others) fun steps planned => Leads.done planned
    next =>
      refine Keeps.seq (runs.fillGap st _) fun missing filled => ?_
      refine Keeps.seq (ih _ _ others) fun later planned => ?_
      have whole : ∀ other ∈ Step.statements (missing ++ .run st (some index) :: later), other.Runs := by
        rw [Step.statements_append, Step.statements_run, List.forall_mem_append]
        exact ⟨filled, List.forall_mem_cons.mpr ⟨first, planned⟩⟩
      exact Leads.done whole

/-- What comes after an operation has failed does not matter. -/
theorem carryOut {steps : List Step} (valid : ∀ st ∈ Step.statements steps, st.Runs) (p : Progress) :
    Keeps .inside (fun _ => True) (h.carryOut ctx p steps) := by
  induction steps generalizing p with
  | nil => exact Leads.done trivial
  | cons step rest ih =>
    cases step with
    | skip index => exact ih valid _
    | run st origin =>
      obtain ⟨here, others⟩ := List.forall_mem_cons.mp valid
      have here : st.operation.validate = .ok () := here
      refine Keeps.seq Keeps.checkCancelled fun _ _ => ?_
      refine Keeps.seq (Keeps.transact fun _ => rfl) fun _ _ executed => ?_
      cases executed with
      | ok value =>
        refine ⟨.inside, by simp only [after, next, here], ?_⟩
        exact Keeps.seq (Keeps.transact fun _ => rfl) fun _ _ => ih others _
      | error e => exact ⟨.shaken, by simp only [after, next, here], Leads.of_shaken _⟩

theorem storeSequences (entries : List (SequenceKey × Nat)) :
    Keeps .inside (fun _ => True) (h.storeSequences entries) := by
  induction entries with
  | nil => exact Leads.done trivial
  | cons entry rest ih =>
    refine Keeps.seq (Keeps.transact fun _ => rfl) fun written _ => ?_
    cases written with
    | zero => exact Leads.done trivial
    | succ rows => exact ih

theorem applyBatch (runs : h.registry.Runs) (valid : ∀ st ∈ batch, st.Runs) :
    Keeps .inside (fun _ => True) (h.applyBatch ctx batch) := by
  refine Keeps.seq (Keeps.transact fun _ => rfl) fun rows _ => ?_
  refine Keeps.seq (runs.plan _ 0 valid) fun steps planned => ?_
  refine Keeps.seq (carryOut planned {}) fun progress _ => ?_
  refine Keeps.seq (storeSequences _) fun _ _ => ?_
  exact Keeps.seq Keeps.checkCancelled fun _ _ => Leads.done trivial

/-- Whether a batch is applied or not, its transaction is over in the end. -/
theorem conclude (runs : h.registry.Runs) (valid : ∀ st ∈ batch, st.Runs) :
    Leads .inside .outside (fun _ => True) (h.conclude ctx batch).run := by
  -- a batch that is not applied is rolled back before its error is passed on, so the two ends of
  -- `applyBatch` go on from the same footing to different calls
  refine Obeys.bind (Obeys.bind (Obeys.mono (runs.applyBatch valid) fun applied footing ends => ?_))
  rcases ends with rfl | ⟨rfl, -⟩
  · refine (obeys_shaken _).mono fun _ _ shaken => ?_
    rw [shaken]
    exact Leads.of_shaken _
  · cases applied with
    | ok progress =>
      intro committed
      refine ⟨.outside, rfl, ?_⟩
      cases committed with
      | ok value => cases progress.stopped <;> exact Leads.done trivial
      | error e => exact Leads.done trivial
    | error e => exact fun _ => ⟨.outside, rfl, .inr ⟨rfl, trivial⟩⟩

theorem update (runs : h.registry.Runs) (valid : ∀ st ∈ batch, st.Runs) :
    Keeps .outside (fun _ => True) (h.update ctx batch) := by
  by_cases empty : batch = []
  · subst empty
    exact Leads.done trivial
  · rw [Keeps, h.update_opening ctx empty]
    refine fun cancelled => ⟨.outside, rfl, ?_⟩
    cases cancelled with
    | true => exact Leads.done trivial
    | false =>
      intro begun
      cases begun with
      | ok value => exact ⟨.inside, rfl, (runs.conclude valid).mono fun result _ => gives_true result⟩
      | error e => exact ⟨.outside, rfl, Leads.done trivial⟩

theorem attempt (runs : h.registry.Runs) (valid : ∀ st ∈ batch, st.Runs) :
    Keeps .outside (fun _ => True) (attempt (h.update ctx batch)) :=
  Leads.bind (runs.update valid) fun _ _ => Leads.done trivial

theorem applyWithRetries (runs : h.registry.Runs) (retries offset : Nat)
    (valid : ∀ st ∈ batch, st.Runs) :
    Keeps .outside (fun _ => True) (h.applyWithRetries ctx retries offset batch) := by
  induction retries generalizing offset batch with
  | zero =>
    rw [Handler.applyWithRetries]
    refine Keeps.seq (runs.attempt valid) fun result _ => ?_
    split <;> exact Leads.done trivial
  | succ retries ih =>
    rw [Handler.applyWithRetries]
    refine Keeps.seq (runs.attempt valid) fun result _ => ?_
    split
    next => exact Leads.done trivial
    next =>
      refine fun waited => ⟨.outside, rfl, ?_⟩
      cases waited with
      | true => exact ih _ fun st among => valid st (List.mem_of_mem_drop among)
      | false => exact Leads.done trivial
    next => exact Leads.done trivial

theorem process (runs : h.registry.Runs) (events : List Event) :
    Keeps .outside (fun _ => True) (h.process ctx events) := by
  unfold Handler.process
  split
  next => exact Leads.done trivial
  next statements reduced => exact runs.applyWithRetries _ _ (runs.reduceAll reduced)

theorem searchQuery (instances : List InstanceId) :
    Keeps .outside (fun _ => True) (h.searchQuery ctx instances) := by
  refine fun rows => ⟨.outside, rfl, ?_⟩
  cases rows <;> exact Leads.done trivial

theorem catchUp (runs : h.registry.Runs) (instances : List InstanceId) (pages : Nat) :
    Keeps .outside (fun _ => True) (h.catchUp instances pages ctx) := by
  induction pages generalizing ctx with
  | zero => exact Leads.done trivial
  | succ pages ih =>
    refine Keeps.seq Keeps.checkCancelled fun _ _ => ?_
    refine Keeps.seq (searchQuery instances) fun query _ => ?_
    refine Keeps.seq Keeps.askSource fun events _ => ?_
    split
    next => exact Leads.done trivial
    next =>
      refine Keeps.seq (runs.process events) fun _ _ => ?_
      split
      next => exact Leads.done trivial
      next => exact ih

theorem trigger (runs : h.registry.Runs) (pages : Nat) (instances : List InstanceId) :
    Keeps .outside (fun _ => True) (h.trigger pages ctx instances) := by
  unfold Handler.trigger
  split
  next => exact Leads.done trivial
  next => exact runs.catchUp _ pages
  next => exact runs.catchUp _ pages

theorem runUnlocked (runs : h.registry.Runs) (pages : Nat) (instances : List InstanceId) :
    Leads .outside .outside (fun _ => True) (h.runUnlocked pages ctx instances) := by
  refine Leads.bind (runs.trigger pages instances) fun result _ => ?_
  split <;> exact Leads.done trivial

theorem underLock {α : Type} {session : Nat} {instances : List InstanceId} {work : Context → Task α}
    (works : ∀ ctx, Leads .outside .outside (fun _ => True) (work ctx)) :
    Leads .outside .outside (fun _ => True) (h.underLock ctx session instances work) := by
  refine fun token => ⟨.outside, rfl, fun _ => ⟨.outside, rfl, ?_⟩⟩
  refine Leads.bind (d := work (ctx.withToken token)) (works _) fun result _ => ?_
  exact fun _ => ⟨.outside, rfl, fun _ => ⟨.outside, rfl, fun _ => ⟨.outside, rfl,
    Leads.done trivial⟩⟩⟩

theorem runBatch (runs : h.registry.Runs) (pages : Nat) (batch : Batch) :
    Leads .outside .outside (fun _ => True) (h.runBatch pages batch) := by
  unfold Handler.runBatch
  split
  next =>
    refine fun answer => ⟨.outside, rfl, ?_⟩
    cases answer with
    | error e => exact Leads.done trivial
    | ok session =>
      have works (ctx : Context) :
          Leads .outside .outside (fun _ => True) (h.runUnlocked pages ctx batch.instances) :=
        runs.runUnlocked pages batch.instances
      exact underLock works
  next => exact runs.runUnlocked pages _

/-- A sweep leaves the storage to its batches. -/
theorem sweep (state : SchedulerState) :
    Leads .outside .outside (fun _ => True) (h.sweep ctx state).run := by
  have aside {α : Type} {d : Task α} (only : d.Only HandlerCall.Aside) :
      Leads .outside .outside (fun _ => True) d := Leads.of_only only fun _ => id
  refine fun started => ⟨.outside, rfl, fun markers => ⟨.outside, rfl, ?_⟩⟩
  cases markers with
  | error e => exact Leads.done trivial
  | ok markers =>
    show Leads .outside .outside (fun _ => True) (ExceptT.run (if markers.isEmpty then _ else _))
    split
    next =>
      refine fun granted => ⟨.outside, rfl, ?_⟩
      cases granted with
      | error e => exact Leads.done trivial
      | ok session =>
        have works (ctx : Context) :
            Leads .outside .outside (fun _ => True) (h.firstRunLocked ctx state started).run :=
          aside (Handler.firstRunLocked_aside state started)
        exact underLock works
    next => exact aside (Handler.steadySweep_aside state started)

theorem startSchedule : Leads .outside .outside (fun _ => True) h.startSchedule := by
  unfold Handler.startSchedule
  split
  next => exact fun _ => ⟨.outside, rfl, fun _ => ⟨.outside, rfl, Leads.done trivial⟩⟩
  next => exact fun _ => ⟨.outside, rfl, Leads.done trivial⟩

theorem round (runs : h.registry.Runs) (token : Token) (state : WorkerState) :
    Leads .outside .outside (fun _ => True) (h.round token state) := by
  cases state with
  | intake subscription =>
    refine fun received => ⟨.outside, rfl, ?_⟩
    cases received with
    | none => exact Leads.done trivial
    | some events =>
      show Leads .outside .outside (fun _ => True) (if List.isEmpty _ then _ else _)
      split
      next => exact Leads.done trivial
      next =>
        refine fun child => ⟨.outside, rfl, ?_⟩
        exact Leads.bind (d := (h.process { token := child } _).run) (runs.process _)
          fun _ _ => Leads.done trivial
  | schedule due state =>
    refine fun now => ⟨.outside, rfl, ?_⟩
    cases now with
    | none => exact Leads.done trivial
    | some now =>
      refine fun child => ⟨.outside, rfl, ?_⟩
      refine Leads.bind (d := (h.sweep { token := child } state).run) (sweep state) fun result _ => ?_
      split <;> exact Leads.done trivial

end Registry.Runs

end ReadModel
