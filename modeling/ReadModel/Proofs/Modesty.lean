import ReadModel.Proofs.Protocol

/-!
What batches leave alone.

A batch of a sweep pushes nothing and starts no batches of its own, and it takes and gives up no locks
but those of its instances; what it does under its locks is nothing to the locks. Between the begin and
the end of a transaction this is part of the protocol that an update keeps to.
-/

namespace ReadModel

open Dialogue (Only)

/-- A call that pushes nothing, starts no batches and leaves the lock of the system instance alone. -/
def HandlerCall.Modest : HandlerCall → Prop
  | .source (.push _) | .task (.batches ..) => False
  | .lock (.acquire _ _ instances) | .lock (.release _ instances) => systemInstance ∉ instances
  | _ => True

/-- A call that pushes nothing, starts no batches and has nothing to do with locks. -/
def HandlerCall.Inward : HandlerCall → Prop
  | .source (.push _) | .task (.batches ..) | .lock _ => False
  | _ => True

theorem HandlerCall.Inward.modest {call : HandlerCall} (inward : call.Inward) : call.Modest := by
  cases call with
  | store => trivial
  | source c => cases c <;> trivial
  | lock c => exact inward.elim
  | task c => cases c <;> trivial

theorem HandlerCall.nonempty_answer (call : HandlerCall) : Nonempty call.Answer := by
  cases call with
  | store c => exact ⟨.error (.database c.name "")⟩
  | source => exact ⟨.error (.storage "")⟩
  | lock c =>
    cases c with
    | acquire | release => exact ⟨.error .noInstances⟩
    | watch | stop => exact ⟨()⟩
  | task c => cases c <;> exact ⟨default⟩

theorem Stage.inward_of_after {limit : Nat} {stage next : Stage} {x : Exchange handlerInterface}
    (step : stage.after limit x = some next) : x.call.Inward := by
  obtain ⟨call, answer⟩ := x
  cases call with
  | store => trivial
  | source c => cases c <;> trivial
  | lock c => cases step
  | task c => cases c <;> trivial

theorem Dialogue.Only.seq {α β : Type} {kind : HandlerCall → Prop} {x : Action α}
    {f : α → Action β} (first : x.run.Only kind) (rest : ∀ a, (f a).run.Only kind) :
    (x >>= f).run.Only kind := by
  refine Only.bind (d := x.run) first fun result => ?_
  cases result with
  | ok a => exact rest a
  | error e => trivial

/-- A program upholds what none of its calls can break. -/
theorem Setting.Upholds.of_only {I : Interface} {α σ : Type} {S : Setting I σ}
    {kind : I.Call → Prop} {d : Dialogue I α} {s : σ} (only : d.Only kind)
    (own : ∀ c s, kind c → S.self s (S.answer c s).2) : S.Upholds (fun _ _ => True) d s := by
  induction d generalizing s with
  | done a => trivial
  | ask c next ih => exact fun t _ _ => ⟨own c t only.1, ih _ (only.2 _)⟩

namespace Handler

variable {h : Handler} {ctx : Context}

theorem update_inward (batch : List Statement) :
    (h.update ctx batch).run.Only HandlerCall.Inward := by
  by_cases empty : batch = []
  · subst empty
    trivial
  · rw [h.update_opening ctx empty]
    refine ⟨trivial, fun cancelled => ?_⟩
    cases cancelled with
    | true => trivial
    | false =>
      refine ⟨trivial, fun begun => ?_⟩
      cases begun with
      | error e => trivial
      | ok value =>
        exact (h.conclude_obeys ctx batch).only Stage.inward_of_after HandlerCall.nonempty_answer

theorem applyWithRetries_inward (retries offset : Nat) (statements : List Statement) :
    (h.applyWithRetries ctx retries offset statements).run.Only HandlerCall.Inward := by
  induction retries generalizing offset statements with
  | zero =>
    rw [applyWithRetries]
    refine .seq (.bind (update_inward statements) fun _ => trivial) fun result => ?_
    split <;> trivial
  | succ retries ih =>
    rw [applyWithRetries]
    refine .seq (.bind (update_inward statements) fun _ => trivial) fun result => ?_
    split
    next => trivial
    next =>
      refine ⟨trivial, fun waited => ?_⟩
      cases waited with
      | true => exact ih _ _
      | false => trivial
    next => trivial

theorem process_inward (events : List Event) :
    (h.process ctx events).run.Only HandlerCall.Inward := by
  unfold Handler.process
  split
  next => trivial
  next statements _ => exact applyWithRetries_inward _ _ statements

theorem process_modest (events : List Event) :
    (h.process ctx events).run.Only HandlerCall.Modest :=
  (process_inward events).mono fun _ inward => inward.modest

theorem searchQuery_inward (instances : List InstanceId) :
    (h.searchQuery ctx instances).run.Only HandlerCall.Inward := by
  refine ⟨trivial, fun answer => ?_⟩
  cases answer <;> trivial

theorem filter_inward (q : SearchQuery) :
    (askSource (.filter q)).run.Only HandlerCall.Inward := by
  refine ⟨trivial, fun answer => ?_⟩
  cases answer <;> trivial

theorem catchUp_inward (instances : List InstanceId) (pages : Nat) :
    (h.catchUp instances pages ctx).run.Only HandlerCall.Inward := by
  induction pages generalizing ctx with
  | zero => trivial
  | succ pages ih =>
    refine .seq ⟨trivial, fun cancelled => by cases cancelled <;> trivial⟩ fun _ => ?_
    refine .seq (searchQuery_inward instances) fun q => ?_
    refine .seq (filter_inward q) fun events => ?_
    split
    next => trivial
    next =>
      refine .seq (process_inward events) fun _ => ?_
      split
      next => trivial
      next => exact ih

theorem runUnlocked_inward (pages : Nat) (instances : List InstanceId) :
    (h.runUnlocked pages ctx instances).Only HandlerCall.Inward := by
  have triggered : (h.trigger pages ctx instances).run.Only HandlerCall.Inward := by
    unfold Handler.trigger
    split
    next => trivial
    next => exact catchUp_inward _ pages
    next => exact catchUp_inward _ pages
  refine .bind triggered fun result => ?_
  split <;> trivial

theorem runUnlocked_modest (pages : Nat) (instances : List InstanceId) :
    (h.runUnlocked pages ctx instances).Only HandlerCall.Modest :=
  (runUnlocked_inward pages instances).mono fun _ inward => inward.modest

theorem underLock_modest {α : Type} {session : Nat} {instances : List InstanceId}
    {work : Context → Task α} (out : systemInstance ∉ instances)
    (rest : ∀ ctx, (work ctx).Only HandlerCall.Modest) :
    (h.underLock ctx session instances work).Only HandlerCall.Modest := by
  refine ⟨trivial, fun token => ⟨trivial, fun _ => ?_⟩⟩
  refine .bind (d := work (ctx.withToken token)) (rest _) fun result => ?_
  exact ⟨trivial, fun _ => ⟨trivial, fun _ => ⟨out, fun _ => trivial⟩⟩⟩

/-- A batch leaves the system instance alone where it is not asked to lock it. -/
theorem runBatch_modest {batch : Batch} (out : batch.locked = true → systemInstance ∉ batch.instances)
    (pages : Nat) : (h.runBatch pages batch).Only HandlerCall.Modest := by
  unfold Handler.runBatch
  split
  next locked =>
    refine ⟨out locked, fun answer => ?_⟩
    cases answer with
    | error e => trivial
    | ok session =>
      change (h.underLock batch.context session batch.instances
        fun ctx => h.runUnlocked pages ctx batch.instances).Only HandlerCall.Modest
      exact underLock_modest (out locked) fun ctx => runUnlocked_modest pages batch.instances
  next => exact runUnlocked_modest pages _

end Handler

end ReadModel
