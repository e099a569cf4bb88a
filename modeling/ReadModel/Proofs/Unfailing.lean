import ReadModel.Proofs.Addressing
import ReadModel.Proofs.Footing
import ReadModel.Proofs.Reaching
import ReadModel.Proofs.Views

/-!
Without faults nothing fails.

A `Crew` of handlers is at work on one world. Each of them has some duty, and they take turns call by
call, in any order. As long as the storage has no faults, none of them counts a failure if their reducers
make only what can run; those of users and organizations do.
-/

namespace ReadModel

open Dialogue (Obeys)

/-- What a handler can be at work on: events that it is called with, those that instances have pending, a
batch of a sweep, a sweep, or the rounds of a worker. -/
inductive Duty where
  | update (ctx : Context) (events : List Event)
  | process (ctx : Context) (events : List Event)
  | trigger (pages : Nat) (ctx : Context) (instances : List InstanceId)
  | batch (pages : Nat) (batch : Batch)
  | sweep (ctx : Context) (state : SchedulerState)
  | schedule
  | round (token : Token) (state : WorkerState)

/-- What a handler does on duty. -/
def Handler.serve (h : Handler) : Duty → Task Unit
  | .update ctx events =>
    match h.registry.reduceAll events with
    | .ok statements => (h.update ctx statements).run.bind fun _ => .done ()
    | .error _ => .done ()
  | .process ctx events => (h.process ctx events).run.bind fun _ => .done ()
  | .trigger pages ctx instances => (h.trigger pages ctx instances).run.bind fun _ => .done ()
  | .batch pages batch => (h.runBatch pages batch).bind fun _ => .done ()
  | .sweep ctx state => (h.sweep ctx state).run.bind fun _ => .done ()
  | .schedule => h.startSchedule.bind fun _ => .done ()
  | .round token state => (h.round token state).bind fun _ => .done ()

/-- Surroundings that answer in a given way and change nothing. -/
def Surroundings.replying (reply : (call : TaskCall) → call.Answer) : Surroundings :=
  fun call w => (reply call, w)

/-- Handlers at work on a world. Each makes its calls under its position. -/
structure Crew where
  world : World
  tasks : List (Task Unit) := []

namespace Crew

/-- What can happen next: a handler is given a duty, a task makes its next call, a task is dropped, or the
world changes in some way. What a task asks of time and of other tasks is answered somehow. -/
inductive Move where
  | assign (h : Handler) (duty : Duty)
  | turn (task : Nat) (reply : (call : TaskCall) → call.Answer)
  | drop (task : Nat)
  | change (after : World → World)

/-- What a crew is like after a move. -/
def move (crew : Crew) : Move → Crew
  | .assign h duty => { crew with tasks := crew.tasks ++ [h.serve duty] }
  | .turn task reply =>
    match crew.tasks[task]? with
    | some (.ask call next) =>
      if crew.world.waits task call then crew
      else
        let (answer, world) := World.answer (.replying reply) task call crew.world
        { world, tasks := crew.tasks.set task (next answer) }
    | _ => crew
  | .drop task =>
    { world :=
        if crew.world.transactionOf = some task then
          { crew.world with store := crew.world.store.abandon, transactionOf := none }
        else crew.world
      tasks := crew.tasks.set task (.done ()) }
  | .change after => { crew with world := after crew.world }

/-- What a crew is like after moves. -/
def run (crew : Crew) (moves : List Move) : Crew := moves.foldl move crew

/-- A move brings in no faults, and leaves the data and the open transaction to the tasks. -/
def Move.Faultless : Move → Prop
  | .change after => ∀ w, (after w).store.data = w.store.data ∧
      (after w).store.transaction = w.store.transaction ∧
      (after w).transactionOf = w.transactionOf ∧
      (w.store.faults.values = [] → (after w).store.faults.values = [])
  | .assign .. | .turn .. | .drop _ => True

end Crew

/-- The failures of events, by projections, instances and sequences. -/
abbrev Failures := Dict (String × InstanceId × Nat) FailedEvent

/-- These are the failures in the data, in the open transaction and in its savepoints. -/
structure MemoryStore.Records (s : MemoryStore) (failures : Failures) : Prop where
  data : s.data.failures = failures
  working : ∀ tx ∈ s.transaction, ∀ d ∈ tx.working :: tx.savepoints, d.failures = failures

theorem StoreData.failures_step (d : StoreData) (faults : Faults) {call : StoreCall}
    (silent : ∀ projection st error, call ≠ .recordFailure projection st error) :
    (d.step faults call).failures = d.failures := by
  cases call with
  | recordFailure projection st error => exact absurd rfl (silent projection st error)
  | upsertSequence =>
    rw [step]
    split <;> rfl
  | begin | currentSequences | failureCount | lockSequences | savepoint | rollbackToSavepoint
  | releaseSavepoint | execute | commit | rollback => rfl

/-- Failures are recorded by one kind of call only. -/
theorem MemoryStore.Records.answer {s : MemoryStore} {failures : Failures} (records : s.Records failures)
    {call : StoreCall} (silent : ∀ projection st error, call ≠ .recordFailure projection st error) :
    (s.answer call).2.Records failures where
  data := by
    by_cases commits : call = .commit
    · subst commits
      unfold MemoryStore.answer
      split
      next => exact records.data
      next tx isOpen => exact records.working tx isOpen _ (List.mem_cons_self ..)
    · rw [s.answer_data_of_ne_commit commits, records.data]
  working := s.forall_answer records.working call (fun _ => records.data) fun d kept =>
    (d.failures_step s.faults silent).trans kept

/-- Where a task stands with the open transaction. -/
def World.footing (w : World) (task : Nat) : Footing :=
  if w.transactionOf = some task then .inside else .outside

/-- What is true of a world without faults in which nothing fails. -/
structure World.Unfailing (w : World) (failures : Failures) : Prop where
  faultless : w.store.faults.values = []
  owned : w.store.transaction.isSome = w.transactionOf.isSome
  records : w.store.Records failures

namespace World

theorem Unfailing.of_same {w w' : World} {failures : Failures} (sound : w.Unfailing failures)
    (faultless : w'.store.faults.values = []) (data : w'.store.data = w.store.data)
    (transaction : w'.store.transaction = w.store.transaction)
    (owner : w'.transactionOf = w.transactionOf) : w'.Unfailing failures where
  faultless
  owned := by rw [transaction, owner, sound.owned]
  records := ⟨data ▸ sound.records.data, transaction ▸ sound.records.working⟩

variable {w : World} {failures : Failures} {task : Nat} {call : StoreCall} {stage : Footing}

theorem Unfailing.execute (sound : w.Unfailing failures) {op : Operation} {value : Unit}
    (valid : op.validate = .ok value) (isOpen : w.store.transaction.isSome = true) :
    (w.answerStore task (.execute op)).1 = .ok () := by
  obtain ⟨tx, isOpen⟩ := Option.isSome_iff_exists.mp isOpen
  have spared : ∀ leaf ∈ op.leaves, w.store.faults.spares leaf = true := by
    simp [Faults.spares, Faults.error?, sound.faultless]
  have success := (Operation.performs_run w.store.faults op tx.working.tables valid).error.mpr spared
  rw [World.answerStore_answer (by simp)]
  simp only [MemoryStore.answer, isOpen, success]

theorem footing_answerStore (w : World) (task : Nat) (call : StoreCall) (other : Nat) :
    (w.answerStore task call).2.footing other =
      if (w.store.answer call).2.transaction.isSome ∧ other = task then .inside else .outside := by
  rw [footing, answerStore_world]
  dsimp only
  cases (w.store.answer call).2.transaction.isSome <;> simp [eq_comm]

/-- A call that is in order, and is not waiting, does not record a failure, and moves the task alone. -/
theorem Unfailing.answerStore (sound : w.Unfailing failures)
    (ready : w.waits task (.store call) = false)
    (step : (w.footing task).next call (w.answerStore task call).1 = some stage) :
    (w.answerStore task call).2.Unfailing failures ∧
      (w.answerStore task call).2.footing task = stage ∧
      ∀ other, other ≠ task → (w.answerStore task call).2.footing other = w.footing other := by
  have elsewhere (free : ∀ other, other ≠ task → w.footing other = .outside) (other : Nat)
      (apart : other ≠ task) : (w.answerStore task call).2.footing other = w.footing other := by
    rw [free other apart, footing_answerStore, if_neg fun same => apart same.2]
  have unfailing (silent : ∀ projection st error, call ≠ .recordFailure projection st error) :
      (w.answerStore task call).2.Unfailing failures := by
    rw [answerStore_world]
    refine ⟨?_, ?_, sound.records.answer silent⟩
    · rw [MemoryStore.faults_answer, sound.faultless]
    · dsimp only
      cases (w.store.answer call).2.transaction.isSome <;> rfl
  rw [footing_answerStore]
  by_cases mine : w.transactionOf = some task
  · have isOpen : w.store.transaction.isSome = true := by rw [sound.owned, mine]; rfl
    have free (other : Nat) (apart : other ≠ task) : w.footing other = .outside :=
      if_neg fun own => apart (Option.some.inj (own.symm.trans mine))
    have still (working : call.working) : (w.store.answer call).2.transaction.isSome = true :=
      (w.store.isSome_answer working).trans isOpen
    rw [footing, if_pos mine] at step
    cases call with
    | begin | currentSequences | failureCount | recordFailure => cases step
    | execute op =>
      cases valid : op.validate with
      | error e => simp only [Footing.next, valid] at step; cases step
      | ok value =>
        rw [sound.execute valid isOpen] at step
        simp only [Footing.next, valid, Option.some.injEq] at step
        exact ⟨unfailing (by simp), (if_pos ⟨still trivial, rfl⟩).trans step, elsewhere free⟩
    | commit =>
      have closed : (w.store.answer .commit).2.transaction.isSome = false := by
        rw [w.store.transaction_commit, Option.isSome_none]
      obtain rfl := Option.some.inj step
      exact ⟨unfailing (by simp), if_neg (by simp [closed]), elsewhere free⟩
    | rollback =>
      obtain rfl := Option.some.inj step
      exact ⟨unfailing (by simp), if_neg (by simp [MemoryStore.answer]), elsewhere free⟩
    | lockSequences | savepoint | rollbackToSavepoint | releaseSavepoint | upsertSequence =>
      obtain rfl := Option.some.inj step
      exact ⟨unfailing (by simp), if_pos ⟨still trivial, rfl⟩, elsewhere free⟩
  · rw [footing, if_neg mine] at step
    have closed (waiting : w.store.blocks call = w.store.transaction.isSome) :
        w.store.transaction.isSome = false := by
      simpa [waits, blocks, waiting, mine] using ready
    have free (closed : w.store.transaction.isSome = false) (other : Nat) (_ : other ≠ task) :
        w.footing other = .outside := by
      have none : w.transactionOf = none := by
        rw [← Option.not_isSome_iff_eq_none, ← sound.owned, closed]
        exact Bool.false_ne_true
      rw [footing, none, if_neg (by simp)]
    cases call with
    | begin =>
      obtain rfl := Option.some.inj step
      exact ⟨unfailing (by simp), if_pos ⟨rfl, rfl⟩, elsewhere (free (closed rfl))⟩
    | currentSequences | failureCount =>
      obtain rfl := Option.some.inj step
      refine ⟨unfailing (by simp), if_neg ?_, elsewhere (free (closed rfl))⟩
      simp [MemoryStore.answer, closed rfl]
    | lockSequences | savepoint | rollbackToSavepoint | releaseSavepoint | execute | upsertSequence
    | recordFailure | commit | rollback => cases step

theorem answer_of_ne_store (reply : (call : TaskCall) → call.Answer) (w : World) (task : Nat)
    {call : HandlerCall} (other : ∀ c, call ≠ .store c) :
    (World.answer (.replying reply) task call w).2.store = w.store ∧
      (World.answer (.replying reply) task call w).2.transactionOf = w.transactionOf := by
  cases call with
  | store c => exact absurd rfl (other c)
  | source c => cases c <;> exact ⟨rfl, rfl⟩
  | lock c => cases c <;> exact ⟨rfl, rfl⟩
  | task c => cases c <;> exact ⟨rfl, rfl⟩

/-- A call in order leaves nothing failed, and moves the task alone. -/
theorem Unfailing.answer {reply : (call : TaskCall) → call.Answer} (sound : w.Unfailing failures)
    {call : HandlerCall} (ready : w.waits task call = false)
    (step : (w.footing task).after ⟨call, (World.answer (.replying reply) task call w).1⟩ = some stage) :
    (World.answer (.replying reply) task call w).2.Unfailing failures ∧
      (World.answer (.replying reply) task call w).2.footing task = stage ∧
      ∀ other, other ≠ task →
        (World.answer (.replying reply) task call w).2.footing other = w.footing other := by
  by_cases stored : ∃ c, call = .store c
  · obtain ⟨c, rfl⟩ := stored
    exact sound.answerStore ready step
  · obtain ⟨store, owner⟩ := w.answer_of_ne_store reply task fun c same => stored ⟨c, same⟩
    generalize World.answer (.replying reply) task call w = answered at store owner step ⊢
    have footing (other : Nat) : answered.2.footing other = w.footing other := by
      rw [World.footing, World.footing, owner]
    have stays : (w.footing task).after ⟨call, answered.1⟩ = some (w.footing task) := by
      cases call with
      | store c => exact absurd ⟨c, rfl⟩ stored
      | source | lock | task => rfl
    obtain rfl := Option.some.inj (stays.symm.trans step)
    refine ⟨sound.of_same ?_ ?_ ?_ owner, footing task, fun other _ => footing other⟩
    · rw [store, sound.faultless]
    · rw [store]
    · rw [store]

end World

namespace Registry.Runs

/-- Whatever its duty is, a handler keeps to the order. -/
theorem serve {h : Handler} (runs : h.registry.Runs) (duty : Duty) :
    Footing.Leads .outside .outside (fun _ => True) (h.serve duty) := by
  have ends {α : Type} {good : α → Prop} {d : Task α} (leads : Footing.Leads .outside .outside good d) :
      Footing.Leads .outside .outside (fun _ => True) (d.bind fun _ => .done ()) :=
    leads.bind fun _ _ => Footing.Leads.done trivial
  cases duty with
  | update ctx events =>
    dsimp only [Handler.serve]
    split
    next statements reduced => exact ends (runs.update (runs.reduceAll reduced))
    next => exact Footing.Leads.done trivial
  | process ctx events => exact ends (runs.process events)
  | trigger pages ctx instances => exact ends (runs.trigger pages instances)
  | batch pages batch => exact ends (runs.runBatch pages batch)
  | sweep ctx state => exact ends (sweep state)
  | schedule => exact ends startSchedule
  | round token state => exact ends (runs.round token state)

end Registry.Runs

namespace Crew

variable {crew : Crew} {failures : Failures}

/-- In a crew nothing fails, and each task goes on in order from where it stands. -/
structure Sound (crew : Crew) (failures : Failures) : Prop where
  world : crew.world.Unfailing failures
  seated : ∀ task, crew.world.transactionOf = some task → task < crew.tasks.length
  tasks : ∀ (task : Nat) (d : Task Unit), crew.tasks[task]? = some d →
    d.Obeys Footing.after (fun _ _ => True) (crew.world.footing task)

/-- What is left for a task to do is put in the place of what was left before. -/
theorem Sound.put (sound : crew.Sound failures) {world : World} {task : Nat} {d : Task Unit}
    (there : task < crew.tasks.length) (unfailing : world.Unfailing failures)
    (own : d.Obeys Footing.after (fun _ _ => True) (world.footing task))
    (others : ∀ other, other ≠ task → world.footing other = crew.world.footing other) :
    Sound { world, tasks := crew.tasks.set task d } failures where
  world := unfailing
  seated other owner := by
    rw [List.length_set]
    by_cases same : other = task
    · rwa [same]
    · -- a task that owns the transaction now has owned it before, as its footing is the same
      refine sound.seated other (Classical.byContradiction fun foreign => ?_)
      have footing := others other same
      rw [World.footing, World.footing, if_pos owner, if_neg foreign] at footing
      cases footing
  tasks other d' found := by
    by_cases same : other = task
    · subst same
      rw [List.getElem?_set_self there] at found
      obtain rfl := Option.some.inj found
      exact own
    · rw [List.getElem?_set_ne (Ne.symm same)] at found
      rw [others other same]
      exact sound.tasks other d' found

theorem Sound.assign (sound : crew.Sound failures) {h : Handler} (runs : h.registry.Runs) (duty : Duty) :
    (crew.move (.assign h duty)).Sound failures where
  world := sound.world
  seated task owner := by
    rw [move, List.length_append]
    exact Nat.lt_add_right 1 (sound.seated task owner)
  tasks task d found := by
    rcases Nat.lt_trichotomy task crew.tasks.length with old | rfl | beyond
    · rw [move, List.getElem?_append_left old] at found
      exact sound.tasks task d found
    · rw [move, List.getElem?_concat_length] at found
      obtain rfl := Option.some.inj found
      have idle : crew.world.footing crew.tasks.length = .outside :=
        if_neg fun own => Nat.lt_irrefl _ (sound.seated _ own)
      rw [move, idle]
      exact Obeys.mono (runs.serve duty) fun _ _ _ => trivial
    · rw [move, List.getElem?_eq_none (List.length_append ▸ beyond)] at found
      cases found

theorem Sound.turn (sound : crew.Sound failures) (task : Nat) (reply : (call : TaskCall) → call.Answer) :
    (crew.move (.turn task reply)).Sound failures := by
  dsimp only [move]
  split
  next call next found =>
    split
    next => exact sound
    next free =>
      have there : task < crew.tasks.length := (List.getElem?_eq_some_iff.mp found).1
      have obeys := sound.tasks task _ found
      have ready : crew.world.waits task call = false := Bool.eq_false_iff.mpr free
      obtain ⟨stage, step, rest⟩ := obeys (World.answer (.replying reply) task call crew.world).1
      obtain ⟨unfailing, footing, others⟩ := sound.world.answer ready step
      exact sound.put there unfailing (footing ▸ rest) others
  next => exact sound

theorem Sound.drop (sound : crew.Sound failures) (task : Nat) :
    (crew.move (.drop task)).Sound failures := by
  dsimp only [Crew.move]
  split
  next own =>
    have free (other : Nat) (apart : other ≠ task) : crew.world.footing other = .outside :=
      if_neg fun owner => apart (Option.some.inj (owner.symm.trans own))
    have closed : World.Unfailing
        { crew.world with store := crew.world.store.abandon, transactionOf := none } failures :=
      ⟨sound.world.faultless, rfl, sound.world.records.data, nofun⟩
    exact sound.put (sound.seated task own) closed trivial fun other apart => (free other apart).symm
  next =>
    by_cases there : task < crew.tasks.length
    · exact sound.put there sound.world trivial fun _ _ => rfl
    · rw [List.set_eq_of_length_le (Nat.le_of_not_lt there)]
      exact sound

/-- Without new faults nothing comes to fail. -/
theorem Sound.move (sound : crew.Sound failures) {m : Move} (faultless : m.Faultless)
    (runs : ∀ h duty, m = .assign h duty → h.registry.Runs) : (crew.move m).Sound failures := by
  cases m with
  | assign h duty => exact sound.assign (runs h duty rfl) duty
  | turn task reply => exact sound.turn task reply
  | drop task => exact sound.drop task
  | change after =>
    obtain ⟨data, transaction, owner, values⟩ := faultless crew.world
    have unfailing := sound.world.of_same (values sound.world.faultless) data transaction owner
    refine ⟨unfailing, fun task own => ?_, fun task d found => ?_⟩
    · exact sound.seated task (owner.symm.trans own)
    · have footing : (after crew.world).footing task = crew.world.footing task := by
        rw [World.footing, World.footing, owner]
      exact footing.symm ▸ sound.tasks task d found

theorem Sound.run (sound : crew.Sound failures) {moves : List Move}
    (faultless : ∀ m ∈ moves, m.Faultless)
    (runs : ∀ h duty, .assign h duty ∈ moves → h.registry.Runs) : (crew.run moves).Sound failures := by
  induction moves generalizing crew with
  | nil => exact sound
  | cons m rest ih =>
    obtain ⟨here, later⟩ := List.forall_mem_cons.mp faultless
    have first : (crew.move m).Sound failures :=
      sound.move here fun h duty same => runs h duty (same ▸ List.mem_cons_self ..)
    exact ih first later fun h duty among => runs h duty (List.mem_cons_of_mem _ among)

end Crew

/-- The read models of users and of organizations. -/
def builtInProjections : List Projection := [usersProjection, orgsProjection]

/-- A handler of one of them. -/
def Handler.BuiltIn (h : Handler) : Prop :=
  ∃ p ∈ builtInProjections, h.name = p.name ∧ h.registry = p.registry

theorem suits_of_builtIn {p : Projection} (builtIn : p ∈ builtInProjections) {e : Event} {st : Statement}
    (reduced : p.registry.reduce e = .ok st) : st.Suits e := by
  simp only [builtInProjections, List.mem_cons, List.not_mem_nil, or_false] at builtIn
  rcases builtIn with rfl | rfl
  · exact Users.suits_of_reduce reduced
  · exact Orgs.suits_of_reduce reduced

/-- Whatever an event of users or organizations is like, its statement suits it. So where the storage has
no faults no handler ever counts a failure, however many there are and whatever they are at work on. -/
theorem built_in_statements_suit :
    (∀ p ∈ builtInProjections, ∀ e st, p.registry.reduce e = .ok st → st.Suits e) ∧
      ∀ (w : World) (moves : List Crew.Move), w.store.faults.values = [] →
        w.store.transaction = none → w.transactionOf = none → (∀ m ∈ moves, m.Faultless) →
        (∀ h duty, .assign h duty ∈ moves → h.BuiltIn) →
        (Crew.run { world := w } moves).world.store.Records w.store.data.failures := by
  refine ⟨fun p builtIn e st => suits_of_builtIn builtIn, ?_⟩
  intro w moves faultless closed unowned spare builtIn
  have unfailing : w.Unfailing w.store.data.failures := by
    refine ⟨faultless, ?_, rfl, ?_⟩
    · rw [closed, unowned]
      rfl
    · simp [closed]
  have sound : Crew.Sound { world := w } w.store.data.failures := by
    refine ⟨unfailing, ?_, fun task d found => by cases found⟩
    simp [unowned]
  have runs (h : Handler) (duty : Duty) (among : .assign h duty ∈ moves) : h.registry.Runs := by
    obtain ⟨p, member, -, registry⟩ := builtIn h duty among
    intro e st reduced
    rw [registry] at reduced
    exact (suits_of_builtIn member reduced).valid
  exact (sound.run spare runs).world.records

/-- A handler is called with three organizations that were added, while another one has a batch of their
instance; in between a fourth is added. -/
theorem built_in_statements_suit_of_four_orgs :
    let ctx : Context := { token := ⟨0, []⟩ }
    let reply : (call : TaskCall) → call.Answer := fun call => (Surroundings.still call threeOrgs).1
    let fourth : NewEvent :=
      ⟨⟨"org"⟩, ⟨"4"⟩, ⟨"a"⟩, ⟨"org.added"⟩, .object [("name", .text "4")]⟩
    let moves : List Crew.Move :=
      [.assign orgsHandler (.process ctx threeOrgs.log.events),
        .assign orgsHandler (.batch 2 ⟨ctx, [⟨"a"⟩], false⟩)] ++
      (List.replicate 9 (.turn 0 reply) ++ List.replicate 2 (.turn 1 reply)) ++
      [.change fun w => (w.answerSource (.push [fourth])).2] ++
      (List.replicate 10 (.turn 0 reply) ++ List.replicate 20 (.turn 1 reply))
    let done := (Crew.run { world := threeOrgs } moves).world.store
    (∀ e ∈ threeOrgs.log.events, ∃ st, orgsProjection.registry.reduce e = .ok st ∧ st.Suits e) ∧
      done.Records ∅ ∧ (done.data.tables.rows orgsTable).length = 4 := by
  intro ctx reply fourth moves done
  have reduced : orgsProjection.registry.reduceAll threeOrgs.log.events =
      .ok (orgsProjection.registry.firstStatements threeOrgs.log 3) := rfl
  refine ⟨fun e among => ?_, built_in_statements_suit.2 threeOrgs moves rfl rfl rfl ?_ ?_, ?_⟩
  · obtain ⟨st, -, reduced⟩ := Registry.exists_statement reduced among
    exact ⟨st, reduced, built_in_statements_suit.1 _ (by simp [builtInProjections]) e st reduced⟩
  · simp only [moves, List.forall_mem_append, List.forall_mem_cons, List.mem_replicate]
    simp [Crew.Move.Faultless, World.answerSource]
  · have builtIn : orgsHandler.BuiltIn := ⟨orgsProjection, by simp [builtInProjections], rfl, rfl⟩
    intro h duty among
    simp only [moves, List.mem_append, List.mem_cons, List.mem_replicate, List.not_mem_nil, reduceCtorEq,
      and_false, or_false, Crew.Move.assign.injEq] at among
    rcases among with ⟨rfl, -⟩ | ⟨rfl, -⟩ <;> exact builtIn
  · decide +kernel

end ReadModel
