import ReadModel.Proofs.Audit

/-!
The calls of an open transaction.

`Frame.Within` says where a transaction of a task stands. While others leave it alone, each call of
the task moves it on in one way, whatever else the others do; this is one rule for each call.
-/

namespace ReadModel

/-- What a transaction meets of a world besides the data that it works on. -/
structure Outside where
  log : EventLog
  tokens : Tokens
  faults : Faults
  begins : Nat
  hidden : SequenceKey → Bool

/-- What a transaction would meet in a world. -/
def World.outside (w : World) : Outside :=
  ⟨w.log, w.tokens, w.store.faults, w.store.begins, w.hidden⟩

/-- What stays while a transaction is open: whose it is, the data and the ledger that it began with,
and what the outside may be like. -/
structure Frame where
  task : Nat
  base : StoreData
  committed : List Operation
  around : Outside → Prop

namespace Frame

/-- The transaction has the data and savepoints, and has run the pending operations. -/
structure Within (F : Frame) (d : StoreData) (savepoints : List StoreData)
    (pending : List Operation) (a : Audit) : Prop where
  owner : a.world.transactionOf = some F.task
  transaction : a.world.store.transaction = some ⟨d, savepoints⟩
  base : a.world.store.data = F.base
  committed : a.ledger.committed = F.committed
  pending : a.ledger.pending = pending
  around : F.around a.world.outside

/-- The transaction is over and has left this data and ledger. -/
structure Ended (F : Frame) (d : StoreData) (committed : List Operation) (a : Audit) : Prop where
  owner : a.world.transactionOf = none
  transaction : a.world.store.transaction = none
  data : a.world.store.data = d
  committed : a.ledger.committed = committed
  around : F.around a.world.outside

end Frame

/-- The calls that a transaction makes before it is committed. -/
def HandlerCall.inside : HandlerCall → Prop
  | .store (.lockSequences ..) | .store .savepoint | .store .rollbackToSavepoint
  | .store .releaseSavepoint | .store (.execute _) | .store (.upsertSequence ..)
  | .store (.recordFailure ..) | .store .rollback | .source (.filter _)
  | .task (.isCancelled _) => True
  | _ => False

/-- The calls of a transaction that neither begin nor end it. -/
def StoreCall.working : StoreCall → Prop
  | .begin | .commit | .rollback => False
  | _ => True

theorem StoreCall.working.ne_begin {call : StoreCall} (working : call.working) : call ≠ .begin := by
  rintro rfl
  exact working

/-- In a setting a transaction is left alone by others and may make its calls. -/
structure Frame.Sheltered (F : Frame) (around : Surroundings) (S : Setting handlerInterface Audit) :
    Prop where
  answer : S.answer = Audit.answer around F.task
  others : ∀ {a b d savepoints pending}, F.Within d savepoints pending a → S.others a b →
    F.Within d savepoints pending b
  self : ∀ {a d savepoints pending} (call : HandlerCall), call.inside →
    F.Within d savepoints pending a → S.self a (Audit.answer around F.task call a).2

namespace StoreData

/-- Whether an upsert of a sequence would write nothing. -/
def refuses (d : StoreData) (faults : Faults) (projection : String) (key : SequenceKey)
    (sequence : Nat) : Bool :=
  faults.rejectSequences || (d.sequence? projection key).any fun n => decide (sequence ≤ n)

/-- The data with the sequence of a key put in place of the one it had. -/
def raise (d : StoreData) (projection : String) (entry : SequenceKey × Nat) : StoreData :=
  { d with sequences := d.sequences.insert (projection, entry.1) entry.2 }

/-- What a call makes of the data that a transaction works on. -/
def step (d : StoreData) (faults : Faults) : StoreCall → StoreData
  | .execute op => { d with tables := (op.run faults d.tables).tables }
  | .upsertSequence projection key n =>
    if d.refuses faults projection key n then d else d.raise projection (key, n)
  | .recordFailure projection st error =>
    (d.recordFailure projection st.instanceId st.sequence error).2
  | .begin | .currentSequences .. | .failureCount .. | .lockSequences .. | .savepoint
  | .rollbackToSavepoint | .releaseSavepoint | .commit | .rollback => d

end StoreData

namespace MemoryStore

variable {s : MemoryStore} {P : StoreData → Prop}

theorem answer_data_of_ne_commit (s : MemoryStore) {call : StoreCall} (other : call ≠ .commit) :
    (s.answer call).2.data = s.data := by
  cases call <;> simp only [answer, MemoryStore.within] <;> cases s.transaction <;>
    first | rfl | exact absurd rfl other

theorem isSome_answer (s : MemoryStore) {call : StoreCall} (working : call.working) :
    (s.answer call).2.transaction.isSome = s.transaction.isSome := by
  cases call <;> simp only [StoreCall.working] at working <;>
    simp only [answer, MemoryStore.within] <;> cases isOpen : s.transaction <;>
    first | rfl | exact congrArg Option.isSome isOpen

theorem forall_within {α : Type} {operation : String}
    {step : Transaction → Except StorageError α × Transaction}
    (holds : ∀ tx ∈ s.transaction, ∀ d ∈ tx.working :: tx.savepoints, P d)
    (kept : ∀ tx : Transaction, P tx.working → (∀ d ∈ tx.savepoints, P d) →
      ∀ d ∈ (step tx).2.working :: (step tx).2.savepoints, P d) :
    ∀ tx ∈ (s.within operation step).2.transaction, ∀ d ∈ tx.working :: tx.savepoints, P d := by
  unfold MemoryStore.within
  split
  next => exact holds
  next tx isOpen =>
    rintro _ ⟨⟩
    obtain ⟨working, savepoints⟩ := List.forall_mem_cons.mp (holds tx isOpen)
    exact kept tx working savepoints

/-- What is true of the data of a transaction and of its savepoints stays so, if it is true of the data
that a transaction begins with and the call keeps it true. -/
theorem forall_answer (holds : ∀ tx ∈ s.transaction, ∀ d ∈ tx.working :: tx.savepoints, P d)
    (call : StoreCall) (begins : call = .begin → P s.data)
    (kept : ∀ d, P d → P (d.step s.faults call)) :
    ∀ tx ∈ (s.answer call).2.transaction, ∀ d ∈ tx.working :: tx.savepoints, P d := by
  cases call with
  | begin =>
    rintro _ ⟨⟩
    exact List.forall_mem_singleton.mpr (begins rfl)
  | currentSequences | failureCount => exact holds
  | lockSequences =>
    exact forall_within holds fun _ working savepoints =>
      List.forall_mem_cons.mpr ⟨working, savepoints⟩
  | savepoint =>
    exact forall_within holds fun _ working savepoints =>
      List.forall_mem_cons.mpr ⟨working, List.forall_mem_cons.mpr ⟨working, savepoints⟩⟩
  | rollbackToSavepoint =>
    refine forall_within holds fun tx working savepoints => ?_
    split
    next => exact List.forall_mem_cons.mpr ⟨working, savepoints⟩
    next snapshot rest saved => exact saved ▸ savepoints
  | releaseSavepoint =>
    refine forall_within holds fun tx working savepoints => ?_
    split
    next => exact List.forall_mem_cons.mpr ⟨working, savepoints⟩
    next snapshot rest saved =>
      rw [saved] at savepoints
      exact List.forall_mem_cons.mpr ⟨working, (List.forall_mem_cons.mp savepoints).2⟩
  | execute op =>
    unfold MemoryStore.answer
    split
    next => exact holds
    next tx isOpen =>
      rintro _ ⟨⟩
      obtain ⟨working, savepoints⟩ := List.forall_mem_cons.mp (holds tx isOpen)
      exact List.forall_mem_cons.mpr ⟨kept _ working, savepoints⟩
  | upsertSequence projection key n =>
    change ∀ tx ∈ (s.within "upsert_sequence" fun tx =>
      if tx.working.refuses s.faults projection key n then (.ok 0, tx)
      else (.ok 1, { tx with working := tx.working.raise projection (key, n) })).2.transaction, _
    refine forall_within holds fun tx working savepoints => ?_
    split
    next => exact List.forall_mem_cons.mpr ⟨working, savepoints⟩
    next taken =>
      have moved := kept tx.working working
      rw [StoreData.step, if_neg taken] at moved
      exact List.forall_mem_cons.mpr ⟨moved, savepoints⟩
  | recordFailure projection st error =>
    exact forall_within holds fun _ working savepoints =>
      List.forall_mem_cons.mpr ⟨kept _ working, savepoints⟩
  | commit =>
    unfold MemoryStore.answer
    split
    next => exact holds
    next => rintro _ ⟨⟩
  | rollback => rintro _ ⟨⟩

end MemoryStore

namespace World

theorem answerStore_world (w : World) (task : Nat) (call : StoreCall) :
    (w.answerStore task call).2 = { w with
      store := (w.store.answer call).2
      transactionOf := if (w.store.answer call).2.transaction.isSome then some task else none } := by
  unfold answerStore
  rcases w.store.answer call with ⟨answer, store⟩
  cases call <;> cases answer <;> rfl

theorem answerStore_answer {w : World} {task : Nat} {call : StoreCall}
    (other : ∀ projection types instances, call ≠ .lockSequences projection types instances) :
    (w.answerStore task call).1 = (w.store.answer call).1 := by
  unfold answerStore
  rcases w.store.answer call with ⟨answer, store⟩
  cases call with
  | lockSequences projection types instances => exact absurd rfl (other projection types instances)
  | _ => rfl

end World

namespace Frame

variable {F : Frame} {surroundings : Surroundings} {d : StoreData} {savepoints : List StoreData}
  {pending : List Operation} {a : Audit}

namespace Within

/-- A call that leaves the transaction open moves it on. -/
theorem move (within : F.Within d savepoints pending a) {call : StoreCall} {d' : StoreData}
    {savepoints' : List StoreData} {pending' executed : List Operation}
    (moved : (a.world.store.answer call).2 =
      { a.world.store with transaction := some ⟨d', savepoints'⟩, executed })
    (kept : (a.ledger.note call (a.world.answerStore F.task call).1).committed = a.ledger.committed)
    (noted : (a.ledger.note call (a.world.answerStore F.task call).1).pending = pending') :
    F.Within d' savepoints' pending' (Audit.answer surroundings F.task (.store call) a).2 := by
  have world := a.world.answerStore_world F.task call
  rw [moved] at world
  simp only [Audit.answer, World.answer, Ledger.after, world]
  exact ⟨rfl, rfl, within.base, kept.trans within.committed, noted, within.around⟩

/-- A call that is nothing to the ledger leaves the operations as they were. -/
theorem pass (within : F.Within d savepoints pending a) (surroundings : Surroundings)
    {call : StoreCall} {value : Except StorageError call.Value} {d' : StoreData}
    {savepoints' : List StoreData}
    (reads : ∀ projection types instances, call ≠ .lockSequences projection types instances)
    (silent : ∀ answer, a.ledger.note call answer = a.ledger)
    (answered : a.world.store.answer call =
      (value, { a.world.store with transaction := some ⟨d', savepoints'⟩ })) :
    (a.world.answerStore F.task call).1 = value ∧
      F.Within d' savepoints' pending (Audit.answer surroundings F.task (.store call) a).2 := by
  refine ⟨?_, within.move (congrArg Prod.snd answered) ?_ ?_⟩
  · rw [World.answerStore_answer reads, answered]
  · rw [silent]
  · rw [silent]
    exact within.pending

theorem savepoint (within : F.Within d savepoints pending a) (surroundings : Surroundings) :
    (a.world.answerStore F.task .savepoint).1 = .ok () ∧
      F.Within d (d :: savepoints) pending
        (Audit.answer surroundings F.task (.store .savepoint) a).2 := by
  refine within.pass surroundings (by simp) (fun _ => rfl) ?_
  simp only [MemoryStore.answer, MemoryStore.within, within.transaction]

theorem releaseSavepoint {snapshot : StoreData}
    (within : F.Within d (snapshot :: savepoints) pending a) (surroundings : Surroundings) :
    (a.world.answerStore F.task .releaseSavepoint).1 = .ok () ∧
      F.Within d savepoints pending
        (Audit.answer surroundings F.task (.store .releaseSavepoint) a).2 := by
  refine within.pass surroundings (by simp) (fun _ => rfl) ?_
  simp only [MemoryStore.answer, MemoryStore.within, within.transaction]

theorem rollbackToSavepoint {snapshot : StoreData}
    (within : F.Within d (snapshot :: savepoints) pending a) (surroundings : Surroundings) :
    (a.world.answerStore F.task .rollbackToSavepoint).1 = .ok () ∧
      F.Within snapshot savepoints pending
        (Audit.answer surroundings F.task (.store .rollbackToSavepoint) a).2 := by
  refine within.pass surroundings (by simp) (fun _ => rfl) ?_
  simp only [MemoryStore.answer, MemoryStore.within, within.transaction]

theorem execute_ok (within : F.Within d savepoints pending a) (surroundings : Surroundings)
    {op : Operation}
    (succeeds : (op.run a.world.store.faults d.tables).error = none) :
    (a.world.answerStore F.task (.execute op)).1 = .ok () ∧
      F.Within { d with tables := (op.run a.world.store.faults d.tables).tables } savepoints
        (pending ++ [op]) (Audit.answer surroundings F.task (.store (.execute op)) a).2 := by
  have answered : a.world.store.answer (.execute op) =
      (.ok (), { a.world.store with
        transaction := some
          ⟨{ d with tables := (op.run a.world.store.faults d.tables).tables }, savepoints⟩
        executed := a.world.store.executed ++ (op.run a.world.store.faults d.tables).executed }) := by
    simp only [MemoryStore.answer, within.transaction, succeeds]
  have answer : (a.world.answerStore F.task (.execute op)).1 = .ok () := by
    rw [World.answerStore_answer (by simp), answered]
  refine ⟨answer, within.move (congrArg Prod.snd answered) ?_ ?_⟩
  · rw [answer, Ledger.note]
  · rw [answer, Ledger.note, within.pending]

theorem execute_error (within : F.Within d savepoints pending a) (surroundings : Surroundings)
    {op : Operation} {e : StorageError}
    (fails : (op.run a.world.store.faults d.tables).error = some e) :
    (a.world.answerStore F.task (.execute op)).1 = .error e ∧
      F.Within { d with tables := (op.run a.world.store.faults d.tables).tables } savepoints
        pending (Audit.answer surroundings F.task (.store (.execute op)) a).2 := by
  have answered : a.world.store.answer (.execute op) =
      (.error e, { a.world.store with
        transaction := some
          ⟨{ d with tables := (op.run a.world.store.faults d.tables).tables }, savepoints⟩
        executed := a.world.store.executed ++ (op.run a.world.store.faults d.tables).executed }) := by
    simp only [MemoryStore.answer, within.transaction, fails]
  have answer : (a.world.answerStore F.task (.execute op)).1 = .error e := by
    rw [World.answerStore_answer (by simp), answered]
  refine ⟨answer, within.move (congrArg Prod.snd answered) ?_ ?_⟩
  · rw [answer]
    rfl
  · rw [answer]
    exact within.pending

theorem recordFailure (within : F.Within d savepoints pending a) (surroundings : Surroundings)
    (projection : String) (st : Statement) (error : String) :
    (a.world.answerStore F.task (.recordFailure projection st error)).1 =
        .ok (d.recordFailure projection st.instanceId st.sequence error).1 ∧
      F.Within (d.recordFailure projection st.instanceId st.sequence error).2 savepoints pending
        (Audit.answer surroundings F.task (.store (.recordFailure projection st error)) a).2 := by
  refine within.pass surroundings (by simp) (fun _ => rfl) ?_
  simp only [MemoryStore.answer, MemoryStore.within, within.transaction]

theorem upsertSequence_refused (within : F.Within d savepoints pending a)
    (surroundings : Surroundings) {projection : String} {key : SequenceKey} {sequence : Nat}
    (refused : d.refuses a.world.store.faults projection key sequence = true) :
    (a.world.answerStore F.task (.upsertSequence projection key sequence)).1 = .ok 0 ∧
      F.Within d savepoints pending (Audit.answer surroundings F.task
        (.store (.upsertSequence projection key sequence)) a).2 := by
  unfold StoreData.refuses at refused
  refine within.pass surroundings (by simp) (fun _ => rfl) ?_
  simp only [MemoryStore.answer, MemoryStore.within, within.transaction, refused, if_true]

theorem upsertSequence_raised (within : F.Within d savepoints pending a)
    (surroundings : Surroundings) {projection : String} {key : SequenceKey} {sequence : Nat}
    (accepted : d.refuses a.world.store.faults projection key sequence = false) :
    (a.world.answerStore F.task (.upsertSequence projection key sequence)).1 = .ok 1 ∧
      F.Within (d.raise projection (key, sequence)) savepoints pending
        (Audit.answer surroundings F.task
          (.store (.upsertSequence projection key sequence)) a).2 := by
  unfold StoreData.refuses at accepted
  refine within.pass surroundings (by simp) (fun _ => rfl) ?_
  simp only [MemoryStore.answer, MemoryStore.within, within.transaction, accepted,
    Bool.false_eq_true, if_false, StoreData.raise]

theorem lockSequences (within : F.Within d savepoints pending a) (surroundings : Surroundings)
    (projection : String) (types : List AggregateType) (instances : List InstanceId) :
    (a.world.answerStore F.task (.lockSequences projection types instances)).1 =
        .ok ((d.currentSequences projection fun key =>
          decide (key.instanceId ∈ instances) && decide (key.aggregateType ∈ types)).filter
            fun row => !a.world.hidden row.key) ∧
      F.Within d savepoints pending
        (Audit.answer surroundings F.task
          (.store (.lockSequences projection types instances)) a).2 := by
  have answered : a.world.store.answer (.lockSequences projection types instances) =
      (.ok (d.currentSequences projection fun key =>
        decide (key.instanceId ∈ instances) && decide (key.aggregateType ∈ types)),
        { a.world.store with transaction := some ⟨d, savepoints⟩ }) := by
    simp only [MemoryStore.answer, MemoryStore.within, within.transaction]
  refine ⟨?_, within.move (congrArg Prod.snd answered) ?_ ?_⟩
  · simp only [World.answerStore, answered]
  · simp only [Ledger.note]
  · simp only [Ledger.note, within.pending]

theorem rollback (within : F.Within d savepoints pending a) :
    F.Ended F.base F.committed (Audit.answer surroundings F.task (.store .rollback) a).2 :=
  ⟨rfl, rfl, within.base, within.committed, within.around⟩

theorem commit (within : F.Within d savepoints pending a) (surroundings : Surroundings) :
    (a.world.answerStore F.task .commit).1 = .ok () ∧
      F.Ended d (F.committed ++ pending)
        (Audit.answer surroundings F.task (.store .commit) a).2 := by
  have answered : a.world.store.answer .commit =
      (.ok (), { a.world.store with data := d, transaction := none }) := by
    simp only [MemoryStore.answer, within.transaction]
  have answer : a.world.answerStore F.task .commit = (.ok (), { a.world with
      store := { a.world.store with data := d, transaction := none }, transactionOf := none }) := by
    simp only [World.answerStore, answered, Option.isSome_none, Bool.false_eq_true, if_false]
  refine ⟨congrArg Prod.fst answer, ?_⟩
  simp only [Audit.answer, World.answer, Ledger.after, answer, Ledger.note]
  exact ⟨rfl, rfl, rfl, by rw [within.committed, within.pending], within.around⟩

end Within

variable {S : Setting handlerInterface Audit} {α β : Type}

/-- Whether the transaction may meet these faults. -/
def allows (F : Frame) (faults : Faults) : Prop := ∃ o, F.around o ∧ o.faults = faults

/-- A call of the transaction is answered out of the state that others have left. -/
theorem Sheltered.ask (safe : F.Sheltered surroundings S) {call : HandlerCall}
    {next : call.Answer → Task α} {post : α → Audit → Prop}
    (within : F.Within d savepoints pending a) (inside : call.inside)
    (rest : ∀ t, F.Within d savepoints pending t →
      S.Upholds post (next (Audit.answer surroundings F.task call t).1)
        (Audit.answer surroundings F.task call t).2) :
    S.Upholds post (.ask call next) a := by
  intro t other _
  have there := safe.others within other
  rw [safe.answer]
  exact ⟨safe.self call inside there, rest t there⟩

theorem Sheltered.transact (safe : F.Sheltered surroundings S) {call : StoreCall}
    {post : Except HandlerError call.Value → Audit → Prop}
    (within : F.Within d savepoints pending a) (inside : (HandlerCall.store call).inside)
    (rest : ∀ t, F.Within d savepoints pending t →
      post (match (t.world.answerStore F.task call).1 with
        | .ok value => .ok value
        | .error e => .error (.transaction call.name e))
        (Audit.answer surroundings F.task (.store call) t).2) :
    S.Upholds post (transact call).run a := by
  refine safe.ask within inside fun t there => ?_
  have ended := rest t there
  revert ended
  simp only [Audit.answer, World.answer]
  cases (t.world.answerStore F.task call).1 <;> exact id

/-- A call that is answered in one way moves the transaction on to where that leaves it. -/
theorem Sheltered.pass (safe : F.Sheltered surroundings S) {call : StoreCall} {value : call.Value}
    {d' : StoreData} {savepoints' : List StoreData} {pending' : List Operation}
    {post : Except HandlerError call.Value → Audit → Prop}
    (within : F.Within d savepoints pending a) (inside : (HandlerCall.store call).inside)
    (moves : ∀ t, F.Within d savepoints pending t →
      (t.world.answerStore F.task call).1 = .ok value ∧
        F.Within d' savepoints' pending' (Audit.answer surroundings F.task (.store call) t).2)
    (rest : ∀ t, F.Within d' savepoints' pending' t → post (.ok value) t) :
    S.Upholds post (ReadModel.transact call).run a := by
  refine safe.transact within inside fun t there => ?_
  obtain ⟨answer, next⟩ := moves t there
  rw [answer]
  exact rest _ next

theorem Sheltered.savepoint (safe : F.Sheltered surroundings S)
    {post : Except HandlerError Unit → Audit → Prop} (within : F.Within d savepoints pending a)
    (rest : ∀ t, F.Within d (d :: savepoints) pending t → post (.ok ()) t) :
    S.Upholds post (ReadModel.transact .savepoint).run a :=
  safe.pass within trivial (fun _ there => there.savepoint surroundings) rest

theorem Sheltered.releaseSavepoint (safe : F.Sheltered surroundings S) {snapshot : StoreData}
    {post : Except HandlerError Unit → Audit → Prop}
    (within : F.Within d (snapshot :: savepoints) pending a)
    (rest : ∀ t, F.Within d savepoints pending t → post (.ok ()) t) :
    S.Upholds post (ReadModel.transact .releaseSavepoint).run a :=
  safe.pass within trivial (fun _ there => there.releaseSavepoint surroundings) rest

theorem Sheltered.rollbackToSavepoint (safe : F.Sheltered surroundings S) {snapshot : StoreData}
    {post : Except HandlerError Unit → Audit → Prop}
    (within : F.Within d (snapshot :: savepoints) pending a)
    (rest : ∀ t, F.Within snapshot savepoints pending t → post (.ok ()) t) :
    S.Upholds post (ReadModel.transact .rollbackToSavepoint).run a :=
  safe.pass within trivial (fun _ there => there.rollbackToSavepoint surroundings) rest

theorem Sheltered.recordFailure (safe : F.Sheltered surroundings S) {projection : String}
    {st : Statement} {error : String} {post : Except HandlerError Nat → Audit → Prop}
    (within : F.Within d savepoints pending a)
    (rest : ∀ t, F.Within (d.recordFailure projection st.instanceId st.sequence error).2 savepoints
        pending t →
      post (.ok (d.recordFailure projection st.instanceId st.sequence error).1) t) :
    S.Upholds post (ReadModel.transact (.recordFailure projection st error)).run a :=
  safe.pass within trivial
    (fun _ there => there.recordFailure surroundings projection st error) rest

/-- An operation is run under faults that the transaction may meet. -/
theorem Sheltered.execute (safe : F.Sheltered surroundings S) {op : Operation}
    {post : Except HandlerError (Except StorageError Unit) → Audit → Prop}
    (within : F.Within d savepoints pending a)
    (succeeded : ∀ t faults, F.allows faults → (op.run faults d.tables).error = none →
      F.Within { d with tables := (op.run faults d.tables).tables } savepoints (pending ++ [op]) t →
      post (.ok (.ok ())) t)
    (failed : ∀ t faults e, F.allows faults → (op.run faults d.tables).error = some e →
      F.Within { d with tables := (op.run faults d.tables).tables } savepoints pending t →
      post (.ok (.error e)) t) :
    S.Upholds post (ExceptT.run (liftM (askStore (.execute op)))) a := by
  refine safe.ask within trivial fun t there => ?_
  have allowed : F.allows t.world.store.faults := ⟨_, there.around, rfl⟩
  cases run : (op.run t.world.store.faults d.tables).error with
  | none =>
    obtain ⟨answer, next⟩ := there.execute_ok surroundings run
    have ended := succeeded _ _ allowed run next
    rw [← answer] at ended
    exact ended
  | some e =>
    obtain ⟨answer, next⟩ := there.execute_error surroundings run
    have ended := failed _ _ e allowed run next
    rw [← answer] at ended
    exact ended

theorem Sheltered.checkCancelled (safe : F.Sheltered surroundings S) {ctx : Context}
    {post : Except HandlerError Unit → Audit → Prop} (within : F.Within d savepoints pending a)
    (cancelled : ∀ t o, F.around o → o.tokens.isCancelled ctx.token = true →
      F.Within d savepoints pending t → post (.error .cancelled) t)
    (rest : ∀ t o, F.around o → o.tokens.isCancelled ctx.token = false →
      F.Within d savepoints pending t → post (.ok ()) t) :
    S.Upholds post (ReadModel.checkCancelled ctx).run a := by
  refine safe.ask within trivial fun t there => ?_
  have next : F.Within d savepoints pending
      (Audit.answer surroundings F.task (.task (.isCancelled ctx.token)) t).2 := there
  cases test : t.world.tokens.isCancelled ctx.token with
  | true =>
    have ended := cancelled _ _ there.around test next
    simp only [Audit.answer, World.answer, test]
    exact ended
  | false =>
    have ended := rest _ _ there.around test next
    simp only [Audit.answer, World.answer, test]
    exact ended

theorem Sheltered.filter (safe : F.Sheltered surroundings S) {q : SearchQuery}
    {post : Except HandlerError (List Event) → Audit → Prop}
    (within : F.Within d savepoints pending a)
    (rest : ∀ t o, F.around o → F.Within d savepoints pending t → post (.ok (o.log.filter q)) t) :
    S.Upholds post (askSource (.filter q)).run a := by
  refine safe.ask within trivial fun t there => ?_
  exact rest _ _ there.around there

end Frame

end ReadModel
