import ReadModel.Proofs.Outcome
import ReadModel.Proofs.Pact

/-!
Keys never fall back.

In a store the sequence at which a key stands only grows, because a transaction works on data in which
no key stands lower (`MemoryStore.Rising`). In a fleet the date does not go back either, so that events
older than some day are all there from that day on.
-/

namespace ReadModel

/-- A sequence that is taken is not below the one that a key stands at. -/
theorem StoreData.stands_raise {d : StoreData} {faults : Faults} {name : String} {key : SequenceKey}
    {n : Nat} (taken : d.refuses faults name key n = false) (projection : String)
    (other : SequenceKey) :
    d.stands projection other ≤ (d.raise name (key, n)).stands projection other := by
  simp only [stands, sequence?, raise, Dict.find?_insert, Prod.mk.injEq]
  split
  next same =>
    obtain ⟨rfl, rfl⟩ := same
    simp only [refuses, sequence?, Bool.or_eq_false_iff, Option.any_eq_false,
      decide_eq_false_iff_not] at taken
    cases row : d.sequences.find? (name, key) with
    | none => exact Nat.zero_le _
    | some m => exact Nat.le_of_not_le (taken.2 m row)
  next => exact Nat.le_refl _

theorem StoreData.stands_step (d : StoreData) (faults : Faults) (call : StoreCall)
    (projection : String) (key : SequenceKey) :
    d.stands projection key ≤ (d.step faults call).stands projection key := by
  cases call with
  | upsertSequence name other n =>
    rw [step]
    split
    next => exact Nat.le_refl _
    next taken => exact stands_raise (Bool.eq_false_iff.mpr taken) projection key
  | begin | currentSequences | failureCount | lockSequences | savepoint | rollbackToSavepoint
  | releaseSavepoint | execute | recordFailure | commit | rollback => exact Nat.le_refl _

/-- In the data of a transaction no key stands below a floor. -/
def Transaction.Above (tx : Transaction) (projection : String) (floor : SequenceKey → Nat) : Prop :=
  ∀ d ∈ tx.working :: tx.savepoints, ∀ key, floor key ≤ d.stands projection key

namespace MemoryStore

variable {s : MemoryStore} {projection : String} {floor : SequenceKey → Nat}

def Above (s : MemoryStore) (projection : String) (floor : SequenceKey → Nat) : Prop :=
  ∀ tx, s.transaction = some tx → tx.Above projection floor

/-- No key stands lower in an open transaction than outside of it. -/
def Rising (s : MemoryStore) : Prop := ∀ projection, s.Above projection (s.data.stands projection)

/-- What is no begin leaves a transaction above its floor. -/
theorem Above.answer (above : s.Above projection floor) (call : StoreCall)
    (begins : call = .begin → ∀ key, floor key ≤ s.data.stands projection key) :
    (s.answer call).2.Above projection floor :=
  forall_answer above call begins fun d kept key =>
    (kept key).trans (d.stands_step s.faults call projection key)

/-- No call lets a key fall back. -/
theorem Rising.answer (rising : s.Rising) (call : StoreCall) :
    (s.answer call).2.Rising ∧ ∀ projection key,
      s.data.stands projection key ≤ (s.answer call).2.data.stands projection key := by
  by_cases commits : call = .commit
  · subst commits
    unfold MemoryStore.answer
    cases isOpen : s.transaction with
    | none => exact ⟨rising, fun _ _ => Nat.le_refl _⟩
    | some tx =>
      refine ⟨?_, fun projection key => ?_⟩
      · rintro _ _ ⟨⟩
      · exact rising projection tx isOpen tx.working (List.mem_cons_self ..) key
  · have data := s.answer_data_of_ne_commit commits
    refine ⟨fun projection => ?_, fun _ _ => (congrArg (StoreData.stands · _ _) data).ge⟩
    rw [data]
    exact (rising projection).answer call fun _ _ => Nat.le_refl _

end MemoryStore

namespace Instant

theorem before_iff {a b : Instant} :
    a.before b = true ↔ a.seconds < b.seconds ∨ a.seconds = b.seconds ∧ a.nanos < b.nanos := by
  simp only [before, Bool.or_eq_true, Bool.and_eq_true, decide_eq_true_eq, beq_iff_eq]

theorem not_before_iff {a b : Instant} : a.before b = false ↔
    b.seconds < a.seconds ∨ b.seconds = a.seconds ∧ b.nanos ≤ a.nanos := by
  rw [Bool.eq_false_iff, ne_eq, before_iff]
  omega

theorem before_self (a : Instant) : a.before a = false := not_before_iff.mpr (by omega)

theorem not_before_trans {a b c : Instant} (first : b.before a = false)
    (second : c.before b = false) : c.before a = false := by
  rw [not_before_iff] at *
  omega

/-- What comes before an instant comes before whatever does not. -/
theorem before_of_not_before {a b c : Instant} (first : a.before b = true)
    (second : c.before b = false) : a.before c = true := by
  rw [not_before_iff] at second
  rw [before_iff] at *
  omega

end Instant

/-- The events that a push adds have its date. -/
theorem EventLog.date_push {date : Instant} {new : List NewEvent} {log : EventLog} {e : Event}
    (member : e ∈ (log.push date new).2.events) : e ∈ log.events ∨ e.creationDate = date := by
  induction new generalizing log with
  | nil => exact .inl member
  | cons first rest ih =>
    rcases ih member with earlier | dated
    · rcases List.mem_append.mp earlier with old | fresh
      · exact .inl old
      · exact .inr (List.mem_singleton.mp fresh ▸ rfl)
    · exact .inr dated

/-- What is true of the scene of a fleet at any time. -/
structure Scene.Sane (s : Scene) : Prop where
  rising : s.world.store.Rising
  owned : s.world.store.transaction.isSome = s.world.transactionOf.isSome
  dated : s.world.pushDate = s.world.today
  regular : s.world.today.nanos < 1000000000

/-- Time has gone on: events of earlier days were there before, and no key has fallen back. -/
structure Scene.Onward (s t : Scene) : Prop where
  later : t.world.today.before s.world.today = false
  older : ∀ e ∈ t.world.log.events,
    e ∈ s.world.log.events ∨ e.creationDate.before s.world.today = false
  raised : ∀ projection key,
    s.world.store.data.stands projection key ≤ t.world.store.data.stands projection key

/-- What an actor can count on: time goes on, and its transaction is left alone. -/
structure Actor.Undisturbed (a : Actor) (s t : Scene) : Prop extends s.Onward t where
  sane : s.Sane → t.Sane
  kept : s.world.transactionOf = some a.number → t.world.transactionOf = some a.number ∧
    t.world.store.transaction = s.world.store.transaction
  foreign : s.world.transactionOf ≠ some a.number → t.world.transactionOf ≠ some a.number

theorem Scene.Onward.refl {s : Scene} : s.Onward s where
  later := Instant.before_self _
  older _ member := .inl member
  raised _ _ := Nat.le_refl _

theorem Scene.Onward.trans {s t u : Scene} (first : s.Onward t) (second : t.Onward u) :
    s.Onward u where
  later := Instant.not_before_trans first.later second.later
  older e member := by
    rcases second.older e member with earlier | fresh
    · exact first.older e earlier
    · exact .inr (Instant.not_before_trans first.later fresh)
  raised projection key := (first.raised projection key).trans (second.raised projection key)

theorem World.failStore_cases (w : World) (call : StoreCall) : w.failStore call = w ∨
    w.failStore call = { w with store := w.store.abandon, transactionOf := none } := by
  cases call <;> simp only [failStore, true_or, or_true]

namespace Actor.Undisturbed

variable {a b : Actor} {s t u : Scene}

/-- A step that leaves the storage alone but for faults takes nothing away. -/
theorem of_same (later : t.world.today.before s.world.today = false)
    (older : ∀ e ∈ t.world.log.events,
      e ∈ s.world.log.events ∨ e.creationDate.before s.world.today = false)
    (regular : s.Sane → t.world.pushDate = t.world.today ∧ t.world.today.nanos < 1000000000)
    (data : t.world.store.data = s.world.store.data)
    (transaction : t.world.store.transaction = s.world.store.transaction)
    (owner : t.world.transactionOf = s.world.transactionOf) : a.Undisturbed s t where
  later
  older
  raised projection key := by rw [data]
  sane before := by
    refine ⟨?_, ?_, (regular before).1, (regular before).2⟩
    · unfold MemoryStore.Rising MemoryStore.Above
      rw [data, transaction]
      exact before.rising
    · rw [transaction, owner]
      exact before.owned
  kept ours := ⟨owner.trans ours, transaction⟩
  foreign other := owner ▸ other

/-- A step that leaves the log and the date alone as well. -/
theorem of_still (today : t.world.today = s.world.today) (date : t.world.pushDate = s.world.pushDate)
    (log : t.world.log = s.world.log) (data : t.world.store.data = s.world.store.data)
    (transaction : t.world.store.transaction = s.world.store.transaction)
    (owner : t.world.transactionOf = s.world.transactionOf) : a.Undisturbed s t :=
  of_same (today ▸ Instant.before_self _) (fun _ member => .inl (log ▸ member))
    (fun before => by rw [today, date]; exact ⟨before.dated, before.regular⟩) data transaction owner

theorem refl : a.Undisturbed s s := of_still rfl rfl rfl rfl rfl rfl

theorem trans (first : a.Undisturbed s t) (second : a.Undisturbed t u) : a.Undisturbed s u where
  toOnward := first.toOnward.trans second.toOnward
  sane := second.sane ∘ first.sane
  kept ours := by
    obtain ⟨owner, same⟩ := first.kept ours
    obtain ⟨owner', same'⟩ := second.kept owner
    exact ⟨owner', same'.trans same⟩
  foreign other := second.foreign (first.foreign other)

/-- A transaction that is given up takes nothing away from one that has none. -/
theorem of_end (given : t = s.inWorld { s.world with
      store := s.world.store.abandon, transactionOf := none })
    (free : s.world.transactionOf ≠ some b.number) : b.Undisturbed s t := by
  subst given
  refine ⟨⟨Instant.before_self _, fun _ member => .inl member, fun _ _ => Nat.le_refl _⟩,
    fun before => ⟨?_, rfl, before.dated, before.regular⟩, fun ours => absurd ours free, ?_⟩
  · rintro _ _ ⟨⟩
  · rintro _ ⟨⟩

/-- Events are pushed with the date of the day. -/
theorem of_push (sane : s.Sane) (new : List NewEvent) :
    a.Undisturbed s (s.inWorld (s.world.answerSource (.push new)).2) := by
  refine of_same (Instant.before_self _) (fun e member => ?_)
    (fun before => ⟨before.dated, before.regular⟩) rfl rfl rfl
  rcases EventLog.date_push member with old | dated
  · exact .inl old
  · rw [dated, sane.dated]
    exact .inr (Instant.before_self _)

/-- Calls on the log, the leases, and time take nothing away from anyone. -/
theorem of_quiet (sane : s.Sane) (number : Nat) {call : HandlerCall}
    (quiet : ∀ c, call ≠ .store c) : a.Undisturbed s (Scene.answer number call s).2 := by
  cases call with
  | store c => exact absurd rfl (quiet c)
  | source c =>
    dsimp only [Scene.answer, Scene.answerSource]
    cases s.outage with
    | some message => exact refl
    | none =>
      cases c with
      | push new => exact of_push sane new
      | filter | instanceIds => exact refl
  | lock c =>
    cases c with
    | watch | stop => exact of_still rfl rfl rfl rfl rfl rfl
    | acquire | release =>
      dsimp only [Scene.answer, Scene.answerLock]
      cases s.outage <;> exact of_still rfl rfl rfl rfl rfl rfl
  | task c => cases c <;> exact of_still rfl rfl rfl rfl rfl rfl

/-- A call on the storage takes nothing away from another that has no transaction. -/
theorem of_store (sane : s.Sane) (call : StoreCall) (apart : b ≠ a)
    (free : s.world.transactionOf ≠ some b.number) :
    b.Undisturbed s (Scene.answer a.number (.store call) s).2 := by
  have inj : some a.number ≠ some b.number :=
    fun same => apart (Actor.number_inj (Option.some.inj same).symm)
  dsimp only [Scene.answer, Scene.answerStore]
  cases s.outage with
  | none =>
    obtain ⟨rising, raised⟩ := sane.rising.answer call
    dsimp only
    rw [World.answerStore_world]
    refine ⟨⟨Instant.before_self _, fun _ member => .inl member, raised⟩, fun before => ?_,
      fun ours => absurd ours free, fun _ => ?_⟩
    · refine ⟨rising, ?_, before.dated, before.regular⟩
      dsimp only [Scene.inWorld]
      cases (s.world.store.answer call).2.transaction <;> rfl
    · dsimp only [Scene.inWorld]
      split
      next => exact inj
      next => simp
  | some message =>
    rcases s.world.failStore_cases call with same | given
    · dsimp only
      rw [same]
      exact of_still rfl rfl rfl rfl rfl rfl
    · dsimp only
      rw [given]
      exact of_end rfl free

/-- What happens without any actor takes nothing away either. -/
theorem of_after (sane : s.Sane) (m : Fleet.Move) : a.Undisturbed s (s.after m) := by
  cases m with
  | push events => exact of_push sane events
  | date date =>
    dsimp only [Scene.after]
    split
    next => exact refl
    next allowed =>
      rw [not_or, Nat.not_le] at allowed
      refine of_same ?_ (fun e member => .inl member) (fun _ => ⟨rfl, allowed.2⟩) rfl rfl rfl
      exact Bool.eq_false_iff.mpr allowed.1
  | renew id =>
    dsimp only [Scene.after]
    split
    next => split <;> exact of_still rfl rfl rfl rfl rfl rfl
    next => exact refl
  | wait | revoke | disturb | hide | outage | cancel | sweep | turn =>
    exact of_still rfl rfl rfl rfl rfl rfl

end Actor.Undisturbed

end ReadModel
