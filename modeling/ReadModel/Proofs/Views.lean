import ReadModel.Proofs.CatchUp
import ReadModel.Proofs.Isolation

/-!
What a store holds of some instances.

`StoreData.Alike` compares the data of two stores as far as some instances go. A call of a transaction
that is about these instances only is answered alike out of data that are alike, and it leaves them
alike; what the data hold of all other instances stays as it is.
-/

namespace ReadModel

/-- Both hold the same of some instances for a projection. -/
structure StoreData.Alike (projection : String) (among : InstanceId → Prop) (d e : StoreData) :
    Prop where
  rows : ∀ {id}, among id → ∀ table, d.tables.rowsOf id table = e.tables.rowsOf id table
  sequences : ∀ {key : SequenceKey}, among key.instanceId →
    d.sequence? projection key = e.sequence? projection key
  failures : ∀ {id}, among id → ∀ n, d.failure? projection id n = e.failure? projection id n

/-- Both work on data that are alike, and have put such data by. -/
structure Transaction.Alike (projection : String) (among : InstanceId → Prop) (x y : Transaction) :
    Prop where
  working : x.working.Alike projection among y.working
  savepoints : List.Forall₂ (StoreData.Alike projection among) x.savepoints y.savepoints

/-- A call of a transaction that is about some instances of a projection only. -/
def StoreCall.Inside (projection : String) (own : InstanceId → Prop) : StoreCall → Prop
  | .savepoint | .rollbackToSavepoint | .releaseSavepoint => True
  | .lockSequences name _ instances => name = projection ∧ ∀ id ∈ instances, own id
  | .execute op => ∃ id, own id ∧ op.Within id
  | .upsertSequence name key _ => name = projection ∧ own key.instanceId
  | .recordFailure name st _ => name = projection ∧ own st.instanceId
  | .begin | .currentSequences .. | .failureCount .. | .commit | .rollback => False

theorem StoreCall.Inside.ne_commit {projection : String} {own : InstanceId → Prop}
    {call : StoreCall} (inside : call.Inside projection own) : call ≠ .commit := by
  rintro rfl
  exact inside

theorem Dict.filter_congr {κ ν : Type} [DecidableEq κ] [KeyOrder κ] {a b : Dict κ ν}
    {keep : κ → Bool} (same : ∀ key, keep key = true → a.find? key = b.find? key) :
    (a.filter fun key _ => keep key) = b.filter fun key _ => keep key := by
  ext key : 1
  rw [find?_filter, find?_filter]
  cases kept : keep key with
  | true => rw [same key kept]
  | false => cases a.find? key <;> cases b.find? key <;> rfl

namespace StoreData

variable {projection : String} {among own : InstanceId → Prop} {d e f : StoreData} {id : InstanceId}

namespace Alike

@[refl]
theorem refl : d.Alike projection among d := ⟨fun _ _ => rfl, fun _ => rfl, fun _ _ => rfl⟩

theorem symm (alike : d.Alike projection among e) : e.Alike projection among d :=
  ⟨fun one table => (alike.rows one table).symm, fun one => (alike.sequences one).symm,
    fun one n => (alike.failures one n).symm⟩

theorem trans (first : d.Alike projection among e) (second : e.Alike projection among f) :
    d.Alike projection among f where
  rows one table := (first.rows one table).trans (second.rows one table)
  sequences one := (first.sequences one).trans (second.sequences one)
  failures one n := (first.failures one n).trans (second.failures one n)

theorem mono (alike : d.Alike projection among e) (fewer : ∀ id, own id → among id) :
    d.Alike projection own e where
  rows one := alike.rows (fewer _ one)
  sequences one := alike.sequences (fewer _ one)
  failures one := alike.failures (fewer _ one)

theorem currentSequences (alike : d.Alike projection among e) {test : SequenceKey → Bool}
    (own : ∀ key, test key = true → among key.instanceId) :
    d.currentSequences projection test = e.currentSequences projection test := by
  have same : d.sequences.filter (fun key _ => decide (key.1 = projection) && test key.2) =
      e.sequences.filter (fun key _ => decide (key.1 = projection) && test key.2) := by
    refine Dict.filter_congr fun key kept => ?_
    obtain ⟨named, passes⟩ := Bool.and_eq_true_iff.mp kept
    obtain ⟨name, key⟩ := key
    obtain rfl := of_decide_eq_true named
    exact alike.sequences (own key passes)
  exact congrArg (List.map fun entry => CurrentSequence.mk entry.1.2 entry.2)
    (congrArg Dict.entries same)

theorem refuses (alike : d.Alike projection among e) (faults : Faults) {key : SequenceKey}
    (one : among key.instanceId) (n : Nat) :
    d.refuses faults projection key n = e.refuses faults projection key n := by
  rw [StoreData.refuses, StoreData.refuses, alike.sequences one]

/-- What an operation on one instance makes of data that are alike. -/
theorem run (alike : d.Alike projection among e) {op : Operation} (within : op.Within id)
    (faults : Faults) :
    { d with tables := (op.run faults d.tables).tables }.Alike projection among
      { e with tables := (op.run faults e.tables).tables } where
  rows {other} one table := by
    by_cases same : other = id
    · subst same
      rw [within.rowsOf_run, within.rowsOf_run, alike.rows one]
    · rw [within.rowsOf_run_of_ne same, within.rowsOf_run_of_ne same, alike.rows one]
  sequences := alike.sequences
  failures := alike.failures

theorem raise (alike : d.Alike projection among e) (entry : SequenceKey × Nat) :
    (d.raise projection entry).Alike projection among (e.raise projection entry) where
  rows := alike.rows
  sequences one := by rw [sequence?_raise, sequence?_raise, alike.sequences one]
  failures := alike.failures

theorem recordFailure (alike : d.Alike projection among e) (one : among id) (n : Nat)
    (error : String) :
    (d.recordFailure projection id n error).1 = (e.recordFailure projection id n error).1 ∧
      (d.recordFailure projection id n error).2.Alike projection among
        (e.recordFailure projection id n error).2 := by
  have same := alike.failures one n
  refine ⟨by simp only [StoreData.recordFailure, same], alike.rows, alike.sequences, ?_⟩
  intro other two m
  have others := alike.failures two m
  simp only [StoreData.failure?, StoreData.recordFailure, Dict.find?_insert] at same others ⊢
  rw [same, others]

end Alike

/-- An operation on one instance leaves the others alone. -/
theorem alike_run {op : Operation} (within : op.Within id) (out : ¬among id) (faults : Faults)
    (d : StoreData) :
    { d with tables := (op.run faults d.tables).tables }.Alike projection among d where
  rows {other} one table := by
    have apart : other ≠ id := by
      rintro rfl
      exact out one
    exact within.rowsOf_run_of_ne apart faults d.tables table
  sequences _ := rfl
  failures _ _ := rfl

theorem alike_raise {entry : SequenceKey × Nat} (out : ¬among entry.1.instanceId) (d : StoreData) :
    (d.raise projection entry).Alike projection among d where
  rows _ _ := rfl
  sequences one := by
    rw [sequence?_raise, if_neg]
    rintro rfl
    exact out one
  failures _ _ := rfl

theorem alike_recordFailure (out : ¬among id) (d : StoreData) (n : Nat) (error : String) :
    (d.recordFailure projection id n error).2.Alike projection among d where
  rows _ _ := rfl
  sequences _ := rfl
  failures {other} one m := by
    refine (Dict.find?_insert ..).trans (if_neg ?_)
    rintro ⟨⟩
    exact out one

/-- A call about some instances leaves the others alone. -/
theorem alike_step {own : InstanceId → Prop} {call : StoreCall} (inside : call.Inside projection own)
    (disjoint : ∀ id, own id → ¬among id) (faults : Faults) (d : StoreData) :
    (d.step faults call).Alike projection among d := by
  cases call with
  | begin | currentSequences | failureCount | commit | rollback => cases inside
  | lockSequences | savepoint | rollbackToSavepoint | releaseSavepoint => exact .refl
  | execute op =>
    obtain ⟨id, one, within⟩ := inside
    exact alike_run within (disjoint id one) faults d
  | upsertSequence name key n =>
    obtain ⟨rfl, one⟩ := inside
    rw [step]
    split
    next => exact .refl
    next => exact alike_raise (disjoint _ one) d
  | recordFailure name st error =>
    obtain ⟨rfl, one⟩ := inside
    exact alike_recordFailure (disjoint _ one) d st.sequence error

end StoreData

namespace MemoryStore

theorem faults_answer (s : MemoryStore) (call : StoreCall) : (s.answer call).2.faults = s.faults := by
  cases call <;> simp only [answer, MemoryStore.within] <;> cases s.transaction <;> rfl

variable {projection : String} {among own : InstanceId → Prop} {s r : MemoryStore} {x y : Transaction}
  {call : StoreCall}

/-- A call about some instances is answered alike within transactions that are alike there. -/
theorem answer_alike (opened : s.transaction = some x) (opened' : r.transaction = some y)
    (faults : s.faults = r.faults) (alike : x.Alike projection own y)
    (inside : call.Inside projection own) :
    (s.answer call).1 = (r.answer call).1 ∧ ∃ x' y', (s.answer call).2.transaction = some x' ∧
      (r.answer call).2.transaction = some y' ∧ x'.Alike projection own y' := by
  obtain ⟨d, saved⟩ := x
  obtain ⟨e, saved'⟩ := y
  obtain ⟨working, savepoints⟩ := alike
  dsimp only at working savepoints
  cases call with
  | begin | currentSequences | failureCount | commit | rollback => cases inside
  | savepoint =>
    simp only [answer, MemoryStore.within, opened, opened', true_and]
    exact ⟨_, _, rfl, rfl, working, .cons working savepoints⟩
  | rollbackToSavepoint =>
    simp only [answer, MemoryStore.within, opened, opened']
    cases savepoints with
    | nil => exact ⟨rfl, _, _, rfl, rfl, working, .nil⟩
    | cons first rest => exact ⟨rfl, _, _, rfl, rfl, first, rest⟩
  | releaseSavepoint =>
    simp only [answer, MemoryStore.within, opened, opened']
    cases savepoints with
    | nil => exact ⟨rfl, _, _, rfl, rfl, working, .nil⟩
    | cons first rest => exact ⟨rfl, _, _, rfl, rfl, working, rest⟩
  | lockSequences name types instances =>
    obtain ⟨rfl, ours⟩ := inside
    simp only [answer, MemoryStore.within, opened, opened']
    refine ⟨?_, _, _, rfl, rfl, working, savepoints⟩
    refine congrArg Except.ok (working.currentSequences fun key test => ours _ ?_)
    exact of_decide_eq_true (Bool.and_eq_true_iff.mp test).1
  | execute op =>
    obtain ⟨id, one, within⟩ := inside
    simp only [answer, opened, opened', ← faults, Operation.run_error s.faults op e.tables d.tables,
      true_and]
    exact ⟨_, _, rfl, rfl, working.run within s.faults, savepoints⟩
  | upsertSequence name key n =>
    obtain ⟨rfl, one⟩ := inside
    have refused := working.refuses s.faults one n
    unfold StoreData.refuses at refused
    simp only [answer, MemoryStore.within, opened, opened', ← faults, ← refused]
    split
    · exact ⟨rfl, _, _, rfl, rfl, working, savepoints⟩
    · exact ⟨rfl, _, _, rfl, rfl, working.raise (key, n), savepoints⟩
  | recordFailure name st error =>
    obtain ⟨rfl, one⟩ := inside
    obtain ⟨count, counted⟩ := working.recordFailure one st.sequence error
    simp only [answer, MemoryStore.within, opened, opened', count, true_and]
    exact ⟨_, _, rfl, rfl, counted, savepoints⟩

/-- A call about some instances leaves what a transaction holds of others as it was. -/
theorem answer_apart {base : StoreData} (opened : s.transaction = some x)
    (inside : call.Inside projection own) (disjoint : ∀ id, own id → ¬among id)
    (apart : ∀ d ∈ x.working :: x.savepoints, d.Alike projection among base) :
    ∀ x' ∈ (s.answer call).2.transaction,
      ∀ d ∈ x'.working :: x'.savepoints, d.Alike projection among base := by
  have holds (tx : Transaction) (isOpen : s.transaction = some tx) :
      ∀ d ∈ tx.working :: tx.savepoints, d.Alike projection among base := by
    obtain rfl := Option.some.inj (opened.symm.trans isOpen)
    exact apart
  refine forall_answer holds call ?_ fun d alike => ?_
  · rintro rfl
    cases inside
  · exact (StoreData.alike_step inside disjoint s.faults d).trans alike

end MemoryStore

end ReadModel
