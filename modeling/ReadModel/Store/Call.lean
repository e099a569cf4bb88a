import ReadModel.Error

/-!
What a projection asks of its storage.

A `StoreCall` is answered with a `StoreCall.Value` or a `StorageError`. Between `begin` and `commit`
or `rollback` a transaction is open, which most calls belong to.
-/

namespace ReadModel

/-- A call on the storage of a projection. -/
inductive StoreCall where
  | begin
  | currentSequences (projection : String) (instances : List InstanceId)
  | failureCount (projection : String) (id : InstanceId) (sequence : Nat)
  | lockSequences (projection : String) (types : List AggregateType) (instances : List InstanceId)
  | savepoint
  | rollbackToSavepoint
  | releaseSavepoint
  | execute (op : Operation)
  | upsertSequence (projection : String) (key : SequenceKey) (sequence : Nat)
  | recordFailure (projection : String) (statement : Statement) (error : String)
  | commit
  | rollback

namespace StoreCall

/-- What a call is answered with where it succeeds: rows of sequences, the number of rows written, a
count of failures, or nothing. -/
@[reducible]
def Value : StoreCall → Type
  | .currentSequences .. | .lockSequences .. => List CurrentSequence
  | .failureCount .. | .upsertSequence .. | .recordFailure .. => Nat
  | _ => Unit

/-- The name of a call in messages. -/
def name : StoreCall → String
  | .begin => "begin"
  | .currentSequences .. => "current_sequences"
  | .failureCount .. => "failure_count"
  | .lockSequences .. => "lock_sequences"
  | .savepoint => "savepoint"
  | .rollbackToSavepoint => "rollback_to_savepoint"
  | .releaseSavepoint => "release_savepoint"
  | .execute _ => "execute"
  | .upsertSequence .. => "upsert_sequence"
  | .recordFailure .. => "record_failure"
  | .commit => "commit"
  | .rollback => "rollback"

end StoreCall

end ReadModel
