import ReadModel.Database.Operation
import ReadModel.Store.Call

/-!
The storage of a projection in a database.

`sqlStore` turns each call on the storage into statements. Sequences have 64 bits, of which the
database takes the highest for a sign.
-/

namespace ReadModel

/-- What a failed statement is to the storage. -/
def SqlFailure.toStorage (operation : String) : SqlFailure → StorageError
  | .server code message => .database operation (message ++ " (code " ++ code ++ ")")
  | e => .database operation e.message

/-- A list of texts as it is sent along. -/
def SqlParam.ofIdentifiers {kind : IdentifierKind} (ids : List (Identifier kind)) : SqlParam :=
  .textArray (ids.map (·.text))

/-- A sequence as it is sent along. -/
def SqlParam.ofSequence (n : Nat) : SqlParam := .int8 (signedWord n)

/-- The columns of stored sequences. -/
def sequenceColumns : List ResultColumn :=
  [⟨"aggregate_type", .text⟩, ⟨"instance_id", .text⟩, ⟨"current_sequence", .int8⟩]

/-- The column of a count of failures. -/
def countColumn : ResultColumn := ⟨"failure_count", .int4⟩

/-- A stored sequence. -/
def CurrentSequence.ofRow : FullRow sequenceColumns → CurrentSequence
  | (aggregateType, id, sequence, ()) => ⟨⟨⟨aggregateType⟩, ⟨id⟩⟩, unsignedWord sequence⟩

/-- The stored sequences of a reply. -/
def readSequences (rows : List (ResultRow sequenceColumns)) :
    Except StorageError (List CurrentSequence) :=
  match rows.mapM readRow with
  | .ok rows => .ok (rows.map CurrentSequence.ofRow)
  | .error e => .error (e.toStorage "read_sequence")

/-- The count of failures in a row. -/
def readCount (row : ResultRow [countColumn]) : Except SqlFailure Nat :=
  (readScalar row).map unsignedHalfWord

/-- Sends a statement of which only success counts. -/
def storePlain (operation text : String) : SqlTask (Except StorageError Unit) := do
  return (← sendPlain text).mapError (·.toStorage operation)

/-- Sends a statement that gives stored sequences back. -/
def storeSequencesQuery (operation text : String) (params : List SqlParam) :
    SqlTask (Except StorageError (List CurrentSequence)) := do
  match ← sendSql { text, params, columns := sequenceColumns } with
  | .ok reply => return readSequences reply.rows
  | .error e => return .error (e.toStorage operation)

/-- Sends the statement of an operation on a single table. -/
def Operation.sendStatement (op : Operation) : SqlTask (Except StorageError Unit) :=
  match op.render with
  | .error e => return .error e
  | .ok fragments => do
    match ← sendSql (Fragment.call fragments []) with
    | .ok _ => return .ok ()
    | .error e => return .error (e.toStorage "execute_statement")

mutual

/-- Sends the statements of an operation. It is refused as a whole where a part of it can never run;
otherwise its parts are sent one after the other up to the first that fails. -/
def Operation.send : Operation → SqlTask (Except StorageError Unit)
  | .multi parts =>
    match validate (.multi parts) with
    | .error e => return .error (.invalidOperation e)
    | .ok () => sendAll parts
  | .noOp => return .ok ()
  | single =>
    match single.validate with
    | .error e => return .error (.invalidOperation e)
    | .ok () => single.sendStatement

def Operation.sendAll : List Operation → SqlTask (Except StorageError Unit)
  | [] => return .ok ()
  | op :: rest => do
    match ← send op with
    | .ok () => sendAll rest
    | .error e => return .error e

end

/-- Answers a call on the storage with the help of a database. -/
def sqlStore : (c : StoreCall) → SqlTask (Except StorageError c.Value)
  | .begin => storePlain "begin_transaction" "BEGIN"
  | .currentSequences projection instances =>
    storeSequencesQuery "current_sequences"
      ("SELECT aggregate_type, instance_id, current_sequence " ++
        "FROM projections.current_sequences " ++
        "WHERE projection_name = $1 AND instance_id = ANY($2)")
      [.text projection, .ofIdentifiers instances]
  | .failureCount projection id sequence => do
    let call : SqlCall :=
      { text :=
          "SELECT failure_count " ++
            "FROM projections.failed_events " ++
            "WHERE projection_name = $1 AND instance_id = $2 AND failed_sequence = $3"
        params := [.text projection, .text id.text, .ofSequence sequence]
        columns := [countColumn] }
    match ← sendSql call with
    | .error e => return .error (e.toStorage "failure_count")
    | .ok ⟨_, []⟩ => return .ok 0
    | .ok ⟨_, row :: _⟩ => return (readCount row).mapError (·.toStorage "failure_count")
  | .lockSequences projection types instances =>
    storeSequencesQuery "lock_sequences"
      ("SELECT aggregate_type, instance_id, current_sequence " ++
        "FROM projections.current_sequences " ++
        "WHERE projection_name = $1 " ++
        "AND aggregate_type = ANY($2) " ++
        "AND instance_id = ANY($3) " ++
        "FOR UPDATE")
      [.text projection, .ofIdentifiers types, .ofIdentifiers instances]
  | .savepoint => storePlain "savepoint" "SAVEPOINT exec_stmt"
  | .rollbackToSavepoint => storePlain "rollback_to_savepoint" "ROLLBACK TO SAVEPOINT exec_stmt"
  | .releaseSavepoint => storePlain "release_savepoint" "RELEASE SAVEPOINT exec_stmt"
  | .execute op => op.send
  | .upsertSequence projection key sequence => do
    let call : SqlCall :=
      { text :=
          "INSERT INTO projections.current_sequences AS cs ( " ++
            "projection_name, aggregate_type, instance_id, current_sequence, updated_at ) " ++
            "VALUES ($1, $2, $3, $4, NOW()) " ++
            "ON CONFLICT (projection_name, aggregate_type, instance_id) DO UPDATE " ++
            "SET current_sequence = EXCLUDED.current_sequence, updated_at = EXCLUDED.updated_at " ++
            "WHERE cs.current_sequence < EXCLUDED.current_sequence"
        params :=
          [.text projection, .text key.aggregateType.text, .text key.instanceId.text,
            .ofSequence sequence] }
    match ← sendSql call with
    | .error e => return .error (e.toStorage "upsert_sequence")
    | .ok reply => return .ok reply.affected
  | .recordFailure projection statement error => do
    let call : SqlCall :=
      { text :=
          "INSERT INTO projections.failed_events AS fe ( " ++
            "projection_name, instance_id, failed_sequence, failure_count, error, last_failed ) " ++
            "VALUES ($1, $2, $3, 1, $4, NOW()) " ++
            "ON CONFLICT (projection_name, instance_id, failed_sequence) DO UPDATE " ++
            "SET failure_count = fe.failure_count + 1, error = EXCLUDED.error, " ++
            "last_failed = EXCLUDED.last_failed " ++
            "RETURNING failure_count"
        params :=
          [.text projection, .text statement.instanceId.text, .ofSequence statement.sequence,
            .text error]
        columns := [countColumn] }
    let count (reply : SqlReply [countColumn]) : Except SqlFailure Nat :=
      match reply.first with
      | .ok row => readCount row
      | .error e => .error e
    match ← sendSql call with
    | .error e => return .error (e.toStorage "record_failure")
    | .ok reply => return (count reply).mapError (·.toStorage "record_failure")
  | .commit => do
    return (← endTransaction "COMMIT").mapError (·.toStorage "commit_transaction")
  | .rollback => do return (← endTransaction "ROLLBACK").mapError (·.toStorage "rollback")

end ReadModel
