import ReadModel.Database.Store
import ReadModel.Handler.Call

/-!
Leases in a database.

Leases are taken in one transaction: rows are written for those instances that nobody else has, and
the transaction is committed only if that were all.
-/

namespace ReadModel

/-- What a failed statement is to the locks. -/
def SqlFailure.toLock (operation : String) (e : SqlFailure) : LockError :=
  .storage ("sqlx error in " ++ operation ++ ": " ++ e.message)

/-- The statement that takes leases. -/
def insertLeases (holder : LockHolder) (duration : Nat) (instances : List InstanceId) : SqlCall where
  text :=
    "INSERT INTO projections.locks AS l (projection_name, instance_id, locker_id, locked_until) " ++
      "SELECT $1, instance_id, $2, NOW() + ($3 * INTERVAL '1 millisecond') " ++
      "FROM UNNEST($4::text[]) AS instance_id " ++
      "ON CONFLICT (projection_name, instance_id) DO UPDATE " ++
      "SET locker_id = EXCLUDED.locker_id, locked_until = EXCLUDED.locked_until " ++
      "WHERE l.locker_id = EXCLUDED.locker_id OR l.locked_until < NOW()"
  params :=
    [.text holder.projection, .text holder.owner, .int8 (signedWord duration),
      .ofIdentifiers instances]

/-- Takes leases, all or none. -/
def acquireLeases (holder : LockHolder) (duration : Nat) (instances : List InstanceId) :
    SqlTask (Except LockError Unit) := do
  if instances.isEmpty then return .error .noInstances
  match ← sendPlain "BEGIN" with
  | .error e => return .error (e.toLock "begin_transaction")
  | .ok () =>
    match ← sendSql (insertLeases holder duration instances) with
    | .error e =>
      let _ ← sendPlain "ROLLBACK"
      return .error (e.toLock "acquire_lock")
    | .ok reply =>
      if reply.affected = instances.length then
        return (← endTransaction "COMMIT").mapError (·.toLock "commit_transaction")
      else
        match ← endTransaction "ROLLBACK" with
        | .error e => return .error (e.toLock "rollback")
        | .ok () => return .error (.alreadyLocked holder.projection instances)

/-- Gives up leases. -/
def releaseLeases (holder : LockHolder) (instances : List InstanceId) :
    SqlTask (Except LockError Unit) := do
  let call : SqlCall :=
    { text :=
        "DELETE FROM projections.locks " ++
          "WHERE projection_name = $1 AND locker_id = $2 AND instance_id = ANY($3)"
      params := [.text holder.projection, .text holder.owner, .ofIdentifiers instances] }
  match ← sendSql call with
  | .error e => return .error (e.toLock "unlock")
  | .ok _ => return .ok ()

end ReadModel
