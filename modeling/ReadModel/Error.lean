import ReadModel.Reduction
import ReadModel.Sequence

/-!
What can go wrong while a projection is brought up to date.

Each error is a cause; `message` puts it into words.
-/

namespace ReadModel

/-- Why the storage of a projection did not do what it was asked to do. -/
inductive StorageError where
  | database (operation message : String)
  | invalidOperation (cause : OperationError)
  | invalidIdentifier (name : String)
  | injected (what : String)
  deriving DecidableEq

/-- The text of the error. -/
def StorageError.message : StorageError → String
  | .database operation message => "database error in " ++ operation ++ ": " ++ message
  | .invalidOperation cause => cause.message
  | .invalidIdentifier name => "invalid identifier " ++ quoted name
  | .injected what => "injected failure: " ++ what

/-- Why the event log did not do what it was asked to do. -/
inductive SourceError where
  | storage (cause : String)
  | invalidPush (cause : String)
  deriving DecidableEq

/-- The text of the error. -/
def SourceError.message : SourceError → String
  | .storage cause => "event storage failed: " ++ cause
  | .invalidPush cause => "invalid push: " ++ cause

/-- Why a lock was not taken or released. -/
inductive LockError where
  | alreadyLocked (projection : String) (instances : List InstanceId)
  | storage (cause : String)
  | noInstances
  deriving DecidableEq

/-- The text of the error. -/
def LockError.message : LockError → String
  | .alreadyLocked projection instances =>
    "lock " ++ projection ++ " is held by another owner for instances " ++
      describeInstances instances
  | .storage cause => "lock storage failed: " ++ cause
  | .noInstances => "no instances given to lock"

/-- Why a projection was not brought up to date. After all but `someStatementsFailed` the
transaction was rolled back; after that one the statements up to `lastApplied` are applied. -/
inductive HandlerError where
  | reduce (cause : ReduceError)
  | transaction (operation : String) (cause : StorageError)
  | sequenceUpdate (key : SequenceKey)
  | lock (cause : LockError)
  | source (cause : SourceError)
  | storage (cause : StorageError)
  | someStatementsFailed (lastApplied : Option Nat)
  | cancelled
  | noInstance

/-- An index that may be missing, as diagnostics show it. -/
def describeIndex : Option Nat → String
  | some n => "Some(" ++ toString n ++ ")"
  | none => "None"

/-- The text of the error. -/
def HandlerError.message : HandlerError → String
  | .reduce cause => "reduce failed: " ++ cause.message
  | .transaction operation cause => "transaction " ++ operation ++ " failed: " ++ cause.message
  | .sequenceUpdate key =>
    "sequence update for " ++ key.aggregateType.text ++ " in instance " ++ key.instanceId.text ++
      " affected no rows"
  | .lock cause => cause.message
  | .source cause => cause.message
  | .storage cause => "projection storage failed: " ++ cause.message
  | .someStatementsFailed lastApplied =>
    "some statements failed (last applied index: " ++ describeIndex lastApplied ++ ")"
  | .cancelled => "cancelled"
  | .noInstance => "no instance to process"

end ReadModel
