import ReadModel.Config
import ReadModel.Error
import ReadModel.Wire.Decoding

/-!
Errors as JSON values: the kind of the error and its text.
-/

namespace ReadModel

/-- An error of a kind as a JSON value. -/
def Json.ofError (kind message : String) : Json :=
  .ofFields [("error", .text kind), ("message", .text message)]

/-- The error as a JSON value. -/
def OperationError.encode (e : OperationError) : Json :=
  match e with
  | .noValues _ => .ofError "NoValues" e.message
  | .noConditions _ => .ofError "NoConditions" e.message

/-- The error as a JSON value. -/
def ReduceError.encode (e : ReduceError) : Json :=
  match e with
  | .payload .. => .ofError "Reduce.Payload" e.message
  | .invalid .. => .ofError "Reduce.Invalid" e.message

/-- The error as a JSON value. -/
def StorageError.encode (e : StorageError) : Json :=
  match e with
  | .database .. => .ofError "Storage.Database" e.message
  | .invalidOperation (.noValues _) => .ofError "Storage.NoValues" e.message
  | .invalidOperation (.noConditions _) => .ofError "Storage.NoConditions" e.message
  | .invalidIdentifier _ => .ofError "Storage.InvalidIdentifier" e.message
  | .injected _ => .ofError "Storage.Injected" e.message

/-- The error as a JSON value. -/
def SourceError.encode (e : SourceError) : Json :=
  match e with
  | .storage _ => .ofError "EventStore.Storage" e.message
  | .invalidPush _ => .ofError "EventStore.InvalidPush" e.message

/-- The error as a JSON value. -/
def LockError.encode (e : LockError) : Json :=
  match e with
  | .alreadyLocked .. => .ofError "Lock.AlreadyLocked" e.message
  | .storage _ => .ofError "Lock.Storage" e.message
  | .noInstances => .ofError "Lock.NoInstances" e.message

/-- The error as a JSON value; a partly applied batch also tells how far it got. -/
def HandlerError.encode (e : HandlerError) : Json :=
  match e with
  | .reduce (.payload ..) => .ofError "Reduce.Payload" e.message
  | .reduce (.invalid ..) => .ofError "Reduce.Invalid" e.message
  | .transaction .. => .ofError "Transaction" e.message
  | .sequenceUpdate _ => .ofError "SequenceUpdate" e.message
  | .lock cause => cause.encode
  | .source cause => cause.encode
  | .storage _ => .ofError "Storage" e.message
  | .someStatementsFailed lastApplied => .ofFields
    [("error", .text "SomeStatementsFailed"), ("message", .text e.message),
      ("last_applied", .ofOption Json.ofNat lastApplied)]
  | .cancelled => .ofError "Cancelled" e.message
  | .noInstance => .ofError "NoInstance" e.message

/-- The outcome of an action as a JSON value. -/
def Json.ofExcept {ε α : Type} (writeError : ε → Json) (write : α → Json) : Except ε α → Json
  | .ok a => write a
  | .error e => writeError e

end ReadModel
