import ReadModel.Context
import ReadModel.Dialogue
import ReadModel.Query
import ReadModel.Store.Call

/-!
What a projection handler asks of the world around it: of its storage, of the event log, of the
locks that it shares with other processes, and of time and the tasks next to it.
-/

namespace ReadModel

/-- A call on the event log. -/
inductive SourceCall where
  | filter (q : SearchQuery)
  | push (events : List NewEvent)
  | instanceIds (q : InstanceQuery)

/-- What a call on the event log is answered with where it succeeds. -/
@[reducible]
def SourceCall.Value : SourceCall → Type
  | .filter _ | .push _ => List Event
  | .instanceIds _ => List InstanceId

/-- The name of a call in messages. -/
def SourceCall.name : SourceCall → String
  | .filter _ => "filter"
  | .push _ => "push"
  | .instanceIds _ => "instance_ids"

/-- One that holds locks: an owner, for a projection. -/
structure LockHolder where
  projection : String
  owner : String
  deriving DecidableEq, Inhabited

/-- A call on the locks. Taking locks opens a session, which renews them until it is stopped;
watching a session makes the loss of its locks cancel a token. -/
inductive LockCall where
  | acquire (holder : LockHolder) (duration : Nat) (instances : List InstanceId)
  | watch (session : Nat) (token : Token)
  | stop (session : Nat)
  | release (holder : LockHolder) (instances : List InstanceId)

/-- The answer to a call on the locks. -/
@[reducible]
def LockCall.Answer : LockCall → Type
  | .acquire .. => Except LockError Nat
  | .watch .. | .stop _ => Unit
  | .release .. => Except LockError Unit

/-- Instances that a sweep brings up to date together. -/
structure Batch where
  context : Context
  instances : List InstanceId
  locked : Bool

/-- A call on time and on the tasks next to the handler. -/
inductive TaskCall where
  /-- Whether a token is cancelled. -/
  | isCancelled (token : Token)
  /-- A token made from another. -/
  | childToken (token : Token)
  /-- Cancels a token. -/
  | cancel (token : Token)
  /-- The date. -/
  | today
  /-- The reading of the clock, in milliseconds. -/
  | clock
  /-- Waits; whether that was not cut short because the token was cancelled. -/
  | pause (ms : Nat) (token : Token)
  /-- Waits until the clock shows a time; its reading then, unless the token was cancelled. -/
  | waitUntil (due : Nat) (token : Token)
  /-- Waits for messages; nothing once the bus is gone or the token was cancelled. -/
  | receive (subscription : Nat) (token : Token)
  /-- Runs batches, at most `limit` at the same time; whether each succeeded. -/
  | batches (limit : Nat) (batches : List Batch)
  /-- Ends the task abnormally; there is no answer then. -/
  | crash (message : String)

/-- The answer to a call on time and tasks. -/
@[reducible]
def TaskCall.Answer : TaskCall → Type
  | .isCancelled _ | .pause .. => Bool
  | .childToken _ => Token
  | .cancel _ | .crash _ => Unit
  | .today => Instant
  | .clock => Nat
  | .waitUntil .. => Option Nat
  | .receive .. => Option (List Event)
  | .batches .. => List Bool

/-- A call of a projection handler. -/
inductive HandlerCall where
  | store (c : StoreCall)
  | source (c : SourceCall)
  | lock (c : LockCall)
  | task (c : TaskCall)

/-- The answer to a call of a projection handler. -/
@[reducible]
def HandlerCall.Answer : HandlerCall → Type
  | .store c => Except StorageError c.Value
  | .source c => Except SourceError c.Value
  | .lock c => c.Answer
  | .task c => c.Answer

/-- The world around a projection handler. -/
@[reducible]
def handlerInterface : Interface := ⟨HandlerCall, HandlerCall.Answer⟩

/-- What a projection handler does. -/
abbrev Task (α : Type) := Dialogue handlerInterface α

/-- What a projection handler does and may fail to do. -/
abbrev Action (α : Type) := ExceptT HandlerError (Dialogue handlerInterface) α

/-- Asks the storage; what goes wrong belongs to the call. -/
def askStore (c : StoreCall) : Task (Except StorageError c.Value) :=
  @Dialogue.call handlerInterface (.store c)

/-- Asks the storage within a transaction. -/
def transact (c : StoreCall) : Action c.Value := do
  match ← askStore c with
  | .ok a => pure a
  | .error e => throw (.transaction c.name e)

/-- Asks the event log. -/
def askSource (c : SourceCall) : Action c.Value := do
  match ← @Dialogue.call handlerInterface (.source c) with
  | .ok a => pure a
  | .error e => throw (.source e)

/-- Asks the locks. -/
def askLock (c : LockCall) : Task c.Answer := @Dialogue.call handlerInterface (.lock c)

/-- Asks about time and tasks. -/
def askTask (c : TaskCall) : Task c.Answer := @Dialogue.call handlerInterface (.task c)

/-- Goes on whether an action fails or not. -/
def attempt {α : Type} (a : Action α) : Action (Except HandlerError α) := ExceptT.lift a.run

/-- Ends with an error if the context is cancelled. -/
def checkCancelled (ctx : Context) : Action Unit := do
  if ← askTask (.isCancelled ctx.token) then throw .cancelled

end ReadModel
