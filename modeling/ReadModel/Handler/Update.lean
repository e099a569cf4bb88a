import ReadModel.Config
import ReadModel.Handler.Call

/-!
Applying statements.

`Handler.update` applies a batch of statements in one transaction. Statements that are applied
already are skipped, and where events are missing before a statement, these are fetched from the log
and applied first. A statement that fails is undone and counted; it ends the batch unless it has
failed too often, when it is passed over. At the end the sequences are stored up to the last
statement that was applied.
-/

namespace ReadModel

/-- What keeps one projection up to date. -/
structure Handler where
  name : String
  registry : Registry
  config : ProjectionConfig
  owner : String

/-- One step of a plan: a statement of the batch that is applied already, or one to run. A statement
to run comes from the batch, or from the log where it has no origin. -/
inductive Step where
  | skip (index : Nat)
  | run (statement : Statement) (origin : Option Nat)

/-- How far a plan was carried out. -/
structure Progress where
  /-- The sequences that were reached. -/
  advanced : SequenceMap := ∅
  /-- The last statement of the batch that is applied. -/
  lastApplied : Option Nat := none
  /-- Whether a statement has failed and ended the batch. -/
  stopped : Bool := false

/-- One more statement is done with. -/
def Progress.past (p : Progress) (statement : Statement) (origin : Option Nat) : Progress :=
  { p with
    advanced := p.advanced.advance statement.key statement.sequence
    lastApplied := origin.or p.lastApplied }

namespace Handler

/-- The query for the events between two sequences of a key. -/
def gapQuery (key : SequenceKey) (last next : Nat) : SearchQuery :=
  SearchQuery.or {} <|
    ((({} : QueryClause).ofInstance key.instanceId).ofTypes [key.aggregateType]).above last
      |>.below next

/-- The steps for events that are missing in a batch. -/
def fill (h : Handler) : List Event → Except ReduceError (List Step)
  | [] => .ok []
  | event :: rest =>
    match h.registry.reduce event with
    | .error e => .error e
    | .ok statement =>
      match fill h rest with
      | .error e => .error e
      | .ok steps => .ok (.run statement none :: steps)

/-- Fetches the events that are missing before a statement, and turns them into steps. -/
def fillGap (h : Handler) (statement : Statement) (last : Nat) : Action (List Step) := do
  if statement.previousSequence = last then pure []
  else
    let missing ← askSource (.filter (gapQuery statement.key last statement.sequence))
    match h.fill missing with
    | .ok steps => pure steps
    | .error e => throw (.reduce e)

/-- Plans what to do with the statements from an index on, where `known` tells how far their keys
have got. -/
def plan (h : Handler) (known : SequenceMap) (index : Nat) : List Statement → Action (List Step)
  | [] => pure []
  | statement :: rest => do
    let last := known.get statement.key
    if statement.sequence ≤ last then
      return .skip index :: (← plan h known (index + 1) rest)
    else
      let missing ← h.fillGap statement last
      let later ← plan h (known.advance statement.key statement.sequence) (index + 1) rest
      return missing ++ .run statement (some index) :: later

/-- Undoes a statement that has failed and counts the failure; whether it has failed too often. -/
def countFailure (h : Handler) (statement : Statement) (error : StorageError) : Action Bool := do
  transact .rollbackToSavepoint
  let count ← transact (.recordFailure h.name statement error.message)
  return decide (h.config.maxFailureCount < count)

/-- Carries out a plan. -/
def carryOut (h : Handler) (ctx : Context) (progress : Progress) : List Step → Action Progress
  | [] => pure progress
  | .skip index :: rest => carryOut h ctx { progress with lastApplied := some index } rest
  | .run statement origin :: rest => do
    checkCancelled ctx
    transact .savepoint
    match ← askStore (.execute statement.operation) with
    | .ok () =>
      transact .releaseSavepoint
      carryOut h ctx (progress.past statement origin) rest
    | .error e =>
      if ← h.countFailure statement e then carryOut h ctx (progress.past statement origin) rest
      else return { progress with stopped := true }

/-- Stores the sequences that were reached. An update that writes nothing means that another
transaction has applied the same events. -/
def storeSequences (h : Handler) : List (SequenceKey × Nat) → Action Unit
  | [] => pure ()
  | (key, sequence) :: rest => do
    let written ← transact (.upsertSequence h.name key sequence)
    if written = 0 then throw (.sequenceUpdate key)
    storeSequences h rest

/-- What an update does between the begin and the end of its transaction. -/
def applyBatch (h : Handler) (ctx : Context) (statements : List Statement) : Action Progress := do
  let rows ← transact (.lockSequences h.name (Statement.aggregateTypes statements)
    (Statement.instances statements))
  let steps ← h.plan (SequenceMap.ofRows rows) 0 statements
  let progress ← h.carryOut ctx {} steps
  h.storeSequences progress.advanced.entries
  checkCancelled ctx
  return progress

/-- Applies statements in one transaction; gives the index of the last one that is applied, which
there is unless there are no statements. -/
def update (h : Handler) (ctx : Context) (statements : List Statement) : Action (Option Nat) := do
  if statements.isEmpty then return none
  checkCancelled ctx
  transact .begin
  let progress ← tryCatch (h.applyBatch ctx statements) fun e => do
    let _ ← askStore .rollback
    throw e
  transact .commit
  if progress.stopped then throw (.someStatementsFailed progress.lastApplied)
  return progress.lastApplied

end Handler

end ReadModel
