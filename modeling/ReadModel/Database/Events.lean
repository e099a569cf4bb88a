import ReadModel.Database.Select
import ReadModel.Handler.Call

/-!
The event log in a database.

`sqlSource` turns each call on the log into statements. Pushes wait for each other, so that events
become visible in the order of their sequences.
-/

namespace ReadModel

/-- What a failed statement is to the log. Codes that stand for a violated check or a missing row of
another table mean that the push is not allowed. -/
def SqlFailure.toSource (operation : String) : SqlFailure → SourceError
  | .server code message =>
    let cause := "database error in " ++ operation ++ ": " ++ message
    if code = "23514" ∨ code = "23503" then .invalidPush cause else .storage cause
  | .closed => .storage ("connection pool closed in " ++ operation)
  | e => .storage ("sqlx error in " ++ operation ++ ": " ++ e.message)

/-- The event of a row. -/
def Event.ofRow : FullRow eventColumns → Event
  | (sequence, id, aggregateType, aggregateId, eventType, previousOfAggregate, previousOfType, date,
      payload, ()) =>
    { aggregateType := ⟨aggregateType⟩
      aggregateId := ⟨aggregateId⟩
      instanceId := ⟨id⟩
      eventType := ⟨eventType⟩
      sequence := unsignedWord sequence
      previousOfAggregate := unsignedWord previousOfAggregate
      previousOfType := unsignedWord previousOfType
      creationDate := date
      payload }

/-- The events of rows. -/
def readEvents (rows : List (ResultRow eventColumns)) : Except SourceError (List Event) :=
  match rows.mapM readRow with
  | .ok rows => .ok (rows.map Event.ofRow)
  | .error e => .error (.storage ("failed to deserialize event row: " ++ e.message))

/-- Asks for the events of a query. -/
def filterEvents (q : SearchQuery) : SqlTask (Except SourceError (List Event)) :=
  match q.toSelect? with
  | none => return .ok []
  | some select => do
    match ← sendSql (Fragment.call select.fragments eventColumns) with
    | .ok reply => return readEvents reply.rows
    | .error e => return .error (e.toSource "filter")

/-- The columns that the log fills in when an event is pushed. -/
def pushedColumns : List ResultColumn :=
  [⟨"sequence", .int8⟩, ⟨"previous_aggregate_sequence", .int8⟩,
    ⟨"previous_aggregate_type_sequence", .int8⟩, ⟨"creation_date", .timestamp⟩]

/-- The statement that pushes an event. -/
def insertEvent (new : NewEvent) : SqlCall where
  text :=
    "INSERT INTO events ( " ++
      "instance_id, aggregate_type, aggregate_id, event_type, previous_aggregate_sequence, " ++
      "previous_aggregate_type_sequence, payload ) " ++
      "VALUES ( $1, $2, $3, $4, " ++
      "COALESCE(( SELECT MAX(sequence) FROM events " ++
      "WHERE instance_id = $1 AND aggregate_type = $2 AND aggregate_id = $3 ), 0), " ++
      "COALESCE(( SELECT MAX(sequence) FROM events " ++
      "WHERE instance_id = $1 AND aggregate_type = $2 ), 0), " ++
      "$5 ) " ++
      "RETURNING sequence, previous_aggregate_sequence, previous_aggregate_type_sequence, " ++
      "creation_date"
  params :=
    [.text new.instanceId.text, .text new.aggregateType.text, .text new.aggregateId.text,
      .text new.eventType.text, .json new.payload]
  columns := pushedColumns

/-- The event that a pushed one has become. -/
def readPushed (new : NewEvent) (row : ResultRow pushedColumns) : Except SourceError Event :=
  match ResultRow.full pushedColumns row with
  | .error column =>
    .error (.storage ("failed to read " ++ column.name ++ ": " ++
      (SqlFailure.unexpectedNull (quoted column.name)).message))
  | .ok (sequence, previousOfAggregate, previousOfType, date, ()) =>
    .ok
      { aggregateType := new.aggregateType
        aggregateId := new.aggregateId
        instanceId := new.instanceId
        eventType := new.eventType
        sequence := unsignedWord sequence
        previousOfAggregate := unsignedWord previousOfAggregate
        previousOfType := unsignedWord previousOfType
        creationDate := date
        payload := new.payload }

/-- Pushes events one after the other, up to the first that fails. -/
def insertEvents : List NewEvent → SqlTask (Except SourceError (List Event))
  | [] => return .ok []
  | new :: rest => do
    match ← sendSql (insertEvent new) with
    | .error e => return .error (e.toSource "insert_event")
    | .ok reply =>
      match reply.first with
      | .error e => return .error (e.toSource "insert_event")
      | .ok row =>
        match readPushed new row with
        | .error e => return .error e
        | .ok event =>
          match ← insertEvents rest with
          | .error e => return .error e
          | .ok events => return .ok (event :: events)

/-- The number of the lock that pushes wait for. -/
def pushLock : Int := 111559182283891

/-- Pushes events within an open transaction. -/
def pushLocked (events : List NewEvent) : SqlTask (Except SourceError (List Event)) := do
  match ← sendSql { text := "SELECT pg_advisory_xact_lock($1)", params := [.int8 pushLock] } with
  | .error e => return .error (e.toSource "push_lock")
  | .ok _ => insertEvents events

/-- Pushes events, all of them or none. -/
def pushEvents (events : List NewEvent) : SqlTask (Except SourceError (List Event)) := do
  if events.isEmpty then return .ok []
  match ← sendPlain "BEGIN" with
  | .error e => return .error (e.toSource "begin_transaction")
  | .ok () =>
    match ← pushLocked events with
    | .error e =>
      let _ ← sendPlain "ROLLBACK"
      return .error e
    | .ok events =>
      match ← endTransaction "COMMIT" with
      | .error e => return .error (e.toSource "commit_transaction")
      | .ok () => return .ok events

/-- The column of instances. -/
def instanceColumn : ResultColumn := ⟨"instance_id", .text⟩

/-- The instances of rows. -/
def readInstances (rows : List (ResultRow [instanceColumn])) :
    Except SourceError (List InstanceId) :=
  match rows.mapM readRow with
  | .ok rows => .ok (rows.map fun row => ⟨row.1⟩)
  | .error e => .error (.storage ("failed to read instance_id: " ++ e.message))

/-- Asks for the instances of a query. -/
def selectInstances (q : InstanceQuery) : SqlTask (Except SourceError (List InstanceId)) := do
  let call : SqlCall :=
    { text :=
        "SELECT DISTINCT instance_id " ++
          "FROM events " ++
          "WHERE ($1::timestamptz IS NULL OR creation_date > $1) " ++
          "AND NOT (instance_id = ANY($2)) " ++
          "ORDER BY instance_id"
      params := [.timestamp q.createdAfter, .ofIdentifiers q.excluded]
      columns := [instanceColumn] }
  match ← sendSql call with
  | .ok reply => return readInstances reply.rows
  | .error e => return .error (e.toSource "instance_ids")

/-- Answers a call on the log with the help of a database. -/
def sqlSource : (c : SourceCall) → SqlTask (Except SourceError c.Value)
  | .filter q => filterEvents q
  | .push events => pushEvents events
  | .instanceIds q => selectInstances q

end ReadModel
