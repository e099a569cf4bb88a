import ReadModel.Database.Store
import ReadModel.Projections.Orgs
import ReadModel.Projections.Users

/-!
The tables of the database.

`createSchema` makes all tables that there are not yet: the log, what projections keep about
themselves, and the tables of the projections of users and organizations.
-/

namespace ReadModel

/-- A column of a table; its type as it is written, with all that restricts it. -/
structure ColumnDefinition where
  name : String
  type : String

/-- A table. -/
structure TableDefinition where
  name : String
  columns : List ColumnDefinition
  key : List String := []

/-- A text column that always has a value. -/
def requiredText (name : String) : ColumnDefinition := ⟨name, "TEXT NOT NULL"⟩

/-- A text column that may be null. -/
def optionalText (name : String) : ColumnDefinition := ⟨name, "TEXT"⟩

/-- A column of sequences. -/
def requiredSequence (name : String) : ColumnDefinition := ⟨name, "BIGINT NOT NULL"⟩

/-- A column of instants. -/
def requiredInstant (name : String) : ColumnDefinition := ⟨name, "TIMESTAMPTZ NOT NULL"⟩

/-- A column of instants that are now where nothing else is said. -/
def currentInstant (name : String) : ColumnDefinition :=
  ⟨name, "TIMESTAMPTZ NOT NULL DEFAULT NOW()"⟩

/-- The statement that makes the table unless there is one. -/
def TableDefinition.create (t : TableDefinition) : String :=
  let key := if t.key.isEmpty then [] else ["PRIMARY KEY (" ++ ", ".intercalate t.key ++ ")"]
  let columns := t.columns.map fun c => c.name ++ " " ++ c.type
  "CREATE TABLE IF NOT EXISTS " ++ t.name ++ " ( " ++ ", ".intercalate (columns ++ key) ++ " )"

/-- An index of a table. -/
structure IndexDefinition where
  name : String
  table : String
  columns : List String

/-- The statement that makes the index unless there is one. -/
def IndexDefinition.create (i : IndexDefinition) : String :=
  "CREATE INDEX IF NOT EXISTS " ++ i.name ++ " ON " ++ i.table ++ " (" ++
    ", ".intercalate i.columns ++ ")"

/-- The log. -/
def eventsTable : TableDefinition where
  name := "events"
  columns :=
    [⟨"sequence", "BIGSERIAL PRIMARY KEY"⟩, requiredText "instance_id",
      requiredText "aggregate_type", requiredText "aggregate_id", requiredText "event_type",
      ⟨"previous_aggregate_sequence", "BIGINT NOT NULL DEFAULT 0"⟩,
      ⟨"previous_aggregate_type_sequence", "BIGINT NOT NULL DEFAULT 0"⟩,
      currentInstant "creation_date", ⟨"payload", "JSONB NOT NULL DEFAULT '\x7b\x7d'::jsonb"⟩]

/-- The index by which projections read the log. -/
def eventsIndex : IndexDefinition :=
  ⟨"idx_events_instance_type_sequence", "events", ["instance_id", "aggregate_type", "sequence"]⟩

/-- The index by which active instances are found. -/
def creationIndex : IndexDefinition :=
  ⟨"idx_events_creation_date", "events", ["creation_date", "instance_id"]⟩

/-- How far projections have got. -/
def currentSequencesTable : TableDefinition where
  name := "projections.current_sequences"
  columns :=
    [requiredText "projection_name", requiredText "aggregate_type", requiredText "instance_id",
      requiredSequence "current_sequence", currentInstant "updated_at"]
  key := ["projection_name", "aggregate_type", "instance_id"]

/-- The events that have failed. -/
def failedEventsTable : TableDefinition where
  name := "projections.failed_events"
  columns :=
    [requiredText "projection_name", requiredText "instance_id",
      requiredSequence "failed_sequence", ⟨"failure_count", "INTEGER NOT NULL DEFAULT 0"⟩,
      ⟨"error", "TEXT NOT NULL DEFAULT ''"⟩, currentInstant "last_failed"]
  key := ["projection_name", "instance_id", "failed_sequence"]

/-- The leases. -/
def locksTable : TableDefinition where
  name := "projections.locks"
  columns :=
    [requiredText "projection_name", requiredText "instance_id", requiredText "locker_id",
      requiredInstant "locked_until"]
  key := ["projection_name", "instance_id"]

/-- The users. -/
def usersDefinition : TableDefinition where
  name := usersTable
  columns :=
    [requiredText "instance_id", requiredText "id", requiredText "username", requiredText "email",
      optionalText "display_name", requiredText "state", requiredInstant "creation_date",
      requiredInstant "change_date", requiredSequence "sequence"]
  key := ["instance_id", "id"]

/-- The organizations. -/
def orgsDefinition : TableDefinition where
  name := orgsTable
  columns :=
    [requiredText "instance_id", requiredText "id", requiredText "name",
      optionalText "primary_domain", requiredText "state", requiredInstant "creation_date",
      requiredInstant "change_date", requiredSequence "sequence"]
  key := ["instance_id", "id"]

/-- The domains of organizations. -/
def orgDomainsDefinition : TableDefinition where
  name := orgDomainsTable
  columns :=
    [requiredText "instance_id", requiredText "org_id", requiredText "domain",
      ⟨"is_primary", "BOOLEAN NOT NULL DEFAULT FALSE"⟩, requiredInstant "creation_date",
      requiredSequence "sequence"]
  key := ["instance_id", "org_id", "domain"]

/-- The statements that make all tables, in the order in which they are sent. -/
def schemaStatements : List String :=
  ["CREATE SCHEMA IF NOT EXISTS projections", eventsTable.create, eventsIndex.create,
    creationIndex.create, currentSequencesTable.create, failedEventsTable.create,
    locksTable.create, usersDefinition.create, orgsDefinition.create,
    orgDomainsDefinition.create]

/-- Sends statements one after the other, up to the first that fails. -/
def sendSchema : List String → SqlTask (Except StorageError Unit)
  | [] => return .ok ()
  | text :: rest => do
    match ← sendPlain text with
    | .ok () => sendSchema rest
    | .error e => return .error (.database "ensure_schema" e.message)

/-- Makes all tables that there are not yet. -/
def createSchema : SqlTask (Except StorageError Unit) := sendSchema schemaStatements

end ReadModel
