import ReadModel.Database.Store
import ReadModel.Query

/-!
Queries over the log as statements.

An `EventSelect` asks a table of events for the rows that pass all tests of one of several lists of
tests, in ascending order of their sequences.
-/

namespace ReadModel

/-- How a column is compared with a value. -/
inductive Comparison where
  | equals
  | above
  | below
  | upTo
  deriving DecidableEq

/-- The sign of a comparison. -/
def Comparison.sign : Comparison → String
  | .equals => "="
  | .above => ">"
  | .below => "<"
  | .upTo => "<="

/-- A test of a column. -/
inductive ColumnTest where
  | compare (column : String) (comparison : Comparison) (v : SqlParam)
  | among (column : String) (texts : List String)
  | notAmong (column : String) (texts : List String)

/-- The test in a statement. -/
def ColumnTest.fragments : ColumnTest → List Fragment
  | .compare column comparison v => [.text (column ++ " " ++ comparison.sign ++ " "), .value v]
  | .among column texts => [.text (column ++ " = ANY("), .value (.textArray texts), .text ")"]
  | .notAmong column texts =>
    [.text ("NOT (" ++ column ++ " = ANY("), .value (.textArray texts), .text "))"]

/-- A question to the table of events. -/
structure EventSelect where
  alternatives : List (List ColumnTest)
  limit : Option Int

/-- The columns of events. -/
def eventColumns : List ResultColumn :=
  [⟨"sequence", .int8⟩, ⟨"instance_id", .text⟩, ⟨"aggregate_type", .text⟩, ⟨"aggregate_id", .text⟩,
    ⟨"event_type", .text⟩, ⟨"previous_aggregate_sequence", .int8⟩,
    ⟨"previous_aggregate_type_sequence", .int8⟩, ⟨"creation_date", .timestamp⟩, ⟨"payload", .json⟩]

namespace EventSelect

/-- One of the alternatives in a statement. -/
def alternative (tests : List ColumnTest) : List Fragment :=
  .text "(TRUE" :: tests.flatMap (fun t => .text " AND " :: t.fragments) ++ [.text ")"]

/-- The statement of the question. -/
def fragments (q : EventSelect) : List Fragment :=
  .text ("SELECT " ++ ", ".intercalate (eventColumns.map (·.name)) ++ " FROM events WHERE ") ::
    Fragment.separated " OR " (q.alternatives.map alternative) ++
    .text " ORDER BY sequence ASC" ::
    match q.limit with
    | some limit => [.text " LIMIT ", .value (.int8 limit)]
    | none => []

end EventSelect

/-- The test that a column has one of some texts; none where there are no texts. -/
def amongIdentifiers? {kind : IdentifierKind} (column : String) :
    List (Identifier kind) → Option ColumnTest
  | [] => none
  | ids => some (.among column (ids.map (·.text)))

/-- The tests that a clause asks for. -/
def QueryClause.tests (c : QueryClause) : List ColumnTest :=
  let excluded : Option ColumnTest :=
    if c.excludedInstances.isEmpty then none
    else some (.notAmong "instance_id" (c.excludedInstances.map (·.text)))
  [c.instanceId.map fun id => .compare "instance_id" .equals (.text id.text),
    excluded,
    amongIdentifiers? "aggregate_type" c.aggregateTypes,
    amongIdentifiers? "aggregate_id" c.aggregateIds,
    amongIdentifiers? "event_type" c.eventTypes,
    c.sequenceGreater.map fun n => .compare "sequence" .above (.ofSequence n),
    c.sequenceLess.map fun n => .compare "sequence" .below (.ofSequence n),
    c.createdAfter.map fun t => .compare "creation_date" .above (.timestamp (some t)),
    c.createdUntil.map fun t => .compare "creation_date" .upTo (.timestamp (some t))].filterMap id

/-- The question that a query asks; a query without clauses asks none. -/
def SearchQuery.toSelect? (q : SearchQuery) : Option EventSelect :=
  if q.clauses.isEmpty then none
  else some
    { alternatives := q.clauses.map QueryClause.tests
      limit := q.limit.map fun n => signedWord n }

end ReadModel
