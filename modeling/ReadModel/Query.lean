import ReadModel.Event

/-!
Queries over the log.

A `SearchQuery` asks for the events that match one of its clauses, in ascending order of sequence;
a `QueryClause` asks for several things at once. An `InstanceQuery` asks which instances have events.
-/

namespace ReadModel

/-- What an event must be like to match; a list without members asks for nothing. -/
structure QueryClause where
  instanceId : Option InstanceId := none
  excludedInstances : List InstanceId := []
  aggregateTypes : List AggregateType := []
  aggregateIds : List AggregateId := []
  eventTypes : List EventType := []
  sequenceGreater : Option Nat := none
  sequenceLess : Option Nat := none
  createdAfter : Option Instant := none
  createdUntil : Option Instant := none
  deriving DecidableEq, Inhabited

/-- A query for the first events that match one of the clauses, at most `limit` of them. -/
structure SearchQuery where
  clauses : List QueryClause := []
  limit : Option Nat := none
  deriving DecidableEq, Inhabited

/-- A query for the instances that have events after a point in time. -/
structure InstanceQuery where
  createdAfter : Option Instant := none
  excluded : List InstanceId := []
  deriving DecidableEq, Inhabited

/-- Whether a list asks for nothing or has the member. -/
def allows {α : Type} [DecidableEq α] (wanted : List α) (a : α) : Bool :=
  wanted.isEmpty || decide (a ∈ wanted)

namespace QueryClause

/-- Asks for events of an instance. -/
def ofInstance (c : QueryClause) (id : InstanceId) : QueryClause := { c with instanceId := some id }

/-- Asks for events of other instances than these, too. -/
def excluding (c : QueryClause) (ids : List InstanceId) : QueryClause :=
  { c with excludedInstances := c.excludedInstances ++ ids }

/-- Allows aggregate types. -/
def ofTypes (c : QueryClause) (types : List AggregateType) : QueryClause :=
  { c with aggregateTypes := c.aggregateTypes ++ types }

/-- Allows aggregates. -/
def ofAggregates (c : QueryClause) (ids : List AggregateId) : QueryClause :=
  { c with aggregateIds := c.aggregateIds ++ ids }

/-- Allows event types. -/
def ofEvents (c : QueryClause) (types : List EventType) : QueryClause :=
  { c with eventTypes := c.eventTypes ++ types }

/-- Asks for events above a sequence. -/
def above (c : QueryClause) (sequence : Nat) : QueryClause :=
  { c with sequenceGreater := some sequence }

/-- Asks for events below a sequence. -/
def below (c : QueryClause) (sequence : Nat) : QueryClause :=
  { c with sequenceLess := some sequence }

/-- Asks for events that are younger than an instant. -/
def after (c : QueryClause) (t : Instant) : QueryClause := { c with createdAfter := some t }

/-- Asks for events that are no younger than an instant. -/
def upTo (c : QueryClause) (t : Instant) : QueryClause := { c with createdUntil := some t }

end QueryClause

/-- Asks for events that match a further clause, too. -/
def SearchQuery.or (q : SearchQuery) (c : QueryClause) : SearchQuery :=
  { q with clauses := q.clauses ++ [c] }

/-- Asks for so many events at most. -/
def SearchQuery.first (q : SearchQuery) (limit : Nat) : SearchQuery := { q with limit := some limit }

/-- Asks for instances with events that are younger than an instant. -/
def InstanceQuery.after (q : InstanceQuery) (t : Instant) : InstanceQuery :=
  { q with createdAfter := some t }

/-- Leaves an instance out. -/
def InstanceQuery.excluding (q : InstanceQuery) (id : InstanceId) : InstanceQuery :=
  { q with excluded := q.excluded ++ [id] }

/-- Whether an event matches the clause. -/
def QueryClause.matches (c : QueryClause) (event : Event) : Bool :=
  c.instanceId.all (· == event.instanceId) &&
    !decide (event.instanceId ∈ c.excludedInstances) &&
    allows c.aggregateTypes event.aggregateType &&
    allows c.aggregateIds event.aggregateId &&
    allows c.eventTypes event.eventType &&
    c.sequenceGreater.all (decide <| · < event.sequence) &&
    c.sequenceLess.all (decide <| event.sequence < ·) &&
    c.createdAfter.all (·.before event.creationDate) &&
    c.createdUntil.all fun limit => !limit.before event.creationDate

/-- Whether an event matches one of the clauses. -/
def SearchQuery.matches (q : SearchQuery) (event : Event) : Bool :=
  q.clauses.any (·.matches event)

/-- The events of a list that the query asks for. -/
def SearchQuery.select (q : SearchQuery) (events : List Event) : List Event :=
  let found := events.filter q.matches
  match q.limit with
  | some limit => found.take limit
  | none => found

/-- Whether an event counts for its instance. -/
def InstanceQuery.matches (q : InstanceQuery) (event : Event) : Bool :=
  !decide (event.instanceId ∈ q.excluded) && q.createdAfter.all (·.before event.creationDate)

/-- The instances with an event in the list that counts, in ascending order. -/
def InstanceQuery.select (q : InstanceQuery) (events : List Event) : List InstanceId :=
  sortedKeys ((events.filter q.matches).map (·.instanceId))

end ReadModel
