import ReadModel.Query
import ReadModel.Wire.Event

/-!
Queries as JSON values. What a query does not ask for is written as null, and may be left out in
what is read.
-/

namespace ReadModel

open Decoder

/-- The clause as a JSON value. -/
def QueryClause.encode (c : QueryClause) : Json := .ofFields
  [("instance_id", .ofOption Identifier.encode c.instanceId),
    ("excluded_instance_ids", Identifier.encodeList c.excludedInstances),
    ("aggregate_types", Identifier.encodeList c.aggregateTypes),
    ("aggregate_ids", Identifier.encodeList c.aggregateIds),
    ("event_types", Identifier.encodeList c.eventTypes),
    ("sequence_greater", .ofOption Json.ofNat c.sequenceGreater),
    ("sequence_less", .ofOption Json.ofNat c.sequenceLess),
    ("created_after", .ofOption Instant.encode c.createdAfter),
    ("created_until", .ofOption Instant.encode c.createdUntil)]

/-- Reads a clause. -/
def Decoder.queryClause : Decoder QueryClause
  | .object fields => do
    let aggregateIds ← present "aggregate_ids" (list identifier) fields
    let aggregateTypes ← present "aggregate_types" (list identifier) fields
    let createdAfter ← present "created_after" (optional instant) fields
    let createdUntil ← present "created_until" (optional instant) fields
    let eventTypes ← present "event_types" (list identifier) fields
    let excludedInstances ← present "excluded_instance_ids" (list identifier) fields
    let instanceId ← present "instance_id" (optional identifier) fields
    let sequenceGreater ← present "sequence_greater" (optional unsigned64) fields
    let sequenceLess ← present "sequence_less" (optional unsigned64) fields
    let excludedInstances ← require "excluded_instance_ids" excludedInstances
    let aggregateTypes ← require "aggregate_types" aggregateTypes
    let aggregateIds ← require "aggregate_ids" aggregateIds
    let eventTypes ← require "event_types" eventTypes
    .ok { excludedInstances, aggregateTypes, aggregateIds, eventTypes,
          instanceId := instanceId.join
          sequenceGreater := sequenceGreater.join
          sequenceLess := sequenceLess.join
          createdAfter := createdAfter.join
          createdUntil := createdUntil.join }
  | .list items => do
    let record := elements "struct QueryClause" 9
    let (instanceId, items) ← next record 0 (optional identifier) items
    let (excludedInstances, items) ← next record 1 (list identifier) items
    let (aggregateTypes, items) ← next record 2 (list identifier) items
    let (aggregateIds, items) ← next record 3 (list identifier) items
    let (eventTypes, items) ← next record 4 (list identifier) items
    let (sequenceGreater, items) ← next record 5 (optional unsigned64) items
    let (sequenceLess, items) ← next record 6 (optional unsigned64) items
    let (createdAfter, items) ← next record 7 (optional instant) items
    let (createdUntil, items) ← next record 8 (optional instant) items
    finish .whole 9 items
    .ok { instanceId, excludedInstances, aggregateTypes, aggregateIds, eventTypes, sequenceGreater,
          sequenceLess, createdAfter, createdUntil }
  | j => .error (.wrongType j "struct QueryClause")

/-- The query as a JSON value. -/
def SearchQuery.encode (q : SearchQuery) : Json := .ofFields
  [("clauses", .list (q.clauses.map QueryClause.encode)), ("limit", .ofOption Json.ofNat q.limit)]

/-- Reads a query for events. -/
def Decoder.searchQuery : Decoder SearchQuery
  | .object fields => do
    let clauses ← present "clauses" (list queryClause) fields
    let limit ← present "limit" (optional unsigned64) fields
    let clauses ← require "clauses" clauses
    .ok { clauses, limit := limit.join }
  | .list items => do
    let record := elements "struct SearchQuery" 2
    let (clauses, items) ← next record 0 (list queryClause) items
    let (limit, items) ← next record 1 (optional unsigned64) items
    finish .whole 2 items
    .ok { clauses, limit }
  | j => .error (.wrongType j "struct SearchQuery")

/-- The query as a JSON value. -/
def InstanceQuery.encode (q : InstanceQuery) : Json := .ofFields
  [("created_after", .ofOption Instant.encode q.createdAfter),
    ("excluded", Identifier.encodeList q.excluded)]

/-- Reads a query for instances. -/
def Decoder.instanceQuery : Decoder InstanceQuery
  | .object fields => do
    let createdAfter ← present "created_after" (optional instant) fields
    let excluded ← present "excluded" (list identifier) fields
    let excluded ← require "excluded" excluded
    .ok { createdAfter := createdAfter.join, excluded }
  | .list items => do
    let record := elements "struct InstanceQuery" 2
    let (createdAfter, items) ← next record 0 (optional instant) items
    let (excluded, items) ← next record 1 (list identifier) items
    finish .whole 2 items
    .ok { createdAfter, excluded }
  | j => .error (.wrongType j "struct InstanceQuery")

end ReadModel
