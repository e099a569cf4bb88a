import ReadModel.Event
import ReadModel.Wire.Operation

/-!
Events and statements as JSON values.
-/

namespace ReadModel

open Decoder

/-- The identifier as a JSON value: its text. -/
def Identifier.encode {kind : IdentifierKind} (id : Identifier kind) : Json := .text id.text

/-- Identifiers as a JSON value. -/
def Identifier.encodeList {kind : IdentifierKind} (ids : List (Identifier kind)) : Json :=
  .list (ids.map Identifier.encode)

/-- Reads an identifier; any text is one. -/
def Decoder.identifier {kind : IdentifierKind} : Decoder (Identifier kind) := fun j =>
  (text j).map Identifier.mk

/-- The instant as a JSON value. -/
def Instant.encode (t : Instant) : Json := .text t.render

/-- The event as a JSON value. -/
def Event.encode (e : Event) : Json := .ofFields
  [("aggregate_type", e.aggregateType.encode), ("aggregate_id", e.aggregateId.encode),
    ("instance_id", e.instanceId.encode), ("event_type", e.eventType.encode),
    ("sequence", .ofNat e.sequence), ("previous_aggregate_sequence", .ofNat e.previousOfAggregate),
    ("previous_aggregate_type_sequence", .ofNat e.previousOfType),
    ("creation_date", e.creationDate.encode), ("payload", e.payload)]

/-- Reads an event. -/
def Decoder.event : Decoder Event
  | .object fields => do
    let aggregateId ← present "aggregate_id" identifier fields
    let aggregateType ← present "aggregate_type" identifier fields
    let creationDate ← present "creation_date" instant fields
    let eventType ← present "event_type" identifier fields
    let instanceId ← present "instance_id" identifier fields
    let payload ← present "payload" .ok fields
    let previousOfAggregate ← present "previous_aggregate_sequence" unsigned64 fields
    let previousOfType ← present "previous_aggregate_type_sequence" unsigned64 fields
    let sequence ← present "sequence" unsigned64 fields
    let aggregateType ← require "aggregate_type" aggregateType
    let aggregateId ← require "aggregate_id" aggregateId
    let instanceId ← require "instance_id" instanceId
    let eventType ← require "event_type" eventType
    let sequence ← require "sequence" sequence
    let previousOfAggregate ← require "previous_aggregate_sequence" previousOfAggregate
    let previousOfType ← require "previous_aggregate_type_sequence" previousOfType
    let creationDate ← require "creation_date" creationDate
    let payload ← require "payload" payload
    .ok { aggregateType, aggregateId, instanceId, eventType, sequence, previousOfAggregate,
          previousOfType, creationDate, payload }
  | .list items => do
    let record := elements "struct Event" 9
    let (aggregateType, items) ← next record 0 identifier items
    let (aggregateId, items) ← next record 1 identifier items
    let (instanceId, items) ← next record 2 identifier items
    let (eventType, items) ← next record 3 identifier items
    let (sequence, items) ← next record 4 unsigned64 items
    let (previousOfAggregate, items) ← next record 5 unsigned64 items
    let (previousOfType, items) ← next record 6 unsigned64 items
    let (creationDate, items) ← next record 7 instant items
    let (payload, items) ← next record 8 .ok items
    finish .whole 9 items
    .ok { aggregateType, aggregateId, instanceId, eventType, sequence, previousOfAggregate,
          previousOfType, creationDate, payload }
  | j => .error (.wrongType j "struct Event")

/-- The event as a JSON value. -/
def NewEvent.encode (e : NewEvent) : Json := .ofFields
  [("aggregate_type", e.aggregateType.encode), ("aggregate_id", e.aggregateId.encode),
    ("instance_id", e.instanceId.encode), ("event_type", e.eventType.encode),
    ("payload", e.payload)]

/-- Reads an event that the log has not taken in yet. -/
def Decoder.newEvent : Decoder NewEvent
  | .object fields => do
    let aggregateId ← present "aggregate_id" identifier fields
    let aggregateType ← present "aggregate_type" identifier fields
    let eventType ← present "event_type" identifier fields
    let instanceId ← present "instance_id" identifier fields
    let payload ← present "payload" .ok fields
    let aggregateType ← require "aggregate_type" aggregateType
    let aggregateId ← require "aggregate_id" aggregateId
    let instanceId ← require "instance_id" instanceId
    let eventType ← require "event_type" eventType
    let payload ← require "payload" payload
    .ok { aggregateType, aggregateId, instanceId, eventType, payload }
  | .list items => do
    let record := elements "struct NewEvent" 5
    let (aggregateType, items) ← next record 0 identifier items
    let (aggregateId, items) ← next record 1 identifier items
    let (instanceId, items) ← next record 2 identifier items
    let (eventType, items) ← next record 3 identifier items
    let (payload, items) ← next record 4 .ok items
    finish .whole 5 items
    .ok { aggregateType, aggregateId, instanceId, eventType, payload }
  | j => .error (.wrongType j "struct NewEvent")

/-- The statement as a JSON value. -/
def Statement.encode (s : Statement) : Json := .ofFields
  [("aggregate_type", s.aggregateType.encode), ("aggregate_id", s.aggregateId.encode),
    ("instance_id", s.instanceId.encode), ("sequence", .ofNat s.sequence),
    ("previous_sequence", .ofNat s.previousSequence), ("creation_date", s.creationDate.encode),
    ("operation", s.operation.encode)]

/-- Reads a statement. -/
def Decoder.statement : Decoder Statement
  | .object fields => do
    let aggregateId ← present "aggregate_id" identifier fields
    let aggregateType ← present "aggregate_type" identifier fields
    let creationDate ← present "creation_date" instant fields
    let instanceId ← present "instance_id" identifier fields
    let operation ← present "operation" (Decoder.operation .whole) fields
    let previousSequence ← present "previous_sequence" unsigned64 fields
    let sequence ← present "sequence" unsigned64 fields
    let aggregateType ← require "aggregate_type" aggregateType
    let aggregateId ← require "aggregate_id" aggregateId
    let instanceId ← require "instance_id" instanceId
    let sequence ← require "sequence" sequence
    let previousSequence ← require "previous_sequence" previousSequence
    let creationDate ← require "creation_date" creationDate
    let operation ← require "operation" operation
    .ok { aggregateType, aggregateId, instanceId, sequence, previousSequence, creationDate,
          operation }
  | .list items => do
    let record := elements "struct Statement" 7
    let (aggregateType, items) ← next record 0 identifier items
    let (aggregateId, items) ← next record 1 identifier items
    let (instanceId, items) ← next record 2 identifier items
    let (sequence, items) ← next record 3 unsigned64 items
    let (previousSequence, items) ← next record 4 unsigned64 items
    let (creationDate, items) ← next record 5 instant items
    let (operation, items) ← next record 6 (Decoder.operation .whole) items
    finish .whole 7 items
    .ok { aggregateType, aggregateId, instanceId, sequence, previousSequence, creationDate,
          operation }
  | j => .error (.wrongType j "struct Statement")

end ReadModel
