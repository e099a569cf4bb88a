import ReadModel.Identifier
import ReadModel.Instant
import ReadModel.Operation

/-!
Events, and the statements that they become.

An `Event` is a fact of one instance, numbered by the log that keeps it; it points back to the event
before it in its aggregate and in its aggregate type. A `Statement` is an operation together with
the place in the log of the event that asks for it.
-/

namespace ReadModel

/-- An event of the log. The back references are zero where there is no earlier event. -/
structure Event where
  aggregateType : AggregateType
  aggregateId : AggregateId
  instanceId : InstanceId
  eventType : EventType
  sequence : Nat
  previousOfAggregate : Nat
  previousOfType : Nat
  creationDate : Instant
  payload : Json
  deriving Inhabited

/-- An event that the log has not taken in yet. -/
structure NewEvent where
  aggregateType : AggregateType
  aggregateId : AggregateId
  instanceId : InstanceId
  eventType : EventType
  payload : Json
  deriving Inhabited

/-- An operation and the event that asks for it. -/
structure Statement where
  aggregateType : AggregateType
  aggregateId : AggregateId
  instanceId : InstanceId
  sequence : Nat
  previousSequence : Nat
  creationDate : Instant
  operation : Operation
  deriving Inhabited

/-- The statement that runs an operation on behalf of an event. -/
def Event.statement (event : Event) (operation : Operation) : Statement where
  aggregateType := event.aggregateType
  aggregateId := event.aggregateId
  instanceId := event.instanceId
  sequence := event.sequence
  previousSequence := event.previousOfType
  creationDate := event.creationDate
  operation

/-- The distinct members of a list, each where it comes first. -/
def distinct {α : Type} [DecidableEq α] (items : List α) : List α :=
  (items.foldl (fun seen a => if a ∈ seen then seen else a :: seen) []).reverse

/-- The instances of events, each where it comes first. -/
def Event.instances (events : List Event) : List InstanceId :=
  distinct (events.map (·.instanceId))

/-- The instances of statements, each where it comes first. -/
def Statement.instances (statements : List Statement) : List InstanceId :=
  distinct (statements.map (·.instanceId))

/-- The aggregate types of statements, each where it comes first. -/
def Statement.aggregateTypes (statements : List Statement) : List AggregateType :=
  distinct (statements.map (·.aggregateType))

end ReadModel
