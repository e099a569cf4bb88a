import ReadModel.Event
import ReadModel.Wire.Decoding

/-!
Reducing events to statements.

A `Reducer` turns an event into a statement. A `Registry` has a reducer for each kind of event that
a projection cares about; the other events of its aggregate types reduce to statements that do
nothing, so that a projection gets past them.
-/

namespace ReadModel

/-- Why an event has no statement. -/
inductive ReduceError where
  | payload (eventType : EventType) (sequence : Nat) (cause : DecodeError)
  | invalid (eventType : EventType) (sequence : Nat) (reason : String)

/-- The text of the error. -/
def ReduceError.message : ReduceError → String
  | .payload eventType sequence cause =>
    "event " ++ eventType.text ++ " (sequence " ++ toString sequence ++
      ") has an undecodable payload: " ++ cause.message
  | .invalid eventType sequence reason =>
    "event " ++ eventType.text ++ " (sequence " ++ toString sequence ++ ") is invalid: " ++ reason

/-- A function that turns an event into a statement. -/
abbrev Reducer := Event → Except ReduceError Statement

/-- Reads the payload of an event. -/
def Event.decodePayload {α : Type} (event : Event) (read : Decoder α) : Except ReduceError α :=
  match read event.payload with
  | .ok a => .ok a
  | .error cause => .error (.payload event.eventType event.sequence cause)

/-- The error that an event does not make sense. -/
def Event.invalid (event : Event) (reason : String) : ReduceError :=
  .invalid event.eventType event.sequence reason

/-- The reducers for the events of one aggregate type. -/
structure AggregateReducers where
  aggregateType : AggregateType
  reducers : List (EventType × Reducer)

/-- The reducers of a projection. -/
structure Registry where
  aggregates : List AggregateReducers

/-- A read model: a name, and what becomes of the events. -/
structure Projection where
  name : String
  registry : Registry

namespace Registry

/-- The aggregate types in ascending order. -/
def aggregateTypes (r : Registry) : List AggregateType :=
  sortedKeys (r.aggregates.map (·.aggregateType))

/-- The event types in ascending order. -/
def eventTypes (r : Registry) : List EventType :=
  sortedKeys (r.aggregates.flatMap fun a => a.reducers.map Prod.fst)

/-- Whether the projection cares about an aggregate type. -/
def handles (r : Registry) (aggregateType : AggregateType) : Bool :=
  r.aggregates.any fun a => decide (a.aggregateType = aggregateType)

/-- The reducer for a kind of event; of several the last counts. -/
def reducer? (r : Registry) (aggregateType : AggregateType) (eventType : EventType) :
    Option Reducer :=
  let candidates := r.aggregates.flatMap fun a =>
    if a.aggregateType = aggregateType then
      a.reducers.filter fun entry => decide (entry.1 = eventType)
    else []
  candidates.getLast?.map Prod.snd

/-- The statement of an event. -/
def reduce (r : Registry) (event : Event) : Except ReduceError Statement :=
  match r.reducer? event.aggregateType event.eventType with
  | some reducer => reducer event
  | none => .ok (event.statement .noOp)

/-- The statements of events, or the first error. -/
def reduceAll (r : Registry) : List Event → Except ReduceError (List Statement)
  | [] => .ok []
  | event :: rest =>
    match r.reduce event with
    | .error e => .error e
    | .ok statement =>
      match reduceAll r rest with
      | .error e => .error e
      | .ok statements => .ok (statement :: statements)

end Registry

end ReadModel
