import ReadModel.Query

/-!
The event log.

An `EventLog` numbers the events that are pushed and links each to the events before it in its
aggregate and in its aggregate type.
-/

namespace ReadModel

/-- A log that is kept in memory, earliest event first. -/
structure EventLog where
  events : List Event := []

namespace EventLog

instance : Inhabited EventLog := ⟨{}⟩

/-- The sequence of the last event that passes a test, and zero where there is none. -/
def lastSequence (log : EventLog) (test : Event → Bool) : Nat :=
  ((log.events.reverse.find? test).map (·.sequence)).getD 0

/-- The event that a new one becomes when it is pushed next. -/
def number (log : EventLog) (new : NewEvent) (date : Instant) : Event :=
  let ofType (e : Event) : Bool :=
    decide (e.instanceId = new.instanceId) && decide (e.aggregateType = new.aggregateType)
  { aggregateType := new.aggregateType
    aggregateId := new.aggregateId
    instanceId := new.instanceId
    eventType := new.eventType
    sequence := log.lastSequence (fun _ => true) + 1
    previousOfAggregate :=
      log.lastSequence fun e => ofType e && decide (e.aggregateId = new.aggregateId)
    previousOfType := log.lastSequence ofType
    creationDate := date
    payload := new.payload }

/-- Pushes events, all with one date; gives the events that they have become. -/
def push (log : EventLog) (date : Instant) : List NewEvent → List Event × EventLog
  | [] => ([], log)
  | new :: rest =>
    let event := log.number new date
    let (events, log) := push ⟨log.events ++ [event]⟩ date rest
    (event :: events, log)

/-- The events that a query asks for. -/
def filter (log : EventLog) (q : SearchQuery) : List Event := q.select log.events

/-- The instances that a query asks for. -/
def instanceIds (log : EventLog) (q : InstanceQuery) : List InstanceId := q.select log.events

/-- The event with a sequence. -/
def find? (log : EventLog) (sequence : Nat) : Option Event :=
  log.events.find? fun e => e.sequence == sequence

end EventLog

end ReadModel
