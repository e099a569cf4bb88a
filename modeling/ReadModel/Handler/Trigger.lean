import ReadModel.Handler.Update

/-!
Bringing instances up to date.

`Handler.process` reduces events and applies them, and tries again where only some could be applied.
`Handler.trigger` fetches the events that are pending for some instances, one page after the other,
and processes them.
-/

namespace ReadModel

/-- Whether all pending events were seen, or the pages that a trigger may fetch were used up. -/
inductive Reach where
  | caughtUp
  | outOfPages
  deriving DecidableEq

namespace Handler

/-- The query for the next events of instances: for each instance and each aggregate type, the events
above the stored sequence. -/
def searchQuery (h : Handler) (ctx : Context) (instances : List InstanceId) :
    Action SearchQuery := do
  match ← askStore (.currentSequences h.name instances) with
  | .error e => throw (.storage e)
  | .ok rows =>
    let current := SequenceMap.ofRows rows
    let clause (id : InstanceId) (aggregateType : AggregateType) : QueryClause :=
      { instanceId := some id
        aggregateTypes := [aggregateType]
        sequenceGreater := some (current.get ⟨aggregateType, id⟩)
        createdUntil := ctx.asOf }
    let clauses := instances.flatMap fun id => h.registry.aggregateTypes.map (clause id)
    return { clauses, limit := some h.config.bulkLimit }

/-- Applies the statements that are left of a batch of which `offset` are applied; tries again so
many times. -/
def applyWithRetries (h : Handler) (ctx : Context) :
    Nat → Nat → List Statement → Action Unit
  | retries, offset, statements => do
    match ← attempt (h.update ctx statements) with
    | .ok _ => return
    | .error (.someStatementsFailed lastApplied) =>
      let applied := match lastApplied with
        | some index => index + 1
        | none => 0
      let offset := offset + applied
      match retries with
      | 0 => throw (.someStatementsFailed (if offset = 0 then none else some (offset - 1)))
      | retries + 1 =>
        if ← askTask (.pause h.config.retryFailedAfter ctx.token) then
          applyWithRetries h ctx retries offset (statements.drop applied)
        else throw .cancelled
    | .error e => throw e

/-- Reduces events, all of them before any is applied, and applies them. -/
def process (h : Handler) (ctx : Context) (events : List Event) : Action Unit :=
  match h.registry.reduceAll events with
  | .error e => throw (.reduce e)
  | .ok statements => h.applyWithRetries ctx h.config.maxRetries 0 statements

/-- Fetches and processes at most so many pages, up to one that is not full. Only the first page is
read as of the context's point in time. -/
def catchUp (h : Handler) (instances : List InstanceId) : Nat → Context → Action Reach
  | 0, _ => return .outOfPages
  | pages + 1, ctx => do
    checkCancelled ctx
    let query ← h.searchQuery ctx instances
    let events ← askSource (.filter query)
    if events.isEmpty then return .caughtUp
    h.process ctx events
    if events.length < h.config.bulkLimit then return .caughtUp
    catchUp h instances pages ctx.readingAll

/-- Brings instances, or the context's instance where none are given, up to date with at most so many
pages. -/
def trigger (h : Handler) (pages : Nat) (ctx : Context) (instances : List InstanceId) :
    Action Reach :=
  match instances, ctx.instanceId with
  | [], none => throw .noInstance
  | [], some id => h.catchUp [id] pages ctx
  | instances, _ => h.catchUp instances pages ctx

end Handler

end ReadModel
