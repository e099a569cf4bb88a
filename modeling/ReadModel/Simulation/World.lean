import ReadModel.Bus
import ReadModel.EventLog
import ReadModel.Handler.Sweep
import ReadModel.Lease
import ReadModel.Store.Memory

/-!
The world of a simulation.

A `World` answers the calls of projection handlers out of an event log, a store, leases and a bus that
are kept in memory. `Hook`s disturb chosen calls: they make a call fail or crash, cancel a context, or
hand leases to a foreign owner.
-/

namespace ReadModel

/-- What a hook does before the call that it disturbs. -/
inductive Disturbance where
  /-- The call fails. -/
  | fail (message : String)
  /-- The call fails as a push that is not allowed. -/
  | failPush (message : String)
  /-- The task that makes the call crashes. -/
  | crash (message : String)
  /-- The latest context is cancelled. -/
  | cancel
  /-- Instances are leased to a foreign owner, and some time goes by. -/
  | revoke (instances : List InstanceId) (ms : Nat)

/-- A disturbance of the calls with a name. It lets `skip` calls pass and then disturbs `times`. -/
structure Hook where
  point : String
  action : Disturbance
  skip : Nat
  times : Nat

/-- The world around the handlers of one projection. -/
structure World where
  projection : String
  clock : Nat := 0
  today : Instant
  /-- The date of the events that are pushed. -/
  pushDate : Instant
  tokens : Tokens := {}
  log : EventLog := {}
  bus : Bus Event := {}
  store : MemoryStore := {}
  /-- The task whose transaction is open. -/
  transactionOf : Option Nat := none
  leases : Leases := {}
  hooks : List Hook := []
  /-- The keys whose rows are not found when they are to be locked, as is so with rows that another
  transaction has written since. -/
  hidden : SequenceKey → Bool := fun _ => false
  /-- The token of the latest context. -/
  latest : Option Token := none

namespace World

/-- Cancels tokens. -/
def cancelAll (w : World) (tokens : List Token) : World :=
  { w with tokens := tokens.foldl Tokens.cancel w.tokens }

/-- A new position in the order of those who wait for the same time. -/
def takeStamp (w : World) : Nat × World :=
  (w.leases.stamp, { w with leases := { w.leases with stamp := w.leases.stamp + 1 } })

/-- Finds the hook for a call: the first for its name that is not used up. One that still lets calls
pass only counts this one. -/
def takeHook (point : String) : List Hook → Option Disturbance × List Hook
  | [] => (none, [])
  | hook :: rest =>
    if hook.point = point ∧ 0 < hook.times then
      if 0 < hook.skip then (none, { hook with skip := hook.skip - 1 } :: rest)
      else (some hook.action, { hook with times := hook.times - 1 } :: rest)
    else
      let (found, rest) := takeHook point rest
      (found, hook :: rest)

/-- What becomes of a call after the hooks. -/
inductive Disturbed where
  | goOn
  | fail (message : String)
  | failPush (message : String)
  | crash (message : String)
  | goOnAfter (ms : Nat)

/-- Lets the hooks for a call act. -/
def disturb (w : World) (point : String) : Disturbed × World :=
  let (action, hooks) := takeHook point w.hooks
  let w := { w with hooks }
  match action with
  | none => (.goOn, w)
  | some (.fail message) => (.fail message, w)
  | some (.failPush message) => (.failPush message, w)
  | some (.crash message) => (.crash message, w)
  | some .cancel => (.goOn, w.cancelAll w.latest.toList)
  | some (.revoke instances ms) =>
    (.goOnAfter ms, { w with leases := w.leases.revoke w.clock w.projection instances })

/-- Whether a call of a task has to wait for the transaction of another. -/
def blocks (w : World) (task : Nat) (call : StoreCall) : Bool :=
  w.store.blocks call && w.transactionOf != some task

/-- Answers a call on the store. -/
def answerStore (w : World) (task : Nat) (call : StoreCall) :
    Except StorageError call.Value × World :=
  let (answer, store) := w.store.answer call
  let w := { w with
    store
    transactionOf := if store.transaction.isSome then some task else none }
  match call, answer with
  | .lockSequences .., .ok rows => (.ok (rows.filter fun row => !w.hidden row.key), w)
  | _, answer => (answer, w)

/-- How a call on the store fails that a hook makes fail. A transaction whose end fails is over
without having changed anything. -/
def failStore (w : World) (call : StoreCall) : World :=
  match call with
  | .commit | .rollback => { w with store := w.store.abandon, transactionOf := none }
  | _ => w

/-- Answers a call on the event log; what is pushed is published. -/
def answerSource (w : World) : (call : SourceCall) → call.Value × World
  | .filter q => (w.log.filter q, w)
  | .instanceIds q => (w.log.instanceIds q, w)
  | .push events =>
    let (pushed, log) := w.log.push w.pushDate events
    (pushed, { w with log, bus := w.bus.publishAll pushed })

/-- Answers a call on the locks. -/
def answerLock (w : World) : (call : LockCall) → call.Answer × World
  | .acquire holder duration instances =>
    let (answer, leases) := w.leases.lock w.clock holder duration instances
    (answer, { w with leases })
  | .watch session token =>
    let (lost, leases) := w.leases.watch session token
    ((), { w with leases }.cancelAll lost)
  | .stop session => ((), { w with leases := w.leases.stop session })
  | .release holder instances => (.ok (), { w with leases := w.leases.unlock holder instances })

/-- Lets a session renew its leases. -/
def renew (w : World) (s : LockSession) : World :=
  let (lost, leases) := w.leases.renew w.clock s
  { w with leases }.cancelAll lost

end World

end ReadModel
