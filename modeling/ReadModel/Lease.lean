import ReadModel.Handler.Call

/-!
Leases.

A lease gives an instance of a projection to one owner until some time. Those who take leases do so
for several instances at once, all or none. A `LockSession` renews its leases every third of their
duration until it is stopped, or until a renewal fails, which is when the leases are lost. Who watches
a session has a token cancelled at that time.

The task of a session ends soon after the session was stopped, but not at once: a renewal that is due by
then may be made all the same.
-/

namespace ReadModel

/-- The owner of a lease, and when the lease runs out. -/
structure Lease where
  owner : String
  expiry : Nat
  deriving DecidableEq, Inhabited

/-- The leases on the instances of projections. -/
abbrev LeaseTable := Dict (String × InstanceId) Lease

namespace LeaseTable

/-- Whether an instance is leased to someone else at a time. -/
def heldByOther (t : LeaseTable) (now : Nat) (holder : LockHolder) (id : InstanceId) : Bool :=
  (t.find? (holder.projection, id)).any fun lease =>
    decide (lease.owner ≠ holder.owner) && decide (now < lease.expiry)

/-- Gives leases on instances to an owner. -/
def grant (t : LeaseTable) (projection : String) (lease : Lease) (instances : List InstanceId) :
    LeaseTable :=
  instances.foldl (fun t id => t.insert (projection, id) lease) t

/-- Takes leases or extends them, unless one of the instances is leased to someone else. -/
def acquire (t : LeaseTable) (now : Nat) (holder : LockHolder) (duration : Nat)
    (instances : List InstanceId) : Except LockError LeaseTable :=
  let contended := instances.filter (t.heldByOther now holder)
  if contended.isEmpty then
    .ok (t.grant holder.projection ⟨holder.owner, now + duration⟩ instances)
  else .error (.alreadyLocked holder.projection contended)

/-- Gives up the leases that an owner has on instances. -/
def release (t : LeaseTable) (holder : LockHolder) (instances : List InstanceId) : LeaseTable :=
  instances.foldl (fun t id =>
    if (t.find? (holder.projection, id)).any fun lease => decide (lease.owner = holder.owner) then
      t.erase (holder.projection, id)
    else t) t

/-- Hands instances to a foreign owner for an hour. -/
def revoke (t : LeaseTable) (now : Nat) (projection : String) (instances : List InstanceId) :
    LeaseTable :=
  t.grant projection ⟨"revoked", now + 3600000⟩ instances

/-- The owner of an instance, whether or not the lease has run out. -/
def owner? (t : LeaseTable) (projection : String) (id : InstanceId) : Option String :=
  (t.find? (projection, id)).map (·.owner)

end LeaseTable

/-- A session that renews leases. `renewAt` is when it does so next, `stamp` which of two sessions
comes first when both do. It goes on `renewing` until it is stopped; a session that was stopped is
`lingering` as long as its task has not ended. The notice of a loss can be claimed once. -/
structure LockSession where
  id : Nat
  holder : LockHolder
  instances : List InstanceId
  duration : Nat
  renewAt : Nat
  stamp : Nat
  renewing : Bool := true
  lingering : Bool := false
  loss : Option LockError := none
  claimed : Bool := false
  deriving Inhabited

/-- Whether a session may renew its leases once more. -/
def LockSession.mayRenew (s : LockSession) : Bool := s.renewing || s.lingering

/-- One who watches a session. One who comes after the notice was claimed never hears of a loss. -/
structure LockWatcher where
  session : Nat
  token : Token
  late : Bool
  deriving Inhabited

/-- The leases and the sessions that renew them. -/
structure Leases where
  table : LeaseTable := ∅
  sessions : List LockSession := []
  watchers : List LockWatcher := []
  nextSession : Nat := 0
  stamp : Nat := 0

namespace Leases

instance : Inhabited Leases := ⟨{}⟩

/-- How long a session waits from one renewal to the next: a third of the duration in full
milliseconds, and at least one. -/
def renewalPeriod (duration : Nat) : Nat := max 1 ((duration + 2) / 3)

/-- The session with a number. -/
def session? (l : Leases) (id : Nat) : Option LockSession := l.sessions.find? fun s => s.id == id

/-- Changes a session. -/
def modify (l : Leases) (id : Nat) (change : LockSession → LockSession) : Leases :=
  { l with sessions := l.sessions.map fun s => if s.id = id then change s else s }

/-- Takes leases and opens a session that renews them. -/
def lock (l : Leases) (now : Nat) (holder : LockHolder) (duration : Nat)
    (instances : List InstanceId) : Except LockError Nat × Leases :=
  if instances.isEmpty then (.error .noInstances, l)
  else match l.table.acquire now holder duration instances with
    | .error e => (.error e, l)
    | .ok table =>
      let session : LockSession :=
        { id := l.nextSession
          holder, instances, duration
          renewAt := now + renewalPeriod duration
          stamp := l.stamp }
      (.ok l.nextSession,
        { l with
          table
          sessions := l.sessions ++ [session]
          nextSession := l.nextSession + 1
          stamp := l.stamp + 1 })

/-- Gives up leases. The sessions go on. -/
def unlock (l : Leases) (holder : LockHolder) (instances : List InstanceId) : Leases :=
  { l with table := l.table.release holder instances }

/-- Hands instances to a foreign owner. -/
def revoke (l : Leases) (now : Nat) (projection : String) (instances : List InstanceId) : Leases :=
  { l with table := l.table.revoke now projection instances }

/-- Stops a session. Its leases run out when they do, unless it makes one more renewal before its task
ends. -/
def stop (l : Leases) (id : Nat) : Leases :=
  l.modify id fun s => { s with renewing := false, lingering := s.mayRenew }

/-- The task of a session that was stopped ends. -/
def quit (l : Leases) (id : Nat) : Leases := l.modify id fun s => { s with lingering := false }

/-- The tasks of all sessions that were stopped end. -/
def quitAll (l : Leases) : Leases :=
  { l with sessions := l.sessions.map fun s => { s with lingering := false } }

/-- Claims the notice of a loss: the loss, if there was one that nobody has claimed. -/
def claim (l : Leases) (id : Nat) : Option LockError × Leases :=
  match l.session? id with
  | some s =>
    (if s.claimed then none else s.loss, l.modify id fun s => { s with claimed := true })
  | none => (none, l)

/-- Makes the loss of a session's leases cancel a token; gives the tokens to cancel at once. -/
def watch (l : Leases) (id : Nat) (token : Token) : List Token × Leases :=
  let late := (l.session? id).all (·.claimed)
  let (loss, l) := l.claim id
  (if loss.isSome then [token] else [], { l with watchers := l.watchers ++ [⟨id, token, late⟩] })

/-- Whether a watcher has nothing to wait for any more. -/
def watcherFinished (l : Leases) (tokens : Tokens) (w : LockWatcher) : Bool :=
  w.late || tokens.isCancelled w.token || !(l.session? w.session).any (·.renewing)

/-- Whether a session's renewal comes before another's. -/
def LockSession.sooner (a b : LockSession) : Bool :=
  decide (a.renewAt < b.renewAt) || (a.renewAt == b.renewAt && decide (a.stamp < b.stamp))

/-- The session that renews its leases next. -/
def nextRenewal? (l : Leases) : Option LockSession :=
  (l.sessions.filter (·.renewing)).foldl (fun best s =>
    match best with
    | none => some s
    | some b => if LockSession.sooner s b then some s else some b) none

/-- A session renews its leases; gives the tokens to cancel if they are lost. This is the last that one
does which was stopped before. -/
def renew (l : Leases) (now : Nat) (s : LockSession) : List Token × Leases :=
  match l.table.acquire now s.holder s.duration s.instances with
  | .ok table =>
    let l := l.modify s.id fun s =>
      { s with renewAt := now + renewalPeriod s.duration, stamp := l.stamp, lingering := false }
    ([], { l with table, stamp := l.stamp + 1 })
  | .error e =>
    let tokens := (l.watchers.filter fun w => w.session == s.id && !w.late).map (·.token)
    (tokens, l.modify s.id fun s => { s with renewing := false, lingering := false, loss := some e })

end Leases

end ReadModel
