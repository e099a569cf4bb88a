import ReadModel.Lease

/-!
Leases while time goes on.

A `LeaseClock` is a table of leases together with the time and the tokens that losses cancel. All
renewals that are due happen in their order before the time moves on, and the tasks of stopped sessions
have ended by then.
-/

namespace ReadModel

/-- Leases at a time. -/
structure LeaseClock where
  now : Nat := 0
  leases : Leases := {}
  tokens : Tokens := {}
  deriving Inhabited

namespace LeaseClock

/-- Cancels tokens. -/
def cancelAll (c : LeaseClock) (tokens : List Token) : LeaseClock :=
  { c with tokens := tokens.foldl Tokens.cancel c.tokens }

/-- Lets the renewals up to a time happen, at most so many of them. -/
def renewUntil (target : Nat) : Nat → LeaseClock → LeaseClock
  | 0, c => c
  | fuel + 1, c =>
    match c.leases.nextRenewal? with
    | some s =>
      if s.renewAt ≤ target then
        let now := max c.now s.renewAt
        let (lost, leases) := c.leases.renew now s
        renewUntil target fuel ({ c with now, leases }.cancelAll lost)
      else c
    | none => c

/-- Lets time go on. A session renews its leases at most once in a millisecond. -/
def advance (c : LeaseClock) (ms : Nat) : LeaseClock :=
  let target := c.now + ms
  let c := { c with leases := c.leases.quitAll }
  { renewUntil target (c.leases.sessions.length * (ms + 1)) c with now := target }

/-- Takes leases and opens a session. -/
def lock (c : LeaseClock) (holder : LockHolder) (duration : Nat) (instances : List InstanceId) :
    Except LockError Nat × LeaseClock :=
  let (answer, leases) := c.leases.lock c.now holder duration instances
  (answer, { c with leases })

/-- Makes the loss of a session's leases cancel a token. -/
def watch (c : LeaseClock) (session : Nat) (token : Token) : LeaseClock :=
  let (lost, leases) := c.leases.watch session token
  { c with leases }.cancelAll lost

/-- Claims the notice of a loss, and waits a millisecond where there is none. -/
def awaitLoss (c : LeaseClock) (session : Nat) : Option LockError × LeaseClock :=
  let (loss, leases) := c.leases.claim session
  let c := { c with leases }
  match loss with
  | some e => (some e, c)
  | none => (none, c.advance 1)

end LeaseClock

end ReadModel
