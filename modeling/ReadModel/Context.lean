import ReadModel.Cancellation
import ReadModel.Identifier
import ReadModel.Instant

/-!
What a call is made with.
-/

namespace ReadModel

/-- The instance that a call is for where it names none, the point in time up to which it reads, and
the token that calls it off. -/
structure Context where
  instanceId : Option InstanceId := none
  asOf : Option Instant := none
  token : Token
  deriving DecidableEq, Inhabited

namespace Context

/-- A context with a token of its own. -/
def fresh (ts : Tokens) : Context × Tokens :=
  let (token, ts) := ts.fresh
  ({ token }, ts)

/-- The same context with a token made from its own. -/
def child (c : Context) (ts : Tokens) : Context × Tokens :=
  let (token, ts) := ts.child c.token
  ({ c with token }, ts)

/-- The context for an instance. -/
def ofInstance (c : Context) (id : InstanceId) : Context := { c with instanceId := some id }

/-- The context that reads up to an instant. -/
def upTo (c : Context) (t : Instant) : Context := { c with asOf := some t }

/-- The context that a token calls off. -/
def withToken (c : Context) (token : Token) : Context := { c with token }

/-- The context that reads all there is. -/
def readingAll (c : Context) : Context := { c with asOf := none }

end Context

end ReadModel
