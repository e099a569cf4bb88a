/-!
Cancellation.

A `Token` is told to others so that they notice when work is called off. Whatever cancels a token
cancels the tokens made from it, and never the other way round.
-/

namespace ReadModel

/-- A token: its own number, and those of the tokens that it was made from. -/
structure Token where
  id : Nat
  ancestors : List Nat
  deriving DecidableEq, Inhabited

/-- The tokens that were handed out, and the numbers of those that were cancelled. -/
structure Tokens where
  nextId : Nat := 0
  cancelled : List Nat := []
  deriving DecidableEq, Inhabited

namespace Tokens

/-- Hands out a token of its own. -/
def fresh (ts : Tokens) : Token × Tokens := (⟨ts.nextId, []⟩, { ts with nextId := ts.nextId + 1 })

/-- Hands out a token made from another. -/
def child (ts : Tokens) (parent : Token) : Token × Tokens :=
  (⟨ts.nextId, parent.id :: parent.ancestors⟩, { ts with nextId := ts.nextId + 1 })

/-- Cancels a token. -/
def cancel (ts : Tokens) (token : Token) : Tokens :=
  { ts with cancelled := token.id :: ts.cancelled }

/-- Whether a token, or one that it was made from, was cancelled. -/
def isCancelled (ts : Tokens) (token : Token) : Bool :=
  (token.id :: token.ancestors).any fun id => decide (id ∈ ts.cancelled)

end Tokens

end ReadModel
