import ReadModel.Event

/-!
How far a projection has got.

A projection keeps the greatest sequence that it has applied for each aggregate type of each
instance. A key without an entry stands at zero.
-/

namespace ReadModel

/-- An aggregate type of an instance. -/
structure SequenceKey where
  aggregateType : AggregateType
  instanceId : InstanceId
  deriving DecidableEq, Inhabited

/-- Keys are ordered by aggregate type, then by instance. -/
instance : KeyOrder SequenceKey :=
  KeyOrder.via (fun k => (k.aggregateType, k.instanceId)) fun a b same => by
    cases a; cases b; simp_all

/-- The key that a statement counts for. -/
def Statement.key (s : Statement) : SequenceKey := ⟨s.aggregateType, s.instanceId⟩

/-- The key that an event counts for. -/
def Event.key (e : Event) : SequenceKey := ⟨e.aggregateType, e.instanceId⟩

/-- A stored sequence. -/
structure CurrentSequence where
  key : SequenceKey
  sequence : Nat
  deriving DecidableEq, Inhabited

/-- The sequences of keys. -/
abbrev SequenceMap := Dict SequenceKey Nat

namespace SequenceMap

/-- The sequence at which a key stands. -/
def get (m : SequenceMap) (key : SequenceKey) : Nat := (m.find? key).getD 0

/-- Raises a key to a sequence; a lower one leaves it where it is. -/
def advance (m : SequenceMap) (key : SequenceKey) (sequence : Nat) : SequenceMap :=
  m.insert key (max (m.get key) sequence)

/-- The sequences that rows tell. -/
def ofRows (rows : List CurrentSequence) : SequenceMap :=
  rows.foldl (fun m row => advance m row.key row.sequence) ∅

end SequenceMap

end ReadModel
