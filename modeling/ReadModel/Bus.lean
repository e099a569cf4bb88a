/-!
The bus.

A `Bus` gives every message to all subscriptions that exist when it is published. A subscription
that was dropped is forgotten at the next message. Once the bus is gone, what is queued can still
be received.
-/

namespace ReadModel

/-- A subscription and the messages that wait for it. -/
structure Subscriber (μ : Type) where
  id : Nat
  queue : List μ
  live : Bool

/-- A bus of messages. -/
structure Bus (μ : Type) where
  nextId : Nat := 0
  subscribers : List (Subscriber μ) := []
  closed : Bool := false

/-- What a subscription gets when it asks. -/
inductive Received (α : Type) where
  | got (a : α)
  | closed
  | nothing
  deriving DecidableEq

namespace Bus

variable {μ : Type}

instance : Inhabited (Bus μ) := ⟨{}⟩

/-- Adds a subscription; gives its number. -/
def subscribe (b : Bus μ) : Nat × Bus μ :=
  (b.nextId,
    { b with nextId := b.nextId + 1, subscribers := b.subscribers ++ [⟨b.nextId, [], true⟩] })

/-- Changes a subscription. -/
def modify (b : Bus μ) (id : Nat) (change : Subscriber μ → Subscriber μ) : Bus μ :=
  { b with subscribers := b.subscribers.map fun s => if s.id = id then change s else s }

/-- Drops a subscription. -/
def drop (b : Bus μ) (id : Nat) : Bus μ := b.modify id fun s => { s with queue := [], live := false }

/-- Gives a message to all subscriptions, and forgets those that were dropped. -/
def publish (b : Bus μ) (message : μ) : Bus μ :=
  { b with subscribers := (b.subscribers.filter (·.live)).map fun s =>
      { s with queue := s.queue ++ [message] } }

/-- Publishes messages one after the other. -/
def publishAll (b : Bus μ) (messages : List μ) : Bus μ := messages.foldl publish b

/-- The bus goes away. -/
def close (b : Bus μ) : Bus μ := { b with closed := true }

/-- The number of subscriptions that are not forgotten. -/
def subscriberCount (b : Bus μ) : Nat := b.subscribers.length

/-- The messages that wait for a subscription. -/
def queue (b : Bus μ) (id : Nat) : List μ :=
  ((b.subscribers.find? fun s => s.id == id).map (·.queue)).getD []

/-- Takes the first message that waits for a subscription. -/
def receive (b : Bus μ) (id : Nat) : Received μ × Bus μ :=
  match b.queue id with
  | m :: rest => (.got m, b.modify id fun s => { s with queue := rest })
  | [] => (if b.closed then .closed else .nothing, b)

/-- Takes all messages that wait for a subscription, if there are any. -/
def receiveBatch (b : Bus μ) (id : Nat) : Received (List μ) × Bus μ :=
  match b.queue id with
  | m :: rest => (.got (m :: rest), b.modify id fun s => { s with queue := [] })
  | [] => (if b.closed then .closed else .nothing, b)

end Bus

end ReadModel
