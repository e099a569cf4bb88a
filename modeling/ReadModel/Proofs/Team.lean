import ReadModel.Proofs.Settling

/-!
Handlers that work side by side.

A `Team` of tasks keeps one projection up to date. The tasks take turns call by call, in any order,
while events are pushed, faults come and go, and contexts are cancelled. `Rely` says what each of
them can count on, and `Faithful` what they keep true together.
-/

namespace ReadModel

/-- Tasks that keep a projection up to date. Each makes its calls under its position. -/
structure Team where
  audit : Audit
  tasks : List (Task (Except HandlerError (Option Nat))) := []

/-- What the tasks of a team have in common: the projection, how often an event may fail, and what
they meet besides their world. -/
structure Charge where
  projection : Projection
  limit : Nat
  surroundings : Surroundings

/-- A handler that is in charge of the projection. -/
def Charge.handler (c : Charge) (config : ProjectionConfig) (owner : String) : Handler where
  name := c.projection.name
  registry := c.projection.registry
  config := { config with maxFailureCount := c.limit }
  owner

/-- Whether a call has to wait for the transaction of another task. -/
def World.waits (w : World) (task : Nat) : HandlerCall → Bool
  | .store call => w.blocks task call
  | _ => false

namespace Team

/-- What can happen next: events are pushed, faults change, a token is cancelled, a handler is called
with statements of logged events, or a task makes its next call. -/
inductive Move where
  | push (date : Instant) (events : List NewEvent)
  | disturb (faults : Faults)
  | cancel (token : Token)
  | update (config : ProjectionConfig) (owner : String) (ctx : Context) (sequences : List Nat)
  | turn (task : Nat)

/-- What a team is like after a move. -/
def move (c : Charge) (team : Team) : Move → Team
  | .push date events =>
    { team with
      audit.world := ({ team.audit.world with pushDate := date }.answerSource (.push events)).2 }
  | .disturb faults => { team with audit.world.store.faults := faults }
  | .cancel token => { team with audit.world := team.audit.world.cancelAll [token] }
  | .update config owner ctx sequences =>
    match c.projection.registry.reduceAll (sequences.filterMap team.audit.world.log.find?) with
    | .ok batch =>
      { team with tasks := team.tasks ++ [((c.handler config owner).update ctx batch).run] }
    | .error _ => team
  | .turn task =>
    match team.tasks[task]? with
    | some (.ask call next) =>
      if team.audit.world.waits task call then team
      else
        let (answer, audit) := Audit.answer c.surroundings task call team.audit
        { audit, tasks := team.tasks.set task (next answer) }
    | _ => team

/-- A team that has nothing yet: no events, no rows, no tasks. -/
def start (c : Charge) (day : Instant) : Team where
  audit.world := { projection := c.projection.name, today := day, pushDate := day }

/-- What a team is like after moves. -/
def run (c : Charge) (day : Instant) (moves : List Move) : Team :=
  moves.foldl (move c) (start c day)

end Team

/-- The operations that have taken effect are those of the settled events, key by key in the order of
the log. -/
def Audit.Effects (c : Charge) (a : Audit) : Prop :=
  ∃ applied : List Statement, a.ledger.committed = applied.map (·.operation) ∧
    ∀ key, c.projection.registry.reduceAll
      (a.world.log.settled a.world.store.data c.projection.name c.limit key) =
        .ok (applied.filter fun st => decide (st.key = key))

/-- The tables are what those operations have made of them. -/
def Audit.Replayed (a : Audit) : Prop :=
  a.world.store.data.tables = Tables.replay ∅ a.ledger.committed

/-- What is true of the world and the ledger of a team at any time. -/
structure Faithful (c : Charge) (a : Audit) : Prop where
  linked : a.world.log.Linked
  shown : a.world.hidden = fun _ => false
  owned : a.world.store.transaction.isSome = a.world.transactionOf.isSome
  fits : a.world.store.data.Fits a.world.log c.projection.name c.limit
  effects : a.Effects c
  replayed : a.Replayed

/-- What a task can count on: the log only grows, and an open transaction is touched by its owner
only. -/
structure Rely (c : Charge) (task : Nat) (a b : Audit) : Prop where
  grown : a.world.log.events <+: b.world.log.events
  linked : a.world.log.Linked → b.world.log.Linked
  hidden : b.world.hidden = a.world.hidden
  faithful : Faithful c a → Faithful c b
  kept : a.world.transactionOf = some task → b.world.transactionOf = some task ∧
    b.world.store.transaction = a.world.store.transaction ∧
    b.world.store.data = a.world.store.data ∧ b.ledger = a.ledger
  foreign : a.world.transactionOf ≠ some task → b.world.transactionOf ≠ some task

/-- While the log grows, the settled events stay the same. -/
theorem StoreData.Fits.settled_of_prefix {d : StoreData} {log log' : EventLog}
    {projection : String} {limit : Nat} (fits : d.Fits log projection limit) (linked : log.Linked)
    (linked' : log'.Linked) (grown : log.events <+: log'.events) (key : SequenceKey) :
    log'.settled d projection limit key = log.settled d projection limit key := by
  rw [linked.settled_eq, linked'.settled_eq]
  congr 1
  rcases fits.reached key with none | ⟨e, inLog, bound⟩
  · rw [none, EventLog.between_of_le _ _ (Nat.le_refl _), EventLog.between_of_le _ _ (Nat.le_refl _)]
  · exact linked'.between_of_prefix grown inLog key 0 bound

namespace Rely

variable {c : Charge} {task : Nat} {s t u : Audit}

/-- A move that leaves the storage and the ledger alone but for faults takes nothing away. -/
theorem of_same (grown : s.world.log.events <+: t.world.log.events)
    (linked : s.world.log.Linked → t.world.log.Linked) (hidden : t.world.hidden = s.world.hidden)
    (owner : t.world.transactionOf = s.world.transactionOf)
    (transaction : t.world.store.transaction = s.world.store.transaction)
    (data : t.world.store.data = s.world.store.data) (ledger : t.ledger = s.ledger) :
    Rely c task s t where
  grown
  linked
  hidden
  faithful before := by
    refine ⟨linked before.linked, hidden.trans before.shown, ?_, ?_, ?_, ?_⟩
    · rw [transaction, owner, before.owned]
    · rw [data]
      exact before.fits.grown grown
    · obtain ⟨applied, committed, settled⟩ := before.effects
      refine ⟨applied, by rw [ledger, committed], fun key => ?_⟩
      rw [data, before.fits.settled_of_prefix before.linked (linked before.linked) grown]
      exact settled key
    · rw [Audit.Replayed, data, ledger]
      exact before.replayed
  kept ours := ⟨owner.trans ours, transaction, data, ledger⟩
  foreign other := owner ▸ other

theorem refl : Rely c task s s := of_same List.prefix_rfl id rfl rfl rfl rfl rfl

theorem trans (first : Rely c task s t) (second : Rely c task t u) : Rely c task s u where
  grown := first.grown.trans second.grown
  linked := second.linked ∘ first.linked
  hidden := second.hidden.trans first.hidden
  faithful := second.faithful ∘ first.faithful
  kept ours := by
    obtain ⟨owner, transaction, data, ledger⟩ := first.kept ours
    obtain ⟨owner', transaction', data', ledger'⟩ := second.kept owner
    exact ⟨owner', transaction'.trans transaction, data'.trans data, ledger'.trans ledger⟩
  foreign other := second.foreign (first.foreign other)

end Rely

end ReadModel
