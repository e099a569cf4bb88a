import ReadModel.Proofs.Reliance
import ReadModel.Simulation.World

/-!
Worlds under audit.

A `World` answers the calls of a task; what the task asks of time and of other tasks is left open. A
`Ledger` is kept beside it, which tells the operations that have taken effect.
-/

namespace ReadModel

/-- The operations that were run with success: those of committed transactions, and those of the one
that is open. -/
structure Ledger where
  committed : List Operation := []
  pending : List Operation := []

/-- Enters a call on the storage and its answer. -/
def Ledger.note (l : Ledger) : (call : StoreCall) → Except StorageError call.Value → Ledger
  | .begin, .ok _ | .rollback, _ => { l with pending := [] }
  | .execute op, .ok _ => { l with pending := l.pending ++ [op] }
  | .commit, .ok _ => { committed := l.committed ++ l.pending, pending := [] }
  | _, _ => l

/-- A world and the ledger of its storage. -/
structure Audit where
  world : World
  ledger : Ledger := {}

/-- Answers to calls on time and on other tasks. -/
abbrev Surroundings := (call : TaskCall) → World → call.Answer × World

/-- Surroundings in which no time goes by and nobody else is there. -/
def Surroundings.still : Surroundings := fun call w =>
  (match call with
    | .isCancelled _ | .pause .. => false
    | .childToken token => token
    | .cancel _ | .crash _ => ()
    | .today => w.today
    | .clock => w.clock
    | .waitUntil .. | .receive .. => none
    | .batches .. => [], w)

/-- Answers a call of a task. -/
def World.answer (around : Surroundings) (task : Nat) :
    (call : HandlerCall) → World → call.Answer × World
  | .store call, w => w.answerStore task call
  | .source call, w => (.ok (w.answerSource call).1, (w.answerSource call).2)
  | .lock call, w => w.answerLock call
  | .task (.isCancelled token), w => (w.tokens.isCancelled token, w)
  | .task call, w => around call w

/-- The ledger after a call. -/
def Ledger.after (l : Ledger) : (call : HandlerCall) → call.Answer → Ledger
  | .store call, answer => l.note call answer
  | _, _ => l

/-- Answers a call of a task and enters it. -/
def Audit.answer (around : Surroundings) (task : Nat) (call : HandlerCall) (a : Audit) :
    call.Answer × Audit :=
  let (answer, world) := World.answer around task call a.world
  (answer, { world, ledger := a.ledger.after call answer })

/-- Keeping a ledger does not change how a program runs. -/
theorem Audit.run_world {α : Type} (around : Surroundings) (task : Nat) (d : Task α) (a : Audit) :
    (d.run (World.answer around task) a.world) =
      ((d.run (Audit.answer around task) a).1, (d.run (Audit.answer around task) a).2.world) := by
  induction d generalizing a with
  | done result => rfl
  | ask call next ih => exact ih _ (Audit.answer around task call a).2

end ReadModel
