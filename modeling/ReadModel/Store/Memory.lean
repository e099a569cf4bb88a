import ReadModel.Store.Call
import ReadModel.Store.Tables

/-!
The storage of projections in memory.

A `MemoryStore` has at most one transaction at a time. A transaction works on a copy of the data,
and a savepoint is a copy of that copy; a commit puts the working copy in the place of the data.
-/

namespace ReadModel

/-- How often an event has failed, and why it failed last. The count has no bound here, so that its
overflow at 32 bits is left out. -/
structure FailedEvent where
  count : Nat
  error : String
  deriving DecidableEq, Inhabited

/-- All that a store holds. -/
structure StoreData where
  tables : Tables := ∅
  sequences : Dict (String × SequenceKey) Nat := ∅
  failures : Dict (String × InstanceId × Nat) FailedEvent := ∅

/-- What makes a store fail. -/
structure Faults where
  values : List Fault := []
  rejectSequences : Bool := false

/-- The working copy of a transaction and its savepoints, the newest first. -/
structure Transaction where
  working : StoreData
  savepoints : List StoreData := []

/-- A store. `executed` lists all operations that were run, also those that failed or were rolled
back; `begins` counts the transactions. -/
structure MemoryStore where
  data : StoreData := {}
  faults : Faults := {}
  transaction : Option Transaction := none
  executed : List Operation := []
  begins : Nat := 0

namespace StoreData

/-- The stored sequences of a projection that pass a test. -/
def currentSequences (d : StoreData) (projection : String) (test : SequenceKey → Bool) :
    List CurrentSequence :=
  (d.sequences.entries.filter fun e => decide (e.1.1 = projection) && test e.1.2).map fun e =>
    ⟨e.1.2, e.2⟩

/-- The sequence at which a key of a projection stands. -/
def sequence? (d : StoreData) (projection : String) (key : SequenceKey) : Option Nat :=
  d.sequences.find? (projection, key)

/-- The failures of an event of a projection. -/
def failure? (d : StoreData) (projection : String) (id : InstanceId) (sequence : Nat) :
    Option FailedEvent :=
  d.failures.find? (projection, id, sequence)

/-- Counts one more failure of an event. -/
def recordFailure (d : StoreData) (projection : String) (id : InstanceId) (sequence : Nat)
    (error : String) : Nat × StoreData :=
  let count := ((d.failure? projection id sequence).map (·.count)).getD 0 + 1
  (count, { d with failures := d.failures.insert (projection, id, sequence) ⟨count, error⟩ })

end StoreData

/-- What running an operation has led to: the tables, the operations that were run, and the error
at which it stopped. -/
structure Execution where
  tables : Tables
  executed : List Operation
  error : Option StorageError

namespace Faults

/-- The error that the first matching fault raises. -/
def error? (f : Faults) (op : Operation) : Option StorageError :=
  (f.values.find? fun v => v.hits op).map Fault.error

end Faults

mutual

/-- Runs an operation. It is refused as a whole where a part of it can never run; otherwise its parts
run one after the other up to the first that fails. -/
def Operation.run (faults : Faults) (tables : Tables) : Operation → Execution
  | .multi parts =>
    match validate (.multi parts) with
    | .error e => ⟨tables, [.multi parts], some (.invalidOperation e)⟩
    | .ok () =>
      let rest := runAll faults tables parts
      { rest with executed := .multi parts :: rest.executed }
  | op =>
    match op.validate with
    | .error e => ⟨tables, [op], some (.invalidOperation e)⟩
    | .ok () =>
      match faults.error? op with
      | some e => ⟨tables, [op], some e⟩
      | none => ⟨Tables.apply tables op, [op], none⟩

def Operation.runAll (faults : Faults) (tables : Tables) : List Operation → Execution
  | [] => ⟨tables, [], none⟩
  | op :: rest =>
    let first := Operation.run faults tables op
    match first.error with
    | some _ => first
    | none =>
      let others := runAll faults first.tables rest
      { others with executed := first.executed ++ others.executed }

end

namespace MemoryStore

/-- Whether a call has to wait until the open transaction has ended. -/
def blocks (s : MemoryStore) : StoreCall → Bool
  | .begin | .currentSequences .. | .failureCount .. => s.transaction.isSome
  | _ => false

/-- The error of a call that needs an open transaction. -/
def noTransaction (operation : String) : StorageError := .database operation "no transaction"

/-- Runs a call inside the open transaction. -/
def within {α : Type} (s : MemoryStore) (operation : String)
    (step : Transaction → Except StorageError α × Transaction) :
    Except StorageError α × MemoryStore :=
  match s.transaction with
  | none => (.error (noTransaction operation), s)
  | some tx =>
    let (answer, tx) := step tx
    (answer, { s with transaction := some tx })

/-- Answers a call. -/
def answer (s : MemoryStore) : (call : StoreCall) → Except StorageError call.Value × MemoryStore
  | .begin => (.ok (), { s with transaction := some { working := s.data }, begins := s.begins + 1 })
  | .currentSequences projection instances =>
    (.ok (s.data.currentSequences projection fun key => decide (key.instanceId ∈ instances)), s)
  | .failureCount projection id sequence =>
    (.ok (((s.data.failure? projection id sequence).map (·.count)).getD 0), s)
  | .lockSequences projection types instances =>
    s.within "lock_sequences" fun tx =>
      (.ok (tx.working.currentSequences projection fun key =>
        decide (key.instanceId ∈ instances) && decide (key.aggregateType ∈ types)), tx)
  | .savepoint =>
    s.within "savepoint" fun tx => (.ok (), { tx with savepoints := tx.working :: tx.savepoints })
  | .rollbackToSavepoint =>
    s.within "rollback_to_savepoint" fun tx =>
      match tx.savepoints with
      | [] => (.error (.database "rollback_to_savepoint" "no savepoint"), tx)
      | snapshot :: rest => (.ok (), { working := snapshot, savepoints := rest })
  | .releaseSavepoint =>
    s.within "release_savepoint" fun tx =>
      match tx.savepoints with
      | [] => (.error (.database "release_savepoint" "no savepoint"), tx)
      | _ :: rest => (.ok (), { tx with savepoints := rest })
  | .execute op =>
    match s.transaction with
    | none => (.error (noTransaction "execute"), s)
    | some tx =>
      let run := op.run s.faults tx.working.tables
      let tx := { tx with working := { tx.working with tables := run.tables } }
      (match run.error with
        | some e => .error e
        | none => .ok (),
        { s with transaction := some tx, executed := s.executed ++ run.executed })
  | .upsertSequence projection key sequence =>
    s.within "upsert_sequence" fun tx =>
      let reached := (tx.working.sequence? projection key).any fun n => decide (sequence ≤ n)
      if s.faults.rejectSequences || reached then (.ok 0, tx)
      else
        let sequences := tx.working.sequences.insert (projection, key) sequence
        (.ok 1, { tx with working := { tx.working with sequences } })
  | .recordFailure projection statement error =>
    s.within "record_failure" fun tx =>
      let (count, working) :=
        tx.working.recordFailure projection statement.instanceId statement.sequence error
      (.ok count, { tx with working })
  | .commit =>
    match s.transaction with
    | none => (.error (noTransaction "commit"), s)
    | some tx => (.ok (), { s with data := tx.working, transaction := none })
  | .rollback => (.ok (), { s with transaction := none })

/-- Gives up the open transaction. -/
def abandon (s : MemoryStore) : MemoryStore := { s with transaction := none }

/-- Adds a fault. -/
def failOn (s : MemoryStore) (fault : Fault) : MemoryStore :=
  { s with faults := { s.faults with values := s.faults.values ++ [fault] } }

/-- Takes all faults away. -/
def clearFaults (s : MemoryStore) : MemoryStore := { s with faults := {} }

/-- Makes sequence updates write nothing, or puts an end to that. -/
def rejectSequences (s : MemoryStore) (reject : Bool) : MemoryStore :=
  { s with faults := { s.faults with rejectSequences := reject } }

end MemoryStore

end ReadModel
