import ReadModel.Proofs.Flattening
import ReadModel.Proofs.Transaction

/-!
Nested savepoints.

Properly nested moves neither look at nor change the savepoints that were there before them
(`MemoryStore.Lifts`). So a rollback brings the transaction back as it was when the savepoint was set,
and a release leaves it as if the savepoint had never been set. What transactions begin with changes
with a commit and with nothing else.
-/

namespace ReadModel

/-- What can happen to a store. A transaction can be dropped instead of being ended, and faults come and
go at any time. -/
inductive StoreMove where
  | call (call : StoreCall)
  | drop
  | failOn (fault : Fault)
  | clearFaults
  | rejectSequences (reject : Bool)

/-- Whether a move is the end of an open transaction. -/
def StoreMove.ends : StoreMove → Bool
  | .call .commit | .call .rollback | .drop => true
  | _ => false

/-- How many savepoints there are after a move when there are `n` before it. There is no answer when the
transaction ends, or when a savepoint is gone back to or released and there is none. -/
def StoreMove.nesting (n : Nat) : StoreMove → Option Nat
  | .call .savepoint => some (n + 1)
  | .call .rollbackToSavepoint | .call .releaseSavepoint => if n = 0 then none else some (n - 1)
  | m => if m.ends then none else some n

/-- Each savepoint that is gone back to or released was set among the moves, and each that is set among
them is gone back to or released. -/
def ProperlyNested (moves : List StoreMove) : Prop := moves.foldlM StoreMove.nesting 0 = some 0

instance (moves : List StoreMove) : Decidable (ProperlyNested moves) :=
  inferInstanceAs (Decidable (_ = _))

/-- The transaction with older savepoints below its own. -/
def Transaction.above (tx : Transaction) (older : List StoreData) : Transaction :=
  { tx with savepoints := tx.savepoints ++ older }

namespace MemoryStore

/-- Makes a move; the call is listed if it is answered. One that has to wait changes nothing before its
turn comes. -/
def move (s : MemoryStore) : StoreMove → List (Exchange storeInterface) × MemoryStore
  | .call c => if s.blocks c then ([], s) else ([⟨c, (s.answer c).1⟩], (s.answer c).2)
  | .drop => ([], s.abandon)
  | .failOn fault => ([], s.failOn fault)
  | .clearFaults => ([], s.clearFaults)
  | .rejectSequences reject => ([], s.rejectSequences reject)

/-- Makes one move after the other. -/
def run (s : MemoryStore) : List StoreMove → List (Exchange storeInterface) × MemoryStore
  | [] => ([], s)
  | m :: rest =>
    let (first, s) := s.move m
    let (others, s) := run s rest
    (first ++ others, s)

/-- The store with a transaction open. -/
def inside (s : MemoryStore) (tx : Transaction) : MemoryStore := { s with transaction := some tx }

/-- The store with older savepoints below those of its transaction. -/
def above (s : MemoryStore) (older : List StoreData) : MemoryStore :=
  { s with transaction := s.transaction.map (·.above older) }

/-- How many savepoints the open transaction has. -/
def depth? (s : MemoryStore) : Option Nat := s.transaction.map (·.savepoints.length)

variable {s : MemoryStore} {tx : Transaction} {d : StoreData} {m : StoreMove} {n k : Nat}
  {moves : List StoreMove}

theorem inside_self (isOpen : s.transaction = some tx) : s.inside tx = s := by
  rw [inside, ← isOpen]

theorem run_cons (s : MemoryStore) (m : StoreMove) (rest : List StoreMove) :
    s.run (m :: rest) =
      ((s.move m).1 ++ ((s.move m).2.run rest).1, ((s.move m).2.run rest).2) := rfl

theorem run_singleton (s : MemoryStore) (m : StoreMove) : s.run [m] = s.move m := by
  rw [run_cons, run, List.append_nil]

theorem run_append (s : MemoryStore) (first second : List StoreMove) :
    s.run (first ++ second) =
      ((s.run first).1 ++ ((s.run first).2.run second).1, ((s.run first).2.run second).2) := by
  induction first generalizing s with
  | nil => rfl
  | cons m rest ih => simp only [List.cons_append, run_cons, ih, List.append_assoc]

section Nesting

/-- Moves leave the transaction of a store with `k` savepoints, and come to the same with older savepoints
below. -/
structure Lifts (s : MemoryStore) (moves : List StoreMove) (k : Nat) : Prop where
  depth : (s.run moves).2.depth? = some k
  run_above : ∀ older, (s.above older).run moves = ((s.run moves).1, (s.run moves).2.above older)

theorem Lifts.append {first second : List StoreMove} (one : s.Lifts first n)
    (other : (s.run first).2.Lifts second k) : s.Lifts (first ++ second) k where
  depth := by
    rw [run_append]
    exact other.depth
  run_above older := by rw [run_append, one.run_above, other.run_above, run_append]

theorem lifts_singleton (depth : s.depth? = some n) (nests : m.nesting n = some k) :
    s.Lifts [m] k := by
  obtain ⟨tx, isOpen, rfl⟩ := Option.map_eq_some_iff.mp depth
  cases m with
  | call c =>
    cases c with
    | begin | currentSequences | failureCount =>
      -- these wait for the end of the transaction, with older savepoints or without
      cases nests
      constructor <;> simp [run, move, blocks, above, depth?, isOpen]
    | savepoint | lockSequences | recordFailure | execute =>
      cases nests
      constructor <;> simp [run, move, blocks, answer, within, above, Transaction.above, depth?, isOpen]
    | upsertSequence projection key sequence =>
      cases nests
      cases refused : tx.working.refuses s.faults projection key sequence with
      | true | false =>
        unfold StoreData.refuses at refused
        constructor <;>
          simp [run, move, blocks, answer, within, above, Transaction.above, depth?, isOpen, refused]
    | rollbackToSavepoint | releaseSavepoint =>
      obtain ⟨d, savepoints⟩ := tx
      cases savepoints with
      | nil => cases nests
      | cons snapshot rest =>
        cases nests
        constructor <;> simp [run, move, blocks, answer, within, above, Transaction.above, depth?, isOpen]
    | commit | rollback => cases nests
  | drop => cases nests
  | failOn | clearFaults | rejectSequences =>
    cases nests
    exact ⟨depth, fun older => rfl⟩

theorem lifts_run (depth : s.depth? = some n) (nests : moves.foldlM StoreMove.nesting n = some k) :
    s.Lifts moves k := by
  induction moves generalizing s n with
  | nil =>
    cases nests
    exact ⟨depth, fun older => rfl⟩
  | cons m rest ih =>
    obtain ⟨j, nestsFirst, nestsRest⟩ := Option.bind_eq_some_iff.mp nests
    have first : s.Lifts [m] j := lifts_singleton depth nestsFirst
    have others : (s.run [m]).2.Lifts rest k := ih first.depth nestsRest
    exact first.append others

/-- Properly nested moves come to the same whatever savepoints there are, and leave them all. -/
theorem exists_run (s : MemoryStore) (d : StoreData) (nested : ProperlyNested moves) :
    ∃ replies t d', ∀ savepoints,
      (s.inside ⟨d, savepoints⟩).run moves = (replies, inside t ⟨d', savepoints⟩) := by
  have lifts := lifts_run (s := s.inside ⟨d, []⟩) rfl nested
  obtain ⟨⟨d', own⟩, isOpen, length⟩ := Option.map_eq_some_iff.mp lifts.depth
  have none : own = [] := List.length_eq_zero_iff.mp length
  subst none
  have ended (savepoints : List StoreData) :
      ((s.inside ⟨d, []⟩).run moves).2.above savepoints =
        ((s.inside ⟨d, []⟩).run moves).2.inside ⟨d', savepoints⟩ := by
    rw [above, isOpen]
    rfl
  refine ⟨((s.inside ⟨d, []⟩).run moves).1, ((s.inside ⟨d, []⟩).run moves).2, d', fun savepoints => ?_⟩
  have alike := lifts.run_above savepoints
  rw [ended] at alike
  exact alike

/-- Properly nested moves by themselves, and with a savepoint set before them and one more move after
them. -/
theorem exists_run_within (s : MemoryStore) (d : StoreData) (older : List StoreData)
    (nested : ProperlyNested moves) :
    ∃ replies t d', (s.inside ⟨d, older⟩).run moves = (replies, inside t ⟨d', older⟩) ∧
      ∀ m, (s.inside ⟨d, older⟩).run (.call .savepoint :: (moves ++ [m])) =
        (⟨.savepoint, .ok ()⟩ :: (replies ++ ((t.inside ⟨d', d :: older⟩).move m).1),
          ((t.inside ⟨d', d :: older⟩).move m).2) := by
  obtain ⟨replies, t, d', same⟩ := exists_run s d nested
  refine ⟨replies, t, d', same older, fun m => ?_⟩
  have set : (s.inside ⟨d, older⟩).move (.call .savepoint) =
    ([⟨.savepoint, .ok ()⟩], s.inside ⟨d, d :: older⟩) := rfl
  rw [run_cons, set, run_append, same, run_singleton]
  rfl

end Nesting

section Commits

/-- What is true of a store stays true of it while a call waits. -/
theorem move_call {P : MemoryStore → Prop} {c : StoreCall} (holds : P s)
    (answered : s.blocks c = false → P (s.answer c).2) : P (s.move (.call c)).2 := by
  dsimp only [move]
  split
  next => exact holds
  next free => exact answered (Bool.eq_false_iff.mpr free)

theorem run_of_move {P : MemoryStore → Prop} (holds : P s)
    (kept : ∀ m ∈ moves, ∀ t, P t → P (t.move m).2) : P (s.run moves).2 := by
  induction moves generalizing s with
  | nil => exact holds
  | cons m rest ih =>
    obtain ⟨first, others⟩ := List.forall_mem_cons.mp kept
    exact ih (first s holds) others

theorem data_move (other : m ≠ .call .commit) : (s.move m).2.data = s.data := by
  cases m with
  | call c =>
    refine move_call (P := fun t => t.data = s.data) rfl fun _ => ?_
    exact s.answer_data_of_ne_commit fun commits => other (congrArg _ commits)
  | drop | failOn | clearFaults | rejectSequences => rfl

theorem data_run (none : .call .commit ∉ moves) : (s.run moves).2.data = s.data := by
  refine run_of_move (P := fun t => t.data = s.data) rfl fun m among t same => ?_
  have other : m ≠ .call .commit := fun commits => none (commits ▸ among)
  rw [data_move other, same]

theorem isSome_move (isOpen : s.transaction.isSome) (goesOn : m.ends = false) :
    (s.move m).2.transaction.isSome := by
  cases m with
  | call c =>
    refine move_call (P := fun t => t.transaction.isSome) isOpen fun free => ?_
    have working : c.working := by
      cases c with
      | begin => exact absurd isOpen (Bool.eq_false_iff.mp free)
      | commit | rollback => cases goesOn
      | _ => trivial
    rw [s.isSome_answer working]
    exact isOpen
  | drop => cases goesOn
  | failOn | clearFaults | rejectSequences => exact isOpen

theorem isSome_run (isOpen : s.transaction.isSome) (goesOn : ∀ m ∈ moves, m.ends = false) :
    (s.run moves).2.transaction.isSome :=
  run_of_move (P := fun t => t.transaction.isSome) isOpen fun m among _ there =>
    isSome_move there (goesOn m among)

/-- These data are committed: where no transaction is open, one begins with them and without
savepoints. -/
structure Offers (s : MemoryStore) (d : StoreData) : Prop where
  data : s.data = d
  begins : s.transaction = none → s.run [.call .begin] =
    ([⟨.begin, .ok ()⟩], { s with transaction := some ⟨d, []⟩, begins := s.begins + 1 })

theorem offers_of_data (data : s.data = d) : s.Offers d where
  data := data
  begins free := by simp [run, move, blocks, answer, free, data]

theorem offers_run (data : s.data = d) (none : .call .commit ∉ moves) : (s.run moves).2.Offers d :=
  offers_of_data ((data_run none).trans data)

end Commits

/-- What is done within a savepoint or a transaction is kept apart from what is outside. -/
structure Isolates (s : MemoryStore) (tx : Transaction) : Prop where
  /-- A rollback brings the transaction back as it was when the savepoint was set. All else is as the
  moves by themselves would leave it. -/
  rolledBack : ∀ moves, ProperlyNested moves →
    s.run (.call .savepoint :: (moves ++ [.call .rollbackToSavepoint])) =
      (⟨.savepoint, .ok ()⟩ :: ((s.run moves).1 ++ [⟨.rollbackToSavepoint, .ok ()⟩]),
        { (s.run moves).2 with transaction := some tx })
  /-- With a savepoint that is released in the end, the moves come to what they come to by themselves. -/
  released : ∀ moves, ProperlyNested moves →
    s.run (.call .savepoint :: (moves ++ [.call .releaseSavepoint])) =
      (⟨.savepoint, .ok ()⟩ :: ((s.run moves).1 ++ [⟨.releaseSavepoint, .ok ()⟩]), (s.run moves).2)
  /-- The moves by themselves leave the savepoints that were there before as they were. -/
  level : ∀ moves, ProperlyNested moves →
    ∃ d, (s.run moves).2.transaction = some ⟨d, tx.savepoints⟩
  /-- Where there is no savepoint, to go back to one or to release one fails and changes nothing. -/
  refused : tx.savepoints = [] →
    s.run [.call .rollbackToSavepoint] =
      ([⟨.rollbackToSavepoint, .error (.database "rollback_to_savepoint" "no savepoint")⟩], s) ∧
    s.run [.call .releaseSavepoint] =
      ([⟨.releaseSavepoint, .error (.database "release_savepoint" "no savepoint")⟩], s)
  /-- What the transaction has come to is committed as a whole, or not at all if it is rolled back or
  dropped, until another one is committed. -/
  ended : ∀ moves later, (∀ m ∈ moves, m.ends = false) → .call .commit ∉ later →
    ∃ last, (s.run moves).2.transaction = some last ∧
      (s.run (moves ++ .call .commit :: later)).2.Offers last.working ∧
      (s.run (moves ++ .call .rollback :: later)).2.Offers s.data ∧
      (s.run (moves ++ .drop :: later)).2.Offers s.data
  /-- Nothing but a commit changes what is committed. -/
  kept : ∀ moves, .call .commit ∉ moves → (s.run moves).2.Offers s.data

/-- Savepoints take back, or keep, what is done within them and nothing else, however deep they are nested,
and so do transactions. -/
theorem transactions_isolate (isOpen : s.transaction = some tx) : s.Isolates tx := by
  obtain ⟨d, older⟩ := tx
  rw [← inside_self isOpen]
  constructor
  case rolledBack =>
    intro moves nested
    obtain ⟨replies, t, d', alone, within⟩ := exists_run_within s d older nested
    have back : (t.inside ⟨d', d :: older⟩).move (.call .rollbackToSavepoint) =
      ([⟨.rollbackToSavepoint, .ok ()⟩], t.inside ⟨d, older⟩) := rfl
    rw [within, back, alone]
    rfl
  case released =>
    intro moves nested
    obtain ⟨replies, t, d', alone, within⟩ := exists_run_within s d older nested
    have released : (t.inside ⟨d', d :: older⟩).move (.call .releaseSavepoint) =
      ([⟨.releaseSavepoint, .ok ()⟩], t.inside ⟨d', older⟩) := rfl
    rw [within, released, alone]
  case level =>
    intro moves nested
    obtain ⟨replies, t, d', alone, _⟩ := exists_run_within s d older nested
    rw [alone]
    exact ⟨d', rfl⟩
  case refused =>
    rintro rfl
    exact ⟨rfl, rfl⟩
  case ended =>
    intro moves later goesOn none
    have still := isSome_run (s := s.inside ⟨d, older⟩) rfl goesOn
    obtain ⟨last, lastOpen⟩ := Option.isSome_iff_exists.mp still
    have uncommitted : .call .commit ∉ moves := fun among => nomatch goesOn _ among
    have same : ((s.inside ⟨d, older⟩).run moves).2.data = s.data := data_run uncommitted
    have committed : (((s.inside ⟨d, older⟩).run moves).2.move (.call .commit)).2.data = last.working := by
      rw [← inside_self lastOpen]
      rfl
    refine ⟨last, lastOpen, ?_⟩
    simp only [run_append, run_cons]
    exact ⟨offers_run committed none, offers_run same none, offers_run same none⟩
  case kept => exact fun moves none => offers_run rfl none

/-- An operation fails when half of it has run. Then a sequence is raised within a savepoint, and a
failure is counted within another one and forgotten again. -/
def layers : List StoreMove :=
  [.call (.execute (.multi
      [.create "users" [⟨"id", .text "1"⟩] [], .create "users" [⟨"id", .text "2"⟩] []])),
    .call .savepoint, .call (.upsertSequence "p" default 3), .call .savepoint,
    .call (.recordFailure "p" default "full"), .call .rollbackToSavepoint, .call .releaseSavepoint]

/-- The row of the operation that has failed and the sequence are committed, and the failure is not. A
transaction that is dropped later does not change that. -/
theorem transactions_isolate_of_layers :
    let tx : Transaction := { working := {} }
    let s : MemoryStore :=
      { faults := { values := [⟨"users", "id", .text "2"⟩] }, transaction := some tx }
    let later : List StoreMove :=
      [.call .begin, .call (.upsertSequence "p" default 4), .drop]
    let left := (s.run (layers ++ .call .commit :: later)).2.data
    s.transaction = some tx ∧ s.Isolates tx ∧ ProperlyNested layers ∧ tx.savepoints = [] ∧
      (∀ m ∈ layers, m.ends = false) ∧ .call .commit ∉ later ∧
      (left.tables.rows "users").length = 1 ∧ left.sequence? "p" default = some 3 ∧
      left.failures.entries.length = 0 := by
  intro tx s later left
  refine ⟨rfl, transactions_isolate rfl, by decide, rfl, by decide, by simp [later], ?_⟩
  decide +kernel

end MemoryStore

end ReadModel
