import ReadModel.Database.Store
import ReadModel.Proofs.Rows
import ReadModel.Proofs.Transcript

/-!
Operations that are put together of others.

Such an operation is a tree; its atoms (`Operation.atoms`) are the operations in it that are not put
together. Where an atom can never run, a storage refuses the whole tree for the first one, before any
other atom has run. Otherwise it executes the atoms one after the other, as `executeEach` does.
-/

namespace ReadModel

/-- The storage of a projection. -/
@[reducible]
def storeInterface : Interface := ⟨StoreCall, fun c => Except StorageError c.Value⟩

/-- Executes operations one after the other, up to and including the first that fails. -/
def executeEach : List Operation → Dialogue storeInterface (Except StorageError Unit)
  | [] => .done (.ok ())
  | op :: rest => .ask (.execute op) fun
    | .ok () => executeEach rest
    | .error e => .done (.error e)

namespace Operation

mutual

/-- The operations in a tree that are not put together of others, in the order in which they run. -/
def atoms : Operation → List Operation
  | .multi parts => atomsOf parts
  | op => [op]

def atomsOf : List Operation → List Operation
  | [] => []
  | part :: rest => atoms part ++ atomsOf rest

end

/-- What an operation on a single table lacks that can never run. -/
inductive Lacks : Operation → OperationError → Prop
  | createWithoutColumns {table conflict} : Lacks (.create table [] conflict) (.noValues table)
  | updateWithoutColumns {table conditions} : Lacks (.update table [] conditions) (.noValues table)
  | updateWithoutConditions {table columns} (some : columns ≠ []) :
      Lacks (.update table columns []) (.noConditions table)
  | deleteWithoutConditions {table} : Lacks (.delete table []) (.noConditions table)

/-- Operations of which none lacks anything. -/
def Able (ops : List Operation) : Prop := ∀ op ∈ ops, ∀ e, ¬op.Lacks e

/-- What the first of some operations lacks that lacks anything. -/
def FirstLacks (ops : List Operation) (e : OperationError) : Prop :=
  ∃ before op after, ops = before ++ op :: after ∧ Able before ∧ op.Lacks e

/-- An operation that changes or removes rows has a condition for them. -/
def Targeted : Operation → Prop
  | .update _ _ conditions | .delete _ conditions => conditions ≠ []
  | .create .. | .noOp | .multi _ => True

theorem able_cons {op : Operation} {rest : List Operation} :
    Able (op :: rest) ↔ (∀ e, ¬op.Lacks e) ∧ Able rest := List.forall_mem_cons

theorem able_append {first second : List Operation} :
    Able (first ++ second) ↔ Able first ∧ Able second := List.forall_mem_append

theorem Able.single {op : Operation} (able : ∀ e, ¬op.Lacks e) : Able [op] :=
  able_cons.mpr ⟨able, List.forall_mem_nil _⟩

theorem Lacks.first {op : Operation} {e : OperationError} (lacks : op.Lacks e) :
    FirstLacks [op] e := ⟨[], op, [], rfl, List.forall_mem_nil _, lacks⟩

theorem FirstLacks.append {ops : List Operation} {e : OperationError} (lacks : FirstLacks ops e)
    (more : List Operation) : FirstLacks (ops ++ more) e := by
  obtain ⟨before, op, after, rfl, able, lacks⟩ := lacks
  exact ⟨before, op, after ++ more, by simp, able, lacks⟩

theorem FirstLacks.after {first ops : List Operation} {e : OperationError} (able : Able first)
    (lacks : FirstLacks ops e) : FirstLacks (first ++ ops) e := by
  obtain ⟨before, op, after, rfl, later, lacks⟩ := lacks
  exact ⟨first ++ before, op, after, by simp, able_append.mpr ⟨able, later⟩, lacks⟩

theorem Lacks.unique {op : Operation} {e e' : OperationError} (one : op.Lacks e)
    (other : op.Lacks e') : e = e' := by
  cases one <;> cases other <;> first | rfl | contradiction

theorem FirstLacks.not_able {ops : List Operation} {e : OperationError}
    (lacks : FirstLacks ops e) : ¬Able ops := by
  obtain ⟨before, op, after, rfl, _, lacks⟩ := lacks
  exact fun able => able op (by simp) e lacks

theorem FirstLacks.unique {ops : List Operation} {e e' : OperationError}
    (one : FirstLacks ops e) (other : FirstLacks ops e') : e = e' := by
  obtain ⟨before, op, after, rfl, able, lacks⟩ := one
  obtain ⟨before', op', after', eq, able', lacks'⟩ := other
  -- if one of the two came earlier, it would be among the operations before the other
  induction before generalizing before' with
  | nil =>
    cases before' with
    | nil =>
      cases eq
      exact lacks.unique lacks'
    | cons first _ =>
      cases eq
      exact absurd lacks (able' op (List.mem_cons_self ..) e)
  | cons first rest ih =>
    cases before' with
    | nil =>
      cases eq
      exact absurd lacks' (able op' (List.mem_cons_self ..) e')
    | cons first' rest' =>
      obtain ⟨rfl, tails⟩ := List.cons_eq_cons.mp eq
      exact ih (able_cons.mp able).2 rest' tails (able_cons.mp able').2

theorem targeted_of_not_lacks {op : Operation} (able : ∀ e, ¬op.Lacks e) : op.Targeted := by
  cases op with
  | update table columns conditions =>
    rintro rfl
    cases columns with
    | nil => exact able _ .updateWithoutColumns
    | cons => exact able _ (.updateWithoutConditions (by simp))
  | delete table conditions =>
    rintro rfl
    exact able _ .deleteWithoutConditions
  | create | noOp | multi => trivial

mutual

/-- A tree is refused for what the first of its atoms lacks that lacks anything. -/
theorem validate_spec : ∀ op : Operation,
    match op.validate with
    | .ok () => Able op.atoms
    | .error e => FirstLacks op.atoms e
  | .multi parts => validateAll_spec parts
  | .create table columns conflict => by
    cases columns with
    | nil => exact Lacks.createWithoutColumns.first
    | cons => exact Able.single fun _ lacks => nomatch lacks
  | .update table columns conditions => by
    cases columns with
    | nil => exact Lacks.updateWithoutColumns.first
    | cons =>
      cases conditions with
      | nil => exact (Lacks.updateWithoutConditions (by simp)).first
      | cons => exact Able.single fun _ lacks => nomatch lacks
  | .delete table conditions => by
    cases conditions with
    | nil => exact Lacks.deleteWithoutConditions.first
    | cons => exact Able.single fun _ lacks => nomatch lacks
  | .noOp => Able.single fun _ lacks => nomatch lacks

theorem validateAll_spec : ∀ ops : List Operation,
    match validateAll ops with
    | .ok () => Able (atomsOf ops)
    | .error e => FirstLacks (atomsOf ops) e
  | [] => List.forall_mem_nil _
  | op :: rest => by
    have first := validate_spec op
    unfold validateAll atomsOf
    cases valid : op.validate with
    | error e =>
      rw [valid] at first
      exact first.append (atomsOf rest)
    | ok =>
      rw [valid] at first
      have later := validateAll_spec rest
      cases others : validateAll rest with
      | error e =>
        rw [others] at later
        exact later.after first
      | ok =>
        rw [others] at later
        exact able_append.mpr ⟨first, later⟩

end

theorem validate_eq_ok_iff {op : Operation} : op.validate = .ok () ↔ Able op.atoms := by
  have spec := validate_spec op
  cases valid : op.validate with
  | ok =>
    rw [valid] at spec
    exact iff_of_true rfl spec
  | error e =>
    rw [valid] at spec
    exact iff_of_false (by simp) spec.not_able

theorem validate_eq_error_iff {op : Operation} {e : OperationError} :
    op.validate = .error e ↔ FirstLacks op.atoms e := by
  have spec := validate_spec op
  cases valid : op.validate with
  | ok =>
    rw [valid] at spec
    exact iff_of_false (by simp) fun lacks => lacks.not_able spec
  | error e' =>
    rw [valid] at spec
    refine ⟨fun same => ?_, fun lacks => congrArg _ (spec.unique lacks)⟩
    cases same
    exact spec

mutual

/-- A tree that does nothing has no atoms but those that do nothing. -/
theorem isNoOp_iff : ∀ op : Operation, op.isNoOp = true ↔ ∀ atom ∈ op.atoms, atom = .noOp
  | .multi parts => areNoOps_iff parts
  | .create .. | .update .. | .delete .. | .noOp => by simp [isNoOp, atoms]

theorem areNoOps_iff : ∀ ops : List Operation,
    areNoOps ops = true ↔ ∀ atom ∈ atomsOf ops, atom = .noOp
  | [] => by simp [areNoOps, atomsOf]
  | op :: rest => by
    unfold areNoOps atomsOf
    rw [Bool.and_eq_true, List.forall_mem_append]
    exact and_congr (isNoOp_iff op) (areNoOps_iff rest)

end

end Operation

theorem executeEach_append (first second : List Operation) :
    executeEach (first ++ second) = (executeEach first).bind fun
      | .ok () => executeEach second
      | .error e => .done (.error e) := by
  induction first with
  | nil => rfl
  | cons op rest ih =>
    refine congrArg (Dialogue.ask _) (funext fun answer => ?_)
    cases answer with
    | ok => exact ih
    | error e => rfl

namespace Execution

/-- Goes on after an execution unless it has failed. -/
def andThen (x : Execution) (more : Tables → Execution) : Execution :=
  match x.error with
  | some _ => x
  | none => { more x.tables with executed := x.executed ++ (more x.tables).executed }

/-- Whether an execution has succeeded. -/
def result (x : Execution) : Except StorageError Unit :=
  match x.error with
  | some e => .error e
  | none => .ok ()

/-- Two executions leave the same tables and fail alike. -/
def SameEnd (x y : Execution) : Prop := x.tables = y.tables ∧ x.error = y.error

variable {x y : Execution} {more others : Tables → Execution}

theorem andThen_of_error {e : StorageError} (failed : x.error = some e) : x.andThen more = x := by
  rw [andThen, failed]

theorem andThen_of_done (done : x.error = none) : x.andThen more =
    { more x.tables with executed := x.executed ++ (more x.tables).executed } := by
  rw [andThen, done]

theorem andThen_assoc :
    (x.andThen more).andThen others = x.andThen fun t => (more t).andThen others := by
  obtain ⟨t, log, _ | e⟩ := x
  · dsimp only [andThen]
    generalize more t = y
    obtain ⟨t', log', _ | e⟩ := y
    · exact congrArg (Execution.mk _ · _) (List.append_assoc ..)
    · rfl
  · rfl

theorem SameEnd.andThen (first : x.SameEnd y) (rest : ∀ t, (more t).SameEnd (others t)) :
    (x.andThen more).SameEnd (y.andThen others) := by
  obtain ⟨tables, error⟩ := first
  cases ended : x.error with
  | some e =>
    rw [andThen_of_error ended, andThen_of_error (error ▸ ended)]
    exact ⟨tables, error⟩
  | none =>
    rw [andThen_of_done ended, andThen_of_done (error ▸ ended), ← tables]
    exact rest x.tables

end Execution

namespace Operation

variable {faults : Faults}

theorem runAll_cons (op : Operation) (rest : List Operation) (t : Tables) :
    runAll faults t (op :: rest) = (op.run faults t).andThen (runAll faults · rest) := rfl

theorem runAll_append (first second : List Operation) (t : Tables) :
    runAll faults t (first ++ second) = (runAll faults t first).andThen (runAll faults · second) := by
  induction first generalizing t with
  | nil => rfl
  | cons op rest ih =>
    rw [List.cons_append, runAll_cons, runAll_cons, Execution.andThen_assoc]
    exact congrArg _ (funext ih)

mutual

/-- A tree that may run comes to the same end as its atoms one after the other. -/
theorem run_atoms (faults : Faults) : ∀ (op : Operation) (t : Tables), op.validate = .ok () →
    (op.run faults t).SameEnd (runAll faults t op.atoms)
  | .multi parts, t, valid => by
    have all := run_atomsOf faults parts t valid
    unfold run
    rw [valid]
    exact all
  | .create .., t, _ | .update .., t, _ | .delete .., t, _ | .noOp, t, _ => by
    unfold atoms
    rw [runAll_cons]
    cases ended : Execution.error _ with
    | some e => rw [Execution.andThen_of_error ended]; exact ⟨rfl, rfl⟩
    | none => rw [Execution.andThen_of_done ended]; exact ⟨rfl, ended⟩

theorem run_atomsOf (faults : Faults) : ∀ (ops : List Operation) (t : Tables), validateAll ops = .ok () →
    (runAll faults t ops).SameEnd (runAll faults t (atomsOf ops))
  | [], _, _ => ⟨rfl, rfl⟩
  | op :: rest, t, valid => by
    unfold validateAll at valid
    split at valid
    next able =>
      rw [runAll_cons, atomsOf, runAll_append]
      exact (run_atoms faults op t able).andThen fun t => run_atomsOf faults rest t valid
    next => cases valid

end

/-- What cannot run changes nothing. -/
theorem run_refused {op : Operation} {e : OperationError} (refused : op.validate = .error e)
    (t : Tables) : op.run faults t = ⟨t, [op], some (.invalidOperation e)⟩ := by
  cases op <;> (unfold run; rw [refused])

end Operation

namespace MemoryStore

/-- What an operation that ends with an execution is answered, and what it leaves of the store. -/
def ending (s : MemoryStore) (tx : Transaction) (x : Execution) :
    Except StorageError Unit × MemoryStore :=
  (x.result,
    { s with
      transaction := some { tx with working := { tx.working with tables := x.tables } }
      executed := s.executed ++ x.executed })

variable {s : MemoryStore} {tx : Transaction}

theorem answer_execute (isOpen : s.transaction = some tx) (op : Operation) :
    s.answer (.execute op) = s.ending tx (op.run s.faults tx.working.tables) := by
  rw [answer, isOpen]
  rfl

/-- To execute operations one after the other is to run them in the open transaction. -/
theorem run_executeEach (isOpen : s.transaction = some tx) (ops : List Operation) :
    (executeEach ops).run (fun call s => s.answer call) s =
      s.ending tx (Operation.runAll s.faults tx.working.tables ops) := by
  induction ops generalizing s tx with
  | nil =>
    rw [executeEach, Dialogue.run_done]
    simp [ending, Execution.result, Operation.runAll, ← isOpen]
  | cons op rest ih =>
    rw [executeEach, Dialogue.run_ask, answer_execute isOpen, Operation.runAll_cons]
    cases ended : (op.run s.faults tx.working.tables).error with
    | some e => rw [Execution.andThen_of_error ended]; simp [ending, Execution.result, ended]
    | none =>
      rw [Execution.andThen_of_done ended]
      simp only [ending, Execution.result, ended]
      rw [ih rfl]
      simp [ending, Execution.result]

end MemoryStore

namespace Operation

theorem send_refused {op : Operation} {e : OperationError} (refused : op.validate = .error e) :
    op.send = .done (.error (.invalidOperation e)) := by
  cases op with
  | noOp => cases refused
  | create | update | delete | multi =>
    unfold send
    rw [refused]
    rfl

/-- An operation that may run and is not put together of others sends its statement. -/
theorem expand_executeEach_atom {op : Operation} :
    (executeEach [op]).expand sqlStore = op.send := by
  refine (congrArg (Dialogue.bind _) (funext fun answer => ?_)).trans (Dialogue.bind_done _)
  cases answer <;> rfl

theorem expand_executeEach_append (first second : List Operation) :
    (executeEach (first ++ second)).expand sqlStore =
      ((executeEach first).expand sqlStore).bind fun
        | .ok () => (executeEach second).expand sqlStore
        | .error e => .done (.error e) := by
  rw [executeEach_append, Dialogue.expand_bind]
  refine congrArg (Dialogue.bind _) (funext fun answer => ?_)
  cases answer <;> rfl

mutual

/-- A tree that may run sends what its atoms send one after the other. -/
theorem send_atoms : ∀ op : Operation, op.validate = .ok () →
    op.send = (executeEach op.atoms).expand sqlStore
  | .multi parts, valid => by
    unfold send
    rw [valid]
    exact send_atomsOf parts valid
  | .create .., _ | .update .., _ | .delete .., _ | .noOp, _ => expand_executeEach_atom.symm

theorem send_atomsOf : ∀ ops : List Operation, validateAll ops = .ok () →
    sendAll ops = (executeEach (atomsOf ops)).expand sqlStore
  | [], _ => rfl
  | op :: rest, valid => by
    unfold validateAll at valid
    split at valid
    next able =>
      unfold sendAll atomsOf
      rw [expand_executeEach_append, ← send_atoms op able, ← send_atomsOf rest valid]
      rfl
    next => cases valid

end

/-- What runs up to the first failure, and what of it works on tables, comes to the same. -/
theorem foldl_apply_takeWhile (faults : Faults) (ops : List Operation) (t : Tables) :
    ((ops.filter fun op => op.table?.isSome).takeWhile faults.spares).foldl Tables.apply t =
      (ops.takeWhile faults.spares).foldl Tables.apply t := by
  induction ops generalizing t with
  | nil => rfl
  | cons op rest ih =>
    cases single : op.table? with
    | some table =>
      rw [List.filter_cons_of_pos (by rw [single]; rfl), List.takeWhile_cons, List.takeWhile_cons]
      split
      · exact ih _
      · rfl
    | none =>
      have spared : faults.spares op = true := by simp [Faults.spares, Faults.error?, Fault.hits, single]
      have idle : t.apply op = t := by cases op <;> first | rfl | cases single
      rw [List.filter_cons_of_neg (by rw [single]; simp), List.takeWhile_cons, if_pos spared,
        List.foldl_cons, idle, ih]

mutual

theorem leaves_eq : ∀ op : Operation, op.leaves = op.atoms.filter fun atom => atom.table?.isSome
  | .multi parts => leavesOf_eq parts
  | .create .. | .update .. | .delete .. | .noOp => rfl

theorem leavesOf_eq : ∀ ops : List Operation,
    leavesOf ops = (atomsOf ops).filter fun atom => atom.table?.isSome
  | [] => rfl
  | op :: rest => by
    rw [leavesOf, atomsOf, List.filter_append, leaves_eq op, leavesOf_eq rest]

end

/-- What has run of a tree are the first of its atoms, none of which lacks anything. -/
theorem exists_tables_run (faults : Faults) (op : Operation) (t : Tables) :
    ∃ done, done <+: op.atoms ∧ Able done ∧ (op.run faults t).tables = done.foldl Tables.apply t := by
  cases valid : op.validate with
  | error e =>
    refine ⟨[], List.nil_prefix, List.forall_mem_nil _, ?_⟩
    rw [run_refused valid]
    rfl
  | ok =>
    have upTo := List.takeWhile_prefix faults.spares (l := op.atoms)
    refine ⟨_, upTo, fun atom among => validate_eq_ok_iff.mp valid atom (upTo.subset among), ?_⟩
    rw [tables_run, performed, valid, leaves_eq]
    exact foldl_apply_takeWhile faults op.atoms t

/-- The call that sends the statement of an atom, which has conditions where it needs them. -/
def Sends (ops : List Operation) (call : SqlCall) : Prop :=
  ∃ op ∈ ops, op.Targeted ∧ call = Fragment.call op.fragments []

theorem Sends.mono {ops more : List Operation} {call : SqlCall} (sends : Sends ops call)
    (subset : ops ⊆ more) : Sends more call := by
  obtain ⟨op, among, targeted, eq⟩ := sends
  exact ⟨op, subset among, targeted, eq⟩

theorem only_sendStatement {op : Operation} (targeted : op.Targeted) :
    op.sendStatement.Only (Sends [op]) := by
  unfold sendStatement
  split
  · trivial
  next fragments rendered =>
    have plain : fragments = op.fragments := by
      unfold render at rendered
      split at rendered
      · cases rendered
      · exact (Except.ok.inj rendered).symm
    refine ⟨⟨op, List.mem_singleton_self _, targeted, congrArg (Fragment.call · []) plain⟩, ?_⟩
    intro answer
    cases answer <;> trivial

mutual

/-- All that a tree sends are statements of its atoms. -/
theorem only_send : ∀ op : Operation, op.send.Only (Sends op.atoms)
  | .multi parts => by
    unfold send
    split
    · trivial
    · exact only_sendAll parts
  | .create .. | .update .. | .delete .. => by
    unfold send
    split
    · trivial
    next valid =>
      exact only_sendStatement <| targeted_of_not_lacks <|
        validate_eq_ok_iff.mp valid _ (List.mem_singleton_self _)
  | .noOp => trivial

theorem only_sendAll : ∀ ops : List Operation, (sendAll ops).Only (Sends (atomsOf ops))
  | [] => trivial
  | op :: rest => by
    unfold sendAll
    refine Dialogue.Only.bind (d := op.send)
      ((only_send op).mono fun _ sends => sends.mono (List.subset_append_left ..)) fun answer => ?_
    cases answer with
    | ok => exact (only_sendAll rest).mono fun _ sends => sends.mono (List.subset_append_right ..)
    | error e => trivial

end

/-- How a tree of operations is executed, in memory and in a database. -/
structure RunsFlat (op : Operation) (s : MemoryStore) (tx : Transaction) : Prop where
  /-- Each atom can run, or there is a first one that lacks something. -/
  either : Able op.atoms ∨ ∃ e, FirstLacks op.atoms e
  /-- For what it lacks the tree is refused. In memory nothing has changed then, but for the list of
  what was asked for, and nothing was sent to the database. -/
  refused : ∀ e, FirstLacks op.atoms e →
    s.answer (.execute op) =
        (.error (.invalidOperation e), { s with executed := s.executed ++ [op] }) ∧
      sqlStore (.execute op) = .done (.error (.invalidOperation e))
  /-- Otherwise the tree comes to what its atoms come to one after the other, up to and including the
  first that fails, and the same is sent to the database. -/
  flattened : Able op.atoms → ∃ result t,
    (executeEach op.atoms).run (fun call s => s.answer call) s = (result, t) ∧
      (∃ executed, s.answer (.execute op) = (result, { t with executed })) ∧
      sqlStore (.execute op) = (executeEach op.atoms).expand sqlStore
  /-- What has run in memory are the first of the atoms; each of them that changes or removes rows has a
  condition for these. -/
  ran : ∃ done, done <+: op.atoms ∧ (∀ atom ∈ done, atom.Targeted) ∧
    (s.answer (.execute op)).2.transaction = some { tx with
      working := { tx.working with tables := done.foldl Tables.apply tx.working.tables } }
  /-- Each statement that is sent is that of an atom, and has conditions if it changes or removes
  rows. -/
  sent : (sqlStore (.execute op)).Only (Sends op.atoms)
  /-- A tree that does nothing succeeds; it changes no table, and sends nothing. -/
  idle : op.isNoOp = true →
    (s.answer (.execute op)).1 = .ok () ∧
      (s.answer (.execute op)).2.transaction = some tx ∧
      sqlStore (.execute op) = .done (.ok ())

theorem executeEach_noOps {ops : List Operation} (idle : ∀ op ∈ ops, op = .noOp) :
    (executeEach ops).expand sqlStore = .done (.ok ()) := by
  induction ops with
  | nil => rfl
  | cons op rest ih =>
    obtain ⟨rfl, later⟩ := List.forall_mem_cons.mp idle
    exact ih later

theorem runAll_noOps (faults : Faults) {ops : List Operation} (idle : ∀ op ∈ ops, op = .noOp)
    (t : Tables) : (runAll faults t ops).SameEnd ⟨t, [], none⟩ := by
  induction ops with
  | nil => exact ⟨rfl, rfl⟩
  | cons op rest ih =>
    obtain ⟨rfl, later⟩ := List.forall_mem_cons.mp idle
    have first : noOp.run faults t = ⟨t, [.noOp], none⟩ := by
      have spared : faults.error? .noOp = none := Option.isNone_iff_eq_none.mp (spares_noOp faults)
      unfold run
      dsimp only [validate]
      rw [spared]
      rfl
    rw [runAll_cons, first]
    exact ih later

/-- A tree of operations is refused as a whole for the first of its atoms that can never run, and runs
as these atoms otherwise. -/
theorem runs_flat (op : Operation) {s : MemoryStore} {tx : Transaction}
    (isOpen : s.transaction = some tx) : op.RunsFlat s tx := by
  have answer := s.answer_execute isOpen op
  refine ⟨?_, fun e lacks => ?_, fun able => ?_, ?_, only_send op, fun idle => ?_⟩
  · cases valid : op.validate with
    | ok => exact .inl (validate_eq_ok_iff.mp valid)
    | error e => exact .inr ⟨e, validate_eq_error_iff.mp valid⟩
  · have invalid := validate_eq_error_iff.mpr lacks
    refine ⟨?_, send_refused invalid⟩
    rw [answer, run_refused invalid]
    simp [MemoryStore.ending, Execution.result, isOpen]
  · have valid := validate_eq_ok_iff.mpr able
    obtain ⟨tables, error⟩ := run_atoms s.faults op tx.working.tables valid
    refine ⟨_, _, MemoryStore.run_executeEach isOpen op.atoms,
      ⟨s.executed ++ (op.run s.faults tx.working.tables).executed, ?_⟩, send_atoms op valid⟩
    rw [answer]
    dsimp only [MemoryStore.ending, Execution.result]
    rw [tables, error]
  · obtain ⟨done, upTo, able, tables⟩ := exists_tables_run s.faults op tx.working.tables
    refine ⟨done, upTo, fun atom among => targeted_of_not_lacks (able atom among), ?_⟩
    rw [answer, ← tables]
    rfl
  · have idle := (isNoOp_iff op).mp idle
    have able : Able op.atoms := fun atom among e lacks => by
      rw [idle atom among] at lacks
      cases lacks
    have valid := validate_eq_ok_iff.mpr able
    obtain ⟨tables, error⟩ := run_atoms s.faults op tx.working.tables valid
    obtain ⟨same, none⟩ := runAll_noOps s.faults idle tx.working.tables
    refine ⟨?_, ?_, (send_atoms op valid).trans (executeEach_noOps idle)⟩
    · rw [answer, MemoryStore.ending, Execution.result, error, none]
    · rw [answer, MemoryStore.ending, tables, same]

/-- A tree that puts a row into a table, and then, in a tree within, removes all rows. -/
def careless : Operation :=
  .multi [.create "users" [⟨"id", .text "1"⟩] [], .multi [.noOp, .delete "users" []]]

/-- The careless tree is refused before the row has been put in, and nothing is sent. -/
theorem runs_flat_of_careless :
    let tx : Transaction := { working := { tables := Dict.insert ∅ "users" [∅] } }
    let s : MemoryStore := { transaction := some tx }
    let refusal : Except StorageError Unit := .error (.invalidOperation (.noConditions "users"))
    s.transaction = some tx ∧ careless.RunsFlat s tx ∧
      s.answer (.execute careless) = (refusal, { s with executed := [careless] }) ∧
      sqlStore (.execute careless) = .done refusal := by
  intro tx s refusal
  have flat : careless.RunsFlat s tx := runs_flat careless rfl
  exact ⟨rfl, flat, flat.refused _ (validate_eq_error_iff.mp rfl)⟩

end Operation

end ReadModel
