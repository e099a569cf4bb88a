import ReadModel.Handler.Update
import ReadModel.Proofs.Carrying
import ReadModel.Proofs.Flattening
import ReadModel.Proofs.Solo
import ReadModel.Proofs.Tokens

/-!
Savepoints in memory and in a database.

A store in memory keeps a savepoint until a rollback to it or a release takes it away. A database gives
savepoints names, of which several may have the same, and a rollback keeps the savepoint that it goes
back to (`SavepointStatement.run`). So each statement that fails leaves a savepoint behind there, and none
in memory. The data are the same nevertheless after every call, since both hold to one course
(`Handler.course`), on which a rollback takes back nothing but the statement that has failed.
-/

namespace ReadModel

/-- A savepoint of a database: its name, and the data as they were. -/
structure Savepoint where
  name : String
  data : StoreData

/-- A statement about savepoints. -/
inductive SavepointStatement where
  | set (name : String)
  | rollbackTo (name : String)
  | release (name : String)
  deriving DecidableEq

namespace SavepointStatement

/-- The statement that a text is about savepoints. -/
def read (text : String) : Option SavepointStatement :=
  match sqlTokens text with
  | ["SAVEPOINT", name] => some (.set name)
  | ["ROLLBACK", "TO", "SAVEPOINT", name] => some (.rollbackTo name)
  | ["RELEASE", "SAVEPOINT", name] => some (.release name)
  | _ => none

/-- What a database does with a statement, given the data and the savepoints, the newest first. A name
stands for the newest savepoint that has it. A rollback takes away the savepoints that are newer; a
release takes away the savepoint itself, too. -/
def run (d : StoreData) (savepoints : List Savepoint) :
    SavepointStatement → Except SqlFailure Unit × StoreData × List Savepoint
  | .set name => (.ok (), d, ⟨name, d⟩ :: savepoints)
  | .rollbackTo name =>
    match savepoints.dropWhile fun savepoint => savepoint.name != name with
    | [] => (.error (missing name), d, savepoints)
    | newest :: older => (.ok (), newest.data, newest :: older)
  | .release name =>
    match savepoints.dropWhile fun savepoint => savepoint.name != name with
    | [] => (.error (missing name), d, savepoints)
    | _ :: older => (.ok (), d, older)
where
  missing (name : String) : SqlFailure := .server "3B001" ("savepoint " ++ quoted name ++ " does not exist")

end SavepointStatement

namespace MemoryStore

/-- The data that the open transaction works on. -/
def working (s : MemoryStore) : StoreData :=
  match s.transaction with
  | some tx => tx.working
  | none => s.data

/-- Answers a call where operations come to a given end. -/
def answerAs (outcome : Operation → Tables → Execution) (s : MemoryStore) :
    (call : StoreCall) → Except StorageError call.Value × MemoryStore
  | .execute op =>
    match s.transaction with
    | some tx => s.ending tx (outcome op tx.working.tables)
    | none => s.answer (.execute op)
  | call => s.answer call

/-- This is how a store answers calls. -/
theorem answerAs_run (s : MemoryStore) (call : StoreCall) :
    s.answerAs (fun op t => op.run s.faults t) call = s.answer call := by
  cases call with
  | execute op =>
    dsimp only [answerAs]
    split
    next tx isOpen => exact (answer_execute isOpen op).symm
    next => rfl
  | _ => rfl

end MemoryStore

/-- A store whose savepoints are kept by a database. -/
structure SqlSession where
  store : MemoryStore
  savepoints : List Savepoint := []

namespace SqlSession

/-- Answers a statement about savepoints. -/
def obey (c : SqlCall) (s : SqlSession) : Except SqlFailure (SqlReply c.columns) × SqlSession :=
  match SavepointStatement.read c.text, s.store.transaction with
  | some statement, some tx =>
    let (answer, working, savepoints) := statement.run tx.working s.savepoints
    (answer.map fun _ => ⟨0, []⟩,
      { store := { s.store with transaction := some { tx with working } }, savepoints })
  | some _, none => (.error (.server "25P01" "there is no transaction in progress"), s)
  | none, _ => (.error (.server "42601" "syntax error"), s)

/-- Answers a call where operations come to a given end. Calls about savepoints are sent as statements. -/
def answerAs (outcome : Operation → Tables → Execution) (s : SqlSession) (call : StoreCall) :
    Except StorageError call.Value × SqlSession :=
  match call with
  | .savepoint => (sqlStore .savepoint).run obey s
  | .rollbackToSavepoint => (sqlStore .rollbackToSavepoint).run obey s
  | .releaseSavepoint => (sqlStore .releaseSavepoint).run obey s
  | call =>
    let (answer, store) := s.store.answerAs outcome call
    (answer, { s with store })

end SqlSession

section Trail

variable {I : Interface} {α β σ τ : Type}

/-- The calls of a program with their answers, and what there is to see after each. -/
def Dialogue.trail (answer : (c : I.Call) → σ → I.Answer c × σ) (view : σ → β) :
    Dialogue I α → σ → List (Exchange I × β)
  | done _, _ => []
  | ask c next, s =>
    (⟨c, (answer c s).1⟩, view (answer c s).2) ::
      trail answer view (next (answer c s).1) (answer c s).2

theorem Dialogue.trail_bind (answer : (c : I.Call) → σ → I.Answer c × σ) (view : σ → β)
    {γ : Type} (d : Dialogue I α) (more : α → Dialogue I γ) (s : σ) :
    (d.bind more).trail answer view s = d.trail answer view s ++
      (more (d.run answer s).1).trail answer view (d.run answer s).2 := by
  induction d generalizing s with
  | done a => rfl
  | ask c next ih => exact congrArg (List.cons _) (ih (answer c s).1 (answer c s).2)

end Trail

/-- What comes up while a plan is carried out, by how many operations were executed before: to what end
an operation comes, and how the calls are answered that are not on the storage. -/
structure Happenings where
  outcome : Nat → Operation → Tables → Execution
  other : Nat → (c : HandlerCall) → c.Answer

/-- A store, and how many operations were executed. -/
structure Ongoing (σ : Type) where
  store : σ
  executed : Nat := 0

/-- A way in which stores answer calls where operations come to a given end. -/
abbrev StoreKind (σ : Type) :=
  (Operation → Tables → Execution) → σ → (call : StoreCall) → Except StorageError call.Value × σ

/-- How the calls of a handler are answered. -/
def Happenings.answer {σ : Type} (f : Happenings) (kind : StoreKind σ) (c : HandlerCall)
    (u : Ongoing σ) : c.Answer × Ongoing σ :=
  match c with
  | .store (.execute op) =>
    let (answer, store) := kind (f.outcome u.executed) u.store (.execute op)
    (answer, ⟨store, u.executed + 1⟩)
  | .store call =>
    let (answer, store) := kind (f.outcome u.executed) u.store call
    (answer, { u with store })
  | c => (f.other u.executed c, u)

/-- An exchange of a handler, and the data after it. -/
abbrev Moment := Exchange handlerInterface × StoreData

namespace Handler

variable {h : Handler} {ctx : Context} {f : Happenings} {p : Progress} {st : Statement}
  {origin : Option Nat} {rest : List Step}

/-- What becomes of a statement whose operation has come to an end, and of the data. -/
def settle (h : Handler) (d : StoreData) (st : Statement) (x : Execution) : Verdict × StoreData :=
  match x.error with
  | none => (.applied, { d with tables := x.tables })
  | some e =>
    let counted := d.recordFailure h.name st.instanceId st.sequence e.message
    (if h.config.maxFailureCount < counted.1 then .passedOver else .stopped, counted.2)

/-- The exchanges about a statement that is tried, the first of which sets a savepoint. -/
def episode (h : Handler) (d : StoreData) (st : Statement) (x : Execution) : List Moment :=
  let tried := { d with tables := x.tables }
  match x.error with
  | none =>
    [(⟨.store .savepoint, .ok ()⟩, d), (⟨.store (.execute st.operation), .ok ()⟩, tried),
      (⟨.store .releaseSavepoint, .ok ()⟩, tried)]
  | some e =>
    let counted := d.recordFailure h.name st.instanceId st.sequence e.message
    [(⟨.store .savepoint, .ok ()⟩, d), (⟨.store (.execute st.operation), .error e⟩, tried),
      (⟨.store .rollbackToSavepoint, .ok ()⟩, d),
      (⟨.store (.recordFailure h.name st e.message), .ok counted.1⟩, counted.2)]

/-- The exchanges of a plan that is carried out from some data on, when `k` operations were executed
before. -/
def course (h : Handler) (ctx : Context) (f : Happenings) : Nat → StoreData → List Step → List Moment
  | _, _, [] => []
  | k, d, .skip _ :: rest => course h ctx f k d rest
  | k, d, .run st _ :: rest =>
    let cancelled : Bool := f.other k (.task (.isCancelled ctx.token))
    (⟨.task (.isCancelled ctx.token), cancelled⟩, d) ::
      if cancelled then []
      else
        let x := f.outcome k st.operation d.tables
        h.episode d st x ++
          match h.settle d st x with
          | (.stopped, _) => []
          | (_, d) => course h ctx f (k + 1) d rest

/-- Tries statements one after the other, and tells what has become of each. -/
def tryAll (h : Handler) (f : Happenings) : Nat → StoreData → List Statement → Trial × StoreData
  | _, d, [] => ([], d)
  | k, d, st :: rest =>
    let tried := h.settle d st (f.outcome k st.operation d.tables)
    let others := tryAll h f (k + 1) tried.2 rest
    ((st, tried.1) :: others.1, others.2)

/-- Tries a statement within a savepoint; what has become of it. -/
def attempt (h : Handler) (st : Statement) : Action Verdict := do
  transact .savepoint
  match ← askStore (.execute st.operation) with
  | .ok () =>
    transact .releaseSavepoint
    return .applied
  | .error e => return if ← h.countFailure st e then .passedOver else .stopped

/-- Each statement of a plan is tried unless the context has been cancelled. -/
theorem carryOut_run : h.carryOut ctx p (.run st origin :: rest) = (do
    checkCancelled ctx
    match ← h.attempt st with
    | .applied | .passedOver => h.carryOut ctx (p.past st origin) rest
    | .stopped => return { p with stopped := true }) := by
  rw [carryOut, attempt]
  simp only [bind_assoc]
  refine bind_congr fun _ => bind_congr fun _ => bind_congr fun executed => ?_
  cases executed with
  | ok => simp
  | error e =>
    simp only [bind_assoc]
    refine bind_congr fun often => ?_
    cases often <;> simp

end Handler

/-- Stores of a kind keep savepoints. Outside of an attempt a store is `outside n d` when its data are `d`
and `n` statements have failed, and within it is `inside n d d'` when the savepoint is at `d` and its data
are `d'`. -/
structure StoreKind.KeepsSavepoints {σ : Type} (kind : StoreKind σ) (view : σ → StoreData)
    (outside : Nat → StoreData → σ → Prop) (inside : Nat → StoreData → StoreData → σ → Prop) :
    Prop where
  view_outside : ∀ {n d s}, outside n d s → view s = d
  view_inside : ∀ {n d d' s}, inside n d d' s → view s = d'
  savepoint : ∀ {n d s} outcome, outside n d s →
    ∃ t, kind outcome s .savepoint = (.ok (), t) ∧ inside n d d t
  execute : ∀ {n d d' s} outcome op, inside n d d' s →
    ∃ t, kind outcome s (.execute op) = ((outcome op d'.tables).result, t) ∧
      inside n d { d' with tables := (outcome op d'.tables).tables } t
  release : ∀ {n d d' s} outcome, inside n d d' s →
    ∃ t, kind outcome s .releaseSavepoint = (.ok (), t) ∧ outside n d' t
  rollbackTo : ∀ {n d d' s} outcome, inside n d d' s →
    ∃ t, kind outcome s .rollbackToSavepoint = (.ok (), t) ∧ outside (n + 1) d t
  recordFailure : ∀ {n d s} outcome projection st error, outside n d s →
    let counted := d.recordFailure projection st.instanceId st.sequence error
    ∃ t, kind outcome s (.recordFailure projection st error) = (.ok counted.1, t) ∧
      outside n counted.2 t

/-- In memory no savepoint is left of an attempt. -/
theorem MemoryStore.keepsSavepoints (base : List StoreData) :
    StoreKind.KeepsSavepoints answerAs working
      (fun _ d s => s.transaction = some ⟨d, base⟩)
      (fun _ d d' s => s.transaction = some ⟨d', d :: base⟩) where
  view_outside isOpen := by rw [working, isOpen]
  view_inside isOpen := by rw [working, isOpen]
  savepoint _ isOpen := by simp [answerAs, answer, within, isOpen]
  execute _ _ isOpen := by simp [answerAs, ending, isOpen]
  release _ isOpen := by simp [answerAs, answer, within, isOpen]
  rollbackTo _ isOpen := by simp [answerAs, answer, within, isOpen]
  recordFailure _ _ _ _ isOpen := by simp [answerAs, answer, within, isOpen]

namespace SqlSession

variable {base savepoints : List Savepoint} {d : StoreData} {n : Nat} {s : SqlSession}

/-- A transaction is open, which works on some data and has some savepoints. -/
def At (s : SqlSession) (d : StoreData) (savepoints : List Savepoint) : Prop :=
  s.store.transaction.map (·.working) = some d ∧ s.savepoints = savepoints

/-- Savepoints that were left behind by statements that have failed. -/
def Left (n : Nat) (savepoints : List Savepoint) : Prop :=
  savepoints.length = n ∧ ∀ savepoint ∈ savepoints, savepoint.name = "exec_stmt"

/-- A text that is about savepoints is obeyed as the statement that it is. -/
theorem run_storePlain {text : String} {statement : SavepointStatement}
    (read : SavepointStatement.read text = some statement) (operation : String)
    (there : s.At d savepoints) :
    ((storePlain operation text).run obey s).1 =
        (statement.run d savepoints).1.mapError (·.toStorage operation) ∧
      ((storePlain operation text).run obey s).2.At (statement.run d savepoints).2.1
        (statement.run d savepoints).2.2 := by
  obtain ⟨tx, isOpen, rfl⟩ := Option.map_eq_some_iff.mp there.1
  have obeyed : obey { text } s = ((statement.run tx.working savepoints).1.map fun _ => ⟨0, []⟩,
      { store := { s.store with
          transaction := some { tx with working := (statement.run tx.working savepoints).2.1 } }
        savepoints := (statement.run tx.working savepoints).2.2 }) := by
    rw [obey, read, isOpen, there.2]
  show ((obey { text } s).1.map fun _ => ()).mapError _ = _ ∧ (obey { text } s).2.At _ _
  rw [obeyed]
  refine ⟨?_, rfl, rfl⟩
  cases (statement.run tx.working savepoints).1 <;> rfl

theorem answerAs_savepoint (outcome : Operation → Tables → Execution) (there : s.At d savepoints) :
    (s.answerAs outcome .savepoint).1 = .ok () ∧
      (s.answerAs outcome .savepoint).2.At d (⟨"exec_stmt", d⟩ :: savepoints) :=
  run_storePlain (show SavepointStatement.read _ = some (.set "exec_stmt") by decide +kernel)
    "savepoint" there

theorem answerAs_rollbackToSavepoint (outcome : Operation → Tables → Execution)
    {snapshot : StoreData} (there : s.At d (⟨"exec_stmt", snapshot⟩ :: savepoints)) :
    (s.answerAs outcome .rollbackToSavepoint).1 = .ok () ∧
      (s.answerAs outcome .rollbackToSavepoint).2.At snapshot (⟨"exec_stmt", snapshot⟩ :: savepoints) :=
  run_storePlain (show SavepointStatement.read _ = some (.rollbackTo "exec_stmt") by decide +kernel)
    "rollback_to_savepoint" there

theorem answerAs_releaseSavepoint (outcome : Operation → Tables → Execution)
    {snapshot : StoreData} (there : s.At d (⟨"exec_stmt", snapshot⟩ :: savepoints)) :
    (s.answerAs outcome .releaseSavepoint).1 = .ok () ∧
      (s.answerAs outcome .releaseSavepoint).2.At d savepoints :=
  run_storePlain (show SavepointStatement.read _ = some (.release "exec_stmt") by decide +kernel)
    "release_savepoint" there

/-- In a database a savepoint is left of each attempt that has failed. -/
theorem keepsSavepoints (base : List Savepoint) :
    StoreKind.KeepsSavepoints answerAs (fun s => s.store.working)
      (fun n d s => ∃ left, Left n left ∧ At s d (left ++ base))
      (fun n d d' s => ∃ left, Left n left ∧ At s d' (⟨"exec_stmt", d⟩ :: left ++ base)) where
  view_outside := by
    rintro n d s ⟨left, _, there, _⟩
    obtain ⟨tx, isOpen, rfl⟩ := Option.map_eq_some_iff.mp there
    simp [MemoryStore.working, isOpen]
  view_inside := by
    rintro n d d' s ⟨left, _, there, _⟩
    obtain ⟨tx, isOpen, rfl⟩ := Option.map_eq_some_iff.mp there
    simp [MemoryStore.working, isOpen]
  savepoint := by
    rintro n d s outcome ⟨left, counted, there⟩
    obtain ⟨granted, there⟩ := answerAs_savepoint outcome there
    exact ⟨_, Prod.ext granted rfl, left, counted, there⟩
  execute := by
    rintro n d d' s outcome op ⟨left, counted, there, savepoints⟩
    obtain ⟨tx, isOpen, rfl⟩ := Option.map_eq_some_iff.mp there
    simp only [answerAs, MemoryStore.answerAs, isOpen]
    exact ⟨_, rfl, left, counted, rfl, savepoints⟩
  release := by
    rintro n d d' s outcome ⟨left, counted, there⟩
    obtain ⟨granted, there⟩ := answerAs_releaseSavepoint outcome there
    exact ⟨_, Prod.ext granted rfl, left, counted, there⟩
  rollbackTo := by
    rintro n d d' s outcome ⟨left, counted, there⟩
    obtain ⟨granted, there⟩ := answerAs_rollbackToSavepoint outcome there
    refine ⟨_, Prod.ext granted rfl, ⟨"exec_stmt", d⟩ :: left, ⟨?_, ?_⟩, there⟩
    · rw [List.length_cons, counted.1]
    · exact List.forall_mem_cons.mpr ⟨rfl, counted.2⟩
  recordFailure := by
    rintro n d s outcome projection st error ⟨left, counted, there, savepoints⟩
    obtain ⟨tx, isOpen, rfl⟩ := Option.map_eq_some_iff.mp there
    simp only [answerAs, MemoryStore.answerAs, MemoryStore.answer, MemoryStore.within, isOpen]
    exact ⟨_, rfl, left, counted, rfl, savepoints⟩

end SqlSession

/-- How many of the statements that were tried have failed. -/
def Trial.failures (tried : Trial) : Nat := tried.countP fun entry => decide (entry.2 ≠ .applied)

theorem Trial.failures_cons (entry : Statement × Verdict) (tried : Trial) :
    Trial.failures (entry :: tried) = Trial.failures [entry] + tried.failures := by
  rw [← List.singleton_append, failures, List.countP_append, failures, failures]

namespace StoreKind

variable {σ α β : Type} {kind : StoreKind σ} {view : σ → StoreData}
  {outside : Nat → StoreData → σ → Prop} {inside : Nat → StoreData → StoreData → σ → Prop}
  {f : Happenings}

/-- An action has a course and ends with a result, when so many operations were executed; the store is as
`post` says then. -/
structure Takes (kind : StoreKind σ) (view : σ → StoreData) (f : Happenings) (task : Task α)
    (u : Ongoing σ) (course : List Moment) (result : α) (executed : Nat) (post : σ → Prop) :
    Prop where
  trail : task.trail (f.answer kind) (fun u => view u.store) u = course
  result : (task.run (f.answer kind) u).1 = result
  executed : (task.run (f.answer kind) u).2.executed = executed
  post : post (task.run (f.answer kind) u).2.store

namespace Takes

variable {course : List Moment} {executed : Nat} {post : σ → Prop} {u t : Ongoing σ}

theorem done {a : α} {s : σ} (there : post s) :
    kind.Takes view f (.done a) ⟨s, executed⟩ [] a executed post := ⟨rfl, rfl, rfl, there⟩

theorem ask {c : HandlerCall} {a : c.Answer} {next : c.Answer → Task α} {d : StoreData} {result : α}
    (answered : f.answer kind c u = (a, t)) (seen : view t.store = d)
    (rest : kind.Takes view f (next a) t course result executed post) :
    kind.Takes view f (.ask (I := handlerInterface) c next) u ((⟨c, a⟩, d) :: course) result executed
      post := by
  have run : Dialogue.run (f.answer kind) (.ask (I := handlerInterface) c next) u =
      (next a).run (f.answer kind) t := by
    rw [Dialogue.run_ask, answered]
  refine ⟨?_, ?_, ?_, ?_⟩
  · rw [Dialogue.trail, answered, rest.trail, seen]
  · rw [run, rest.result]
  · rw [run, rest.executed]
  · rw [run]
    exact rest.post

theorem bind {task : Task α} {a : α} {more : α → Task β} {b : β} {course' : List Moment}
    {executed' : Nat} {post' : σ → Prop}
    (first : kind.Takes view f task u course a executed post)
    (rest : ∀ s, post s → kind.Takes view f (more a) ⟨s, executed⟩ course' b executed' post') :
    kind.Takes view f (task.bind more) u (course ++ course') b executed' post' := by
  have run : (task.bind more).run (f.answer kind) u =
      (more a).run (f.answer kind) ⟨(task.run (f.answer kind) u).2.store, executed⟩ := by
    rw [Dialogue.run_bind, first.result, ← first.executed]
  have goesOn := rest _ first.post
  refine ⟨?_, ?_, ?_, ?_⟩
  · rw [Dialogue.trail_bind, first.trail, first.result, ← goesOn.trail, ← first.executed]
  · rw [run, goesOn.result]
  · rw [run, goesOn.executed]
  · rw [run]
    exact goesOn.post

/-- Goes on after an action that has succeeded. -/
theorem seq {x : Action α} {a : α} {more : α → Action β} {b : Except HandlerError β}
    {course' : List Moment} {executed' : Nat} {post' : σ → Prop}
    (first : kind.Takes view f x.run u course (.ok a) executed post)
    (rest : ∀ s, post s → kind.Takes view f (more a).run ⟨s, executed⟩ course' b executed' post') :
    kind.Takes view f (x >>= more).run u (course ++ course') b executed' post' :=
  first.bind rest

/-- An action that fails ends what goes on with it. -/
theorem fail {x : Action α} {e : HandlerError} {more : α → Action β}
    (first : kind.Takes view f x.run u course (.error e) executed post) :
    kind.Takes view f (x >>= more).run u course (.error e) executed post := by
  rw [← List.append_nil course]
  exact first.bind fun s there => .done there

/-- A call on the storage that succeeds, other than one to execute an operation. -/
theorem transact {c : StoreCall} {a : c.Value} {s t : σ} {k : Nat} {d : StoreData}
    (granted : f.answer kind (.store c) ⟨s, k⟩ = (.ok a, ⟨t, k⟩)) (seen : view t = d) (there : post t) :
    kind.Takes view f (ReadModel.transact c).run ⟨s, k⟩ [(⟨.store c, .ok a⟩, d)] (.ok a) k post :=
  ask granted seen (done there)

end Takes

variable {h : Handler} {ctx : Context} {st : Statement} {n k : Nat} {d d' : StoreData} {s : σ}

namespace KeepsSavepoints

theorem checkCancelled (keeps : kind.KeepsSavepoints view outside inside) {cancelled : Bool}
    (cancels : f.other k (.task (.isCancelled ctx.token)) = cancelled) (there : outside n d s) :
    kind.Takes view f (checkCancelled ctx).run ⟨s, k⟩
      [(⟨.task (.isCancelled ctx.token), cancelled⟩, d)]
      (if cancelled then .error .cancelled else .ok ()) k (outside n d) := by
  refine .ask (congrArg (·, _) cancels) (keeps.view_outside there) ?_
  cases cancelled <;> exact .done there

theorem transact_savepoint (keeps : kind.KeepsSavepoints view outside inside) (there : outside n d s) :
    kind.Takes view f (transact .savepoint).run ⟨s, k⟩ [(⟨.store .savepoint, .ok ()⟩, d)] (.ok ()) k
      (inside n d d) := by
  obtain ⟨t, granted, within⟩ := keeps.savepoint (f.outcome k) there
  exact .transact (by simp only [Happenings.answer, granted]) (keeps.view_inside within) within

theorem transact_releaseSavepoint (keeps : kind.KeepsSavepoints view outside inside)
    (within : inside n d d' s) :
    kind.Takes view f (transact .releaseSavepoint).run ⟨s, k⟩
      [(⟨.store .releaseSavepoint, .ok ()⟩, d')] (.ok ()) k (outside n d') := by
  obtain ⟨t, granted, there⟩ := keeps.release (f.outcome k) within
  exact .transact (by simp only [Happenings.answer, granted]) (keeps.view_outside there) there

/-- A statement that has failed is undone, and its failure is counted. -/
theorem countFailure (keeps : kind.KeepsSavepoints view outside inside) (within : inside n d d' s)
    (e : StorageError) :
    let counted := d.recordFailure h.name st.instanceId st.sequence e.message
    kind.Takes view f (h.countFailure st e).run ⟨s, k⟩
      [(⟨.store .rollbackToSavepoint, .ok ()⟩, d),
        (⟨.store (.recordFailure h.name st e.message), .ok counted.1⟩, counted.2)]
      (.ok (decide (h.config.maxFailureCount < counted.1))) k (outside (n + 1) counted.2) := by
  intro counted
  obtain ⟨t, undone, there⟩ := keeps.rollbackTo (f.outcome k) within
  have first : kind.Takes view f (transact .rollbackToSavepoint).run ⟨s, k⟩
      [(⟨.store .rollbackToSavepoint, .ok ()⟩, d)] (.ok ()) k (outside (n + 1) d) :=
    .transact (by simp only [Happenings.answer, undone]) (keeps.view_outside there) there
  refine first.seq fun t there => ?_
  obtain ⟨t', recorded, there'⟩ := keeps.recordFailure (f.outcome k) h.name st e.message there
  have second : kind.Takes view f (transact (.recordFailure h.name st e.message)).run ⟨t, k⟩
      [(⟨.store (.recordFailure h.name st e.message), .ok counted.1⟩, counted.2)] (.ok counted.1) k
      (outside (n + 1) counted.2) :=
    .transact (by simp only [Happenings.answer, recorded]; rfl) (keeps.view_outside there') there'
  exact second.seq fun t there => .done there

/-- Nothing is left of a statement that fails but its failure. -/
theorem attempt (keeps : kind.KeepsSavepoints view outside inside) (there : outside n d s)
    {verdict : Verdict}
    (settles : h.settle d st (f.outcome k st.operation d.tables) = (verdict, d')) :
    kind.Takes view f (h.attempt st).run ⟨s, k⟩ (h.episode d st (f.outcome k st.operation d.tables))
      (.ok verdict) (k + 1) (outside (n + Trial.failures [(st, verdict)]) d') := by
  generalize ends : f.outcome k st.operation d.tables = x at settles ⊢
  have unfolded : h.episode d st x = [(⟨.store .savepoint, .ok ()⟩, d)] ++
      ((⟨.store (.execute st.operation), x.result⟩, { d with tables := x.tables }) ::
        (h.episode d st x).drop 2) := by
    unfold Handler.episode Execution.result
    cases x.error <;> rfl
  rw [unfolded]
  refine (keeps.transact_savepoint there).seq fun t within => ?_
  obtain ⟨t', executed, tried⟩ := keeps.execute (f.outcome k) st.operation within
  rw [ends] at executed tried
  have answered : f.answer kind (.store (.execute st.operation)) ⟨t, k⟩ = (x.result, ⟨t', k + 1⟩) := by
    simp only [Happenings.answer, executed]
  refine .ask answered (keeps.view_inside tried) ?_
  cases ended : x.error with
  | none =>
    simp only [Handler.settle, ended] at settles
    obtain ⟨rfl, rfl⟩ := Prod.mk.inj settles
    simp only [Handler.episode, Execution.result, ended]
    exact (keeps.transact_releaseSavepoint tried).seq fun t there => .done there
  | some e =>
    simp only [Handler.settle, ended] at settles
    obtain ⟨rfl, rfl⟩ := Prod.mk.inj settles
    simp only [Handler.episode, Execution.result, ended]
    refine (keeps.countFailure tried e).seq fun t there => ?_
    simp only [decide_eq_true_eq]
    refine .done ?_
    split <;> exact there

end KeepsSavepoints

/-- A plan is carried out on its course by stores of every kind that keeps savepoints. What is left is what
the statements have come to that were tried. -/
theorem exists_takes (h : Handler) (ctx : Context) (f : Happenings) (p : Progress) (k : Nat)
    (d : StoreData) (steps : List Step) :
    ∃ m tried result, h.tryAll f k d ((Step.statements steps).take m) = tried ∧
      ∀ {σ : Type} {kind : StoreKind σ} {view : σ → StoreData} {outside : Nat → StoreData → σ → Prop}
        {inside : Nat → StoreData → StoreData → σ → Prop},
        kind.KeepsSavepoints view outside inside → ∀ {n : Nat} {s : σ}, outside n d s →
        kind.Takes view f (h.carryOut ctx p steps).run ⟨s, k⟩ (h.course ctx f k d steps) result (k + m)
          (outside (n + tried.1.failures) tried.2) := by
  -- by induction on the plan; what is tried is chosen before the kind of the store, so it is the same for
  -- all of them
  induction steps generalizing k d p with
  | nil => exact ⟨0, _, .ok p, rfl, fun _ _ _ there => .done there⟩
  | cons step rest ih =>
    cases step with
    | skip index => exact ih _ k d
    | run st origin =>
      rw [Handler.course]
      simp only [Handler.carryOut_run]
      cases cancels : f.other k (.task (.isCancelled ctx.token)) with
      | true =>
        exact ⟨0, _, .error .cancelled, rfl, fun keeps _ _ there =>
          (keeps.checkCancelled cancels there).fail⟩
      | false =>
        -- whatever becomes of the statement, it is the first of those that were tried
        have tryFirst (m : Nat) : h.tryAll f k d ((Step.statements (.run st origin :: rest)).take (m + 1)) =
            let tried := h.settle d st (f.outcome k st.operation d.tables)
            let others := h.tryAll f (k + 1) tried.2 ((Step.statements rest).take m)
            ((st, tried.1) :: others.1, others.2) := rfl
        dsimp only at tryFirst ⊢
        generalize settled : h.settle d st (f.outcome k st.operation d.tables) = tried at tryFirst ⊢
        obtain ⟨verdict, d'⟩ := tried
        cases verdict with
        | stopped =>
          refine ⟨1, _, .ok { p with stopped := true }, tryFirst 0, fun keeps n s there => ?_⟩
          refine (keeps.checkCancelled cancels there).seq fun t there => ?_
          exact (keeps.attempt there settled).seq fun t there => .done there
        | applied | passedOver =>
          obtain ⟨m, others, result, tried, goesOn⟩ := ih (p.past st origin) (k + 1) d'
          refine ⟨m + 1, _, result, tryFirst m, fun keeps n s there => ?_⟩
          refine (keeps.checkCancelled cancels there).seq fun t there => ?_
          refine (keeps.attempt there settled).seq fun t there => ?_
          have later := goesOn keeps there
          rw [Nat.add_assoc k, Nat.add_comm 1, Nat.add_assoc n, ← tried] at later
          rw [Trial.failures_cons]
          exact later

end StoreKind

/-- A call about savepoints, or any other, is not refused for lack of a savepoint. -/
def Granted : Exchange handlerInterface → Prop
  | ⟨.store .savepoint, answer⟩ | ⟨.store .rollbackToSavepoint, answer⟩
  | ⟨.store .releaseSavepoint, answer⟩ => answer = .ok ()
  | _ => True

/-- The data after some moments. -/
def dataAfter (d : StoreData) (moments : List Moment) : StoreData :=
  (moments.getLast?.map Prod.snd).getD d

/-- Each rollback among some moments takes back the operation that has failed right before it, and nothing
else that has come about until then. -/
def UndoesOnly (d : StoreData) (moments : List Moment) : Prop :=
  ∀ before after x, moments = before ++ x :: after → x.1.call = .store .rollbackToSavepoint →
    ∃ earlier op e tried, x.2 = dataAfter d earlier ∧
      before = earlier ++ [(⟨.store .savepoint, .ok ()⟩, dataAfter d earlier),
        (⟨.store (.execute op), .error e⟩, tried)]

section Course

variable {h : Handler} {ctx : Context} {f : Happenings} {d : StoreData} {st : Statement} {x : Execution}
  {first second : List Moment}

theorem dataAfter_append : dataAfter d (first ++ second) = dataAfter (dataAfter d first) second := by
  unfold dataAfter
  rw [List.getLast?_append]
  cases second.getLast? <;> rfl

theorem UndoesOnly.append (one : UndoesOnly d first) (other : UndoesOnly (dataAfter d first) second) :
    UndoesOnly d (first ++ second) := by
  intro before after x whole undoes
  rcases List.append_eq_append_iff.mp whole with ⟨middle, rfl, eq⟩ | ⟨middle, rfl, eq⟩
  · obtain ⟨earlier, op, e, tried, back, rfl⟩ := other middle after x eq undoes
    refine ⟨first ++ earlier, op, e, tried, ?_, ?_⟩
    · rw [back, dataAfter_append]
    · rw [dataAfter_append, List.append_assoc]
  · cases middle with
    | nil =>
      -- a rollback does not come first in the second part
      obtain ⟨earlier, op, e, tried, _, none⟩ := other [] after x eq.symm undoes
      simp at none
    | cons y rest =>
      obtain ⟨rfl, _⟩ := List.cons_eq_cons.mp eq
      exact one before rest x rfl undoes

theorem undoesOnly_of_forall (none : ∀ x ∈ first, x.1.call ≠ .store .rollbackToSavepoint) :
    UndoesOnly d first := by
  rintro before after x rfl undoes
  exact absurd undoes (none x (by simp))

/-- A single operation that fails and is taken back. -/
theorem undoesOnly_attempt (op : Operation) (e : StorageError) (tried : StoreData)
    (answer : Except StorageError Unit) :
    UndoesOnly d [(⟨.store .savepoint, .ok ()⟩, d), (⟨.store (.execute op), .error e⟩, tried),
      (⟨.store .rollbackToSavepoint, answer⟩, d)] := by
  intro before after x whole undoes
  rcases before with _ | ⟨set, _ | ⟨executed, _ | ⟨undone, rest⟩⟩⟩
  · obtain ⟨rfl, _⟩ := List.cons_eq_cons.mp whole
    cases undoes
  · obtain ⟨_, whole⟩ := List.cons_eq_cons.mp whole
    obtain ⟨rfl, _⟩ := List.cons_eq_cons.mp whole
    cases undoes
  · simp only [List.cons_append, List.nil_append, List.cons.injEq] at whole
    obtain ⟨rfl, rfl, rfl, _⟩ := whole
    exact ⟨[], op, e, tried, rfl, rfl⟩
  · simp at whole

theorem dataAfter_episode : dataAfter d (h.episode d st x) = (h.settle d st x).2 := by
  unfold Handler.episode Handler.settle
  cases x.error <;> rfl

theorem undoesOnly_episode : UndoesOnly d (h.episode d st x) := by
  unfold Handler.episode
  cases x.error with
  | none => exact undoesOnly_of_forall (by simp)
  | some e => exact (undoesOnly_attempt st.operation e _ (.ok ())).append (undoesOnly_of_forall (by simp))

theorem undoesOnly_course (k : Nat) (d : StoreData) (steps : List Step) :
    UndoesOnly d (h.course ctx f k d steps) := by
  induction steps generalizing k d with
  | nil => exact undoesOnly_of_forall fun x none => nomatch none
  | cons step rest ih =>
    cases step with
    | skip index => exact ih k d
    | run st origin =>
      rw [Handler.course, ← List.singleton_append]
      refine (undoesOnly_of_forall (by simp)).append ?_
      dsimp only
      split
      · exact undoesOnly_of_forall fun x none => nomatch none
      · refine undoesOnly_episode.append ?_
        rw [dataAfter_episode]
        show UndoesOnly (h.settle d st _).2 _
        split
        next => exact undoesOnly_of_forall fun x none => nomatch none
        next settled =>
          rw [settled]
          exact ih _ _

/-- On the course of a plan each savepoint is found. -/
theorem granted_course (k : Nat) (d : StoreData) (steps : List Step) :
    ∀ x ∈ h.course ctx f k d steps, Granted x.1 := by
  induction steps generalizing k d with
  | nil => exact fun x none => nomatch none
  | cons step rest ih =>
    cases step with
    | skip index => exact ih k d
    | run st origin =>
      rw [Handler.course]
      refine List.forall_mem_cons.mpr ⟨trivial, ?_⟩
      dsimp only
      split
      · exact fun x none => nomatch none
      · refine List.forall_mem_append.mpr ⟨?_, ?_⟩
        · unfold Handler.episode
          cases (f.outcome k st.operation d.tables).error <;> simp [Granted]
        · split
          · exact fun x none => nomatch none
          · exact ih _ _

end Course

namespace Handler

section Runs

variable {σ : Type}

/-- Carries out a plan on a store. -/
def carryOutOn (h : Handler) (ctx : Context) (f : Happenings) (p : Progress) (steps : List Step)
    (kind : StoreKind σ) (s : σ) : Except HandlerError Progress × Ongoing σ :=
  (h.carryOut ctx p steps).run.run (f.answer kind) ⟨s, 0⟩

/-- The exchanges when a plan is carried out on a store, and the data after each. -/
def momentsOn (h : Handler) (ctx : Context) (f : Happenings) (p : Progress) (steps : List Step)
    (kind : StoreKind σ) (view : σ → StoreData) (s : σ) : List Moment :=
  (h.carryOut ctx p steps).run.trail (f.answer kind) (fun u => view u.store) ⟨s, 0⟩

end Runs

/-- A plan that is carried out comes to the same in memory and in a database, from data `d` and savepoints
`base` and `base'` on. -/
structure SavepointsAgree (h : Handler) (ctx : Context) (f : Happenings) (p : Progress)
    (steps : List Step) (d : StoreData) (base : List StoreData) (base' : List Savepoint)
    (s : MemoryStore) (t : SqlSession) : Prop where
  /-- The calls are the same, and so are the answers, and the data after each call. -/
  same : h.momentsOn ctx f p steps SqlSession.answerAs (fun t => t.store.working) t =
    h.momentsOn ctx f p steps MemoryStore.answerAs MemoryStore.working s
  result : (h.carryOutOn ctx f p steps SqlSession.answerAs t).1 =
    (h.carryOutOn ctx f p steps MemoryStore.answerAs s).1
  /-- No call about savepoints fails. -/
  granted : ∀ x ∈ h.momentsOn ctx f p steps MemoryStore.answerAs MemoryStore.working s, Granted x.1
  /-- A rollback takes back the statement that has failed, and neither what was applied nor what was counted
  before. -/
  undoesOnly : UndoesOnly d (h.momentsOn ctx f p steps MemoryStore.answerAs MemoryStore.working s)
  /-- The data are as the statements that were tried have left them one after the other. In memory the
  savepoints are those of before; in a database there is one more for each failure. -/
  left : ∃ m tried more, h.tryAll f 0 d ((Step.statements steps).take m) = tried ∧
    (h.carryOutOn ctx f p steps MemoryStore.answerAs s).2.executed = m ∧
    (h.carryOutOn ctx f p steps MemoryStore.answerAs s).2.store.transaction = some ⟨tried.2, base⟩ ∧
    SqlSession.Left tried.1.failures more ∧
    (h.carryOutOn ctx f p steps SqlSession.answerAs t).2.store.At tried.2 (more ++ base')

/-- Whatever comes up, a plan is carried out in memory as it is in a database, though a statement that fails
leaves a savepoint behind only there. -/
theorem savepoints_agree (h : Handler) (ctx : Context) (f : Happenings) (p : Progress)
    (steps : List Step) {d : StoreData} {base : List StoreData} {base' : List Savepoint}
    {s : MemoryStore} {t : SqlSession} (isOpen : s.transaction = some ⟨d, base⟩)
    (there : t.At d base') : h.SavepointsAgree ctx f p steps d base base' s t := by
  obtain ⟨m, tried, result, all, takes⟩ := StoreKind.exists_takes h ctx f p 0 d steps
  have inMemory := takes (MemoryStore.keepsSavepoints base) (n := 0) isOpen
  have inDatabase := takes (SqlSession.keepsSavepoints base') ⟨[], ⟨rfl, fun _ none => nomatch none⟩, there⟩
  have course : h.momentsOn ctx f p steps MemoryStore.answerAs MemoryStore.working s =
      h.course ctx f 0 d steps := inMemory.trail
  refine ⟨inDatabase.trail.trans inMemory.trail.symm, inDatabase.result.trans inMemory.result.symm,
    ?_, ?_, ?_⟩
  · rw [course]
    exact granted_course 0 d steps
  · rw [course]
    exact undoesOnly_course 0 d steps
  · obtain ⟨more, counted, ended⟩ := inDatabase.post
    rw [List.length_nil, Nat.zero_add] at counted
    refine ⟨m, tried, more, all, ?_, inMemory.post, counted, ended⟩
    rw [← Nat.zero_add m]
    exact inMemory.executed

/-- Of three statements the first and the last fail and are passed over. Two savepoints are left in a
database then, none in memory, and the data are the same. -/
theorem savepoints_agree_of_two_failures :
    let f : Happenings :=
      { outcome := fun k op t => ⟨t.apply op, [op], if k = 1 then none else some (.injected "full")⟩
        other := fun _ c => (World.answer .still 0 c threeOrgs).1 }
    let steps := (orgsHandler.registry.firstStatements threeOrgs.log 3).map fun st => .run st none
    let s : MemoryStore := { transaction := some { working := {} } }
    let ended := orgsHandler.carryOutOn default f {} steps SqlSession.answerAs ⟨s, []⟩
    s.transaction = some ⟨{}, []⟩ ∧ SqlSession.At ⟨s, []⟩ {} [] ∧
      orgsHandler.SavepointsAgree default f {} steps {} [] [] s ⟨s, []⟩ ∧
      ended.2.store.savepoints.length = 2 := by
  intro f steps s ended
  have there : SqlSession.At ⟨s, []⟩ {} [] := ⟨rfl, rfl⟩
  refine ⟨rfl, there, orgsHandler.savepoints_agree _ f {} steps rfl there, ?_⟩
  decide +kernel

end Handler

end ReadModel
