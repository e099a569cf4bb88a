import ReadModel.Proofs.Applying
import ReadModel.Proofs.Solo
import ReadModel.Proofs.Transcript

/-!
The protocol of a transaction.

`Stage.after` says which call may come next in an open transaction. An update keeps to it whatever
its storage, the event log and its token answer: it ends every transaction that it has begun, once,
and commits only what nothing has gone wrong with.
-/

namespace ReadModel

/-- Where a transaction stands that was begun. -/
inductive Stage where
  | begun
  /-- The sequences are locked, and no statement is being tried. -/
  | ready
  | saved
  | applied
  | failed
  | undone
  /-- A failure has ended the batch. -/
  | halted
  /-- Sequences are stored, this key was the last. -/
  | storing (key : SequenceKey)
  /-- Something has gone wrong. -/
  | broken
  | committed
  | rolledBack
  /-- It was rolled back although nothing has gone wrong with it. -/
  | withdrawn
  deriving DecidableEq

namespace Stage

/-- The stage that an answer leads to. -/
def answered {ε α : Type} (answer : Except ε α) (next : Stage) : Stage :=
  match answer with
  | .ok _ => next
  | .error _ => .broken

/-- Goes on from one stage only. -/
def only (stage : Stage) (here : Stage) (next : Stage) : Option Stage :=
  if here = stage then some next else none

/-- Whether all statements may be done with. -/
def settled : Stage → Bool
  | .ready | .halted | .storing _ => true
  | _ => false

/-- Whether the sequence of a key may be stored next. -/
def stores (key : SequenceKey) : Stage → Bool
  | .ready | .halted => true
  | .storing last => KeyOrder.before last key
  | _ => false

/-- The stage after a call on the storage, unless it is out of order. A failure that is counted ends the
batch up to a limit. -/
def next (limit : Nat) (stage : Stage) : (call : StoreCall) → Except StorageError call.Value →
    Option Stage
  | .lockSequences .., answer => stage.only .begun (answered answer .ready)
  | .savepoint, answer => stage.only .ready (answered answer .saved)
  | .execute _, .ok _ => stage.only .saved .applied
  | .execute _, .error _ => stage.only .saved .failed
  | .releaseSavepoint, answer => stage.only .applied (answered answer .ready)
  | .rollbackToSavepoint, answer => stage.only .failed (answered answer .undone)
  | .recordFailure .., .ok count => stage.only .undone (if limit < count then .ready else .halted)
  | .recordFailure .., .error _ => stage.only .undone .broken
  | .upsertSequence _ key _, .ok rows =>
    if stage.stores key then some (if rows = 0 then .broken else .storing key) else none
  | .upsertSequence _ key _, .error _ => if stage.stores key then some .broken else none
  | .commit, _ => if stage.settled then some .committed else none
  | .rollback, _ =>
    match stage with
    | .broken => some .rolledBack
    | .ready => some .withdrawn
    | _ => none
  | .begin, _ | .currentSequences .., _ | .failureCount .., _ => none

/-- The stage after a call, unless it is out of order. -/
def after (limit : Nat) (stage : Stage) : Exchange handlerInterface → Option Stage
  | ⟨.store call, answer⟩ => stage.next limit call answer
  | ⟨.source (.filter _), answer⟩ => stage.only .ready (answered answer .ready)
  | ⟨.task (.isCancelled _), cancelled⟩ =>
    if stage.settled then some (if cancelled then .broken else stage) else none
  | _ => none

end Stage

namespace Exchange

/-- A call that has not gone wrong. Statements may fail to run, and sequences have to be written. -/
def Fine : Exchange handlerInterface → Prop
  | ⟨.store (.execute _), _⟩ => True
  | ⟨.store (.upsertSequence ..), answer⟩ => ∃ rows, answer = .ok rows ∧ 0 < rows
  | ⟨.store _, answer⟩ => ∃ value, answer = .ok value
  | ⟨.source _, answer⟩ => ∃ value, answer = .ok value
  | ⟨.task (.isCancelled _), cancelled⟩ => cancelled = false
  | _ => False

/-- The end of a transaction. -/
def Ends : Exchange handlerInterface → Prop
  | ⟨.store .commit, _⟩ | ⟨.store .rollback, _⟩ => True
  | _ => False

/-- A statement is run. -/
def Executes : Exchange handlerInterface → Prop
  | ⟨.store (.execute _), _⟩ => True
  | _ => False

/-- A failure is counted that is still within the limit. -/
def Halts (limit : Nat) : Exchange handlerInterface → Prop
  | ⟨.store (.recordFailure ..), .ok count⟩ => count ≤ limit
  | _ => False

/-- The key of a sequence that is stored. -/
def storedKey? : Exchange handlerInterface → Option SequenceKey
  | ⟨.store (.upsertSequence _ key _), _⟩ => some key
  | _ => none

end Exchange

namespace Stage

/-- Whether the transaction is still open. -/
def isOpen : Stage → Bool
  | .committed | .rolledBack | .withdrawn => false
  | _ => true

/-- Whether statements may still be run. -/
def runs : Stage → Bool
  | .begun | .ready | .saved | .applied | .failed | .undone => true
  | _ => false

/-- Whether all sequences that were stored belong to keys before this one. -/
def precedes (key : SequenceKey) : Stage → Bool
  | .storing last => KeyOrder.before last key
  | .broken | .committed | .rolledBack | .withdrawn => false
  | _ => true

variable {limit : Nat} {stage next : Stage} {x : Exchange handlerInterface}

theorem only_eq_some {here t : Stage} :
    stage.only here next = some t ↔ here = stage ∧ next = t := by
  unfold only
  split <;> simp_all

/-- What a call in order does to a transaction. -/
structure Passes (limit : Nat) (stage : Stage) (x : Exchange handlerInterface) (next : Stage) :
    Prop where
  opened : stage.isOpen = true
  ends : next.isOpen = false ↔ x.Ends
  fine : next.isOpen = true → (next ≠ .broken ↔ stage ≠ .broken ∧ x.Fine)
  executes : x.Executes → stage.runs = true
  runs : next.runs = true → stage.runs = true ∧ ¬x.Halts limit
  stored : ∀ key ∈ x.storedKey?, stage.precedes key = true ∧
    ∀ later, next.precedes later = true → KeyOrder.before key later = true
  precedes : x.storedKey? = none → ∀ later, next.precedes later = true → stage.precedes later = true

theorem of_stores {key : SequenceKey} (stores : stage.stores key = true) :
    stage.isOpen = true ∧ stage ≠ .broken ∧ stage.precedes key = true := by
  cases stage <;> simp_all [Stage.stores, isOpen, Stage.precedes]

theorem passes_store {call : StoreCall} {answer : Except StorageError call.Value}
    (step : stage.next limit call answer = some next) :
    stage.Passes limit ⟨.store call, answer⟩ next := by
  cases call with
  | begin | currentSequences | failureCount => cases step
  | upsertSequence projection key n =>
    cases answer with
    | ok rows =>
      obtain ⟨stores, same⟩ := Option.ite_none_right_eq_some.mp step
      obtain rfl := Option.some.inj same
      obtain ⟨opened, sound, precedes⟩ := of_stores stores
      cases rows <;> constructor <;> simp_all [isOpen, runs, Stage.precedes, Exchange.Ends,
        Exchange.Fine, Exchange.Executes, Exchange.storedKey?]
    | error e =>
      obtain ⟨stores, ⟨⟩⟩ := Option.ite_none_right_eq_some.mp step
      obtain ⟨opened, sound, precedes⟩ := of_stores stores
      constructor <;> simp_all [isOpen, runs, Stage.precedes, Exchange.Ends,
        Exchange.Fine, Exchange.Executes, Exchange.storedKey?]
  | commit =>
    obtain ⟨settled, ⟨⟩⟩ := Option.ite_none_right_eq_some.mp step
    cases stage <;> cases settled <;> constructor <;> simp [isOpen, runs, Stage.precedes,
      Exchange.Ends, Exchange.Executes, Exchange.storedKey?]
  | rollback =>
    cases stage <;> cases step <;> constructor <;> simp [isOpen, runs, Stage.precedes,
      Exchange.Ends, Exchange.Executes, Exchange.storedKey?]
  | recordFailure projection st error =>
    cases answer with
    | ok count =>
      obtain ⟨rfl, same⟩ := only_eq_some.mp step
      split at same <;> obtain rfl := same <;> constructor <;> simp_all [isOpen, runs,
        Stage.precedes, Exchange.Ends, Exchange.Fine, Exchange.Executes, Exchange.Halts,
        Exchange.storedKey?]
    | error e =>
      obtain ⟨rfl, rfl⟩ := only_eq_some.mp step
      constructor <;> simp [isOpen, runs, Stage.precedes, Exchange.Ends, Exchange.Fine,
        Exchange.Executes, Exchange.storedKey?]
  | _ =>
    cases answer <;> obtain ⟨rfl, rfl⟩ := only_eq_some.mp step <;> constructor <;>
      simp [answered, isOpen, runs, Stage.precedes, Exchange.Ends, Exchange.Fine, Exchange.Executes,
        Exchange.Halts, Exchange.storedKey?]

theorem after_passes (step : stage.after limit x = some next) : stage.Passes limit x next := by
  obtain ⟨call, answer⟩ := x
  cases call with
  | store call => exact passes_store step
  | source call =>
    cases call with
    | filter q =>
      cases answer <;> obtain ⟨rfl, rfl⟩ := only_eq_some.mp step <;> constructor <;>
        simp [answered, isOpen, runs, Stage.precedes, Exchange.Ends, Exchange.Fine, Exchange.Executes,
          Exchange.Halts, Exchange.storedKey?]
    | _ => cases step
  | task call =>
    cases call with
    | isCancelled token =>
      obtain ⟨settled, ⟨⟩⟩ := Option.ite_none_right_eq_some.mp step
      cases answer <;> cases stage <;> cases settled <;> constructor <;>
        simp [isOpen, runs, Stage.precedes, Exchange.Ends, Exchange.Fine, Exchange.Executes,
          Exchange.Halts, Exchange.storedKey?]
    | _ => cases step
  | lock call => cases step

/-- What the calls up to a stage tell of the transaction. -/
structure Told (limit : Nat) (talk : List (Exchange handlerInterface)) (stage : Stage) : Prop where
  going : stage.isOpen = true → ∀ x ∈ talk, ¬x.Ends
  fine : stage.isOpen = true → (stage ≠ .broken ↔ ∀ x ∈ talk, x.Fine)
  runs : stage.runs = true → ∀ x ∈ talk, ¬x.Halts limit
  halted : talk.Pairwise fun x y => x.Halts limit → ¬y.Executes
  precedes : ∀ key, stage.precedes key = true → ∀ earlier ∈ talk.filterMap (·.storedKey?),
    KeyOrder.before earlier key = true
  ascending : (talk.filterMap (·.storedKey?)).Pairwise (KeyOrder.before · · = true)

variable {talk : List (Exchange handlerInterface)}

theorem Told.step (told : Told limit talk stage) (passes : stage.Passes limit x next) :
    Told limit (talk ++ [x]) next where
  going still y member := by
    rcases List.mem_append.mp member with earlier | here
    · exact told.going passes.opened y earlier
    · rw [List.mem_singleton.mp here]
      intro ends
      rw [passes.ends.mpr ends] at still
      cases still
  fine still := by
    rw [passes.fine still, told.fine passes.opened]
    simp only [List.mem_append, List.mem_singleton, or_imp, forall_and, forall_eq]
  runs running y member := by
    obtain ⟨before, here⟩ := passes.runs running
    rcases List.mem_append.mp member with earlier | last
    · exact told.runs before y earlier
    · rw [List.mem_singleton.mp last]
      exact here
  halted := by
    rw [List.pairwise_append]
    refine ⟨told.halted, List.pairwise_singleton _ _, fun y member z last halts executes => ?_⟩
    rw [List.mem_singleton.mp last] at executes
    exact told.runs (passes.executes executes) y member halts
  precedes key low earlier member := by
    rw [List.filterMap_append] at member
    cases stored : x.storedKey? with
    | none =>
      rw [List.filterMap_cons_none stored, List.filterMap_nil, List.append_nil] at member
      exact told.precedes key (passes.precedes stored key low) earlier member
    | some here =>
      obtain ⟨before, after⟩ := passes.stored here stored
      rw [List.filterMap_cons_some stored, List.filterMap_nil] at member
      rcases List.mem_append.mp member with old | new
      · exact KeyOrder.trans (told.precedes here before earlier old) (after key low)
      · rw [List.mem_singleton.mp new]
        exact after key low
  ascending := by
    rw [List.filterMap_append]
    cases stored : x.storedKey? with
    | none =>
      rw [List.filterMap_cons_none stored, List.filterMap_nil, List.append_nil]
      exact told.ascending
    | some here =>
      rw [List.filterMap_cons_some stored, List.filterMap_nil, List.pairwise_append]
      refine ⟨told.ascending, List.pairwise_singleton _ _, fun earlier member key last => ?_⟩
      rw [List.mem_singleton.mp last]
      exact told.precedes here (passes.stored here stored).1 earlier member

theorem follows_append {stage : Stage} :
    (talk ++ [x]).foldlM (after limit) stage = some next ↔
      ∃ before, talk.foldlM (after limit) stage = some before ∧ before.after limit x = some next := by
  simp only [List.foldlM_append, List.foldlM_cons, List.foldlM_nil, bind_pure, Option.bind_eq_bind,
    Option.bind_eq_some_iff]

theorem told (follows : talk.foldlM (after limit) .begun = some stage) : Told limit talk stage := by
  induction talk using List.reverseRecOn generalizing stage with
  | nil =>
    obtain rfl := Option.some.inj follows
    constructor <;> simp
  | append_singleton talk x ih =>
    obtain ⟨before, earlier, step⟩ := follows_append.mp follows
    exact (ih earlier).step (after_passes step)

end Stage

/-- Whether a transaction can be given up with an error: something has gone wrong with it, or an event
that is missing cannot be reduced. -/
def Stage.Fails (stage : Stage) (e : HandlerError) : Prop :=
  stage = .broken ∨ stage = .ready ∧ ∃ cause, e = .reduce cause

/-- An action keeps to the protocol. Where it succeeds it ends as `good` says, and where it fails the
transaction can be given up. -/
def Stage.Leads {α : Type} (limit : Nat) (x : Action α) (stage : Stage) (good : α → Stage → Prop) :
    Prop :=
  x.run.Obeys (Stage.after limit) (fun result t => match result with
    | .ok value => good value t
    | .error e => t.Fails e) stage

namespace Stage.Leads

variable {α β : Type} {limit : Nat} {x : Action α} {stage : Stage} {good : α → Stage → Prop}

theorem mono {good' : α → Stage → Prop} (h : Leads limit x stage good)
    (weaker : ∀ value t, good value t → good' value t) : Leads limit x stage good' := by
  refine Dialogue.Obeys.mono h fun result t => ?_
  cases result with
  | ok value => exact weaker value t
  | error e => exact id

theorem seq {f : α → Action β} {good : β → Stage → Prop}
    (h : Leads limit x stage fun value t => Leads limit (f value) t good) :
    Leads limit (x >>= f) stage good := by
  refine Dialogue.Obeys.bind (d := x.run) (Dialogue.Obeys.mono h fun result t => ?_)
  cases result <;> exact id

theorem transact {call : StoreCall} {good : call.Value → Stage → Prop}
    (fails : ∀ e, stage.next limit call (.error e) = some .broken)
    (succeeds : ∀ value, ∃ t, stage.next limit call (.ok value) = some t ∧ good value t) :
    Leads limit (transact call) stage good := by
  intro answer
  cases answer with
  | ok value =>
    obtain ⟨t, step, ends⟩ := succeeds value
    exact ⟨t, step, ends⟩
  | error e => exact ⟨.broken, fails e, .inl rfl⟩

theorem filter {q : SearchQuery} {good : List Event → Stage → Prop}
    (rest : ∀ events, good events .ready) : Leads limit (askSource (.filter q)) .ready good := by
  intro answer
  cases answer with
  | ok events => exact ⟨.ready, rfl, rest events⟩
  | error e => exact ⟨.broken, rfl, .inl rfl⟩

theorem checkCancelled {ctx : Context} {good : Unit → Stage → Prop} (settled : stage.settled = true)
    (rest : good () stage) : Leads limit (checkCancelled ctx) stage good := by
  intro cancelled
  refine ⟨_, if_pos settled, ?_⟩
  cases cancelled with
  | false => exact rest
  | true => exact .inl rfl

variable {h : Handler}

theorem fillGap {st : Statement} {last : Nat} :
    Leads limit (h.fillGap st last) .ready fun _ t => t = .ready := by
  unfold Handler.fillGap
  split
  next => rfl
  next =>
    refine seq (filter fun events => ?_)
    cases h.fill events with
    | ok steps => rfl
    | error e => exact .inr ⟨rfl, e, rfl⟩

theorem plan {known : SequenceMap} {index : Nat} {batch : List Statement} :
    Leads limit (h.plan known index batch) .ready fun _ t => t = .ready := by
  induction batch generalizing known index with
  | nil => rfl
  | cons st rest ih =>
    unfold Handler.plan
    dsimp only
    split
    next =>
      refine seq (ih.mono ?_)
      rintro steps _ rfl
      rfl
    next =>
      refine seq (fillGap.mono ?_)
      rintro missing _ rfl
      refine seq (ih.mono ?_)
      rintro later _ rfl
      rfl

theorem countFailure {st : Statement} {e : StorageError} :
    Leads h.config.maxFailureCount (h.countFailure st e) .failed
      fun often t => t = if often then .ready else .halted := by
  refine seq (transact (fun _ => rfl) fun _ => ⟨.undone, rfl, ?_⟩)
  refine seq (transact (fun _ => rfl) fun count => ⟨_, rfl, ?_⟩)
  show (if _ then _ else _) = if decide _ = true then _ else _
  simp only [decide_eq_true_eq]

theorem carryOut {ctx : Context} {p : Progress} {steps : List Step} :
    Leads h.config.maxFailureCount (h.carryOut ctx p steps) .ready
      fun _ t => t = .ready ∨ t = .halted := by
  induction steps generalizing p with
  | nil => exact .inl rfl
  | cons step rest ih =>
    cases step with
    | skip index => exact ih
    | run st origin =>
      refine seq (checkCancelled rfl ?_)
      refine seq (transact (fun _ => rfl) fun _ => ⟨.saved, rfl, ?_⟩)
      intro executed
      cases executed with
      | ok value =>
        refine ⟨.applied, rfl, ?_⟩
        exact seq (transact (fun _ => rfl) fun _ => ⟨.ready, rfl, ih⟩)
      | error e =>
        refine ⟨.failed, rfl, ?_⟩
        refine seq (countFailure.mono ?_)
        rintro often _ rfl
        cases often with
        | true => exact ih
        | false => exact .inr rfl

theorem storeSequences {entries : List (SequenceKey × Nat)} (ascending : Ascending entries)
    (settled : stage.settled = true) (first : ∀ entry ∈ entries, stage.stores entry.1 = true) :
    Leads limit (h.storeSequences entries) stage fun _ t => t.settled = true := by
  induction entries generalizing stage with
  | nil => exact settled
  | cons entry rest ih =>
    obtain ⟨key, sequence⟩ := entry
    obtain ⟨before, others⟩ := List.pairwise_cons.mp ascending
    have stores := first _ (List.mem_cons_self ..)
    refine seq (transact (fun _ => if_pos stores) fun written => ⟨_, if_pos stores, ?_⟩)
    cases written with
    | zero => exact .inl rfl
    | succ rows => exact ih others rfl before

theorem applyBatch {ctx : Context} {batch : List Statement} :
    Leads h.config.maxFailureCount (h.applyBatch ctx batch) .begun
      fun _ t => t.settled = true := by
  refine seq (transact (fun _ => rfl) fun rows => ⟨.ready, rfl, ?_⟩)
  refine seq (plan.mono ?_)
  rintro steps _ rfl
  refine seq (carryOut.mono fun progress t ends => ?_)
  have ready : t.settled = true ∧ ∀ entry ∈ progress.advanced.entries,
      t.stores entry.1 = true := by
    rcases ends with rfl | rfl <;> exact ⟨rfl, fun _ _ => rfl⟩
  refine seq ((storeSequences progress.advanced.ascending ready.1 ready.2).mono ?_)
  intro _ t settled
  exact seq (checkCancelled settled settled)

end Stage.Leads

/-- How the transaction of an update ends that has this answer. It is withdrawn only where an event that
is missing cannot be reduced. -/
def Stage.Closes (stage : Stage) (result : Except HandlerError (Option Nat)) : Prop :=
  stage = .committed ∨ stage = .rolledBack ∨
    stage = .withdrawn ∧ ∃ cause, result = .error (.reduce cause)

theorem Handler.conclude_obeys (h : Handler) (ctx : Context) (batch : List Statement) :
    (h.conclude ctx batch).run.Obeys (Stage.after h.config.maxFailureCount)
      (fun result stage => stage.Closes result) .begun := by
  refine Dialogue.Obeys.bind (Dialogue.Obeys.bind (Dialogue.Obeys.mono Stage.Leads.applyBatch ?_))
  intro applied stage ends
  cases applied with
  | ok progress =>
    intro committed
    refine ⟨.committed, if_pos ends, ?_⟩
    cases committed with
    | error e => exact .inl rfl
    | ok value =>
      cases progress.stopped <;> exact .inl rfl
  | error e =>
    intro rolledBack
    rcases ends with rfl | ⟨rfl, cause, rfl⟩
    · exact ⟨.rolledBack, rfl, .inr (.inl rfl)⟩
    · exact ⟨.withdrawn, rfl, .inr (.inr ⟨rfl, cause, rfl⟩)⟩

/-- The calls of an update between the begin of its transaction and its end. -/
structure Orderly (limit : Nat) (talk : List (Exchange handlerInterface))
    (result : Except HandlerError (Option Nat)) : Prop where
  follows : ∃ stage, talk.foldlM (Stage.after limit) .begun = some stage
  ends : ∃ before last, talk = before ++ [last] ∧ last.Ends ∧ ∀ x ∈ before, ¬x.Ends
  ascending : (talk.filterMap (·.storedKey?)).Pairwise (KeyOrder.before · · = true)
  committed : ∀ before answer, talk = before ++ [⟨.store .commit, answer⟩] →
    (∀ x ∈ before, x.Fine) ∧ before.Pairwise fun x y => x.Halts limit → ¬y.Executes
  rolledBack : ∀ before answer, talk = before ++ [⟨.store .rollback, answer⟩] →
    (∃ x ∈ before, ¬x.Fine) ∨ ∃ cause, result = .error (.reduce cause)

theorem Stage.Closes.orderly {limit : Nat} {talk : List (Exchange handlerInterface)} {stage : Stage}
    {result : Except HandlerError (Option Nat)} (closes : stage.Closes result)
    (follows : talk.foldlM (Stage.after limit) .begun = some stage) : Orderly limit talk result where
  follows := ⟨stage, follows⟩
  ends := by
    rcases List.eq_nil_or_concat talk with rfl | ⟨before, last, rfl⟩
    · obtain rfl := Option.some.inj follows
      rcases closes with closed | closed | ⟨closed, _⟩ <;> cases closed
    · rw [List.concat_eq_append] at follows ⊢
      obtain ⟨middle, earlier, step⟩ := follows_append.mp follows
      have passes := after_passes step
      have closed_ : stage.isOpen = false := by rcases closes with rfl | rfl | ⟨rfl, _⟩ <;> rfl
      exact ⟨before, last, rfl, passes.ends.mp closed_, (told earlier).going passes.opened⟩
  ascending := (told follows).ascending
  committed := by
    rintro before answer rfl
    obtain ⟨middle, earlier, step⟩ := follows_append.mp follows
    obtain ⟨settled, _⟩ := Option.ite_none_right_eq_some.mp step
    have sound : middle ≠ .broken := by
      rintro rfl
      cases settled
    have told := told earlier
    exact ⟨(told.fine (after_passes step).opened).mp sound, told.halted⟩
  rolledBack := by
    rintro before answer rfl
    obtain ⟨middle, earlier, step⟩ := follows_append.mp follows
    by_cases broken : middle = .broken
    · left
      have told := told earlier
      by_contra none
      refine (told.fine (after_passes step).opened).mpr ?_ broken
      intro x member
      by_contra wrong
      exact none ⟨x, member, wrong⟩
    · right
      cases middle with
      | broken => exact absurd rfl broken
      | ready =>
        obtain rfl := Option.some.inj step
        rcases closes with closed | closed | ⟨_, cause⟩
        · cases closed
        · cases closed
        · exact cause
      | _ => cases step

/-- An update looks at its token and begins a transaction. -/
theorem Handler.update_opening (h : Handler) (ctx : Context) {batch : List Statement}
    (some : batch ≠ []) :
    (h.update ctx batch).run = .ask (.task (.isCancelled ctx.token)) fun cancelled =>
      if cancelled then .done (.error .cancelled)
      else .ask (.store .begin) fun begun =>
        match begun with
        | .ok _ => (h.conclude ctx batch).run
        | .error e => .done (.error (.transaction "begin" e)) := by
  rw [update_eq, if_neg fun none => some (List.isEmpty_iff.mp none)]
  refine congrArg (Dialogue.ask _) (funext fun cancelled => ?_)
  cases cancelled with
  | true => rfl
  | false =>
    refine congrArg (Dialogue.ask _) (funext fun begun => ?_)
    cases begun <;> rfl

/-- Whatever its storage, the event log and its token answer, an update keeps its calls in order. It
begins one transaction, and ends it once; it commits it only if nothing has gone wrong, and rolls it
back only if something has. -/
theorem Handler.update_orderly (h : Handler) (ctx : Context) {batch : List Statement}
    (some : batch ≠ []) {σ : Type} (answer : (call : HandlerCall) → σ → call.Answer × σ) {s : σ}
    (uncancelled : (answer (.task (.isCancelled ctx.token)) s).1 = false) :
    let update := (h.update ctx batch).run
    ∃ begun talk, update.transcript answer s =
        ⟨.task (.isCancelled ctx.token), false⟩ :: ⟨.store .begin, begun⟩ :: talk ∧
      ((∃ e, begun = .error e) ∧ talk = [] ∨
        begun = .ok () ∧ Orderly h.config.maxFailureCount talk (update.run answer s).1) := by
  intro update
  have opening : update = _ := h.update_opening ctx some
  rw [opening, Dialogue.transcript, Dialogue.run_ask, uncancelled]
  simp only [Bool.false_eq_true, if_false, Dialogue.transcript, Dialogue.run_ask]
  refine ⟨_, _, rfl, ?_⟩
  generalize (answer (.task (.isCancelled ctx.token)) s).2 = here
  cases (answer (.store .begin) here).1 with
  | error e => exact .inl ⟨⟨e, rfl⟩, rfl⟩
  | ok value =>
    obtain ⟨stage, follows, closes⟩ :=
      (h.conclude_obeys ctx batch).transcript answer (answer (.store .begin) here).2
    exact .inr ⟨rfl, closes.orderly follows⟩

/-- The second of three organizations cannot be stored. -/
theorem Handler.update_orderly_of_failure :
    let h : Handler := { orgsHandler with config := { maxFailureCount := 1 } }
    let w : World := { threeOrgs with store.faults.values := [⟨"projections.orgs", "name", .text "2"⟩] }
    let batch := h.registry.firstStatements w.log 3
    let update := (h.update { token := ⟨0, []⟩ } batch).run
    batch ≠ [] ∧ (World.answer .still 0 (.task (.isCancelled ⟨0, []⟩)) w).1 = false ∧
      ∃ begun talk, update.transcript (World.answer .still 0) w =
          ⟨.task (.isCancelled ⟨0, []⟩), false⟩ :: ⟨.store .begin, begun⟩ :: talk ∧
        ((∃ e, begun = .error e) ∧ talk = [] ∨
          begun = .ok () ∧ Orderly 1 talk (update.run (World.answer .still 0) w).1) := by
  intro h w batch update
  have some : batch ≠ [] := by
    intro none
    have count : batch.length = 3 := by decide +kernel
    rw [none] at count
    cases count
  exact ⟨some, rfl, h.update_orderly { token := ⟨0, []⟩ } some (World.answer .still 0) rfl⟩

end ReadModel
