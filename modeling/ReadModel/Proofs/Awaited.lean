import Mathlib.Data.List.Forall2
import ReadModel.Proofs.Linked

/-!
What a batch stands for.

A plan runs exactly the events of its batch that are not applied yet and those that are missing
before them: of each key all events above the sequence at which it stands, up to the last one in the
batch, in the order of the log.
-/

namespace ReadModel

/-- Reducers leave an event its place in the log. -/
def Registry.KeepsIdentity (r : Registry) : Prop :=
  ∀ e st, r.reduce e = .ok st → ∃ op, st = e.statement op

namespace Registry

variable {r : Registry}

theorem KeepsIdentity.key (keeps : r.KeepsIdentity) {e : Event} {st : Statement}
    (reduced : r.reduce e = .ok st) : st.key = e.key := by
  obtain ⟨op, rfl⟩ := keeps e st reduced
  rfl

theorem KeepsIdentity.sequence (keeps : r.KeepsIdentity) {e : Event} {st : Statement}
    (reduced : r.reduce e = .ok st) : st.sequence = e.sequence := by
  obtain ⟨op, rfl⟩ := keeps e st reduced
  rfl

theorem KeepsIdentity.instanceId (keeps : r.KeepsIdentity) {e : Event} {st : Statement}
    (reduced : r.reduce e = .ok st) : st.instanceId = e.instanceId := by
  obtain ⟨op, rfl⟩ := keeps e st reduced
  rfl

theorem reduceAll_eq_ok_iff {events : List Event} {statements : List Statement} :
    r.reduceAll events = .ok statements ↔
      List.Forall₂ (fun e st => r.reduce e = .ok st) events statements := by
  induction events generalizing statements with
  | nil => cases statements <;> simp [reduceAll]
  | cons e rest ih =>
    simp only [reduceAll]
    cases head : r.reduce e with
    | error cause => cases statements <;> simp [head]
    | ok st =>
      cases tail : r.reduceAll rest with
      | error cause =>
        cases statements with
        | nil => simp
        | cons st' others => simp [← ih, tail]
      | ok others =>
        cases statements with
        | nil => simp
        | cons st' others' => simp [← ih, tail, head]

theorem reduceAll_append (left right : List Event) :
    r.reduceAll (left ++ right) =
      (do return (← r.reduceAll left) ++ (← r.reduceAll right)) := by
  induction left with
  | nil =>
    simp only [reduceAll, List.nil_append]
    cases r.reduceAll right <;> rfl
  | cons e rest ih =>
    simp only [List.cons_append, reduceAll, ih]
    cases r.reduce e with
    | error cause => rfl
    | ok st =>
      cases r.reduceAll rest with
      | error cause => rfl
      | ok statements => cases r.reduceAll right <;> rfl

end Registry

namespace SequenceMap

@[simp]
theorem get_empty (key : SequenceKey) : get ∅ key = 0 := rfl

@[simp]
theorem get_advance (m : SequenceMap) (key : SequenceKey) (sequence : Nat) (k : SequenceKey) :
    (m.advance key sequence).get k = if key = k then max (m.get key) sequence else m.get k := by
  rw [advance, get, Dict.find?_insert]
  split <;> rfl

end SequenceMap

/-- The statement of a step to run. -/
def Step.statement? : Step → Option Statement
  | .skip _ => none
  | .run statement _ => some statement

/-- The statements that a plan runs. -/
def Step.statements (steps : List Step) : List Statement := steps.filterMap Step.statement?

@[simp]
theorem Step.statements_nil : Step.statements [] = [] := rfl

@[simp]
theorem Step.statements_skip (index : Nat) (steps : List Step) :
    Step.statements (.skip index :: steps) = Step.statements steps := rfl

@[simp]
theorem Step.statements_run (st : Statement) (origin : Option Nat) (steps : List Step) :
    Step.statements (.run st origin :: steps) = st :: Step.statements steps := rfl

@[simp]
theorem Step.statements_append (left right : List Step) :
    Step.statements (left ++ right) = Step.statements left ++ Step.statements right :=
  List.filterMap_append

namespace Handler

variable {h : Handler}

/-- The steps for what a log has before a statement. -/
def gapIn (h : Handler) (log : EventLog) (statement : Statement) (last : Nat) :
    Except ReduceError (List Step) :=
  if statement.previousSequence = last then .ok []
  else h.fill (log.filter (gapQuery statement.key last statement.sequence))

/-- The plan for statements where what is missing is fetched from a log. -/
def planIn (h : Handler) (log : EventLog) (known : SequenceMap) (index : Nat) :
    List Statement → Except ReduceError (List Step)
  | [] => .ok []
  | statement :: rest =>
    let last := known.get statement.key
    if statement.sequence ≤ last then do
      return .skip index :: (← planIn h log known (index + 1) rest)
    else do
      let missing ← h.gapIn log statement last
      let later ← planIn h log (known.advance statement.key statement.sequence) (index + 1) rest
      return missing ++ .run statement (some index) :: later

section Inversion

variable {log : EventLog} {known : SequenceMap} {index : Nat} {st : Statement}
  {rest : List Statement}

/-- A plan passes over its first statement, or it runs what is missing before it and then the
statement. -/
theorem planIn_ok_cases {steps : List Step}
    (plan : h.planIn log known index (st :: rest) = .ok steps) :
    (∃ later, st.sequence ≤ known.get st.key ∧ h.planIn log known (index + 1) rest = .ok later ∧
      steps = .skip index :: later) ∨
    ∃ missing later, known.get st.key < st.sequence ∧
      h.gapIn log st (known.get st.key) = .ok missing ∧
      h.planIn log (known.advance st.key st.sequence) (index + 1) rest = .ok later ∧
      steps = missing ++ .run st (some index) :: later := by
  unfold planIn at plan
  dsimp only at plan
  split at plan
  next low =>
    cases others : h.planIn log known (index + 1) rest with
    | error e => rw [others] at plan; cases plan
    | ok later =>
      rw [others] at plan
      exact .inl ⟨later, low, rfl, (Except.ok.inj plan).symm⟩
  next high =>
    cases gap : h.gapIn log st (known.get st.key) with
    | error e => rw [gap] at plan; cases plan
    | ok missing =>
      cases others : h.planIn log (known.advance st.key st.sequence) (index + 1) rest with
      | error e => rw [gap, others] at plan; cases plan
      | ok later =>
        rw [gap, others] at plan
        exact .inr ⟨missing, later, Nat.lt_of_not_le high, rfl, rfl, (Except.ok.inj plan).symm⟩

/-- A plan fails where what is missing before its first statement cannot be fetched, or further on. -/
theorem planIn_error_cases {e : ReduceError}
    (plan : h.planIn log known index (st :: rest) = .error e) :
    (st.sequence ≤ known.get st.key ∧ h.planIn log known (index + 1) rest = .error e) ∨
      (known.get st.key < st.sequence ∧ (h.gapIn log st (known.get st.key) = .error e ∨
        h.planIn log (known.advance st.key st.sequence) (index + 1) rest = .error e)) := by
  unfold planIn at plan
  dsimp only at plan
  split at plan
  next low =>
    cases others : h.planIn log known (index + 1) rest with
    | error e' =>
      rw [others] at plan
      exact .inl ⟨low, plan⟩
    | ok later => rw [others] at plan; cases plan
  next high =>
    refine .inr ⟨Nat.lt_of_not_le high, ?_⟩
    cases gap : h.gapIn log st (known.get st.key) with
    | error e' =>
      rw [gap] at plan
      exact .inl plan
    | ok missing =>
      cases others : h.planIn log (known.advance st.key st.sequence) (index + 1) rest with
      | error e' =>
        rw [gap, others] at plan
        exact .inr plan
      | ok later => rw [gap, others] at plan; cases plan

end Inversion

theorem fill_statements (events : List Event) :
    (h.fill events).map Step.statements = h.registry.reduceAll events := by
  induction events with
  | nil => rfl
  | cons e rest ih =>
    simp only [fill, Registry.reduceAll, ← ih]
    cases h.registry.reduce e with
    | error cause => rfl
    | ok st => cases h.fill rest <;> rfl

end Handler

/-- The statements are what events of the log reduce to. -/
def Registry.Logged (r : Registry) (log : EventLog) (batch : List Statement) : Prop :=
  ∀ st ∈ batch, ∃ e ∈ log.events, r.reduce e = .ok st

/-- The largest sequence that a batch has for a key. -/
def Statement.reach (key : SequenceKey) : List Statement → Nat
  | [] => 0
  | st :: rest => if st.key = key then max st.sequence (reach key rest) else reach key rest

namespace EventLog

/-- The events that are to be applied for a batch. -/
def awaited (log : EventLog) : SequenceMap → List Statement → List Event
  | _, [] => []
  | known, st :: rest =>
    if st.sequence ≤ known.get st.key then log.awaited known rest
    else
      log.between st.key (known.get st.key) st.sequence ++
        log.awaited (known.advance st.key st.sequence) rest

variable {log : EventLog}

/-- Where a statement points back to what is known, nothing is missing before it. -/
theorem Linked.between_back (linked : log.Linked) {e : Event} (member : e ∈ log.events) :
    log.between e.key e.previousOfType (e.sequence - 1) = [] := by
  rw [List.eq_nil_iff_forall_not_mem]
  intro f inside
  obtain ⟨inLog, same, above, below⟩ := mem_between.mp inside
  have := linked.back e member f inLog same (by omega)
  omega

/-- What is missing before a statement are the events of its key in between. -/
theorem Linked.gapIn_statements (linked : log.Linked) {h : Handler}
    (keeps : h.registry.KeepsIdentity) {e : Event} (member : e ∈ log.events) {st : Statement}
    (reduced : h.registry.reduce e = .ok st) (last : Nat) :
    (h.gapIn log st last).map Step.statements =
      h.registry.reduceAll (log.between e.key last (e.sequence - 1)) := by
  obtain ⟨op, rfl⟩ := keeps e st reduced
  simp only [Handler.gapIn]
  split
  next same =>
    have none := linked.between_back member
    rw [← same]
    simp only [Event.statement]
    rw [none]
    rfl
  next =>
    rw [Handler.fill_statements, filter_gapQuery]
    rfl

/-- A plan runs the statements of the events that its batch stands for. -/
theorem Linked.planIn_statements (linked : log.Linked) {h : Handler}
    (keeps : h.registry.KeepsIdentity) {batch : List Statement}
    (logged : h.registry.Logged log batch) (known : SequenceMap) (index : Nat) :
    (h.planIn log known index batch).map Step.statements =
      h.registry.reduceAll (log.awaited known batch) := by
  induction batch generalizing known index with
  | nil => rfl
  | cons st rest ih =>
    have others : h.registry.Logged log rest :=
      fun st' member => logged st' (List.mem_cons_of_mem _ member)
    simp only [Handler.planIn, awaited]
    split
    next low =>
      rw [← ih others known (index + 1)]
      cases h.planIn log known (index + 1) rest <;> rfl
    next high =>
      -- the gap and the statement itself are the events of its key above what is known
      obtain ⟨e, member, reduced⟩ := logged st (List.mem_cons_self ..)
      have key := keeps.key reduced
      have sequence := keeps.sequence reduced
      have gap := linked.gapIn_statements keeps member reduced (known.get st.key)
      have later := ih others (known.advance st.key st.sequence) (index + 1)
      have here := linked.between_mem member (known.get st.key) (by omega)
      rw [key, sequence] at *
      rw [here, Registry.reduceAll_append, Registry.reduceAll_append, ← gap, ← later]
      simp only [Registry.reduceAll, reduced]
      cases h.gapIn log st (known.get e.key) with
      | error cause => rfl
      | ok missing =>
        cases h.planIn log (known.advance e.key e.sequence) (index + 1) rest with
        | error cause => rfl
        | ok steps =>
          simp [Except.map, bind, Except.bind, pure, Except.pure]

/-- Of a key a batch stands for all events above what is known, up to the last one in the batch. -/
theorem Linked.awaited_of_key (linked : log.Linked) (known : SequenceMap) (batch : List Statement)
    (key : SequenceKey) :
    (log.awaited known batch).filter (fun e => decide (e.key = key)) =
      log.between key (known.get key) (Statement.reach key batch) := by
  induction batch generalizing known with
  | nil => exact (log.between_of_le key (Nat.zero_le _)).symm
  | cons st rest ih =>
    simp only [awaited, Statement.reach]
    by_cases ours : st.key = key
    · subst ours
      rw [if_pos rfl]
      split
      next low =>
        rw [ih]
        refine List.filter_congr fun e _ => ?_
        grind
      next high =>
        have whole : (log.between st.key (known.get st.key) st.sequence).filter
            (fun e => decide (e.key = st.key)) =
              log.between st.key (known.get st.key) st.sequence := by
          rw [List.filter_eq_self]
          intro e inside
          exact decide_eq_true (mem_between.mp inside).2.1
        rw [List.filter_append, whole, ih, SequenceMap.get_advance, if_pos rfl,
          Nat.max_eq_right (by omega)]
        -- whether the rest of the batch gets beyond this statement
        by_cases further : st.sequence ≤ Statement.reach st.key rest
        · rw [Nat.max_eq_right further]
          exact linked.between_append st.key (by omega) further
        · have none := log.between_of_le st.key (Nat.le_of_not_le further)
          rw [none, List.append_nil, Nat.max_eq_left (by omega)]
    · rw [if_neg ours]
      split
      next low => exact ih known
      next high =>
        have none : (log.between st.key (known.get st.key) st.sequence).filter
            (fun e => decide (e.key = key)) = [] := by
          rw [List.filter_eq_nil_iff]
          intro e inside
          rw [(mem_between.mp inside).2.1]
          simpa using ours
        rw [List.filter_append, none, ih, SequenceMap.get_advance, if_neg ours, List.nil_append]

theorem Linked.mem_awaited (linked : log.Linked) {known : SequenceMap} {batch : List Statement}
    {e : Event} : e ∈ log.awaited known batch ↔
      e ∈ log.events ∧ known.get e.key < e.sequence ∧ e.sequence ≤ Statement.reach e.key batch := by
  have ofKey := linked.awaited_of_key known batch e.key
  have same : e ∈ log.awaited known batch ↔
      e ∈ (log.awaited known batch).filter (fun f => decide (f.key = e.key)) := by
    simp
  rw [same, ofKey, mem_between]
  simp

theorem Linked.awaited_distinct (linked : log.Linked) (known : SequenceMap)
    (batch : List Statement) : (log.awaited known batch).Pairwise (·.sequence ≠ ·.sequence) := by
  induction batch generalizing known with
  | nil => exact .nil
  | cons st rest ih =>
    simp only [awaited]
    split
    next low => exact ih known
    next high =>
      rw [List.pairwise_append]
      refine ⟨?_, ih _, ?_⟩
      · exact (linked.ascending.filter _).imp fun order => Nat.ne_of_lt order
      · intro e inside f later same
        obtain ⟨inLog, ofKey, _, upper⟩ := mem_between.mp inside
        obtain ⟨alsoInLog, above, _⟩ := linked.mem_awaited.mp later
        have equal := linked.eq_of_sequence inLog alsoInLog same
        rw [← equal, ofKey, SequenceMap.get_advance, if_pos rfl] at above
        omega

end EventLog

end ReadModel
