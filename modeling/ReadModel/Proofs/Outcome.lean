import ReadModel.Proofs.Applying

/-!
What a transaction leaves behind.

A plan that is carried out gets past some of the statements at its beginning. It leaves the stored
sequences alone, counts the failures of what it tried, and advances each key to the last statement
that it got past.
-/

namespace ReadModel

@[simp]
theorem mem_distinct {α : Type} [DecidableEq α] {items : List α} {a : α} :
    a ∈ distinct items ↔ a ∈ items := by
  have fold : ∀ seen : List α,
      a ∈ items.foldl (fun seen a => if a ∈ seen then seen else a :: seen) seen ↔
        a ∈ seen ∨ a ∈ items := by
    induction items with
    | nil => simp
    | cons b rest ih =>
      intro seen
      rw [List.foldl_cons, ih]
      by_cases old : b ∈ seen
      · rw [if_pos old]
        grind
      · rw [if_neg old]
        grind
  rw [distinct, List.mem_reverse, fold]
  simp

namespace StoreData

/-- The sequence at which a key stands; zero where none is stored. -/
def stands (d : StoreData) (projection : String) (key : SequenceKey) : Nat :=
  (d.sequence? projection key).getD 0

/-- How often an event has failed. -/
def failures? (d : StoreData) (projection : String) (id : InstanceId) (sequence : Nat) : Nat :=
  ((d.failure? projection id sequence).map (·.count)).getD 0

variable {d : StoreData} {projection : String}

theorem stands_eq {key : SequenceKey} {n : Nat} (row : d.sequence? projection key = some n) :
    d.stands projection key = n :=
  congrArg (·.getD 0) row

/-- A key that stands above zero has a row. -/
theorem sequence?_of_stands {key : SequenceKey} (above : 0 < d.stands projection key) :
    d.sequence? projection key = some (d.stands projection key) := by
  cases row : d.sequence? projection key with
  | some n => rw [stands_eq row]
  | none =>
    rw [stands, row] at above
    cases above

theorem mem_currentSequences {test : SequenceKey → Bool} {row : CurrentSequence} :
    row ∈ d.currentSequences projection test ↔
      d.sequence? projection row.key = some row.sequence ∧ test row.key = true := by
  obtain ⟨key, sequence⟩ := row
  simp only [currentSequences, sequence?, ← Dict.mem_entries_iff, List.mem_map, List.mem_filter,
    Bool.and_eq_true, decide_eq_true_eq, CurrentSequence.mk.injEq]
  constructor
  · rintro ⟨⟨⟨name, key'⟩, sequence'⟩, ⟨member, rfl, passes⟩, rfl, rfl⟩
    exact ⟨member, passes⟩
  · rintro ⟨member, passes⟩
    exact ⟨_, ⟨member, rfl, passes⟩, rfl, rfl⟩

theorem failure?_recordFailure (d : StoreData) (projection : String) (id : InstanceId)
    (sequence : Nat) (error : String) (name : String) (other : InstanceId) (n : Nat) :
    (d.recordFailure projection id sequence error).2.failure? name other n =
      if projection = name ∧ id = other ∧ sequence = n then
        some ⟨d.failures? projection id sequence + 1, error⟩
      else d.failure? name other n := by
  simp only [recordFailure, failure?, Dict.find?_insert, Prod.mk.injEq, failures?]

end StoreData

namespace Statement

theorem reach_le {key : SequenceKey} {statements : List Statement} {bound : Nat} :
    reach key statements ≤ bound ↔ ∀ st ∈ statements, st.key = key → st.sequence ≤ bound := by
  induction statements with
  | nil => simp [reach]
  | cons st rest ih =>
    simp only [reach, List.mem_cons, forall_eq_or_imp, ← ih]
    by_cases ours : st.key = key
    · simp only [ours, if_true, true_implies, Nat.max_le]
    · simp only [ours, if_false, false_implies, true_and]

theorem le_reach {statements : List Statement} {st : Statement} (member : st ∈ statements) :
    st.sequence ≤ reach st.key statements :=
  reach_le.mp (Nat.le_refl _) st member rfl

theorem reach_drop_le (key : SequenceKey) (statements : List Statement) (n : Nat) :
    reach key (statements.drop n) ≤ reach key statements :=
  reach_le.mpr fun _ member ours => ours ▸ le_reach (List.mem_of_mem_drop member)

theorem reach_eq_zero {key : SequenceKey} {statements : List Statement}
    (none : ∀ st ∈ statements, st.key ≠ key) : reach key statements = 0 :=
  Nat.le_zero.mp (reach_le.mpr fun st member ours => absurd ours (none st member))

theorem exists_reach {key : SequenceKey} {statements : List Statement}
    (some : ∃ st ∈ statements, st.key = key) :
    ∃ st ∈ statements, st.key = key ∧ st.sequence = reach key statements := by
  induction statements with
  | nil => simp at some
  | cons st rest ih =>
    by_cases later : ∃ st ∈ rest, st.key = key
    · obtain ⟨best, member, ours, largest⟩ := ih later
      by_cases here : st.key = key ∧ reach key rest < st.sequence
      · refine ⟨st, List.mem_cons_self .., here.1, ?_⟩
        rw [reach, if_pos here.1, Nat.max_eq_left (Nat.le_of_lt here.2)]
      · refine ⟨best, List.mem_cons_of_mem _ member, ours, ?_⟩
        rw [reach, largest]
        split
        next same => exact (Nat.max_eq_right (Nat.not_lt.mp fun below => here ⟨same, below⟩)).symm
        next => rfl
    · simp only [List.mem_cons, or_and_right, exists_or, exists_eq_left, later, or_false] at some
      refine ⟨st, List.mem_cons_self .., some, ?_⟩
      rw [reach, if_pos some, reach_eq_zero (by simpa using later)]
      simp

end Statement

namespace SequenceMap

/-- Advances the keys of statements to their sequences. -/
def advanceAll (m : SequenceMap) (statements : List Statement) : SequenceMap :=
  statements.foldl (fun m st => m.advance st.key st.sequence) m

/-- Statements advance the keys that they have, each to the largest of their sequences. -/
theorem find?_advanceAll (statements : List Statement) (m : SequenceMap) (key : SequenceKey) :
    (m.advanceAll statements).find? key =
      if ∃ st ∈ statements, st.key = key then
        some (max (m.get key) (Statement.reach key statements))
      else m.find? key := by
  unfold advanceAll
  induction statements generalizing m with
  | nil => simp
  | cons st rest ih =>
    rw [List.foldl_cons, ih, get_advance]
    simp only [Statement.reach, List.mem_cons, exists_eq_or_imp]
    by_cases ours : st.key = key
    · subst ours
      simp only [if_true, true_or]
      split
      next => rw [Nat.max_assoc]
      next none =>
        have nothing : Statement.reach st.key rest = 0 :=
          Statement.reach_eq_zero fun st' member same => none ⟨st', member, same⟩
        rw [nothing, advance, Dict.find?_insert, if_pos rfl]
        simp
    · simp only [ours, if_false, false_or]
      rw [advance, Dict.find?_insert, if_neg ours]

/-- Where the rows of a key agree, the map has what they tell. -/
theorem get_ofRows {rows : List CurrentSequence} {key : SequenceKey} {n : Nat}
    (agree : ∀ row ∈ rows, row.key = key → row.sequence = n) :
    (ofRows rows).get key = if ∃ row ∈ rows, row.key = key then n else 0 := by
  have fold : ∀ m : SequenceMap, m.get key ≤ n →
      (rows.foldl (fun m row => m.advance row.key row.sequence) m).get key =
        if ∃ row ∈ rows, row.key = key then n else m.get key := by
    induction rows with
    | nil => simp
    | cons row rest ih =>
      intro m low
      have later := ih fun row member => agree row (List.mem_cons_of_mem _ member)
      rw [List.foldl_cons]
      simp only [List.mem_cons, exists_eq_or_imp]
      by_cases ours : row.key = key
      · have value := agree row (List.mem_cons_self ..) ours
        subst ours
        have raised : (m.advance row.key row.sequence).get row.key = n := by
          rw [get_advance, if_pos rfl]
          omega
        rw [later _ (by omega), raised]
        simp
      · have kept : (m.advance row.key row.sequence).get key = m.get key := by
          rw [get_advance, if_neg ours]
        rw [later _ (by omega), kept]
        simp [ours]
  exact fold ∅ (Nat.zero_le n)

end SequenceMap

namespace StoreData

variable {d : StoreData} {projection : String}

/-- Rows that tell how far a key has got and nothing false about it give the sequence where it
stands. -/
theorem get_ofRows_of_rows {rows : List CurrentSequence} {key : SequenceKey}
    (sound : ∀ row ∈ rows, d.sequence? projection row.key = some row.sequence)
    (complete : ∀ n, d.sequence? projection key = some n → ⟨key, n⟩ ∈ rows) :
    (SequenceMap.ofRows rows).get key = d.stands projection key := by
  have agree : ∀ row ∈ rows, row.key = key → row.sequence = d.stands projection key := by
    intro row member ours
    rw [stands, ← ours, sound row member]
    rfl
  rw [SequenceMap.get_ofRows agree]
  cases row : d.sequence? projection key with
  | none => simp [stands, row]
  | some n => exact if_pos ⟨_, complete n row, rfl⟩

theorem get_currentSequences (d : StoreData) (projection : String) (test : SequenceKey → Bool)
    {key : SequenceKey} (asked : test key = true) :
    (SequenceMap.ofRows (d.currentSequences projection test)).get key = d.stands projection key :=
  get_ofRows_of_rows (fun _ member => (mem_currentSequences.mp member).1)
    fun _ row => mem_currentSequences.mpr ⟨row, asked⟩

/-- The sequence that is read under lock for a statement of the batch. -/
theorem get_locked (d : StoreData) (projection : String) (hidden : SequenceKey → Bool)
    {batch : List Statement} {st : Statement} (member : st ∈ batch) :
    (d.locked projection hidden batch).get st.key =
      if hidden st.key = true then 0 else d.stands projection st.key := by
  unfold locked
  cases veil : hidden st.key with
  | true =>
    have none : ∀ row ∈ (d.currentSequences projection fun key =>
        decide (key.instanceId ∈ Statement.instances batch) &&
          decide (key.aggregateType ∈ Statement.aggregateTypes batch)).filter
            (fun row => !hidden row.key), row.key = st.key → row.sequence = 0 := by
      intro row present ours
      have shown := (List.mem_filter.mp present).2
      simp [ours, veil] at shown
    rw [if_pos rfl, SequenceMap.get_ofRows none, ite_self]
  | false =>
    rw [if_neg Bool.false_ne_true]
    refine get_ofRows_of_rows (fun row present => ?_) fun n row => ?_
    · exact (mem_currentSequences.mp (List.mem_filter.mp present).1).1
    · rw [List.mem_filter, mem_currentSequences]
      refine ⟨⟨row, ?_⟩, by simp [veil]⟩
      simp only [Statement.instances, Statement.aggregateTypes, mem_distinct, List.mem_map,
        Bool.and_eq_true, decide_eq_true_eq]
      exact ⟨⟨st, member, rfl⟩, ⟨st, member, rfl⟩⟩

/-- Where nothing is hidden, the sequences that are read under lock are those that are stored. -/
theorem get_locked_shown (d : StoreData) (projection : String) {batch : List Statement}
    {st : Statement} (member : st ∈ batch) :
    (d.locked projection (fun _ => false) batch).get st.key = d.stands projection st.key :=
  (d.get_locked projection (fun _ => false) member).trans (if_neg Bool.false_ne_true)

/-- Keys that are raised have their new sequence; all others are as they were. -/
@[simp]
theorem sequence?_raiseAll (d : StoreData) (projection : String) (m : SequenceMap) (name : String)
    (key : SequenceKey) :
    (d.raiseAll projection m).sequence? name key =
      if projection = name then (m.find? key).or (d.sequence? name key)
      else d.sequence? name key := by
  have distinct := m.distinct
  unfold raiseAll Dict.find?
  generalize m.entries = entries at distinct
  induction entries generalizing d with
  | nil => simp [lookup]
  | cons entry rest ih =>
    obtain ⟨apart, others⟩ := List.pairwise_cons.mp distinct
    rw [List.foldl_cons, ih _ others]
    simp only [raise, sequence?, Dict.find?_insert, Prod.mk.injEq, lookup]
    by_cases ours : projection = name
    · by_cases here : entry.1 = key
      · have later : lookup key rest = none := by
          rw [Option.eq_none_iff_forall_not_mem]
          intro n found
          exact apart _ (mem_of_lookup found) here
        simp [ours, here, later]
      · simp [ours, here]
    · simp [ours]

/-- Raising changes nothing but sequences. -/
theorem raiseAll_eq (d : StoreData) (projection : String) (m : SequenceMap) :
    d.raiseAll projection m = { d with sequences := (d.raiseAll projection m).sequences } := by
  unfold raiseAll
  generalize m.entries = entries
  induction entries generalizing d with
  | nil => rfl
  | cons entry rest ih => exact ih (d.raise projection entry)

@[simp]
theorem tables_raiseAll (d : StoreData) (projection : String) (m : SequenceMap) :
    (d.raiseAll projection m).tables = d.tables := by
  rw [raiseAll_eq]

@[simp]
theorem failures_raiseAll (d : StoreData) (projection : String) (m : SequenceMap) :
    (d.raiseAll projection m).failures = d.failures := by
  rw [raiseAll_eq]

@[simp]
theorem failures?_raiseAll (d : StoreData) (projection : String) (m : SequenceMap) (name : String)
    (id : InstanceId) (n : Nat) :
    (d.raiseAll projection m).failures? name id n = d.failures? name id n := by
  rw [failures?, failure?, failures_raiseAll]
  rfl

end StoreData

mutual

/-- An operation that succeeds runs as it does without faults. -/
theorem Operation.run_unhindered (faults : Faults) : ∀ (op : Operation) (tables : Tables),
    (op.run faults tables).error = none → op.run {} tables = op.run faults tables
  | .multi parts, tables, success => by
    unfold Operation.run at success ⊢
    split
    next => rfl
    next valid =>
      rw [valid] at success
      rw [Operation.runAll_unhindered faults parts tables success]
  | .create .., tables, success | .update .., tables, success | .delete .., tables, success
  | .noOp, tables, success => by
    unfold Operation.run at success ⊢
    split
    next => rfl
    next valid =>
      rw [valid] at success
      dsimp only at success
      split at success
      next => cases success
      next => rfl

theorem Operation.runAll_unhindered (faults : Faults) : ∀ (ops : List Operation) (tables : Tables),
    (Operation.runAll faults tables ops).error = none →
      Operation.runAll {} tables ops = Operation.runAll faults tables ops
  | [], _, _ => rfl
  | op :: rest, tables, success => by
    unfold Operation.runAll at success ⊢
    cases first : (op.run faults tables).error with
    | some e =>
      simp only [first] at success
      cases success
    | none =>
      rw [Operation.run_unhindered faults op tables first]
      simp only [first] at success ⊢
      rw [Operation.runAll_unhindered faults rest _ success]

end

/-- The tables after operations that succeed one after the other. -/
def Tables.replay (t : Tables) (ops : List Operation) : Tables :=
  ops.foldl (fun t op => (op.run {} t).tables) t

theorem Tables.replay_append (t : Tables) (first second : List Operation) :
    t.replay (first ++ second) = (t.replay first).replay second :=
  List.foldl_append

section Attempts

variable {h : Handler} {faults : Faults} {d d₁ : StoreData} {st : Statement} {verdict : Verdict}

/-- A statement is applied to the tables, or its failure is counted. -/
theorem Handler.attempted_cases (tried : h.attempted faults d st = (verdict, d₁)) :
    (verdict = .applied ∧ (st.operation.run faults d.tables).error = none ∧
      d₁ = { d with tables := (st.operation.run faults d.tables).tables }) ∨
    ∃ e, (st.operation.run faults d.tables).error = some e ∧
      d₁ = (d.recordFailure h.name st.instanceId st.sequence e.message).2 ∧
      verdict = if h.config.maxFailureCount < d.failures? h.name st.instanceId st.sequence + 1
        then .passedOver else .stopped := by
  unfold attempted at tried
  split at tried
  next success =>
    cases tried
    exact .inl ⟨rfl, success, rfl⟩
  next e failure =>
    cases tried
    exact .inr ⟨e, failure, rfl, rfl⟩

theorem Handler.attempted_sequences (tried : h.attempted faults d st = (verdict, d₁)) :
    d₁.sequences = d.sequences := by
  rcases Handler.attempted_cases tried with ⟨_, _, rfl⟩ | ⟨e, _, rfl, _⟩ <;> rfl

theorem Handler.attempted_failures (tried : h.attempted faults d st = (verdict, d₁))
    {name : String} {id : InstanceId} {n : Nat}
    (other : ¬(st.instanceId = id ∧ st.sequence = n)) :
    d₁.failures? name id n = d.failures? name id n := by
  rcases Handler.attempted_cases tried with ⟨_, _, rfl⟩ | ⟨e, _, rfl, _⟩
  · rfl
  · unfold StoreData.failures?
    rw [StoreData.failure?_recordFailure, if_neg fun same => other same.2]

theorem Handler.attempted_tables (tried : h.attempted faults d st = (verdict, d₁)) :
    d₁.tables =
      if verdict = .applied then (st.operation.run {} d.tables).tables else d.tables := by
  rcases Handler.attempted_cases tried with ⟨rfl, success, rfl⟩ | ⟨e, _, rfl, rfl⟩
  · rw [if_pos rfl, Operation.run_unhindered faults _ _ success]
  · split <;> rfl

/-- What the counts of failures before and after tell of a statement. -/
def Verdict.Counted (limit before after : Nat) : Verdict → Prop
  | .applied => after = before
  | .passedOver => limit < after
  | .stopped => after ≤ limit

theorem Handler.attempted_count (tried : h.attempted faults d st = (verdict, d₁)) :
    verdict.Counted h.config.maxFailureCount (d.failures? h.name st.instanceId st.sequence)
      (d₁.failures? h.name st.instanceId st.sequence) := by
  rcases Handler.attempted_cases tried with ⟨rfl, _, rfl⟩ | ⟨e, _, rfl, rfl⟩
  · rfl
  · have count : (d.recordFailure h.name st.instanceId st.sequence e.message).2.failures? h.name
        st.instanceId st.sequence = d.failures? h.name st.instanceId st.sequence + 1 := by
      rw [StoreData.failures?, StoreData.failure?_recordFailure, if_pos ⟨rfl, rfl, rfl⟩]
      rfl
    rw [count]
    split
    next often => exact often
    next seldom => exact Nat.not_lt.mp seldom

end Attempts

namespace Carried

variable {h : Handler} {allowed : Faults → Prop} {d d' : StoreData} {p p' : Progress}
  {steps : List Step} {tried : Trial}

theorem sequences (carried : Carried h allowed d p steps d' p' tried) :
    d'.sequences = d.sequences := by
  induction carried with
  | done => rfl
  | skip _ ih => exact ih
  | past _ attempt _ _ ih => exact ih.trans (Handler.attempted_sequences attempt)
  | stop _ attempt => exact Handler.attempted_sequences attempt

theorem sequence? (carried : Carried h allowed d p steps d' p' tried) (name : String)
    (key : SequenceKey) : d'.sequence? name key = d.sequence? name key :=
  congrArg (·.find? (name, key)) carried.sequences

/-- The tables are what the operations make of them that were applied. -/
theorem tables (carried : Carried h allowed d p steps d' p' tried) :
    d'.tables = d.tables.replay (tried.applied.map (·.operation)) := by
  induction carried with
  | done => rfl
  | skip _ ih => exact ih
  | @past d p st origin rest faults verdict d₁ d' p' tried _ attempt _ _ ih =>
    rw [ih, Handler.attempted_tables attempt]
    by_cases applied : verdict = .applied <;> simp [Trial.applied, Tables.replay, applied]
  | stop _ attempt => exact Handler.attempted_tables attempt

theorem tried_prefix (carried : Carried h allowed d p steps d' p' tried) :
    tried.map Prod.fst <+: Step.statements steps := by
  induction carried with
  | done => exact List.prefix_rfl
  | skip _ ih => exact ih
  | past _ _ _ _ ih => exact (List.prefix_cons_inj _).mpr ih
  | stop => exact (List.prefix_cons_inj _).mpr (List.nil_prefix)

theorem past_prefix (carried : Carried h allowed d p steps d' p' tried) :
    tried.past <+: Step.statements steps := by
  induction carried with
  | done => exact List.prefix_rfl
  | skip _ ih => exact ih
  | past _ _ going _ ih => simpa [Trial.past, going] using ih
  | stop => simp [Trial.past]

theorem past_of_going (carried : Carried h allowed d p steps d' p' tried)
    (going : p'.stopped = false) : tried.past = Step.statements steps := by
  induction carried with
  | done => rfl
  | skip _ ih => exact ih going
  | past _ _ goesOn _ ih => simpa [Trial.past, goesOn] using ih going
  | stop => cases going

/-- Each key is advanced to the last statement that the plan got past. -/
theorem advanced (carried : Carried h allowed d p steps d' p' tried) :
    p'.advanced = p.advanced.advanceAll tried.past := by
  induction carried with
  | done => rfl
  | skip _ ih => exact ih
  | past _ _ going _ ih => simpa [Trial.past, going, SequenceMap.advanceAll, Progress.past] using ih
  | stop => rfl

theorem failures (carried : Carried h allowed d p steps d' p' tried) {name : String}
    {id : InstanceId} {n : Nat}
    (untried : ∀ entry ∈ tried, ¬(entry.1.instanceId = id ∧ entry.1.sequence = n)) :
    d'.failures? name id n = d.failures? name id n := by
  induction carried with
  | done => rfl
  | skip _ ih => exact ih untried
  | past _ attempt _ _ ih =>
    have here := untried _ (List.mem_cons_self ..)
    have later := ih fun entry member => untried entry (List.mem_cons_of_mem _ member)
    exact later.trans (Handler.attempted_failures attempt here)
  | stop _ attempt =>
    exact Handler.attempted_failures attempt (untried _ (List.mem_cons_self ..))

/-- In the end the counts of failures tell what has become of the statements. -/
theorem count (carried : Carried h allowed d p steps d' p' tried)
    (distinct : (Step.statements steps).Pairwise (·.sequence ≠ ·.sequence)) :
    ∀ entry ∈ tried, entry.2.Counted h.config.maxFailureCount
      (d.failures? h.name entry.1.instanceId entry.1.sequence)
      (d'.failures? h.name entry.1.instanceId entry.1.sequence) := by
  induction carried with
  | done => simp
  | skip _ ih => exact ih distinct
  | @past d p st origin rest faults verdict d₁ d' p' tried _ attempt _ carried ih =>
    obtain ⟨apart, others⟩ := List.pairwise_cons.mp distinct
    have elsewhere : ∀ entry ∈ tried, entry.1.sequence ≠ st.sequence := by
      intro entry member
      have among := carried.tried_prefix.subset (List.mem_map_of_mem member)
      exact (apart _ among).symm
    intro entry member
    rcases List.mem_cons.mp member with rfl | later
    · rw [carried.failures fun entry member same => elsewhere entry member same.2]
      exact Handler.attempted_count attempt
    · rw [← Handler.attempted_failures attempt fun same => elsewhere entry later same.2.symm]
      exact ih others entry later
  | stop _ attempt =>
    intro entry member
    rw [List.mem_singleton.mp member]
    exact Handler.attempted_count attempt

/-- Of the statements that a plan got past, those were applied that have not failed too often. -/
theorem applied_eq (carried : Carried h allowed d p steps d' p' tried)
    (distinct : (Step.statements steps).Pairwise (·.sequence ≠ ·.sequence))
    (fit : ∀ st ∈ Step.statements steps,
      d.failures? h.name st.instanceId st.sequence ≤ h.config.maxFailureCount) :
    tried.applied = tried.past.filter fun st =>
      decide (d'.failures? h.name st.instanceId st.sequence ≤ h.config.maxFailureCount) := by
  have counts := carried.count distinct
  have among := carried.tried_prefix.subset
  unfold Trial.applied Trial.past
  rw [List.filter_map, List.filter_filter]
  congr 1
  refine List.filter_congr fun entry member => ?_
  have counted := counts entry member
  have low := fit entry.1 (among (List.mem_map_of_mem member))
  obtain ⟨st, verdict⟩ := entry
  cases verdict with
  | applied =>
    have same : d'.failures? h.name st.instanceId st.sequence =
      d.failures? h.name st.instanceId st.sequence := counted
    simp [same, low]
  | passedOver =>
    have often : h.config.maxFailureCount < d'.failures? h.name st.instanceId st.sequence := counted
    simp [often]
  | stopped => simp

end Carried

end ReadModel
