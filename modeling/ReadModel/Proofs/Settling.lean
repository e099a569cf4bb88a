import ReadModel.Proofs.Outcome

/-!
The events that a transaction settles.

The statements that a transaction gets past are, key by key, the events of the log from the sequence
that was read under lock up to the sequence that is stored in the end.
-/

namespace ReadModel

namespace Registry

variable {r : Registry} {events : List Event} {statements : List Statement}

theorem reduceAll_filter (reduced : r.reduceAll events = .ok statements) (test : Event → Bool)
    (test' : Statement → Bool) (agree : ∀ e st, r.reduce e = .ok st → test e = test' st) :
    r.reduceAll (events.filter test) = .ok (statements.filter test') := by
  rw [reduceAll_eq_ok_iff] at *
  induction reduced with
  | nil => exact .nil
  | @cons e st rest rest' here _ ih =>
    rw [List.filter_cons, List.filter_cons, agree e st here]
    split
    · exact .cons here ih
    · exact ih

theorem exists_event (reduced : r.reduceAll events = .ok statements) {st : Statement}
    (member : st ∈ statements) : ∃ e ∈ events, r.reduce e = .ok st := by
  rw [reduceAll_eq_ok_iff] at reduced
  induction reduced with
  | nil => simp at member
  | @cons e st' rest rest' here _ ih =>
    rcases List.mem_cons.mp member with rfl | later
    · exact ⟨e, List.mem_cons_self .., here⟩
    · obtain ⟨f, inRest, reduced⟩ := ih later
      exact ⟨f, List.mem_cons_of_mem _ inRest, reduced⟩

theorem logged_of_reduceAll (reduced : r.reduceAll events = .ok statements) {log : EventLog}
    (among : ∀ e ∈ events, e ∈ log.events) : r.Logged log statements := by
  intro st member
  obtain ⟨e, inside, reduced⟩ := exists_event reduced member
  exact ⟨e, among e inside, reduced⟩

theorem exists_statement (reduced : r.reduceAll events = .ok statements) {e : Event}
    (member : e ∈ events) : ∃ st ∈ statements, r.reduce e = .ok st := by
  rw [reduceAll_eq_ok_iff] at reduced
  induction reduced with
  | nil => simp at member
  | @cons f st rest rest' here _ ih =>
    rcases List.mem_cons.mp member with rfl | later
    · exact ⟨st, List.mem_cons_self .., here⟩
    · obtain ⟨st', inRest, reduced⟩ := ih later
      exact ⟨st', List.mem_cons_of_mem _ inRest, reduced⟩

theorem reduceAll_ne_nil (reduced : r.reduceAll events = .ok statements) (some : events ≠ []) :
    statements ≠ [] := by
  rintro rfl
  rw [reduceAll_eq_ok_iff, List.forall₂_nil_right_iff] at reduced
  exact some reduced

theorem KeepsIdentity.map_sequence (keeps : r.KeepsIdentity)
    (reduced : r.reduceAll events = .ok statements) :
    statements.map (·.sequence) = events.map (·.sequence) := by
  rw [reduceAll_eq_ok_iff] at reduced
  induction reduced with
  | nil => rfl
  | cons here _ ih => rw [List.map_cons, List.map_cons, keeps.sequence here, ih]

theorem reduceAll_take (reduced : r.reduceAll events = .ok statements) (n : Nat) :
    r.reduceAll (events.take n) = .ok (statements.take n) := by
  rw [reduceAll_eq_ok_iff] at *
  exact List.forall₂_take n reduced

end Registry

namespace EventLog

variable {log : EventLog}

/-- A first part of what a log has between two sequences ends with its last event. -/
theorem Linked.prefix_between (linked : log.Linked) {key : SequenceKey} {low high n : Nat}
    {first : List Event} (part : first <+: log.between key low high)
    (within : ∀ e ∈ first, e.sequence ≤ n)
    (last : n = low ∧ first = [] ∨ ∃ e ∈ first, e.sequence = n) :
    first = log.between key low n := by
  rcases last with ⟨rfl, rfl⟩ | ⟨e, member, rfl⟩
  · rw [between_of_le _ _ (Nat.le_refl _)]
  · obtain ⟨rest, whole⟩ := part
    have inside : e ∈ log.between key low high := by
      rw [← whole]
      exact List.mem_append_left _ member
    obtain ⟨_, _, _, below⟩ := mem_between.mp inside
    have order : (first ++ rest).Pairwise (·.sequence < ·.sequence) := by
      rw [whole]
      exact linked.ascending.filter _
    obtain ⟨_, _, apart⟩ := List.pairwise_append.mp order
    -- of the events up to the last one, none comes later
    have cut : (first ++ rest).filter (fun f => decide (f.sequence ≤ e.sequence)) = first := by
      have all : first.filter (fun f => decide (f.sequence ≤ e.sequence)) = first :=
        List.filter_eq_self.mpr fun f inFirst => decide_eq_true (within f inFirst)
      have none : rest.filter (fun f => decide (f.sequence ≤ e.sequence)) = [] := by
        rw [List.filter_eq_nil_iff]
        intro f later
        have := apart e member f later
        simp only [decide_eq_true_eq]
        omega
      rw [List.filter_append, all, none, List.append_nil]
    rw [← cut, whole, between, List.filter_filter, between]
    refine List.filter_congr fun f _ => ?_
    rw [Bool.eq_iff_iff]
    simp only [Bool.and_eq_true, decide_eq_true_eq]
    grind

end EventLog

section Settled

variable {h : Handler} {allowed : Faults → Prop} {log : EventLog} {batch : List Statement}
  {known : SequenceMap} {d d' : StoreData} {steps : List Step} {p : Progress} {tried : Trial}

/-- The statements of a plan are what the awaited events reduce to. -/
theorem EventLog.Linked.awaited_statements (linked : log.Linked) (keeps : h.registry.KeepsIdentity)
    (logged : h.registry.Logged log batch) (plan : h.planIn log known 0 batch = .ok steps) :
    h.registry.reduceAll (log.awaited known batch) = .ok (Step.statements steps) := by
  rw [← linked.planIn_statements keeps logged known 0, plan]
  rfl

theorem EventLog.key_of_mem_awaited {e : Event} (member : e ∈ log.awaited known batch) :
    ∃ st ∈ batch, st.key = e.key := by
  induction batch generalizing known with
  | nil => simp [awaited] at member
  | cons st rest ih =>
    rw [awaited] at member
    split at member
    next =>
      obtain ⟨st', later, same⟩ := ih member
      exact ⟨st', List.mem_cons_of_mem _ later, same⟩
    next =>
      rcases List.mem_append.mp member with here | later
      · exact ⟨st, List.mem_cons_self .., (mem_between.mp here).2.1.symm⟩
      · obtain ⟨st', later, same⟩ := ih later
        exact ⟨st', List.mem_cons_of_mem _ later, same⟩

/-- Each statement of a plan lies above what is known of its key, which the batch has. -/
theorem EventLog.Linked.mem_statements (linked : log.Linked) (keeps : h.registry.KeepsIdentity)
    (logged : h.registry.Logged log batch) (plan : h.planIn log known 0 batch = .ok steps)
    {st : Statement} (member : st ∈ Step.statements steps) :
    ∃ e ∈ log.events, h.registry.reduce e = .ok st ∧ known.get st.key < st.sequence ∧
      ∃ st' ∈ batch, st'.key = st.key := by
  obtain ⟨e, awaits, reduced⟩ :=
    Registry.exists_event (linked.awaited_statements keeps logged plan) member
  obtain ⟨inLog, above, _⟩ := linked.mem_awaited.mp awaits
  obtain ⟨st', inBatch, same⟩ := EventLog.key_of_mem_awaited awaits
  refine ⟨e, inLog, reduced, ?_, st', inBatch, same.trans (keeps.key reduced).symm⟩
  rw [keeps.key reduced, keeps.sequence reduced]
  exact above

theorem EventLog.Linked.statements_distinct (linked : log.Linked) (keeps : h.registry.KeepsIdentity)
    (logged : h.registry.Logged log batch) (plan : h.planIn log known 0 batch = .ok steps) :
    (Step.statements steps).Pairwise (·.sequence ≠ ·.sequence) := by
  have numbers := keeps.map_sequence (linked.awaited_statements keeps logged plan)
  have distinct := linked.awaited_distinct known batch
  rw [← List.pairwise_map (R := (· ≠ ·))] at distinct ⊢
  rwa [numbers]

/-- Of a key, the statements that are got past are the events between what was known and the last of
them. -/
theorem Carried.past_of_key (carried : Carried h allowed d {} steps d' p tried)
    (linked : log.Linked) (keeps : h.registry.KeepsIdentity)
    (logged : h.registry.Logged log batch) (plan : h.planIn log known 0 batch = .ok steps)
    (key : SequenceKey) :
    h.registry.reduceAll
        (log.between key (known.get key) (max (known.get key) (Statement.reach key tried.past))) =
      .ok (tried.past.filter fun st => decide (st.key = key)) := by
  have past : (Step.statements steps).take tried.past.length = tried.past :=
    (List.prefix_iff_eq_take.mp carried.past_prefix).symm
  have reduced := Registry.reduceAll_take (linked.awaited_statements keeps logged plan)
    tried.past.length
  rw [past] at reduced
  have ofKey := Registry.reduceAll_filter reduced (fun e => decide (e.key = key))
    (fun st => decide (st.key = key)) fun e st step => by rw [keeps.key step]
  have part : ((log.awaited known batch).take tried.past.length).filter
      (fun e => decide (e.key = key)) <+: log.between key (known.get key)
        (Statement.reach key batch) := by
    rw [← linked.awaited_of_key known batch key]
    exact (List.take_prefix _ _).filter _
  rw [← ofKey]
  congr 1
  symm
  -- what was got past is cut off at a statement of this key, or has none of them
  refine linked.prefix_between part ?_ ?_
  · intro e member
    obtain ⟨st, inPast, step⟩ := Registry.exists_statement ofKey member
    obtain ⟨inPast, ours⟩ := List.mem_filter.mp inPast
    have bound := Statement.reach_le.mp (Nat.le_refl _) st inPast (of_decide_eq_true ours)
    rw [keeps.sequence step] at bound
    exact Nat.le_trans bound (Nat.le_max_right _ _)
  · by_cases some : ∃ st ∈ tried.past, st.key = key
    · obtain ⟨st, inPast, ours, largest⟩ := Statement.exists_reach some
      obtain ⟨e, member, step⟩ := Registry.exists_event ofKey
        (List.mem_filter.mpr ⟨inPast, decide_eq_true ours⟩)
      obtain ⟨_, _, above, _⟩ := EventLog.mem_between.mp (part.subset member)
      rw [← keeps.sequence step] at above
      refine .inr ⟨e, member, ?_⟩
      rw [← keeps.sequence step]
      omega
    · have nothing : Statement.reach key tried.past = 0 :=
        Statement.reach_eq_zero fun st inPast ours => some ⟨st, inPast, ours⟩
      rw [nothing]
      refine .inl ⟨Nat.max_eq_left (Nat.zero_le _), ?_⟩
      rw [List.eq_nil_iff_forall_not_mem]
      intro e member
      obtain ⟨st, inPast, _⟩ := Registry.exists_statement ofKey member
      obtain ⟨inPast, ours⟩ := List.mem_filter.mp inPast
      exact some ⟨st, inPast, of_decide_eq_true ours⟩

/-- The keys of the statements that were got past are reached up to the last of them. -/
theorem Carried.mem_advanced (carried : Carried h allowed d {} steps d' p tried) {key : SequenceKey}
    {n : Nat} : (key, n) ∈ p.advanced.entries ↔
      (∃ st ∈ tried.past, st.key = key) ∧ Statement.reach key tried.past = n := by
  rw [Dict.mem_entries_iff, carried.advanced, SequenceMap.find?_advanceAll]
  split
  next touched =>
    rw [SequenceMap.get_empty, Nat.zero_max, Option.some_inj]
    exact (and_iff_right touched).symm
  next untouched =>
    refine ⟨fun none => ?_, fun both => absurd both.1 untouched⟩
    cases none

theorem Carried.stands (carried : Carried h allowed d {} steps d' p tried) (key : SequenceKey) :
    (d'.raiseAll h.name p.advanced).stands h.name key =
      if ∃ st ∈ tried.past, st.key = key then Statement.reach key tried.past
      else d.stands h.name key := by
  unfold StoreData.stands
  rw [StoreData.sequence?_raiseAll, if_pos rfl, carried.advanced, SequenceMap.find?_advanceAll]
  split
  next => simp
  next =>
    rw [carried.sequence?]
    rfl

end Settled

/-- The events of a key that a projection is done with and that have not failed too often. -/
def EventLog.settled (log : EventLog) (d : StoreData) (projection : String) (limit : Nat)
    (key : SequenceKey) : List Event :=
  log.events.filter fun e =>
    decide (e.key = key) && (decide (e.sequence ≤ d.stands projection key) &&
      decide (d.failures? projection e.instanceId e.sequence ≤ limit))

section Growth

variable {log log' : EventLog} {h : Handler} {batch : List Statement}

theorem Registry.Logged.mono {r : Registry} (logged : r.Logged log batch)
    (grown : log.events <+: log'.events) : r.Logged log' batch := by
  intro st member
  obtain ⟨e, inLog, reduced⟩ := logged st member
  exact ⟨e, grown.subset inLog, reduced⟩

theorem Registry.Logged.drop {r : Registry} (logged : r.Logged log batch) (n : Nat) :
    r.Logged log (batch.drop n) :=
  fun st member => logged st (List.mem_of_mem_drop member)

/-- What is missing before a statement stays the same while the log grows. -/
theorem Registry.Logged.filter_gapQuery {r : Registry} (logged : r.Logged log batch)
    (keeps : r.KeepsIdentity) (linked : log'.Linked) (grown : log.events <+: log'.events)
    {st : Statement} (member : st ∈ batch) (last : Nat) :
    log'.filter (Handler.gapQuery st.key last st.sequence) =
      log.filter (Handler.gapQuery st.key last st.sequence) := by
  obtain ⟨e, inLog, reduced⟩ := logged st member
  rw [EventLog.filter_gapQuery, EventLog.filter_gapQuery, keeps.sequence reduced]
  exact linked.between_of_prefix grown inLog st.key last (Nat.sub_le _ 1)

/-- A plan depends only on what is missing before the statements of its batch. -/
theorem Handler.planIn_congr (h : Handler) (known : SequenceMap) (index : Nat)
    (same : ∀ st ∈ batch, ∀ last, log'.filter (gapQuery st.key last st.sequence) =
      log.filter (gapQuery st.key last st.sequence)) :
    h.planIn log' known index batch = h.planIn log known index batch := by
  induction batch generalizing known index with
  | nil => rfl
  | cons st rest ih =>
    have later := fun known index => ih known index fun st' member =>
      same st' (List.mem_cons_of_mem _ member)
    simp only [planIn, gapIn, same st (List.mem_cons_self ..), later]

end Growth

section Settled

variable {h : Handler} {allowed : Faults → Prop} {log : EventLog} {batch : List Statement}
  {d d' : StoreData} {steps : List Step} {p : Progress} {tried : Trial}

theorem EventLog.Linked.settled_eq (linked : log.Linked) (d : StoreData) (projection : String)
    (limit : Nat) (key : SequenceKey) :
    log.settled d projection limit key =
      (log.between key 0 (d.stands projection key)).filter fun e =>
        decide (d.failures? projection e.instanceId e.sequence ≤ limit) := by
  rw [settled, between, List.filter_filter]
  refine List.filter_congr fun e member => ?_
  have := linked.positive e member
  rw [Bool.eq_iff_iff]
  simp only [Bool.and_eq_true, decide_eq_true_eq]
  grind

/-- Where nothing is hidden, each statement of a plan lies above the stored sequence of its key. -/
theorem EventLog.Linked.above_stands (linked : log.Linked) (keeps : h.registry.KeepsIdentity)
    (logged : h.registry.Logged log batch)
    (plan : h.planIn log (d.locked h.name (fun _ => false) batch) 0 batch = .ok steps)
    {st : Statement} (member : st ∈ Step.statements steps) :
    ∃ e ∈ log.events, h.registry.reduce e = .ok st ∧ d.stands h.name st.key < st.sequence ∧
      (d.locked h.name (fun _ => false) batch).get st.key = d.stands h.name st.key := by
  obtain ⟨e, inLog, reduced, above, st', inBatch, same⟩ :=
    linked.mem_statements keeps logged plan member
  have known := d.get_locked_shown h.name inBatch
  rw [same] at known
  rw [known] at above
  exact ⟨e, inLog, reduced, above, known⟩

/-- What is committed of a key are the events between its old sequence and its new one. -/
theorem Carried.past_between (carried : Carried h allowed d {} steps d' p tried)
    (linked : log.Linked) (keeps : h.registry.KeepsIdentity) (logged : h.registry.Logged log batch)
    (plan : h.planIn log (d.locked h.name (fun _ => false) batch) 0 batch = .ok steps)
    (key : SequenceKey) :
    d.stands h.name key ≤ (d'.raiseAll h.name p.advanced).stands h.name key ∧
      h.registry.reduceAll (log.between key (d.stands h.name key)
        ((d'.raiseAll h.name p.advanced).stands h.name key)) =
          .ok (tried.past.filter fun st => decide (st.key = key)) := by
  rw [carried.stands]
  by_cases touched : ∃ st ∈ tried.past, st.key = key
  · rw [if_pos touched]
    obtain ⟨st, inPast, rfl, largest⟩ := Statement.exists_reach touched
    obtain ⟨_, _, _, above, known⟩ :=
      linked.above_stands keeps logged plan (carried.past_prefix.subset inPast)
    have whole := carried.past_of_key linked keeps logged plan st.key
    rw [known, Nat.max_eq_right (by omega)] at whole
    exact ⟨by omega, whole⟩
  · rw [if_neg touched, EventLog.between_of_le _ _ (Nat.le_refl _)]
    have none : tried.past.filter (fun st => decide (st.key = key)) = [] := by
      rw [List.filter_eq_nil_iff]
      intro st inPast ours
      exact touched ⟨st, inPast, of_decide_eq_true ours⟩
    rw [none]
    exact ⟨Nat.le_refl _, rfl⟩

/-- Sequences that are stored were reached in the log, and what has failed too often was passed
over. -/
structure StoreData.Fits (d : StoreData) (log : EventLog) (projection : String) (limit : Nat) :
    Prop where
  reached : ∀ key, d.stands projection key = 0 ∨
    ∃ e ∈ log.events, d.stands projection key ≤ e.sequence
  exhausted : ∀ id n, limit < d.failures? projection id n →
    ∃ e ∈ log.events, e.sequence = n ∧ n ≤ d.stands projection e.key

theorem StoreData.fits_empty (log : EventLog) (projection : String) (limit : Nat) :
    StoreData.Fits {} log projection limit :=
  ⟨fun _ => .inl rfl, fun _ _ often => absurd often (Nat.not_lt_zero _)⟩

theorem StoreData.Fits.grown {log' : EventLog} {projection : String} {limit : Nat}
    (fits : d.Fits log projection limit) (grown : log.events <+: log'.events) :
    d.Fits log' projection limit where
  reached key := by
    refine (fits.reached key).imp_right ?_
    rintro ⟨e, inLog, bound⟩
    exact ⟨e, grown.subset inLog, bound⟩
  exhausted id n often := by
    obtain ⟨e, inLog, rest⟩ := fits.exhausted id n often
    exact ⟨e, grown.subset inLog, rest⟩

/-- No statement of a plan has failed too often before. -/
theorem StoreData.Fits.statement (fits : d.Fits log h.name h.config.maxFailureCount)
    (linked : log.Linked) (keeps : h.registry.KeepsIdentity) (logged : h.registry.Logged log batch)
    (plan : h.planIn log (d.locked h.name (fun _ => false) batch) 0 batch = .ok steps)
    {st : Statement} (member : st ∈ Step.statements steps) :
    d.failures? h.name st.instanceId st.sequence ≤ h.config.maxFailureCount := by
  obtain ⟨e, inLog, reduced, above, _⟩ := linked.above_stands keeps logged plan member
  rw [keeps.key reduced, keeps.sequence reduced] at above
  by_contra often
  obtain ⟨f, alsoInLog, same, below⟩ := fits.exhausted _ _ (Nat.lt_of_not_le often)
  rw [keeps.sequence reduced] at same below
  rw [linked.eq_of_sequence alsoInLog inLog same] at below
  omega

/-- A transaction that is committed leaves sequences and failures that fit the log again. -/
theorem Carried.fits (carried : Carried h allowed d {} steps d' p tried) (linked : log.Linked)
    (keeps : h.registry.KeepsIdentity) (logged : h.registry.Logged log batch)
    (plan : h.planIn log (d.locked h.name (fun _ => false) batch) 0 batch = .ok steps)
    (fits : d.Fits log h.name h.config.maxFailureCount) :
    (d'.raiseAll h.name p.advanced).Fits log h.name h.config.maxFailureCount where
  reached key := by
    rw [carried.stands]
    split
    next touched =>
      obtain ⟨st, inPast, _, largest⟩ := Statement.exists_reach touched
      obtain ⟨e, inLog, reduced, _⟩ :=
        linked.above_stands keeps logged plan (carried.past_prefix.subset inPast)
      exact .inr ⟨e, inLog, Nat.le_of_eq (largest.symm.trans (keeps.sequence reduced))⟩
    next => exact fits.reached key
  exhausted id n often := by
    rw [StoreData.failures?_raiseAll] at often
    by_cases untried : ∀ entry ∈ tried, ¬(entry.1.instanceId = id ∧ entry.1.sequence = n)
    · rw [carried.failures untried] at often
      obtain ⟨e, inLog, same, below⟩ := fits.exhausted id n often
      exact ⟨e, inLog, same, Nat.le_trans below
        (carried.past_between linked keeps logged plan e.key).1⟩
    · simp only [not_forall, not_not] at untried
      obtain ⟨⟨st, verdict⟩, member, rfl, rfl⟩ := untried
      have among := carried.tried_prefix.subset (List.mem_map_of_mem member)
      have counted := carried.count (linked.statements_distinct keeps logged plan) _ member
      have before := fits.statement linked keeps logged plan among
      cases verdict with
      | applied =>
        dsimp only [Verdict.Counted] at counted often before
        omega
      | stopped =>
        dsimp only [Verdict.Counted] at counted often
        omega
      | passedOver =>
        have inPast : st ∈ tried.past :=
          List.mem_map.mpr ⟨_, List.mem_filter.mpr ⟨member, rfl⟩, rfl⟩
        obtain ⟨e, inLog, reduced, _⟩ := linked.above_stands keeps logged plan among
        refine ⟨e, inLog, (keeps.sequence reduced).symm, ?_⟩
        rw [carried.stands, ← keeps.key reduced, if_pos ⟨st, inPast, rfl⟩]
        exact Statement.le_reach inPast

/-- A transaction that is committed settles, key by key, the events of the statements that it
applied. -/
theorem Carried.settled (carried : Carried h allowed d {} steps d' p tried) (linked : log.Linked)
    (keeps : h.registry.KeepsIdentity) (logged : h.registry.Logged log batch)
    (plan : h.planIn log (d.locked h.name (fun _ => false) batch) 0 batch = .ok steps)
    (fits : d.Fits log h.name h.config.maxFailureCount) {key : SequenceKey}
    {earlier : List Statement}
    (before : h.registry.reduceAll (log.settled d h.name h.config.maxFailureCount key) =
      .ok earlier) :
    h.registry.reduceAll
        (log.settled (d'.raiseAll h.name p.advanced) h.name h.config.maxFailureCount key) =
      .ok (earlier ++ tried.applied.filter fun st => decide (st.key = key)) := by
  have applied := carried.applied_eq (linked.statements_distinct keeps logged plan)
    fun st => fits.statement linked keeps logged plan
  obtain ⟨order, new⟩ := carried.past_between linked keeps logged plan key
  -- the events below the old sequence were not tried
  have old : (log.between key 0 (d.stands h.name key)).filter (fun e =>
      decide (d'.failures? h.name e.instanceId e.sequence ≤ h.config.maxFailureCount)) =
        log.settled d h.name h.config.maxFailureCount key := by
    rw [linked.settled_eq]
    refine List.filter_congr fun e inside => ?_
    obtain ⟨inLog, ours, _, below⟩ := EventLog.mem_between.mp inside
    rw [carried.failures]
    rintro entry member ⟨_, same⟩
    have among := carried.tried_prefix.subset (List.mem_map_of_mem member)
    obtain ⟨f, alsoInLog, reduced, above, _⟩ := linked.above_stands keeps logged plan among
    have equal := linked.eq_of_sequence alsoInLog inLog ((keeps.sequence reduced).symm.trans same)
    rw [keeps.key reduced, equal, ours] at above
    omega
  have fresh := Registry.reduceAll_filter new
    (fun e => decide (d'.failures? h.name e.instanceId e.sequence ≤ h.config.maxFailureCount))
    (fun st => decide (d'.failures? h.name st.instanceId st.sequence ≤ h.config.maxFailureCount))
    fun e st step => by rw [keeps.instanceId step, keeps.sequence step]
  rw [List.filter_filter] at fresh
  rw [linked.settled_eq]
  simp only [StoreData.failures?_raiseAll]
  rw [← linked.between_append key (Nat.zero_le _) order, List.filter_append, old,
    Registry.reduceAll_append, before, fresh, applied, List.filter_filter]
  simp only [Bool.and_comm]
  rfl

end Settled

end ReadModel
