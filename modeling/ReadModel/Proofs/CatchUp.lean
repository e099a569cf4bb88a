import ReadModel.Handler.Trigger
import ReadModel.Proofs.Solo

/-!
Catching up.

A trigger fetches the pending events page by page. Each page is a first part of them, and what is
pending after it was applied is the rest, so a trigger comes to an end.
-/

namespace ReadModel

@[simp]
theorem mem_sortedKeys {κ : Type} [DecidableEq κ] [KeyOrder κ] {keys : List κ} {key : κ} :
    key ∈ sortedKeys keys ↔ key ∈ keys := by
  have fold : ∀ d : Dict κ Unit,
      ((keys.map fun key => (key, ())).foldl (fun d e => d.insert e.1 e.2) d).find? key =
        if key ∈ keys then some () else d.find? key := by
    induction keys with
    | nil => simp
    | cons k rest ih =>
      intro d
      rw [List.map_cons, List.foldl_cons, ih, Dict.find?_insert]
      by_cases later : key ∈ rest
      · simp [later]
      · by_cases here : k = key
        · simp [here]
        · simp [later, here, Ne.symm here]
  have entry := Dict.mem_entries_iff (Dict.ofList (keys.map fun key => (key, ()))) key ()
  rw [Dict.ofList, fold Dict.empty] at entry
  simp only [sortedKeys, Dict.keys, List.mem_map, Prod.exists, Dict.ofList]
  constructor
  · rintro ⟨k, u, member, rfl⟩
    by_contra missing
    rw [if_neg missing] at entry
    cases entry.mp member
  · intro member
    rw [if_pos member] at entry
    exact ⟨key, (), entry.mpr rfl, rfl⟩

theorem Registry.mem_aggregateTypes {r : Registry} {t : AggregateType} :
    t ∈ r.aggregateTypes ↔ r.handles t = true := by
  simp only [aggregateTypes, mem_sortedKeys, handles, List.mem_map, List.any_eq_true,
    decide_eq_true_eq]

theorem EventLog.mem_instanceIds {log : EventLog} {q : InstanceQuery} {id : InstanceId} :
    id ∈ log.instanceIds q ↔ ∃ e ∈ log.events, q.matches e = true ∧ e.instanceId = id := by
  simp only [instanceIds, InstanceQuery.select, mem_sortedKeys, List.mem_map, List.mem_filter,
    and_assoc]

/-- Whether a handler follows a key where it brings some instances up to date. -/
def Handler.Follows (h : Handler) (instances : List InstanceId) (key : SequenceKey) : Prop :=
  key.instanceId ∈ instances ∧ h.registry.handles key.aggregateType = true

/-- The events of instances that a handler has still to apply. -/
def EventLog.pending (log : EventLog) (h : Handler) (instances : List InstanceId) (d : StoreData) :
    List Event :=
  log.events.filter fun e =>
    decide (e.instanceId ∈ instances) && (h.registry.handles e.aggregateType &&
      decide (d.stands h.name e.key < e.sequence))

theorem EventLog.mem_pending {log : EventLog} {h : Handler} {instances : List InstanceId}
    {d : StoreData} {e : Event} :
    e ∈ log.pending h instances d ↔
      e ∈ log.events ∧ h.Follows instances e.key ∧ d.stands h.name e.key < e.sequence := by
  simp only [pending, List.mem_filter, Bool.and_eq_true, decide_eq_true_eq, Handler.Follows,
    and_assoc]
  rfl

namespace Handler

/-- The clause for the events of a key that are not applied yet. -/
def pageClause (current : SequenceMap) (key : SequenceKey) : QueryClause where
  instanceId := some key.instanceId
  aggregateTypes := [key.aggregateType]
  sequenceGreater := some (current.get key)

/-- The query that a handler makes for the next page of some instances. -/
def pageQuery (h : Handler) (current : SequenceMap) (instances : List InstanceId) :
    SearchQuery where
  clauses := instances.flatMap fun id =>
    h.registry.aggregateTypes.map fun aggregateType => pageClause current ⟨aggregateType, id⟩
  limit := some h.config.bulkLimit

theorem matches_pageClause {current : SequenceMap} {key : SequenceKey} {e : Event} :
    (pageClause current key).matches e = true ↔ e.key = key ∧ current.get key < e.sequence := by
  obtain ⟨aggregateType, instanceId⟩ := key
  simp only [pageClause, QueryClause.matches, allows, Event.key, Option.all_some, Option.all_none,
    List.isEmpty_nil, List.isEmpty_cons, Bool.false_or, Bool.true_or, beq_iff_eq,
    decide_eq_true_eq, List.not_mem_nil, decide_false, Bool.not_false, List.mem_singleton,
    Bool.and_eq_true, SequenceKey.mk.injEq, and_true]
  constructor
  · rintro ⟨⟨rfl, rfl⟩, above⟩
    exact ⟨⟨rfl, rfl⟩, above⟩
  · rintro ⟨⟨rfl, rfl⟩, above⟩
    exact ⟨⟨rfl, rfl⟩, above⟩

/-- An event is asked for if it is above the stored sequence of a key that the handler follows. -/
theorem matches_pageQuery {h : Handler} {d : StoreData} {instances : List InstanceId} {e : Event} :
    (h.pageQuery (SequenceMap.ofRows (d.currentSequences h.name fun key =>
      decide (key.instanceId ∈ instances))) instances).matches e = true ↔
      h.Follows instances e.key ∧ d.stands h.name e.key < e.sequence := by
  have current := fun (key : SequenceKey) (listed : key.instanceId ∈ instances) =>
    d.get_currentSequences h.name (fun key => decide (key.instanceId ∈ instances))
      (decide_eq_true listed)
  simp only [pageQuery, SearchQuery.matches, List.any_eq_true, List.mem_flatMap, List.mem_map]
  constructor
  · rintro ⟨_, ⟨id, listed, t, handled, rfl⟩, matched⟩
    obtain ⟨ours, above⟩ := matches_pageClause.mp matched
    rw [current _ listed, ← ours] at above
    obtain ⟨rfl, rfl⟩ := SequenceKey.mk.inj ours
    exact ⟨⟨listed, Registry.mem_aggregateTypes.mp handled⟩, above⟩
  · rintro ⟨⟨listed, handled⟩, above⟩
    refine ⟨_, ⟨_, listed, _, Registry.mem_aggregateTypes.mpr handled, rfl⟩, ?_⟩
    exact matches_pageClause.mpr ⟨rfl, (current e.key listed).symm ▸ above⟩

/-- A page has the first of the pending events. -/
theorem filter_pageQuery (h : Handler) (log : EventLog) (d : StoreData)
    (instances : List InstanceId) :
    log.filter (h.pageQuery (SequenceMap.ofRows (d.currentSequences h.name fun key =>
      decide (key.instanceId ∈ instances))) instances) =
      (log.pending h instances d).take h.config.bulkLimit := by
  rw [EventLog.filter, SearchQuery.select]
  show List.take _ _ = _
  congr 1
  refine List.filter_congr fun e _ => ?_
  rw [Bool.eq_iff_iff, matches_pageQuery]
  simp only [Bool.and_eq_true, decide_eq_true_eq, Follows, and_assoc]
  rfl

end Handler

section Page

variable {h : Handler} {log : EventLog} {instances : List InstanceId} {d d' : StoreData}
  {batch : List Statement}

/-- After a page was applied, the rest of the pending events is pending. -/
theorem EventLog.Linked.pending_drop (linked : log.Linked) (keeps : h.registry.KeepsIdentity)
    {n : Nat} (page : h.registry.reduceAll ((log.pending h instances d).take n) = .ok batch)
    (stands : ∀ key, d'.stands h.name key =
      max (d.stands h.name key) (Statement.reach key batch)) :
    log.pending h instances d' = (log.pending h instances d).drop n := by
  have split : log.pending h instances d' = (log.pending h instances d).filter fun e =>
      decide (d'.stands h.name e.key < e.sequence) := by
    rw [pending, pending, List.filter_filter]
    refine List.filter_congr fun e _ => ?_
    rw [Bool.eq_iff_iff]
    simp only [Bool.and_eq_true, decide_eq_true_eq, stands]
    grind
  have order : (log.pending h instances d).Pairwise (·.sequence < ·.sequence) :=
    linked.ascending.filter _
  have above : ∀ e ∈ log.pending h instances d, d.stands h.name e.key < e.sequence :=
    fun e member => (mem_pending.mp member).2.2
  rw [split]
  generalize log.pending h instances d = events at page order above
  rw [← List.take_append_drop n events, List.pairwise_append] at order
  obtain ⟨_, _, apart⟩ := order
  have done :
      (events.take n).filter (fun e => decide (d'.stands h.name e.key < e.sequence)) = [] := by
    rw [List.filter_eq_nil_iff]
    intro e member
    obtain ⟨st, inBatch, reduced⟩ := Registry.exists_statement page member
    have bound := Statement.le_reach inBatch
    rw [keeps.key reduced, keeps.sequence reduced] at bound
    simp only [decide_eq_true_eq, stands]
    omega
  have left : (events.drop n).filter (fun e => decide (d'.stands h.name e.key < e.sequence)) =
      events.drop n := by
    rw [List.filter_eq_self]
    intro e member
    have pending := above e (List.mem_of_mem_drop member)
    have below : Statement.reach e.key batch ≤ e.sequence - 1 := by
      refine Statement.reach_le.mpr fun st inBatch _ => ?_
      obtain ⟨f, inPage, reduced⟩ := Registry.exists_event page inBatch
      have := apart f inPage e member
      rw [keeps.sequence reduced]
      omega
    simp only [decide_eq_true_eq, stands]
    omega
  conv_lhs => rw [← List.take_append_drop n events]
  rw [List.filter_append, done, left, List.nil_append]

end Page

/-- The reducers accept every event of the log, and the storage can run what they ask for. -/
structure Handler.Willing (h : Handler) (o : Outside) : Prop where
  accepts : ∀ e ∈ o.log.events, ∃ st, h.registry.reduce e = .ok st
  succeeds : ∀ e ∈ o.log.events, ∀ st, h.registry.reduce e = .ok st →
    ∀ tables, (st.operation.run o.faults tables).error = none

mutual

/-- Whether an operation fails does not depend on the tables. -/
theorem Operation.run_error (faults : Faults) : ∀ (op : Operation) (t t' : Tables),
    (op.run faults t).error = (op.run faults t').error
  | .multi parts, t, t' => by
    unfold Operation.run
    cases Operation.validate (.multi parts) with
    | error e => rfl
    | ok valid => exact Operation.runAll_error faults parts t t'
  | .create .., _, _ | .update .., _, _ | .delete .., _, _ | .noOp, _, _ => by
    unfold Operation.run
    split
    · rfl
    · split <;> rfl

theorem Operation.runAll_error (faults : Faults) : ∀ (ops : List Operation) (t t' : Tables),
    (Operation.runAll faults t ops).error = (Operation.runAll faults t' ops).error
  | [], _, _ => rfl
  | op :: rest, t, t' => by
    have first := Operation.run_error faults op t t'
    unfold Operation.runAll
    cases failed : (op.run faults t).error with
    | some e =>
      rw [failed] at first
      simp only [failed, ← first]
    | none =>
      rw [failed] at first
      simp only [failed, ← first]
      exact Operation.runAll_error faults rest _ _

end

theorem Handler.willing_iff {h : Handler} {o : Outside} :
    h.Willing o ↔ o.log.events.all (fun e =>
      match h.registry.reduce e with
      | .ok st => (st.operation.run o.faults ∅).error.isNone
      | .error _ => false) = true := by
  rw [List.all_eq_true]
  constructor
  · intro willing e member
    obtain ⟨st, reduced⟩ := willing.accepts e member
    rw [reduced]
    exact Option.isNone_iff_eq_none.mpr (willing.succeeds e member st reduced ∅)
  · intro test
    refine ⟨fun e member => ?_, fun e member st reduced tables => ?_⟩
    · have passes := test e member
      cases reduced : h.registry.reduce e with
      | ok st => exact ⟨st, rfl⟩
      | error cause =>
        rw [reduced] at passes
        cases passes
    · have passes := test e member
      rw [reduced] at passes
      rw [Operation.run_error _ _ _ ∅]
      exact Option.isNone_iff_eq_none.mp passes

instance (h : Handler) (o : Outside) : Decidable (h.Willing o) :=
  decidable_of_iff _ Handler.willing_iff.symm

theorem Registry.exists_reduceAll {r : Registry} {events : List Event}
    (accepts : ∀ e ∈ events, ∃ st, r.reduce e = .ok st) :
    ∃ statements, r.reduceAll events = .ok statements := by
  induction events with
  | nil => exact ⟨[], rfl⟩
  | cons e rest ih =>
    obtain ⟨st, first⟩ := accepts e (List.mem_cons_self ..)
    obtain ⟨others, later⟩ := ih fun f member => accepts f (List.mem_cons_of_mem _ member)
    refine ⟨st :: others, ?_⟩
    rw [reduceAll, first]
    simp only [later]

section Whole

variable {h : Handler} {faults : Faults} {log : EventLog} {batch : List Statement}
  {d d' : StoreData} {p p' : Progress} {steps : List Step} {tried : Trial}

theorem Carried.all_applied (carried : Carried h (· = faults) d p steps d' p' tried)
    (succeeds : ∀ st ∈ Step.statements steps, ∀ tables,
      (st.operation.run faults tables).error = none) :
    ∀ entry ∈ tried, entry.2 = .applied := by
  induction carried with
  | done => simp
  | skip _ ih => exact ih succeeds
  | @past d p st origin rest f verdict d₁ d' p' tried met attempt _ _ ih =>
    obtain rfl := met
    intro entry member
    rcases List.mem_cons.mp member with rfl | later
    · rcases Handler.attempted_cases attempt with ⟨applied, _⟩ | ⟨e, failure, _⟩
      · exact applied
      · rw [succeeds st (List.mem_cons_self ..)] at failure
        cases failure
    · exact ih (fun st' inRest => succeeds st' (List.mem_cons_of_mem _ inRest)) entry later
  | @stop d p st origin rest f d₁ met attempt =>
    obtain rfl := met
    rcases Handler.attempted_cases attempt with ⟨applied, _⟩ | ⟨e, failure, _⟩
    · cases applied
    · rw [succeeds st (List.mem_cons_self ..)] at failure
      cases failure

/-- A plan that is carried out to its end moves each key to its last statement of the batch. -/
theorem Carried.stands_of_whole (carried : Carried h (· = faults) d {} steps d' p tried)
    (linked : log.Linked) (keeps : h.registry.KeepsIdentity) (logged : h.registry.Logged log batch)
    (plan : h.planIn log (d.locked h.name (fun _ => false) batch) 0 batch = .ok steps)
    (whole : tried.past = Step.statements steps) (key : SequenceKey) :
    (d'.raiseAll h.name p.advanced).stands h.name key =
      max (d.stands h.name key) (Statement.reach key batch) := by
  have awaits := linked.awaited_statements keeps logged plan
  rw [carried.stands, whole]
  have inside : ∀ st ∈ Step.statements steps, st.key = key → d.stands h.name key < st.sequence ∧
      st.sequence ≤ Statement.reach key batch := by
    rintro st member rfl
    obtain ⟨_, _, _, above, _⟩ := linked.above_stands keeps logged plan member
    obtain ⟨e, awaited, reduced⟩ := Registry.exists_event awaits member
    obtain ⟨_, _, below⟩ := linked.mem_awaited.mp awaited
    rw [keeps.key reduced, keeps.sequence reduced] at *
    exact ⟨above, below⟩
  -- the last statement of the key is in the plan exactly if it lies above the stored sequence
  by_cases further : d.stands h.name key < Statement.reach key batch
  · have some : ∃ st ∈ batch, st.key = key := by
      by_contra none
      rw [Statement.reach_eq_zero fun st member ours => none ⟨st, member, ours⟩] at further
      exact Nat.not_lt_zero _ further
    obtain ⟨best, inBatch, rfl, largest⟩ := Statement.exists_reach some
    obtain ⟨e, inLog, reduced⟩ := logged best inBatch
    have known := d.get_locked_shown h.name inBatch
    have awaited : e ∈ log.awaited (d.locked h.name (fun _ => false) batch) batch := by
      rw [linked.mem_awaited, ← keeps.key reduced, ← keeps.sequence reduced, known, largest]
      exact ⟨inLog, further, Nat.le_refl _⟩
    obtain ⟨again, member, reduced'⟩ := Registry.exists_statement awaits awaited
    rw [reduced] at reduced'
    obtain rfl := Except.ok.inj reduced'
    rw [if_pos ⟨_, member, rfl⟩, Nat.max_eq_right (Nat.le_of_lt further)]
    refine Nat.le_antisymm ?_ (largest ▸ Statement.le_reach member)
    exact Statement.reach_le.mpr fun st inPlan ours => (inside st inPlan ours).2
  · have untouched : ¬∃ st ∈ Step.statements steps, st.key = key := by
      rintro ⟨st, member, ours⟩
      have := inside st member ours
      omega
    rw [if_neg untouched, Nat.max_eq_left (Nat.le_of_not_lt further)]

end Whole

/-- What a batch has changed that was applied as a whole. -/
structure Handler.Moved (h : Handler) (batch : List Statement) (a b : Audit) : Prop where
  outside : b.world.outside = { a.world.outside with begins := a.world.store.begins + 1 }
  stands : ∀ key, b.world.store.data.stands h.name key =
    max (a.world.store.data.stands h.name key) (Statement.reach key batch)
  others : ∀ key, (∀ st ∈ batch, st.key ≠ key) →
    b.world.store.data.sequence? h.name key = a.world.store.data.sequence? h.name key

/-- In a calm world where no operation fails, a batch is applied as a whole. -/
theorem Handler.update_moves (h : Handler) (ctx : Context) {batch : List Statement}
    (some : batch ≠ []) (surroundings : Surroundings) (task : Nat) {a : Audit}
    (linked : a.world.log.Linked) (keeps : h.registry.KeepsIdentity)
    (calm : Calm ctx.token a.world.outside) (willing : h.Willing a.world.outside)
    (logged : h.registry.Logged a.world.log batch) :
    (∃ last, ((h.update ctx batch).run.run (Audit.answer surroundings task) a).1 = .ok last) ∧
      h.Moved batch a ((h.update ctx batch).run.run (Audit.answer surroundings task) a).2 := by
  obtain ⟨d, tried, concludes, left, _, ended⟩ :=
    h.update_concludes ctx batch task surroundings a
  have ended := ended some calm.uncancelled
  rcases concludes.of_calm calm linked keeps logged with
    ⟨e, plan, _⟩ | ⟨steps, d', p, plan, carried, rfl, result⟩
  · have statements := linked.planIn_statements keeps logged
      (a.world.store.data.locked h.name (fun _ => false) batch) 0
    obtain ⟨all, reduced⟩ := Registry.exists_reduceAll (r := h.registry)
      fun f (awaited : f ∈ a.world.log.awaited
        (a.world.store.data.locked h.name (fun _ => false) batch) batch) =>
          willing.accepts f (linked.mem_awaited.mp awaited).1
    rw [plan, reduced] at statements
    cases statements
  · have applied := carried.all_applied fun st member tables => by
      obtain ⟨e, inLog, reduced, _⟩ := linked.above_stands keeps logged plan member
      exact willing.succeeds e inLog st reduced tables
    have going : p.stopped = false := by
      rw [Bool.eq_false_iff]
      intro stopped
      rcases carried.stopped_iff.mp stopped with early | ⟨entry, member, verdict⟩
      · cases early
      · rw [applied entry member] at verdict
        cases verdict
    have whole := carried.past_of_going going
    refine ⟨⟨p.lastApplied, ?_⟩, ended.around, fun key => ?_, fun key untouched => ?_⟩
    · rw [result, Progress.result, going]
      rfl
    · rw [left]
      exact carried.stands_of_whole linked keeps logged plan whole key
    · have none : ¬∃ st ∈ tried.past, st.key = key := by
        rintro ⟨st, inPast, rfl⟩
        obtain ⟨_, _, _, _, st', inBatch, same⟩ :=
          linked.mem_statements keeps logged plan (carried.past_prefix.subset inPast)
        exact untouched st' inBatch same
      rw [left, StoreData.sequence?_raiseAll, if_pos rfl, carried.advanced,
        SequenceMap.find?_advanceAll, if_neg none, carried.sequence?]
      rfl

section Trigger

variable {h : Handler} {instances : List InstanceId} {surroundings : Surroundings} {task : Nat}
  {ctx : Context} {a b : Audit}

open ReadModel.Frame

theorem Handler.upholds_process {events : List Event} {batch : List Statement}
    (reduced : h.registry.reduceAll events = .ok batch) (some : batch ≠ [])
    (linked : a.world.log.Linked) (keeps : h.registry.KeepsIdentity)
    (calm : Calm ctx.token a.world.outside) (willing : h.Willing a.world.outside)
    (logged : h.registry.Logged a.world.log batch)
    {post : Except HandlerError Unit → Audit → Prop}
    (rest : ∀ b, h.Moved batch a b → post (.ok ()) b) :
    (Setting.alone (Audit.answer surroundings task)).Upholds post (h.process ctx events).run a := by
  obtain ⟨⟨last, applied⟩, moved⟩ :=
    h.update_moves ctx some surroundings task linked keeps calm willing logged
  unfold Handler.process
  rw [reduced]
  dsimp only
  rw [Handler.applyWithRetries]
  refine upholds_seq (Setting.Upholds.bind (d := (h.update ctx batch).run) (.of_run ?_))
  rw [applied]
  exact rest _ moved

/-- The last sequence that a log has for a key. -/
def EventLog.last (log : EventLog) (key : SequenceKey) : Nat :=
  log.lastSequence fun e => decide (e.key = key)

/-- All pending events were applied, in transactions that took one page each. -/
structure Handler.CaughtUp (h : Handler) (instances : List InstanceId) (o : Outside)
    (d : StoreData) (o' : Outside) (d' : StoreData) : Prop where
  outside : o' = { o with begins := o.begins +
    ((o.log.pending h instances d).length + h.config.bulkLimit - 1) / h.config.bulkLimit }
  reached : ∀ key, h.Follows instances key →
    d'.stands h.name key = max (d.stands h.name key) (o.log.last key)
  others : ∀ key, ¬h.Follows instances key → d'.sequence? h.name key = d.sequence? h.name key

theorem EventLog.exists_last (log : EventLog) (key : SequenceKey) :
    log.last key = 0 ∨ ∃ e ∈ log.events, e.key = key ∧ e.sequence = log.last key := by
  unfold last lastSequence
  cases found : log.events.reverse.find? fun e => decide (e.key = key) with
  | none => exact .inl rfl
  | some e =>
    exact .inr ⟨e, List.mem_reverse.mp (List.mem_of_find?_eq_some found),
      of_decide_eq_true (List.find?_some found :), rfl⟩

theorem Handler.caughtUp_of_nil {o : Outside} {d : StoreData} (positive : 0 < h.config.bulkLimit)
    (none : o.log.pending h instances d = []) : h.CaughtUp instances o d o d where
  outside := by
    rw [none, List.length_nil, Nat.zero_add, Nat.div_eq_of_lt (by omega), Nat.add_zero]
  reached key follows := by
    symm
    refine Nat.max_eq_left ?_
    rcases o.log.exists_last key with zero | ⟨e, inLog, rfl, same⟩
    · omega
    · rw [← same]
      by_contra above
      have member := EventLog.mem_pending.mpr ⟨inLog, follows, Nat.lt_of_not_le above⟩
      rw [none] at member
      cases member
  others _ _ := rfl

theorem pages_drop {n limit : Nat} (positive : 0 < limit) (some : 0 < n) :
    (n - limit + limit - 1) / limit + 1 = (n + limit - 1) / limit := by
  rw [show n + limit - 1 = n - 1 + limit by omega, Nat.add_div_right _ positive]
  congr 1
  rcases Nat.lt_or_ge n limit with short | full
  · rw [Nat.div_eq_of_lt (by omega), Nat.div_eq_of_lt (by omega)]
  · rw [Nat.sub_add_cancel full]

/-- A page and all pages after it are caught up with. -/
theorem Handler.Moved.caughtUp {batch : List Statement} (moved : h.Moved batch a b)
    (positive : 0 < h.config.bulkLimit) (linked : a.world.log.Linked)
    (keeps : h.registry.KeepsIdentity)
    (page : h.registry.reduceAll ((a.world.log.pending h instances a.world.store.data).take
      h.config.bulkLimit) = .ok batch)
    (some : a.world.log.pending h instances a.world.store.data ≠ []) {o' : Outside}
    {d' : StoreData}
    (rest : h.CaughtUp instances b.world.outside b.world.store.data o' d') :
    h.CaughtUp instances a.world.outside a.world.store.data o' d' := by
  have log : b.world.log = a.world.log := congrArg Outside.log moved.outside
  have inside : ∀ st ∈ batch, ∃ e ∈ a.world.log.events,
      h.registry.reduce e = .ok st ∧ h.Follows instances e.key := by
    intro st member
    obtain ⟨e, inPage, reduced⟩ := Registry.exists_event page member
    obtain ⟨inLog, follows, _⟩ := EventLog.mem_pending.mp (List.mem_of_mem_take inPage)
    exact ⟨e, inLog, reduced, follows⟩
  refine ⟨?_, fun key follows => ?_, fun key stranger => ?_⟩
  · have left := linked.pending_drop keeps page moved.stands
    have count := List.length_pos_iff.mpr some
    have pages := pages_drop positive count
    rw [rest.outside, moved.outside]
    dsimp only
    rw [show a.world.outside.log = a.world.log from rfl, left, List.length_drop, ← pages]
    congr 1
    show a.world.store.begins + 1 + _ = a.world.store.begins + _
    omega
  · have bound : Statement.reach key batch ≤ a.world.log.last key := by
      refine Statement.reach_le.mpr fun st member ours => ?_
      obtain ⟨e, inLog, reduced, _⟩ := inside st member
      rw [keeps.sequence reduced]
      refine EventLog.le_lastSequence linked.ascending _ inLog (decide_eq_true ?_)
      rw [← keeps.key reduced, ours]
    rw [rest.reached key follows, moved.stands, Nat.max_assoc]
    show _ = max _ (a.world.log.last key)
    rw [show b.world.outside.log = a.world.log from log, Nat.max_eq_right bound]
  · rw [rest.others key stranger]
    refine moved.others key fun st member ours => stranger ?_
    obtain ⟨e, _, reduced, follows⟩ := inside st member
    rw [← ours, keeps.key reduced]
    exact follows

theorem upholds_checkCancelled (uncancelled : a.world.tokens.isCancelled ctx.token = false)
    {post : Except HandlerError Unit → Audit → Prop} (rest : post (.ok ()) a) :
    (Setting.alone (Audit.answer surroundings task)).Upholds post (checkCancelled ctx).run a := by
  rintro t rfl _
  refine ⟨trivial, ?_⟩
  simp only [Setting.alone, Audit.answer, World.answer, uncancelled]
  exact rest

theorem upholds_filter {q : SearchQuery} {post : Except HandlerError (List Event) → Audit → Prop}
    (rest : post (.ok (a.world.log.filter q)) a) :
    (Setting.alone (Audit.answer surroundings task)).Upholds post
      (askSource (.filter q)).run a := by
  rintro t rfl _
  exact ⟨trivial, rest⟩

theorem Handler.upholds_searchQuery (present : ctx.asOf = none)
    {post : Except HandlerError SearchQuery → Audit → Prop}
    (rest : ∀ b : Audit, b.world.outside = a.world.outside →
      b.world.store.data = a.world.store.data → b.ledger = a.ledger →
      post (.ok (h.pageQuery (SequenceMap.ofRows (b.world.store.data.currentSequences h.name
        fun key => decide (key.instanceId ∈ instances))) instances)) b) :
    (Setting.alone (Audit.answer surroundings task)).Upholds post
      (h.searchQuery ctx instances).run a := by
  rintro t rfl _
  refine ⟨trivial, ?_⟩
  have ended := rest (Audit.answer surroundings task
    (.store (.currentSequences h.name instances)) a).2 rfl rfl rfl
  simp only [present]
  exact ended

variable (surroundings task) in
/-- Where there are enough pages for what is pending, all of it is caught up with. -/
theorem Handler.upholds_catchUp (positive : 0 < h.config.bulkLimit)
    (keeps : h.registry.KeepsIdentity) {pages : Nat} (linked : a.world.log.Linked)
    (calm : Calm ctx.token a.world.outside) (willing : h.Willing a.world.outside)
    (present : ctx.asOf = none)
    (enough : (a.world.log.pending h instances a.world.store.data).length / h.config.bulkLimit <
      pages) :
    (Setting.alone (Audit.answer surroundings task)).Upholds (fun result b =>
      result = .ok .caughtUp ∧ h.CaughtUp instances a.world.outside a.world.store.data
        b.world.outside b.world.store.data) (h.catchUp instances pages ctx).run a := by
  -- each full page takes `bulkLimit` events off what is pending, and one off the pages
  induction pages generalizing a ctx with
  | zero => exact absurd enough (Nat.not_lt_zero _)
  | succ pages ih =>
    rw [catchUp]
    refine upholds_seq (upholds_checkCancelled calm.uncancelled ?_)
    refine upholds_seq (h.upholds_searchQuery present fun s outside data _ => ?_)
    refine upholds_seq (upholds_filter ?_)
    rw [h.filter_pageQuery, ← outside, ← data]
    rw [← outside] at calm willing
    have log : s.world.log = a.world.log := congrArg Outside.log outside
    rw [← log] at linked
    rw [← log, ← data] at enough
    generalize found : s.world.log.pending h instances s.world.store.data = events at enough
    dsimp only
    split
    next empty =>
      have none : events = [] := by
        have taken := List.isEmpty_iff.mp empty
        rw [List.take_eq_nil_iff] at taken
        exact taken.resolve_left (by omega)
      exact ⟨rfl, caughtUp_of_nil positive (found.trans none)⟩
    next full =>
      have some : events ≠ [] := fun none => full (by rw [none, List.take_nil]; rfl)
      have among : ∀ e ∈ events.take h.config.bulkLimit, e ∈ s.world.log.events := by
        intro e member
        rw [← found] at member
        exact (EventLog.mem_pending.mp (List.mem_of_mem_take member)).1
      obtain ⟨batch, page⟩ := Registry.exists_reduceAll fun e member =>
        willing.accepts e (among e member)
      have logged := Registry.logged_of_reduceAll page among
      have filled := Registry.reduceAll_ne_nil page fun none => full (List.isEmpty_iff.mpr none)
      refine upholds_seq (upholds_process page filled linked keeps calm willing logged
        fun b moved => ?_)
      rw [← found] at page some
      have log' : b.world.log = s.world.log := congrArg Outside.log moved.outside
      have left : b.world.log.pending h instances b.world.store.data =
          events.drop h.config.bulkLimit := by
        rw [log', linked.pending_drop keeps page moved.stands, found]
      dsimp only
      split
      next short =>
        rw [List.length_take] at short
        have rest : h.CaughtUp instances b.world.outside b.world.store.data b.world.outside
            b.world.store.data :=
          caughtUp_of_nil positive (left.trans (List.drop_eq_nil_of_le (by omega)))
        exact ⟨rfl, moved.caughtUp positive linked keeps page some rest⟩
      next whole =>
        rw [List.length_take] at whole
        have calm' : Calm ctx.readingAll.token b.world.outside :=
          moved.outside ▸ ⟨calm.shown, calm.accepting, calm.uncancelled⟩
        have willing' : h.Willing b.world.outside :=
          moved.outside ▸ ⟨willing.accepts, willing.succeeds⟩
        have fewer := Nat.div_eq_sub_div positive (show h.config.bulkLimit ≤ events.length by omega)
        rw [fewer, ← List.length_drop, ← left] at enough
        refine (ih (log' ▸ linked) calm' willing' rfl (Nat.lt_of_succ_lt_succ enough)).mono ?_
        rintro result c ⟨ends, rest⟩
        exact ⟨ends, moved.caughtUp positive linked keeps page some rest⟩

end Trigger

/-- A trigger with enough pages ends, and then the handler stands with each key that it follows where
the log stands, or further. The other keys are left alone, and each transaction but the last has
taken a full page. -/
theorem Handler.trigger_catches_up (h : Handler) (ctx : Context) {instances : List InstanceId}
    (surroundings : Surroundings) (task : Nat) {w : World} {pages : Nat} (pushed : w.log.Pushed)
    (keeps : h.registry.KeepsIdentity) (calm : Calm ctx.token w.outside)
    (willing : h.Willing w.outside) (present : ctx.asOf = none) (some : instances ≠ [])
    (positive : 0 < h.config.bulkLimit)
    (enough : (w.log.pending h instances w.store.data).length / h.config.bulkLimit < pages) :
    let ended := (h.trigger pages ctx instances).run.run (World.answer surroundings task) w
    ended.1 = .ok .caughtUp ∧
      (∀ e ∈ w.log.events, h.Follows instances e.key →
        ended.2.store.data.sequence? h.name e.key =
          .some (max (w.store.data.stands h.name e.key) (w.log.last e.key))) ∧
      (∀ key, ¬h.Follows instances key →
        ended.2.store.data.sequence? h.name key = w.store.data.sequence? h.name key) ∧
      ended.2.store.begins = w.store.begins +
        ((w.log.pending h instances w.store.data).length + h.config.bulkLimit - 1) /
          h.config.bulkLimit := by
  have start : h.trigger pages ctx instances = h.catchUp instances pages ctx := by
    cases instances with
    | nil => exact absurd rfl some
    | cons id rest => rfl
  have linked := pushed.linked
  obtain ⟨ends, caught⟩ := (Handler.upholds_catchUp surroundings task (a := ⟨w, {}⟩) positive keeps
    linked calm willing present enough).run
  dsimp only
  rw [start, Audit.run_world surroundings task _ ⟨w, {}⟩]
  refine ⟨ends, fun e inLog follows => ?_, caught.others, congrArg Outside.begins caught.outside⟩
  have reached := caught.reached e.key follows
  have last : e.sequence ≤ w.log.last e.key :=
    EventLog.le_lastSequence linked.ascending _ inLog (decide_eq_true rfl)
  have positive := linked.positive e inLog
  have reached : _ = max (w.store.data.stands h.name e.key) (w.log.last e.key) :=
    caught.reached e.key follows
  have above : 0 < max (w.store.data.stands h.name e.key) (w.log.last e.key) := by omega
  rw [← reached] at above ⊢
  exact StoreData.sequence?_of_stands above

/-- Three organizations are added by two pages of two. -/
theorem Handler.trigger_catches_up_of_two_pages :
    let h : Handler := { orgsHandler with config := { bulkLimit := 2, maxFailureCount := 0 } }
    let ended :=
      (h.trigger 2 { token := ⟨0, []⟩ } [⟨"a"⟩]).run.run (World.answer .still 0) threeOrgs
    ended.1 = .ok .caughtUp ∧ ended.2.store.begins = 2 ∧
      ended.2.store.data.sequence? h.name ⟨⟨"org"⟩, ⟨"a"⟩⟩ = some 3 := by
  intro h
  have pending : (threeOrgs.log.pending h [⟨"a"⟩] threeOrgs.store.data).length = 3 := by
    decide +kernel
  have enough : (threeOrgs.log.pending h [⟨"a"⟩] threeOrgs.store.data).length / 2 < 2 := by
    rw [pending]
    decide
  obtain ⟨ends, reached, _, begins⟩ := h.trigger_catches_up { token := ⟨0, []⟩ } .still 0
    (w := threeOrgs) (.push _ _ .empty) Orgs.keepsIdentity ⟨rfl, rfl, rfl⟩ (by decide +kernel) rfl
    (List.cons_ne_nil ⟨"a"⟩ []) (by decide) enough
  rw [pending] at begins
  have last := reached (threeOrgs.log.events.getLast (by decide +kernel)) (List.getLast_mem _)
    ⟨by decide +kernel, by decide +kernel⟩
  exact ⟨ends, begins.trans (by decide +kernel), last.trans (by decide +kernel)⟩

end ReadModel
