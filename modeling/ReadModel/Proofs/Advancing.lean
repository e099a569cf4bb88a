import ReadModel.Proofs.Interrupted
import ReadModel.Proofs.Poison
import ReadModel.Proofs.Reaching

/-!
How far updates get.

An update gets on, key by key, through the events of the log (`Handler.Advanced`), whether they were in
its batch or were missing before it. It reaches the statements of its batch up to the last one that it
reports as applied, so that what follows a partial update may leave these out.
-/

namespace ReadModel

section Covering

variable {h : Handler} {allowed : Faults → Prop} {log : EventLog} {known : SequenceMap}
  {index : Nat} {batch : List Statement} {steps missing rest : List Step} {d d' : StoreData}
  {p p' : Progress} {tried : Trial} {floor : SequenceKey → Nat}

theorem Handler.gapIn_missing {st : Statement} {last : Nat}
    (filled : h.gapIn log st last = .ok steps) : Step.Missing steps := by
  unfold gapIn at filled
  split at filled
  next =>
    obtain rfl := Except.ok.inj filled
    rintro _ ⟨⟩
  next => exact h.fill_missing filled

theorem Handler.planIn_planned (plan : h.planIn log known index batch = .ok steps) :
    Planned known index batch steps := by
  induction batch generalizing known index steps with
  | nil =>
    obtain rfl := Except.ok.inj plan
    exact .nil
  | cons st rest ih =>
    rcases planIn_ok_cases plan with ⟨later, low, others, rfl⟩ | ⟨missing, later, _, gap, others, rfl⟩
    · exact .skip low (ih others)
    · exact .run (Handler.gapIn_missing gap) (ih others)

/-- How far steps that are missing in a batch can get the keys. -/
structure Progress.Onward (p : Progress) (floor : SequenceKey → Nat) (missing : List Step)
    (p' : Progress) : Prop where
  further : ∀ key, p.far floor key ≤ p'.far floor key
  within : ∀ key, p'.far floor key ≤
    max (p.far floor key) (Statement.reach key (Step.statements missing))

theorem Progress.Onward.still (same : p'.advanced = p.advanced) :
    p.Onward floor missing p' := by
  refine ⟨fun key => ?_, fun key => ?_⟩ <;> unfold far <;> rw [same]
  exact Nat.le_max_left ..

theorem Progress.Onward.past {st : Statement} {origin : Option Nat}
    (onward : (p.past st origin).Onward floor missing p') :
    p.Onward floor (.run st origin :: missing) p' := by
  refine ⟨fun key => (p.far_le_past st origin floor key).trans (onward.further key), fun key => ?_⟩
  have bound := onward.within key
  rw [far_past] at bound
  rw [Step.statements_run, Statement.reach]
  split at bound <;> simp_all only [if_true, if_false] <;> omega

namespace Carried

/-- Events that are missing count for no statement of the batch: one of them ends the batch, or the
plan goes on behind them. The keys get no further by them than to the last of them. -/
theorem beyond_missing (carried : Carried h allowed d p (missing ++ rest) d' p' tried)
    (none : Step.Missing missing) (floor : SequenceKey → Nat) :
    (p'.stopped = true ∧ p'.lastApplied = p.lastApplied ∧ p.Onward floor missing p' ∧
      ∃ st ∈ Step.statements missing, (st, .stopped) ∈ tried) ∨
    ∃ d₁ p₁ tried₁, Carried h allowed d₁ p₁ rest d' p' tried₁ ∧ tried₁ ⊆ tried ∧
      p₁.stopped = p.stopped ∧ p₁.lastApplied = p.lastApplied ∧ p.Onward floor missing p₁ := by
  induction missing generalizing d p tried with
  | nil => exact .inr ⟨d, p, tried, carried, List.Subset.refl _, rfl, rfl, .still rfl⟩
  | cons step later ih =>
    obtain ⟨st, rfl⟩ := none _ (List.mem_cons_self ..)
    cases carried with
    | stop =>
      exact .inl ⟨rfl, rfl, .still rfl, st, List.mem_cons_self .., List.mem_singleton_self _⟩
    | past _ _ _ goesOn =>
      rcases ih goesOn fun step member => none step (List.mem_cons_of_mem _ member) with
        ⟨stopped, same, more, st', member, ends⟩ | ⟨d₁, p₁, tried₁, carried, among, going, same, more⟩
      · exact .inl ⟨stopped, same, more.past, st', List.mem_cons_of_mem _ member,
          List.mem_cons_of_mem _ ends⟩
      · exact .inr ⟨d₁, p₁, tried₁, carried, List.subset_cons_of_subset _ among, going, same,
          more.past⟩

/-- A plan that is carried out covers its batch. -/
theorem covers (carried : Carried h allowed d p steps d' p' tried)
    (planned : Planned known index batch steps) (going : p.stopped = false)
    (before : ∀ last, p.lastApplied = some last → last < index)
    (reach : ∀ key, known.get key ≤ p.far floor key) :
    p'.Covers floor index batch ∧ ∀ key, p.far floor key ≤ p'.far floor key := by
  induction planned generalizing d p tried with
  | nil =>
    cases carried
    exact ⟨⟨fun found => by simp at found⟩, fun _ => Nat.le_refl _⟩
  | @skip known index st batch steps low _ ih =>
    cases carried with
    | skip carried =>
      have bound : ∀ last, some index = some last → last < index + 1 := by
        rintro _ ⟨⟩
        exact Nat.lt_succ_self _
      obtain ⟨covers, more⟩ := ih carried going bound reach
      exact ⟨.cons ((low.trans (reach _)).trans (more _)) covers, more⟩
  | @run known index st batch missing steps none _ ih =>
    rcases carried.beyond_missing none floor with
      ⟨stopped, same, ⟨more, _⟩, _⟩ | ⟨d₁, p₁, tried₁, carried, _, going₁, same, ⟨more, _⟩⟩
    · exact ⟨.of_stopped stopped (same ▸ before), more⟩
    cases carried with
    | stop => exact ⟨.of_stopped rfl (same ▸ before), more⟩
    | past _ _ _ goesOn =>
      have bound : ∀ last, (p₁.past st (some index)).lastApplied = some last → last < index + 1 := by
        rintro _ ⟨⟩
        exact Nat.lt_succ_self _
      obtain ⟨covers, further⟩ := ih goesOn (going₁.trans going) bound
        (Progress.advance_le_past (fun key => (reach key).trans (more key)) _ _)
      exact ⟨.cons ((p₁.sequence_le_past ..).trans (further _)) covers,
        fun key => ((more key).trans (p₁.far_le_past ..)).trans (further key)⟩

end Carried

end Covering

/-- What is read of a key under lock is not beyond where it stands. -/
theorem StoreData.get_locked_le (d : StoreData) (projection : String) (hidden : SequenceKey → Bool)
    (batch : List Statement) (key : SequenceKey) :
    (d.locked projection hidden batch).get key ≤ d.stands projection key := by
  unfold locked
  rw [SequenceMap.get_ofRows fun row present ours => ?_]
  · split
    · exact Nat.le_refl _
    · exact Nat.zero_le _
  · have found := (mem_currentSequences.mp (List.mem_filter.mp present).1).1
    rw [← stands_eq found, ours]

theorem SequenceMap.get_advanceAll (statements : List Statement) (key : SequenceKey) :
    (advanceAll ∅ statements).get key = Statement.reach key statements := by
  rw [get, find?_advanceAll]
  split
  next => simp
  next untouched =>
    rw [Statement.reach_eq_zero fun st member ours => untouched ⟨st, member, ours⟩]
    rfl

/-- Events of the log are told apart by what they reduce to. -/
theorem EventLog.Linked.eq_of_reduceAll {log : EventLog} (linked : log.Linked) {r : Registry}
    (keeps : r.KeepsIdentity) {left right : List Event} {statements : List Statement}
    (inLeft : ∀ e ∈ left, e ∈ log.events) (inRight : ∀ e ∈ right, e ∈ log.events)
    (reduced : r.reduceAll left = .ok statements) (same : r.reduceAll right = .ok statements) :
    left = right := by
  rw [Registry.reduceAll_eq_ok_iff] at reduced same
  induction reduced generalizing right with
  | nil => exact (List.forall₂_nil_right_iff.mp same).symm
  | cons here _ ih =>
    obtain ⟨f, others, there, later, rfl⟩ := List.forall₂_cons_right_iff.mp same
    obtain ⟨firstLeft, inLeft⟩ := List.forall_mem_cons.mp inLeft
    obtain ⟨firstRight, inRight⟩ := List.forall_mem_cons.mp inRight
    rw [linked.eq_of_sequence firstLeft firstRight
      ((keeps.sequence here).symm.trans (keeps.sequence there)), ih inLeft inRight later]

/-- What was done between two states: of each key the events from where it stood up to where it stands
now, and the operations of those that do not fail. -/
structure Handler.Advanced (h : Handler) (run : List Event) (a b : Audit) : Prop where
  like : a.world.outside.Like b.world.outside
  stands : ∀ key, a.world.store.data.stands h.name key ≤ b.world.store.data.stands h.name key
  ofKey : ∀ key, run.filter (fun e => decide (e.key = key)) = a.world.log.between key
    (a.world.store.data.stands h.name key) (b.world.store.data.stands h.name key)
  committed : b.ledger.committed = a.ledger.committed ++ h.soundOperations a.world.store.faults run
  tables : b.world.store.data.tables =
    a.world.store.data.tables.replay (h.soundOperations a.world.store.faults run)

namespace Handler.Advanced

variable {h : Handler} {run run' : List Event} {a b c : Audit}

theorem still (unmoved : a.Unmoved b) : h.Advanced [] a b where
  like := unmoved.like
  stands key := by rw [unmoved.data]
  ofKey key := by
    rw [unmoved.data, EventLog.between_of_le _ _ (Nat.le_refl _)]
    rfl
  committed := by
    rw [unmoved.committed]
    exact (List.append_nil _).symm
  tables := by
    rw [unmoved.data]
    rfl

theorem trans (first : h.Advanced run a b) (second : h.Advanced run' b c)
    (linked : a.world.log.Linked) : h.Advanced (run ++ run') a c where
  like := first.like.trans second.like
  stands key := (first.stands key).trans (second.stands key)
  ofKey key := by
    have log : b.world.log = a.world.log := first.like.log
    rw [List.filter_append, first.ofKey, second.ofKey, log,
      linked.between_append key (first.stands key) (second.stands key)]
  committed := by
    have faults : b.world.store.faults = a.world.store.faults := first.like.faults
    rw [second.committed, first.committed, faults, soundOperations_append, List.append_assoc]
  tables := by
    have faults : b.world.store.faults = a.world.store.faults := first.like.faults
    rw [second.tables, first.tables, faults, soundOperations_append, Tables.replay_append]

end Handler.Advanced

namespace Handler.Leaves

variable {h : Handler} {token : Token} {task : Nat} {batch : List Statement} {a b : Audit}
  {result : Except HandlerError (Option Nat)} {tried : Trial}

theorem unchanged (leaves : h.Leaves token task batch a result tried b)
    (failed : wasCommitted result = false) : b.world.store.data = a.world.store.data ∧ tried = [] :=
  leaves.concludes.unchanged failed

theorem carried (leaves : h.Leaves token task batch a result tried b)
    (shown : a.world.hidden = fun _ => false) (done : wasCommitted result = true) : ∃ steps d p,
      h.planIn a.world.log (a.world.store.data.locked h.name (fun _ => false) batch) 0 batch =
        .ok steps ∧
      Carried h (· = a.world.store.faults) a.world.store.data {} steps d p tried ∧
      b.world.store.data = d.raiseAll h.name p.advanced ∧ result = p.result := by
  obtain ⟨o, steps, d, p, like, plan, carried, _, data, answer⟩ := leaves.concludes.carried done
  rw [Frame.allows_amid] at carried
  have hidden : o.hidden = fun _ => false := like.hidden.trans shown
  rw [hidden] at plan
  exact ⟨steps, d, p, plan, carried, data, answer⟩

/-- An update gets on, or it leaves everything as it was. -/
theorem advanced (leaves : h.Leaves token task batch a result tried b) (linked : a.world.log.Linked)
    (keeps : h.registry.KeepsIdentity) (logged : h.registry.Logged a.world.log batch)
    (shown : a.world.hidden = fun _ => false) : ∃ run, h.Advanced run a b := by
  cases done : wasCommitted result with
  | false =>
    obtain ⟨data, rfl⟩ := leaves.unchanged done
    exact ⟨[], .still ⟨leaves.like, data, leaves.committed.trans (List.append_nil _)⟩⟩
  | true =>
    obtain ⟨steps, d, p, plan, carried, data, _⟩ := leaves.carried shown done
    have past : (Step.statements steps).take tried.past.length = tried.past :=
      (List.prefix_iff_eq_take.mp carried.past_prefix).symm
    have awaits := linked.awaited_statements keeps logged plan
    generalize awaited : a.world.log.awaited
      (a.world.store.data.locked h.name (fun _ => false) batch) batch = events at awaits
    have among : ∀ e ∈ events, e ∈ a.world.log.events := by
      rw [← awaited]
      exact fun e member => (linked.mem_awaited.mp member).1
    have got := Registry.reduceAll_take awaits tried.past.length
    rw [past] at got
    have operations : tried.applied.map (·.operation) =
        h.soundOperations a.world.store.faults (events.take tried.past.length) := by
      rw [carried.applied_of_faults, soundOperations_eq got]
    have between := carried.past_between linked keeps logged plan
    refine ⟨events.take tried.past.length, leaves.like, fun key => ?_, fun key => ?_, ?_, ?_⟩
    · rw [data]
      exact (between key).1
    · rw [data]
      have ofKey := Registry.reduceAll_filter got (fun e => decide (e.key = key))
        (fun st => decide (st.key = key)) fun e st step => by rw [keeps.key step]
      refine linked.eq_of_reduceAll keeps (fun e member => ?_) (fun e member => ?_) ofKey
        (between key).2
      · exact among e (List.mem_of_mem_take (List.mem_of_mem_filter member))
      · exact (EventLog.mem_between.mp member).1
    · rw [leaves.committed, operations]
    · rw [data, StoreData.tables_raiseAll, carried.tables, operations]

/-- A statement that an update reports as applied is reached. -/
theorem reaches (leaves : h.Leaves token task batch a result tried b) (linked : a.world.log.Linked)
    (keeps : h.registry.KeepsIdentity) (logged : h.registry.Logged a.world.log batch)
    (shown : a.world.hidden = fun _ => false) {k : Nat} {st : Statement}
    (found : batch[k]? = some st) (reported : ∀ e, result = .error e → k < e.applied) :
    st.sequence ≤ b.world.store.data.stands h.name st.key := by
  have done : wasCommitted result = true := by
    cases result with
    | ok _ => rfl
    | error e =>
      have before := reported e rfl
      cases e with
      | someStatementsFailed _ => rfl
      | _ => exact absurd before (Nat.not_lt_zero _)
  obtain ⟨steps, d, p, plan, carried, data, rfl⟩ := leaves.carried shown done
  have reach : ∀ key, (a.world.store.data.locked h.name (fun _ => false) batch).get key ≤
      ({} : Progress).far (a.world.store.data.stands h.name) key := by
    intro key
    exact (StoreData.get_locked_le ..).trans (Nat.le_max_left ..)
  obtain ⟨covers, _⟩ := carried.covers (Handler.planIn_planned plan) rfl (fun _ none => nomatch none) reach
  have far : st.sequence ≤ p.far (a.world.store.data.stands h.name) st.key := by
    refine covers.reached found ?_
    unfold Progress.result at reported
    cases stopped : p.stopped with
    | false => exact .inl rfl
    | true =>
      rw [stopped, if_pos rfl] at reported
      have before := reported _ rfl
      cases applied : p.lastApplied with
      | none =>
        rw [applied] at before
        exact absurd before (Nat.not_lt_zero _)
      | some last =>
        rw [applied] at before
        refine .inr ⟨last, rfl, ?_⟩
        rw [Nat.zero_add]
        exact Nat.le_of_lt_succ before
  rw [data, carried.stands_max linked keeps logged plan]
  rwa [Progress.far, carried.advanced, SequenceMap.get_advanceAll] at far

/-- An update gets no key beyond its last statement of the batch. -/
theorem stands_le (leaves : h.Leaves token task batch a result tried b) (linked : a.world.log.Linked)
    (keeps : h.registry.KeepsIdentity) (logged : h.registry.Logged a.world.log batch)
    (shown : a.world.hidden = fun _ => false) (key : SequenceKey) :
    b.world.store.data.stands h.name key ≤
      max (a.world.store.data.stands h.name key) (Statement.reach key batch) := by
  cases done : wasCommitted result with
  | false =>
    rw [(leaves.unchanged done).1]
    exact Nat.le_max_left ..
  | true =>
    obtain ⟨steps, d, p, plan, carried, data, _⟩ := leaves.carried shown done
    rw [data, carried.stands_max linked keeps logged plan]
    have bound : Statement.reach key tried.past ≤ Statement.reach key batch := by
      refine Statement.reach_le.mpr fun st member ours => ?_
      obtain ⟨e, awaited, reduced⟩ := Registry.exists_event
        (linked.awaited_statements keeps logged plan) (carried.past_prefix.subset member)
      rw [keeps.sequence reduced, ← ours, keeps.key reduced]
      exact (linked.mem_awaited.mp awaited).2.2
    omega

end Handler.Leaves

section Retries

variable {h : Handler} {ctx : Context} {batch : List Statement} {around : Surroundings} {task : Nat}
  {a : Audit}

/-- Where an update has reached the first statements of a batch, the others get the keys as far as all
of them. -/
theorem Handler.Leaves.max_reach_drop {token : Token} {result : Except HandlerError (Option Nat)}
    {tried : Trial} {b : Audit} (leaves : h.Leaves token task batch a result tried b)
    (linked : a.world.log.Linked) (keeps : h.registry.KeepsIdentity)
    (logged : h.registry.Logged a.world.log batch) (shown : a.world.hidden = fun _ => false) (n : Nat)
    (reported : ∀ k < n, ∀ e, result = .error e → k < e.applied) (key : SequenceKey) :
    max (b.world.store.data.stands h.name key) (Statement.reach key (batch.drop n)) =
      max (a.world.store.data.stands h.name key) (Statement.reach key batch) := by
  have up := leaves.stands_le linked keeps logged shown key
  obtain ⟨run, advanced⟩ := leaves.advanced linked keeps logged shown
  have onward := advanced.stands key
  have part := Statement.reach_drop_le key batch n
  have whole : Statement.reach key batch ≤
      max (b.world.store.data.stands h.name key) (Statement.reach key (batch.drop n)) := by
    refine Statement.reach_le.mpr ?_
    rintro st member rfl
    obtain ⟨k, found⟩ := List.getElem?_of_mem member
    by_cases early : k < n
    · exact (leaves.reaches linked keeps logged shown found (reported k early)).trans
        (Nat.le_max_left ..)
    · have later : st ∈ batch.drop n := by
        refine List.mem_of_getElem? (i := k - n) ?_
        rw [List.getElem?_drop, Nat.add_sub_cancel' (Nat.le_of_not_lt early), found]
      exact (Statement.le_reach later).trans (Nat.le_max_right ..)
  omega

/-- What a call leaves that has applied a batch: it has got on, and each key stands at its last statement
of the batch or further. -/
def Handler.Applied (h : Handler) (batch : List Statement) (a b : Audit) : Prop :=
  ∃ run, h.Advanced run a b ∧ ∀ key, b.world.store.data.stands h.name key =
    max (a.world.store.data.stands h.name key) (Statement.reach key batch)

/-- What a call does after its first attempt. -/
def Handler.afterAttempt (h : Handler) (ctx : Context) (retries offset : Nat) (batch : List Statement) :
    Except HandlerError (Option Nat) → Action Unit
  | .ok _ => pure ()
  | .error (.someStatementsFailed last) =>
    let applied := (HandlerError.someStatementsFailed last).applied
    let offset := offset + applied
    match retries with
    | 0 => throw (.someStatementsFailed (if offset = 0 then none else some (offset - 1)))
    | retries + 1 => do
      if ← askTask (.pause h.config.retryFailedAfter ctx.token) then
        h.applyWithRetries ctx retries offset (batch.drop applied)
      else throw .cancelled
  | .error e => throw e

theorem run_attempt_bind {α β : Type} (x : Action α) (f : Except HandlerError α → Action β) :
    (attempt x >>= f).run = Dialogue.bind x.run fun result => (f result).run :=
  Dialogue.bind_bind ..

theorem Handler.run_applyWithRetries (retries offset : Nat) :
    (h.applyWithRetries ctx retries offset batch).run =
      Dialogue.bind (h.update ctx batch).run fun result =>
        (h.afterAttempt ctx retries offset batch result).run := by
  unfold applyWithRetries
  refine (run_attempt_bind _ _).trans (congrArg _ (funext fun result => ?_))
  cases result with
  | ok last => rfl
  | error e =>
    cases e with
    | someStatementsFailed last => cases retries <;> cases last <;> rfl
    | _ => rfl

/-- A call that tries again ends in one way if each attempt that is committed in part leaves something
behind that the next attempt begins with. -/
theorem Handler.upholds_retries_amid (quiet : around.Quiet) {I : List Statement → Audit → Prop}
    {post : Except HandlerError Unit → Audit → Prop}
    (attempt : ∀ batch a, I batch a → ∀ result tried b, h.Leaves ctx.token task batch a result tried b →
      match result with
      | .ok _ => post (.ok ()) b
      | .error (.someStatementsFailed last) =>
        (∀ last, post (.error (.someStatementsFailed last)) b) ∧
          ∀ c, b.Unmoved c → post (.error .cancelled) c ∧
            I (batch.drop (HandlerError.someStatementsFailed last).applied) c
      | .error e => post (.error e) b)
    (retries offset : Nat) {batch : List Statement} {a : Audit} (start : I batch a) :
    (Setting.amid around task).Upholds post (h.applyWithRetries ctx retries offset batch).run a := by
  rw [run_applyWithRetries]
  refine Setting.Upholds.bind (upholds_update_amid fun b result tried leaves => ?_)
  have ended := attempt batch a start result tried b leaves
  cases result with
  | ok last => exact ended
  | error e =>
    cases e with
    | someStatementsFailed last =>
      cases retries with
      | zero => exact ended.1 _
      | succ retries =>
        refine upholds_seq (Setting.Upholds.bind
          (upholds_pause_amid quiet fun c waited unmoved => ?_))
        obtain ⟨stop, next⟩ := ended.2 c unmoved
        cases waited with
        | false => exact stop
        | true => exact upholds_retries_amid quiet attempt retries _ next
    | _ => exact ended

/-- What attempts leave behind that go on with the rest of a batch: it gets each key as far as all of the
batch. -/
structure Handler.Underway (h : Handler) (batch : List Statement) (a : Audit) (rest : List Statement)
    (b : Audit) : Prop where
  logged : h.registry.Logged b.world.log rest
  advanced : ∃ run, h.Advanced run a b
  reach : ∀ key, max (b.world.store.data.stands h.name key) (Statement.reach key rest) =
    max (a.world.store.data.stands h.name key) (Statement.reach key batch)

/-- A call that applies a batch in the end has got each key to its last statement of the batch, however
often it has tried. -/
theorem Handler.upholds_applyWithRetries_amid (quiet : around.Quiet) (keeps : h.registry.KeepsIdentity)
    (retries offset : Nat) (linked : a.world.log.Linked)
    (logged : h.registry.Logged a.world.log batch) (shown : a.world.hidden = fun _ => false) :
    (Setting.amid around task).Upholds (fun result b => result = .ok () → h.Applied batch a b)
      (h.applyWithRetries ctx retries offset batch).run a := by
  have start : h.Underway batch a batch a := ⟨logged, ⟨[], .still (.refl a)⟩, fun _ => rfl⟩
  refine upholds_retries_amid quiet (fun rest b underway result tried c leaves => ?_) retries offset start
  obtain ⟨logged, ⟨first, advanced⟩, same⟩ := underway
  have log : b.world.log = a.world.log := advanced.like.log
  have linked' := log ▸ linked
  have shown' : b.world.hidden = fun _ => false := advanced.like.hidden.trans shown
  obtain ⟨second, onward⟩ := leaves.advanced linked' keeps logged shown'
  have until_ := advanced.trans onward linked
  have reach := leaves.max_reach_drop linked' keeps logged shown'
  cases result with
  | ok last =>
    refine fun _ => ⟨_, until_, fun key => ?_⟩
    have all := reach rest.length (fun _ _ _ ended => nomatch ended) key
    rw [List.drop_length, same] at all
    exact (Nat.max_zero _).symm.trans all
  | error e =>
    cases e with
    | someStatementsFailed last =>
      refine ⟨fun _ => nofun, fun d unmoved => ⟨nofun, ?_⟩⟩
      refine ⟨?_, ⟨_, until_.trans (.still unmoved) linked⟩, fun key => ?_⟩
      · rw [show d.world.log = b.world.log from (leaves.like.trans unmoved.like).log]
        exact logged.drop _
      · rw [unmoved.data, ← same]
        exact reach _ (fun k early e' ended => Except.error.inj ended ▸ early) key
    | _ => exact nofun

end Retries

end ReadModel
