import ReadModel.Proofs.Resuming
import ReadModel.Proofs.Retrying

/-!
The price of failures.

A call that processes events tries again where an event has failed, from the first of them on that is
not reached. Each failure that ends an attempt takes one off what is left of the patience with the
events that are owed, so the number of attempts is known beforehand.
-/

namespace ReadModel

/-- The events that a batch asks for: of its keys those above where these stand, up to its last ones. -/
def Handler.owed (h : Handler) (batch : List Statement) (a : Audit) : List Event :=
  a.world.log.events.filter fun e =>
    decide (a.world.store.data.stands h.name e.key < e.sequence) &&
      decide (e.sequence ≤ Statement.reach e.key batch)

/-- What is left of what a batch asks for after so many failures that have ended an attempt. -/
structure Handler.Paid (h : Handler) (batch : List Statement) (stops : Nat) (a b : Audit) : Prop where
  outside : b.world.outside = { a.world.outside with begins := b.world.store.begins }
  onward : ∀ key, a.world.store.data.stands h.name key ≤ b.world.store.data.stands h.name key
  within : ∀ key, b.world.store.data.stands h.name key ≤
    max (a.world.store.data.stands h.name key) (Statement.reach key batch)
  passed : ∀ e ∈ h.owed batch a, e ∉ h.owed batch b → h.poisoned a.world.store.faults e = true →
    h.failures b.world.store.data e =
      max h.config.maxFailureCount (h.failures a.world.store.data e) + 1
  left : ∀ e ∈ h.owed batch b, max h.config.maxFailureCount (h.failures b.world.store.data e) =
    max h.config.maxFailureCount (h.failures a.world.store.data e)
  others : ∀ e ∈ a.world.log.events, e ∉ h.owed batch a →
    h.failures b.world.store.data e = h.failures a.world.store.data e
  spent : h.patience a.world.store.faults b.world.store.data (h.owed batch b) + stops =
    h.patience a.world.store.faults a.world.store.data (h.owed batch a)

/-- A batch goes on with a statement whose key is held up by an event that fails. -/
structure Handler.Stuck (h : Handler) (batch : List Statement) (b : Audit) (index : Nat) : Prop where
  resumes : b.world.store.data.Resumes h.name batch index
  failed : ∃ st, batch[index]? = some st ∧ ∃ e ∈ h.owed batch b,
    h.poisoned b.world.store.faults e = true ∧ e.key = st.key ∧ e.sequence ≤ st.sequence

section Owed

variable {h : Handler} {batch : List Statement} {stops stops' : Nat} {a b c : Audit} {e : Event}

theorem Handler.mem_owed : e ∈ h.owed batch a ↔ e ∈ a.world.log.events ∧
    a.world.store.data.stands h.name e.key < e.sequence ∧
      e.sequence ≤ Statement.reach e.key batch := by
  simp only [owed, List.mem_filter, Bool.and_eq_true, decide_eq_true_eq]

theorem Handler.owed_congr (log : b.world.log = a.world.log)
    (stands : ∀ key, b.world.store.data.stands h.name key = a.world.store.data.stands h.name key) :
    h.owed batch b = h.owed batch a := by
  unfold owed
  rw [log]
  simp only [stands]

/-- Statements that are reached ask for nothing. -/
theorem Handler.owed_drop {n : Nat}
    (reached : ∀ st ∈ batch.take n, st.sequence ≤ a.world.store.data.stands h.name st.key) :
    h.owed (batch.drop n) a = h.owed batch a := by
  unfold owed
  refine List.filter_congr fun e _ => ?_
  have part := Statement.reach_drop_le e.key batch n
  have whole : Statement.reach e.key batch ≤
      max (a.world.store.data.stands h.name e.key) (Statement.reach e.key (batch.drop n)) := by
    refine Statement.reach_le.mpr fun st member ours => ?_
    rw [← List.take_append_drop n batch] at member
    rcases List.mem_append.mp member with early | late
    · have := reached st early
      rw [ours] at this
      omega
    · have := Statement.le_reach late
      rw [ours] at this
      omega
  rw [Bool.eq_iff_iff]
  simp only [Bool.and_eq_true, decide_eq_true_eq]
  omega

theorem Handler.owed_nodup (linked : a.world.log.Linked) : (h.owed batch a).Nodup :=
  (linked.ascending.filter _).imp fun order same => by rw [same] at order; omega

theorem Handler.patience_perm {faults : Faults} {d : StoreData} {left right : List Event}
    (perm : left.Perm right) : h.patience faults d left = h.patience faults d right :=
  ((perm.filter _).map _).sum_eq

namespace Handler.Paid

theorem log (paid : h.Paid batch stops a b) : b.world.log = a.world.log :=
  congrArg Outside.log paid.outside

theorem faults (paid : h.Paid batch stops a b) : b.world.store.faults = a.world.store.faults :=
  congrArg Outside.faults paid.outside

theorem calm (paid : h.Paid batch stops a b) {token : Token} (calm : Calm token a.world.outside) :
    Calm token b.world.outside :=
  paid.outside ▸ ⟨calm.shown, calm.accepting, calm.uncancelled⟩

theorem owed_subset (paid : h.Paid batch stops a b) : ∀ e ∈ h.owed batch b, e ∈ h.owed batch a := by
  intro e member
  obtain ⟨inLog, above, below⟩ := mem_owed.mp member
  exact mem_owed.mpr ⟨paid.log ▸ inLog, Nat.lt_of_le_of_lt (paid.onward e.key) above, below⟩

/-- Nothing was done, while the world went on around the store. -/
theorem still (outside : b.world.outside = a.world.outside)
    (data : b.world.store.data = a.world.store.data) : h.Paid batch 0 a b := by
  have owed : h.owed batch b = h.owed batch a :=
    owed_congr (congrArg Outside.log outside) fun key => by rw [data]
  refine ⟨?_, fun key => ?_, fun key => ?_, fun e member gone => ?_, fun e _ => ?_, fun e _ _ => ?_, ?_⟩
  · show _ = { a.world.outside with begins := b.world.outside.begins }
    rw [outside]
  · rw [data]
  · rw [data]
    exact Nat.le_max_left ..
  · rw [owed] at gone
    exact absurd member gone
  · rw [data]
  · rw [data]
  · rw [owed, data, Nat.add_zero]

theorem trans (first : h.Paid batch stops a b) (second : h.Paid batch stops' b c) :
    h.Paid batch (stops + stops') a c := by
  have log := first.log
  have faults := first.faults
  refine ⟨?_, fun key => ?_, fun key => ?_, ?_, ?_, ?_, ?_⟩
  · rw [second.outside, first.outside]
  · exact (first.onward key).trans (second.onward key)
  · have early := first.within key
    have late := second.within key
    omega
  · intro e member gone poisoned
    by_cases still : e ∈ h.owed batch b
    · rw [second.passed e still gone (by rw [faults]; exact poisoned), first.left e still]
    · have inLog : e ∈ b.world.log.events := by
        rw [log]
        exact (mem_owed.mp member).1
      rw [second.others e inLog still, first.passed e member still poisoned]
  · intro e member
    rw [second.left e member, first.left e (second.owed_subset e member)]
  · intro e inLog settled
    have gone : e ∉ h.owed batch b := fun still => settled (first.owed_subset e still)
    rw [second.others e (by rw [log]; exact inLog) gone, first.others e inLog settled]
  · have early := first.spent
    have late := second.spent
    rw [faults] at late
    omega

/-- What was done for the rest of a batch was done for the whole of it. -/
theorem of_drop {n : Nat} (paid : h.Paid (batch.drop n) stops a b)
    (reached : ∀ st ∈ batch.take n, st.sequence ≤ a.world.store.data.stands h.name st.key) :
    h.Paid batch stops a b := by
  have before := owed_drop reached
  have after : h.owed (batch.drop n) b = h.owed batch b :=
    owed_drop fun st member => (reached st member).trans (paid.onward st.key)
  obtain ⟨outside, onward, within, passed, left, others, spent⟩ := paid
  rw [before, after] at *
  refine ⟨outside, onward, fun key => (within key).trans ?_, passed, left, others, spent⟩
  have := Statement.reach_drop_le key batch n
  omega

end Handler.Paid

end Owed

namespace Handler.Carries

variable {h : Handler} {batch : List Statement} {a b : Audit} {d : StoreData} {p : Progress}
  {steps : List Step} {tried : Trial} {stops : Nat} {past rest : List Event}

/-- The events that were got past, and those that are owed still. -/
structure Cut (h : Handler) (batch : List Statement) (a b : Audit) (tried : Trial)
    (past rest : List Event) : Prop where
  perm : (past ++ rest).Perm (h.owed batch a)
  got : h.registry.reduceAll past = .ok tried.past
  left : ∀ e, e ∈ h.owed batch b ↔ e ∈ rest

theorem exists_cut (carries : h.Carries batch a b d p steps tried) (linked : a.world.log.Linked)
    (keeps : h.registry.KeepsIdentity) (logged : h.registry.Logged a.world.log batch) :
    ∃ past rest, Cut h batch a b tried past rest ∧
      h.registry.reduceAll (past ++ rest) = .ok (Step.statements steps) := by
  have awaits := linked.awaited_statements keeps logged carries.plan
  generalize known : a.world.store.data.locked h.name (fun _ => false) batch = locked at awaits
  have member : ∀ e, e ∈ a.world.log.awaited locked batch ↔ e ∈ h.owed batch a := by
    intro e
    rw [← known, linked.mem_awaited_locked, mem_owed]
  have distinct : (a.world.log.awaited locked batch).Nodup :=
    (linked.awaited_distinct locked batch).imp fun apart same => apart (congrArg _ same)
  have perm := (List.perm_ext_iff_of_nodup distinct (owed_nodup linked)).mpr member
  have got := Registry.reduceAll_take awaits tried.past.length
  rw [← List.prefix_iff_eq_take.mp carries.carried.past_prefix] at got
  have parts := List.take_append_drop tried.past.length (a.world.log.awaited locked batch)
  generalize (a.world.log.awaited locked batch).take tried.past.length = past at got parts
  generalize (a.world.log.awaited locked batch).drop tried.past.length = rest at parts
  rw [← parts] at perm awaits distinct
  obtain ⟨_, _, apart⟩ := List.nodup_append.mp distinct
  refine ⟨past, rest, ⟨perm, got, fun e => ?_⟩, awaits⟩
  have stands := carries.stands linked keeps logged e.key
  constructor
  · intro still
    obtain ⟨inLog, above, below⟩ := mem_owed.mp still
    rw [carries.log] at inLog
    rw [stands] at above
    have before : e ∈ past ++ rest :=
      perm.mem_iff.mpr (mem_owed.mpr ⟨inLog, by omega, below⟩)
    rcases List.mem_append.mp before with gone | left
    · obtain ⟨st, inPast, reduced⟩ := Registry.exists_statement got gone
      have reach := Statement.le_reach inPast
      rw [keeps.key reduced, keeps.sequence reduced] at reach
      omega
    · exact left
  · intro left
    obtain ⟨inLog, above, below⟩ := mem_owed.mp (perm.mem_iff.mp (List.mem_append_right _ left))
    refine mem_owed.mpr ⟨carries.log ▸ inLog, ?_, below⟩
    rw [stands]
    -- the events of its key up to the last one that was got past were all got past
    by_contra within
    obtain ⟨_, between⟩ := carries.carried.past_between linked keeps logged carries.plan e.key
    rw [← carries.data, stands] at between
    have inside := EventLog.mem_between.mpr ⟨inLog, rfl, above, Nat.le_of_not_lt within⟩
    obtain ⟨st, inPast, reduced⟩ := Registry.exists_statement between inside
    obtain ⟨f, gone, reduced'⟩ := Registry.exists_event got (List.mem_of_mem_filter inPast)
    have inLog' := (mem_owed.mp (perm.mem_iff.mp (List.mem_append_left _ gone))).1
    have same := linked.eq_of_sequence inLog' inLog
      ((keeps.sequence reduced').symm.trans (keeps.sequence reduced))
    exact apart f gone e left same

theorem failures (carries : h.Carries batch a b d p steps tried) (e : Event) :
    h.failures b.world.store.data e = h.failures d e := by
  rw [Handler.failures, carries.data, StoreData.failures?_raiseAll]
  rfl

/-- An attempt pays for what it leaves. -/
theorem paid (carries : h.Carries batch a b d p steps tried) (linked : a.world.log.Linked)
    (keeps : h.registry.KeepsIdentity) (logged : h.registry.Logged a.world.log batch)
    (cut : Cut h batch a b tried past rest) {events : List Event}
    (run : h.registry.reduceAll events = .ok (tried.map Prod.fst))
    (among : ∀ e ∈ events, e ∈ h.owed batch a)
    (left : ∀ e ∈ rest, max h.config.maxFailureCount (h.failures d e) =
      max h.config.maxFailureCount (h.failures a.world.store.data e))
    (spent : h.patience a.world.store.faults d rest + stops =
      h.patience a.world.store.faults a.world.store.data rest) :
    h.Paid batch stops a b := by
  have carried := carries.carried
  have distinct := linked.statements_distinct keeps logged carries.plan
  have stands := carries.stands linked keeps logged
  have whole : (past ++ rest).Nodup := cut.perm.nodup_iff.mpr (owed_nodup linked)
  have owed : (h.owed batch b).Perm rest :=
    (List.perm_ext_iff_of_nodup (owed_nodup (carries.log ▸ linked))
      (List.nodup_append.mp whole).2.1).mpr cut.left
  have passed : ∀ e ∈ past, h.poisoned a.world.store.faults e = true →
      h.config.maxFailureCount ≤ h.failures a.world.store.data e ∧
        h.failures d e = h.failures a.world.store.data e + 1 := by
    intro e member poisoned
    obtain ⟨st, inPast, reduced⟩ := Registry.exists_statement cut.got member
    exact carried.failures_past distinct keeps reduced inPast poisoned
  refine ⟨?_, fun key => ?_, fun key => ?_, ?_, ?_, ?_, ?_⟩
  · rw [carries.outside, show b.world.store.begins = a.world.store.begins + 1 from
      congrArg Outside.begins carries.outside]
  · rw [stands]
    exact Nat.le_max_left ..
  · rw [stands]
    have bound : Statement.reach key tried.past ≤ Statement.reach key batch := by
      refine Statement.reach_le.mpr fun st member ours => ?_
      obtain ⟨e, gone, reduced⟩ := Registry.exists_event cut.got member
      obtain ⟨_, _, below⟩ := mem_owed.mp (cut.perm.mem_iff.mp (List.mem_append_left _ gone))
      rwa [keeps.sequence reduced, ← ours, keeps.key reduced]
    omega
  · intro e member gone poisoned
    have inPast : e ∈ past := by
      rcases List.mem_append.mp (cut.perm.mem_iff.mpr member) with early | late
      · exact early
      · exact absurd ((cut.left e).mpr late) gone
    obtain ⟨often, counted⟩ := passed e inPast poisoned
    rw [carries.failures, counted, Nat.max_eq_right often]
  · intro e member
    rw [carries.failures]
    exact left e ((cut.left e).mp member)
  · intro e inLog settled
    rw [carries.failures]
    exact carried.failures_untried keeps linked (fun f member => (mem_owed.mp (among f member)).1) run
      inLog fun member => settled (among e member)
  · have none : h.patience a.world.store.faults a.world.store.data past = 0 :=
      patience_eq_zero fun e member poisoned => (passed e member poisoned).1
    rw [patience_congr fun e _ => carries.failures e, patience_perm owed, spent,
      ← patience_perm cut.perm, patience_append, none, Nat.zero_add]

/-- An attempt that is not stopped gets past all events that are owed. -/
theorem paid_all (carries : h.Carries batch a b d p steps tried) (linked : a.world.log.Linked)
    (keeps : h.registry.KeepsIdentity) (logged : h.registry.Logged a.world.log batch)
    (going : p.stopped = false) : h.Paid batch 0 a b ∧ h.owed batch b = [] := by
  have carried := carries.carried
  obtain ⟨past, rest, cut, whole⟩ := carries.exists_cut linked keeps logged
  rcases carried.past_or_stop rfl with ⟨_, all, map⟩ | ⟨_, _, off, _⟩
  · have none : rest = [] := by
      rw [Registry.reduceAll_eq_ok_iff] at whole
      have got := (Registry.reduceAll_eq_ok_iff.mp cut.got).length_eq
      have length := whole.length_eq
      rw [all, List.length_append] at length
      exact List.length_eq_zero_iff.mp (by omega)
    subst none
    refine ⟨carries.paid linked keeps logged cut (cut.got.trans (congrArg Except.ok map.symm)) ?_
      (fun _ member => absurd member List.not_mem_nil) rfl, ?_⟩
    · exact fun e member => cut.perm.mem_iff.mp (List.mem_append_left _ member)
    · exact List.eq_nil_iff_forall_not_mem.mpr fun e member =>
        List.not_mem_nil ((cut.left e).mp member)
  · rw [going] at off
    cases off

/-- An attempt that is stopped by a failure pays one. -/
theorem paid_stopped (carries : h.Carries batch a b d p steps tried) (linked : a.world.log.Linked)
    (keeps : h.registry.KeepsIdentity) (logged : h.registry.Logged a.world.log batch)
    (stopped : p.stopped = true) : h.Paid batch 1 a b := by
  have carried := carries.carried
  have distinct := linked.statements_distinct keeps logged carries.plan
  obtain ⟨past, rest, cut, whole⟩ := carries.exists_cut linked keeps logged
  rcases carried.past_or_stop rfl with ⟨on, _⟩ | ⟨st, others, _, parts, ends, map⟩
  · rw [stopped] at on
    cases on
  have left := Registry.reduceAll_drop whole past.length
  have length := (Registry.reduceAll_eq_ok_iff.mp cut.got).length_eq
  rw [List.drop_left, parts, length, List.drop_left, ← List.nil_append (st :: others)] at left
  obtain ⟨_, e, later, rfl, none, _, reduced⟩ := Registry.reduceAll_split left
  obtain rfl := List.length_eq_zero_iff.mp none
  rw [List.nil_append] at cut
  have run : h.registry.reduceAll (past ++ [e]) = .ok (tried.map Prod.fst) := by
    rw [map, Registry.reduceAll_append, cut.got, Registry.reduceAll, reduced]
    rfl
  have among : ∀ f ∈ past ++ [e], f ∈ h.owed batch a := by
    intro f member
    refine cut.perm.mem_iff.mp ?_
    rw [List.append_cons]
    exact List.mem_append_left _ member
  obtain ⟨poisoned, seldom, counted⟩ := carried.failures_stopped distinct keeps reduced ends
  -- the events behind the one that has failed were not tried
  have same : ∀ f ∈ later, h.failures d f = h.failures a.world.store.data f := by
    intro f member
    have whole : ((past ++ [e]) ++ later).Nodup := by
      rw [← List.append_cons]
      exact cut.perm.nodup_iff.mpr (owed_nodup linked)
    have owed := cut.perm.mem_iff.mp
      (List.mem_append_right past (List.mem_cons_of_mem e member))
    exact carried.failures_untried keeps linked (fun g inRun => (mem_owed.mp (among g inRun)).1) run
      (mem_owed.mp owed).1 fun inRun => (List.nodup_append.mp whole).2.2 f inRun f member rfl
  refine carries.paid linked keeps logged cut run among ?_ ?_
  · intro f member
    rcases List.mem_cons.mp member with rfl | afterwards
    · rw [counted]
      omega
    · rw [same f afterwards]
  · rw [patience_cons, patience_cons, patience_congr same, if_pos poisoned, if_pos poisoned, counted]
    omega

/-- A batch that is stopped goes on with a statement whose key is held up by an event that has failed. -/
theorem stuck (carries : h.Carries batch a b d p steps tried) (linked : a.world.log.Linked)
    (keeps : h.registry.KeepsIdentity) (logged : h.registry.Logged a.world.log batch)
    (stopped : p.stopped = true) : h.Stuck batch b (resumption p.lastApplied) := by
  obtain ⟨resumes, ⟨on, _⟩ | ⟨_, st, found, failed, ends, ours, upTo⟩⟩ :=
    carries.resumes linked keeps logged
  · rw [stopped] at on
    cases on
  have carried := carries.carried
  have distinct := linked.statements_distinct keeps logged carries.plan
  obtain ⟨past, rest, cut, whole⟩ := carries.exists_cut linked keeps logged
  have among := carried.tried_prefix.subset (List.mem_map_of_mem ends)
  obtain ⟨e, member, reduced⟩ := Registry.exists_event whole among
  obtain ⟨poisoned, seldom, _⟩ := carried.failures_stopped distinct keeps reduced ends
  refine ⟨resumes, st, found, e, ?_, ?_, (keeps.key reduced).symm.trans ours, ?_⟩
  · refine (cut.left e).mpr ((List.mem_append.mp member).resolve_left fun gone => ?_)
    -- an event that was got past has failed too often
    obtain ⟨st', inPast, reduced'⟩ := Registry.exists_statement cut.got gone
    have often := (carried.failures_past distinct keeps reduced' inPast poisoned).1
    omega
  · rwa [show b.world.store.faults = a.world.store.faults from
      congrArg Outside.faults carries.outside]
  · rw [← keeps.sequence reduced]
    exact upTo

end Handler.Carries

section Retries

variable {h : Handler} {ctx : Context} {around : Surroundings} {task : Nat} {a : Audit}
  {batch : List Statement}

/-- A call that tries again is through with its batch once the patience with its events is used up, and
it is stuck if the retries are used up before. -/
def Handler.Accounts (h : Handler) (retries offset : Nat) (batch : List Statement) (a : Audit)
    (result : Except HandlerError Unit) (b : Audit) : Prop :=
  let patience := h.patience a.world.store.faults a.world.store.data (h.owed batch a)
  b.world.store.begins = a.world.store.begins + min patience retries + 1 ∧
    ((patience ≤ retries ∧ result = .ok () ∧ h.Paid batch patience a b ∧ h.owed batch b = []) ∨
      retries < patience ∧ h.Paid batch (retries + 1) a b ∧
        ∃ i, result = .error (.someStatementsFailed (lastBefore (offset + i))) ∧ h.Stuck batch b i)

theorem Handler.Stuck.of_drop {n i : Nat} {b : Audit} (stuck : h.Stuck (batch.drop n) b i)
    (le : n ≤ batch.length)
    (reached : ∀ st ∈ batch.take n, st.sequence ≤ b.world.store.data.stands h.name st.key) :
    h.Stuck batch b (n + i) := by
  obtain ⟨st, found, e, owed, failed⟩ := stuck.failed
  rw [List.getElem?_drop] at found
  rw [owed_drop reached] at owed
  exact ⟨.of_drop reached le stuck.resumes, st, found, e, owed, failed⟩

/-- What an attempt leaves. -/
theorem Handler.update_paid (h : Handler) (ctx : Context) (around : Surroundings) (task : Nat)
    (linked : a.world.log.Linked) (keeps : h.registry.KeepsIdentity)
    (accepts : ∀ e ∈ a.world.log.events, ∃ st, h.registry.reduce e = .ok st)
    (calm : Calm ctx.token a.world.outside) (logged : h.registry.Logged a.world.log batch)
    (some : batch ≠ []) :
    let ended := (h.update ctx batch).run.run (Audit.answer around task) a
    ended.2.world.store.begins = a.world.store.begins + 1 ∧
      (((∃ last, ended.1 = .ok last) ∧ h.Paid batch 0 a ended.2 ∧ h.owed batch ended.2 = []) ∨
        ∃ last, ended.1 = .error (.someStatementsFailed last) ∧ h.Paid batch 1 a ended.2 ∧
          h.Stuck batch ended.2 (resumption last)) := by
  intro ended
  rcases h.update_carries ctx task around linked keeps calm logged some with
    ⟨e, failed, _⟩ | ⟨d, p, steps, tried, carries, result⟩
  · obtain ⟨steps, plan⟩ := (reduces_iff linked keeps logged).mp fun e inLog _ _ => accepts e inLog
    rw [plan] at failed
    cases failed
  · refine ⟨congrArg Outside.begins carries.outside, ?_⟩
    rw [show ended.1 = p.result from result, Progress.result]
    cases stopped : p.stopped with
    | false => exact .inl ⟨⟨_, rfl⟩, carries.paid_all linked keeps logged stopped⟩
    | true =>
      exact .inr ⟨_, rfl, carries.paid_stopped linked keeps logged stopped,
        carries.stuck linked keeps logged stopped⟩

namespace Handler.Accounts

variable {retries offset i : Nat} {b c d : Audit} {result : Except HandlerError Unit}

theorem of_applied (begins : b.world.store.begins = a.world.store.begins + 1)
    (paid : h.Paid batch 0 a b) (none : h.owed batch b = []) :
    h.Accounts retries offset batch a (.ok ()) b := by
  have spent : h.patience a.world.store.faults a.world.store.data (h.owed batch a) = 0 := by
    rw [← paid.spent, none]
    rfl
  unfold Accounts
  rw [spent]
  refine ⟨by omega, .inl ⟨Nat.zero_le _, rfl, paid, none⟩⟩

theorem of_stuck (begins : b.world.store.begins = a.world.store.begins + 1)
    (paid : h.Paid batch 1 a b) (stuck : h.Stuck batch b i) :
    h.Accounts 0 offset batch a (.error (.someStatementsFailed (lastBefore (offset + i)))) b := by
  have spent := paid.spent
  refine ⟨by omega, .inr ⟨by omega, paid, i, rfl, stuck⟩⟩

/-- After an attempt that was stopped the rest of the batch costs one less. -/
theorem of_again (begins : b.world.store.begins = a.world.store.begins + 1)
    (paid : h.Paid batch 1 a b) (stuck : h.Stuck batch b i)
    (outside : c.world.outside = b.world.outside)
    (data : c.world.store.data = b.world.store.data)
    (accounts : h.Accounts retries (offset + i) (batch.drop i) c result d) :
    h.Accounts (retries + 1) offset batch a result d := by
  have until_ := paid.trans (.still outside data)
  have start : c.world.store.begins = b.world.store.begins := congrArg Outside.begins outside
  have reached : ∀ st ∈ batch.take i, st.sequence ≤ c.world.store.data.stands h.name st.key := by
    rw [data]
    exact stuck.resumes.reached
  have spent := until_.spent
  obtain ⟨more, ends⟩ := accounts
  rw [until_.faults, owed_drop reached] at more ends
  refine ⟨by omega, ?_⟩
  rcases ends with ⟨enough, rfl, paid', none⟩ | ⟨short, paid', j, rfl, stuck'⟩
  · have further := paid'.of_drop reached
    refine .inl ⟨by omega, rfl, ?_, ?_⟩
    · have whole := until_.trans further
      rwa [show 1 + 0 + h.patience a.world.store.faults c.world.store.data (h.owed batch c) =
        h.patience a.world.store.faults a.world.store.data (h.owed batch a) by omega] at whole
    · rw [← none]
      exact (owed_drop fun st member => (reached st member).trans (further.onward st.key)).symm
  · have further := paid'.of_drop reached
    refine .inr ⟨by omega, ?_, i + j, by rw [Nat.add_assoc], ?_⟩
    · have whole := until_.trans further
      rwa [show 1 + 0 + (retries + 1) = retries + 1 + 1 by omega] at whole
    · exact stuck'.of_drop stuck.resumes.le fun st member =>
        (reached st member).trans (further.onward st.key)

end Handler.Accounts

theorem Handler.afterAttempt_zero (offset : Nat) (last : Option Nat) :
    h.afterAttempt ctx 0 offset batch (.error (.someStatementsFailed last)) =
      throw (.someStatementsFailed (lastBefore (offset + resumption last))) := by
  unfold afterAttempt
  dsimp only
  rw [HandlerError.applied_someStatementsFailed]
  cases offset + resumption last <;> rfl

theorem Handler.upholds_retries_accounts (patient : around.Patient) (keeps : h.registry.KeepsIdentity)
    (retries offset : Nat) (linked : a.world.log.Linked)
    (accepts : ∀ e ∈ a.world.log.events, ∃ st, h.registry.reduce e = .ok st)
    (calm : Calm ctx.token a.world.outside) (logged : h.registry.Logged a.world.log batch)
    (some : batch ≠ []) :
    (Setting.alone (Audit.answer around task)).Upholds (h.Accounts retries offset batch a)
      (h.applyWithRetries ctx retries offset batch).run a := by
  -- each attempt that is stopped takes one off the retries, and one off the patience
  induction retries generalizing a batch offset with
  | zero =>
    rw [run_applyWithRetries]
    refine Setting.Upholds.bind (.of_run ?_)
    obtain ⟨begins, ⟨⟨last, applied⟩, paid, none⟩ | ⟨last, failed, paid, stuck⟩⟩ :=
      h.update_paid ctx around task linked keeps accepts calm logged some
    · rw [applied]
      exact .of_applied begins paid none
    · rw [failed]
      rw [afterAttempt_zero]
      exact .of_stuck begins paid stuck
  | succ retries ih =>
    rw [run_applyWithRetries]
    refine Setting.Upholds.bind (.of_run ?_)
    obtain ⟨begins, ⟨⟨last, applied⟩, paid, none⟩ | ⟨last, failed, paid, stuck⟩⟩ :=
      h.update_paid ctx around task linked keeps accepts calm logged some
    · rw [applied]
      exact .of_applied begins paid none
    · rw [failed]
      obtain ⟨st, found, _⟩ := stuck.failed
      have inside := (List.getElem?_eq_some_iff.mp found).1
      refine upholds_seq (Setting.Upholds.bind (upholds_pause patient
        (paid.calm calm).uncancelled fun c outside data _ => ?_))
      have log : c.world.log = a.world.log := (congrArg Outside.log outside).trans paid.log
      have left : batch.drop (resumption last) ≠ [] :=
        List.ne_nil_of_length_pos (by rw [List.length_drop]; omega)
      rw [HandlerError.applied_someStatementsFailed]
      refine (ih (offset + resumption last) (log ▸ linked) (log ▸ accepts)
        (outside ▸ paid.calm calm) (log ▸ logged.drop _) left).mono fun result d accounts => ?_
      exact accounts.of_again begins paid stuck outside data

end Retries

/-- The largest sequence that events have for a key. -/
def Event.reach (key : SequenceKey) : List Event → Nat
  | [] => 0
  | e :: rest => if e.key = key then max e.sequence (reach key rest) else reach key rest

section Events

variable {r : Registry} {events : List Event} {statements : List Statement}

theorem Registry.KeepsIdentity.reach (keeps : r.KeepsIdentity)
    (reduced : r.reduceAll events = .ok statements) (key : SequenceKey) :
    Statement.reach key statements = Event.reach key events := by
  rw [Registry.reduceAll_eq_ok_iff] at reduced
  induction reduced with
  | nil => rfl
  | cons here _ ih => rw [Statement.reach, Event.reach, keeps.key here, keeps.sequence here, ih]

theorem Registry.exists_getElem? (reduced : r.reduceAll events = .ok statements) {i : Nat}
    {st : Statement} (found : statements[i]? = some st) :
    ∃ e, events[i]? = some e ∧ r.reduce e = .ok st := by
  rw [Registry.reduceAll_eq_ok_iff] at reduced
  induction reduced generalizing i with
  | nil => cases found
  | cons here _ ih =>
    cases i with
    | zero =>
      obtain rfl := Option.some.inj found
      exact ⟨_, rfl, here⟩
    | succ i => exact ih found

end Events

section Process

variable {h : Handler} {batch : List Statement} {events : List Event} {stops : Nat} {a b : Audit}

/-- Where nothing is owed any more, each key of the batch stands at its last statement or further. -/
theorem Handler.Paid.stands_of_nil (paid : h.Paid batch stops a b) (none : h.owed batch b = [])
    (keeps : h.registry.KeepsIdentity) (logged : h.registry.Logged a.world.log batch)
    {st : Statement} (member : st ∈ batch) : b.world.store.data.stands h.name st.key =
      max (a.world.store.data.stands h.name st.key) (Statement.reach st.key batch) := by
  have up := paid.within st.key
  have onward := paid.onward st.key
  have whole : Statement.reach st.key batch ≤ b.world.store.data.stands h.name st.key := by
    by_contra short
    obtain ⟨last, inBatch, ours, largest⟩ := Statement.exists_reach ⟨st, member, rfl⟩
    obtain ⟨e, inLog, reduced⟩ := logged last inBatch
    have key := (keeps.key reduced).symm.trans ours
    have sequence := (keeps.sequence reduced).symm.trans largest
    have owed : e ∈ h.owed batch b := by
      rw [mem_owed, key, sequence]
      exact ⟨paid.log ▸ inLog, by omega, Nat.le_refl _⟩
    rw [none] at owed
    cases owed
  omega

/-- Where nothing is owed any more, the sequence of each event is reached and stored. -/
theorem Handler.Paid.sequence_of_nil (paid : h.Paid batch stops a b) (none : h.owed batch b = [])
    (keeps : h.registry.KeepsIdentity) (linked : a.world.log.Linked)
    (reduced : h.registry.reduceAll events = .ok batch)
    (among : ∀ e ∈ events, e ∈ a.world.log.events) {f : Event} (member : f ∈ events) :
    b.world.store.data.sequence? h.name f.key =
      some (max (a.world.store.data.stands h.name f.key) (Event.reach f.key events)) := by
  have logged := Registry.logged_of_reduceAll reduced among
  obtain ⟨st, inBatch, step⟩ := Registry.exists_statement reduced member
  have stands := paid.stands_of_nil none keeps logged inBatch
  rw [keeps.key step, keeps.reach reduced] at stands
  have bound := Statement.le_reach inBatch
  rw [keeps.key step, keeps.sequence step, keeps.reach reduced] at bound
  have positive := linked.positive f (among f member)
  have above : 0 < b.world.store.data.stands h.name f.key := by omega
  rw [StoreData.sequence?_of_stands above, stands]

/-- Where a batch is stuck, its events go on with the first that is not reached, and one that is owed
holds up its key. -/
theorem Handler.Stuck.event {index : Nat} (stuck : h.Stuck batch b index)
    (keeps : h.registry.KeepsIdentity) (reduced : h.registry.reduceAll events = .ok batch) :
    ∃ f, events[index]? = some f ∧ b.world.store.data.stands h.name f.key < f.sequence ∧
      (∀ g ∈ events.take index, g.sequence ≤ b.world.store.data.stands h.name g.key) ∧
      ∃ e ∈ h.owed batch b, h.poisoned b.world.store.faults e = true ∧ e.key = f.key ∧
        b.world.store.data.stands h.name e.key < e.sequence ∧ e.sequence ≤ f.sequence := by
  obtain ⟨st, found, e, listed, poisoned, ours, upTo⟩ := stuck.failed
  obtain ⟨f, place, step⟩ := Registry.exists_getElem? reduced found
  have next := stuck.resumes.next st found
  rw [keeps.key step, keeps.sequence step] at next
  refine ⟨f, place, next, fun g member => ?_, e, listed, poisoned, ours.trans (keeps.key step),
    (mem_owed.mp listed).2.1, by rwa [← keeps.sequence step]⟩
  obtain ⟨st', early, step'⟩ :=
    Registry.exists_statement (Registry.reduceAll_take reduced index) member
  rw [← keeps.key step', ← keeps.sequence step']
  exact stuck.resumes.reached st' early

/-- The attempts to process events are accounted for. As many failures end an attempt as there is
patience left with the events that are owed, or one more than the retries allow; and the call succeeds
if the retries suffice. Then all of its events are reached, and each that fails has failed once more
often than is allowed. If they do not, the call reports where its events go on: with the first that is
not reached, whose key is held up by an event that fails. -/
theorem Handler.process_accounts (h : Handler) (ctx : Context) {around : Surroundings}
    (patient : around.Patient) (task : Nat) {w : World} {events : List Event} (pushed : w.log.Pushed)
    (keeps : h.registry.KeepsIdentity)
    (accepts : ∀ e ∈ w.log.events, ∃ st, h.registry.reduce e = .ok st)
    (calm : Calm ctx.token w.outside) (among : ∀ e ∈ events, e ∈ w.log.events)
    (some : events ≠ []) :
    let owed := w.log.events.filter fun e =>
      decide (w.store.data.stands h.name e.key < e.sequence) &&
        decide (e.sequence ≤ Event.reach e.key events)
    let poison := owed.filter (h.poisoned w.store.faults)
    let stops := (poison.map fun e => h.config.maxFailureCount - h.failures w.store.data e).sum
    let ended := (h.process ctx events).run.run (World.answer around task) w
    let data := ended.2.store.data
    ended.2.store.begins = w.store.begins + min stops h.config.maxRetries + 1 ∧
    (ended.1 = .ok () ↔ stops ≤ h.config.maxRetries) ∧
    (ended.1 = .ok () →
      (∀ f ∈ events, data.sequence? h.name f.key =
        .some (max (w.store.data.stands h.name f.key) (Event.reach f.key events))) ∧
      ∀ e ∈ poison,
        h.failures data e = max h.config.maxFailureCount (h.failures w.store.data e) + 1) ∧
    (ended.1 ≠ .ok () → ∃ i f, ended.1 = .error (.someStatementsFailed (lastBefore i)) ∧
      events[i]? = .some f ∧ data.stands h.name f.key < f.sequence ∧
      (∀ g ∈ events.take i, g.sequence ≤ data.stands h.name g.key) ∧
      ∃ e ∈ poison, e.key = f.key ∧ data.stands h.name e.key < e.sequence ∧
        e.sequence ≤ f.sequence) := by
  intro owed poison stops ended data
  have linked := pushed.linked
  obtain ⟨batch, reduced⟩ := Registry.exists_reduceAll fun e member => accepts e (among e member)
  have logged := Registry.logged_of_reduceAll reduced among
  have reach := keeps.reach reduced
  have owes : h.owed batch ⟨w, {}⟩ = owed := by
    unfold Handler.owed
    simp only [reach]
    rfl
  have begun : h.process ctx events = h.applyWithRetries ctx h.config.maxRetries 0 batch := by
    rw [process, reduced]
  have upholds : (Setting.alone (Audit.answer around task)).Upholds _
      (h.applyWithRetries ctx h.config.maxRetries 0 batch).run ⟨w, {}⟩ :=
    Handler.upholds_retries_accounts patient keeps h.config.maxRetries 0 linked accepts calm logged
      (Registry.reduceAll_ne_nil reduced some)
  have upheld := upholds.run
  rw [← begun] at upheld
  have audited := Audit.run_world around task (h.process ctx events).run ⟨w, {}⟩
  generalize (h.process ctx events).run.run (Audit.answer around task) ⟨w, {}⟩ = left
    at upheld audited
  obtain ⟨result, b⟩ := left
  have answer : ended.1 = result := congrArg Prod.fst audited
  have world : ended.2 = b.world := congrArg Prod.snd audited
  obtain ⟨begins, ends⟩ := upheld
  rw [owes] at begins ends
  have price : h.patience w.store.faults w.store.data owed = stops := rfl
  rw [price] at begins ends
  dsimp only at begins ends
  show ended.2.store.begins = _ ∧ _
  simp only [answer, data, world]
  refine ⟨begins, ?_⟩
  rcases ends with ⟨enough, rfl, paid, none⟩ | ⟨short, paid, i, rfl, stuck⟩
  · refine ⟨⟨fun _ => enough, fun _ => rfl⟩, fun _ => ⟨fun f member => ?_, fun e member => ?_⟩,
      fun failed => absurd rfl failed⟩
    · exact paid.sequence_of_nil none keeps linked reduced among member
    · obtain ⟨listed, poisoned⟩ := List.mem_filter.mp member
      refine paid.passed e (owes ▸ listed) ?_ poisoned
      rw [none]
      exact List.not_mem_nil
  · refine ⟨⟨fun none => (by cases none), fun enough => absurd enough (Nat.not_le.mpr short)⟩,
      fun none => (by cases none), fun _ => ?_⟩
    rw [Nat.zero_add]
    obtain ⟨f, place, next, early, e, listed, poisoned, held⟩ := stuck.event keeps reduced
    refine ⟨i, f, rfl, place, next, early, e, ?_, held⟩
    rw [paid.faults] at poisoned
    exact List.mem_filter.mpr ⟨owes ▸ paid.owed_subset e listed, poisoned⟩

/-- The second of three organizations that come in reverse order can never be stored. With patience for
two failures the third attempt gets past it. -/
theorem Handler.process_accounts_of_second :
    let h : Handler := { orgsHandler with config := { maxRetries := 3, maxFailureCount := 2 } }
    let w : World :=
      { threeOrgs with store.faults.values := [⟨"projections.orgs", "name", .text "2"⟩] }
    let ended := (h.process { token := ⟨0, []⟩ } threeOrgs.log.events.reverse).run.run
      (World.answer .waiting 0) w
    ended.1 = .ok () ∧ ended.2.store.begins = 3 ∧
      ∀ e ∈ threeOrgs.log.events, e.sequence = 2 → h.failures ended.2.store.data e = 3 := by
  intro h w ended
  have willing : h.Willing threeOrgs.outside := by decide +kernel
  obtain ⟨begins, succeeds, applied, _⟩ := h.process_accounts { token := ⟨0, []⟩ }
    Surroundings.waiting_patient 0 (w := w) (.push _ _ .empty) Orgs.keepsIdentity willing.accepts
    ⟨rfl, rfl, rfl⟩ (fun e member => List.mem_reverse.mp member)
    (List.reverse_ne_nil_iff.mpr (List.ne_nil_of_length_pos (by decide +kernel)))
  have price : (((w.log.events.filter fun e =>
      decide (w.store.data.stands h.name e.key < e.sequence) &&
        decide (e.sequence ≤ Event.reach e.key threeOrgs.log.events.reverse)).filter
          (h.poisoned w.store.faults)).map fun e =>
            h.config.maxFailureCount - h.failures w.store.data e).sum = 2 := by
    decide +kernel
  rw [price] at begins succeeds
  have ends : ended.1 = .ok () := succeeds.mpr (by decide)
  refine ⟨ends, begins, fun e member second => ?_⟩
  have poisoned : ∀ e ∈ w.log.events, e.sequence = 2 →
      w.store.data.stands h.name e.key < 2 ∧ 2 ≤ Event.reach e.key threeOrgs.log.events.reverse ∧
        h.poisoned w.store.faults e = true ∧ h.failures w.store.data e = 0 := by decide +kernel
  obtain ⟨above, below, fails, count⟩ := poisoned e member second
  have counted := (applied ends).2 e ?_
  · rwa [count] at counted
  · refine List.mem_filter.mpr ⟨List.mem_filter.mpr ⟨member, ?_⟩, fails⟩
    rw [second]
    simp only [Bool.and_eq_true, decide_eq_true_eq]
    exact ⟨above, below⟩

end Process

end ReadModel
