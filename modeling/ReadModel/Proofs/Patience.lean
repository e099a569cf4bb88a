import ReadModel.Proofs.Poison

/-!
Patience with failures.

A trigger tries a page again where a statement has failed, and passes a statement over that has failed
too often. Each failure that ends a batch takes one off what is left of the patience with such
events, and each failed trigger takes all its retries off, so that repeated triggers get past them.
-/

namespace ReadModel

/-- What is left behind when the first of the pending events were got past, and so many failures have
ended a batch meanwhile. -/
structure Handler.Worked (h : Handler) (instances : List InstanceId) (stops : Nat)
    (past : List Event) (a b : Audit) : Prop where
  outside : b.world.outside = { a.world.outside with begins := b.world.store.begins }
  pending : a.world.log.pending h instances a.world.store.data =
    past ++ b.world.log.pending h instances b.world.store.data
  committed : b.ledger.committed =
    a.ledger.committed ++ h.soundOperations a.world.store.faults past
  tables : b.world.store.data.tables =
    a.world.store.data.tables.replay (h.soundOperations a.world.store.faults past)
  passed : ∀ e ∈ past, h.poisoned a.world.store.faults e = true →
    h.failures b.world.store.data e =
      max h.config.maxFailureCount (h.failures a.world.store.data e) + 1
  left : ∀ e ∈ b.world.log.pending h instances b.world.store.data,
    max h.config.maxFailureCount (h.failures b.world.store.data e) =
      max h.config.maxFailureCount (h.failures a.world.store.data e)
  others : ∀ e ∈ a.world.log.events, e ∉ a.world.log.pending h instances a.world.store.data →
    h.failures b.world.store.data e = h.failures a.world.store.data e
  spent : h.patience a.world.store.faults b.world.store.data
      (b.world.log.pending h instances b.world.store.data) + stops =
    h.patience a.world.store.faults a.world.store.data
      (a.world.log.pending h instances a.world.store.data)

section Worked

variable {h : Handler} {instances : List InstanceId} {stops stops' : Nat} {past past' : List Event}
  {a b c : Audit}

namespace Handler.Worked

theorem log (worked : h.Worked instances stops past a b) : b.world.log = a.world.log :=
  congrArg Outside.log worked.outside

theorem faults (worked : h.Worked instances stops past a b) :
    b.world.store.faults = a.world.store.faults :=
  congrArg Outside.faults worked.outside

theorem calm (worked : h.Worked instances stops past a b) {token : Token}
    (calm : Calm token a.world.outside) : Calm token b.world.outside :=
  worked.outside ▸ ⟨calm.shown, calm.accepting, calm.uncancelled⟩

/-- Nothing was done, while the world went on around the store. -/
theorem still (outside : b.world.outside = a.world.outside)
    (data : b.world.store.data = a.world.store.data) (ledger : b.ledger = a.ledger) :
    h.Worked instances 0 [] a b where
  outside := by
    show _ = { a.world.outside with begins := b.world.outside.begins }
    rw [outside]
  pending := by
    rw [data, show b.world.log = a.world.log from congrArg Outside.log outside]
    rfl
  committed := by rw [ledger]; exact (List.append_nil _).symm
  tables := by rw [data]; rfl
  passed _ member := by cases member
  left _ _ := by rw [data]
  others _ _ _ := by rw [data]
  spent := by
    rw [data, show b.world.log = a.world.log from congrArg Outside.log outside, Nat.add_zero]

theorem trans (first : h.Worked instances stops past a b)
    (second : h.Worked instances stops' past' b c) (linked : a.world.log.Linked) :
    h.Worked instances (stops + stops') (past ++ past') a c := by
  have log := first.log
  have faults := first.faults
  have inLog : ∀ e ∈ a.world.log.pending h instances a.world.store.data,
      e ∈ b.world.log.events := by
    intro e member
    rw [log]
    exact (EventLog.mem_pending.mp member).1
  have distinct := linked.pending_nodup h instances a.world.store.data
  rw [first.pending] at inLog distinct
  obtain ⟨_, _, apart⟩ := List.nodup_append.mp distinct
  refine ⟨?_, ?_, ?_, ?_, ?_, ?_, ?_, ?_⟩
  · rw [second.outside, first.outside]
  · rw [first.pending, second.pending, List.append_assoc]
  · rw [second.committed, first.committed, faults, soundOperations_append, List.append_assoc]
  · rw [second.tables, first.tables, faults, soundOperations_append, Tables.replay_append]
  · intro e member poisoned
    rcases List.mem_append.mp member with early | late
    · -- an event that was got past before is not tried again
      have gone : e ∉ b.world.log.pending h instances b.world.store.data :=
        fun still => apart e early e still rfl
      rw [second.others e (inLog e (List.mem_append_left _ early)) gone]
      exact first.passed e early poisoned
    · have listed : e ∈ b.world.log.pending h instances b.world.store.data := by
        rw [second.pending]
        exact List.mem_append_left _ late
      rw [second.passed e late (by rw [faults]; exact poisoned), first.left e listed]
  · intro e member
    have listed : e ∈ b.world.log.pending h instances b.world.store.data := by
      rw [second.pending]
      exact List.mem_append_right _ member
    rw [second.left e member, first.left e listed]
  · intro e member settled
    have gone : e ∉ b.world.log.pending h instances b.world.store.data := by
      intro still
      rw [first.pending] at settled
      exact settled (List.mem_append_right _ still)
    rw [second.others e (by rw [log]; exact member) gone, first.others e member settled]
  · have early := first.spent
    have late := second.spent
    rw [faults] at late
    omega

end Handler.Worked

end Worked

section Update

variable {h : Handler} {instances : List InstanceId} {a b : Audit} {events : List Event}
  {batch : List Statement} {d' : StoreData} {p : Progress} {tried : Trial}

/-- What an update leaves that has run a batch as far as it went, each statement for itself. -/
structure Handler.Ran (h : Handler) (instances : List InstanceId) (batch : List Statement)
    (a b : Audit) (d' : StoreData) (p : Progress) (tried : Trial) : Prop where
  carried : Carried h (· = a.world.store.faults) a.world.store.data {} (Step.each 0 batch) d' p
    tried
  outside : b.world.outside = { a.world.outside with begins := a.world.store.begins + 1 }
  data : b.world.store.data = d'.raiseAll h.name p.advanced
  ledger : b.ledger.committed = a.ledger.committed ++ tried.applied.map (·.operation)
  /-- What is pending afterwards are the events after those that were got past. -/
  pending : ∀ past, past <+: a.world.log.pending h instances a.world.store.data →
    h.registry.reduceAll past = .ok tried.past →
    a.world.log.pending h instances a.world.store.data =
      past ++ b.world.log.pending h instances b.world.store.data

/-- An update that has run the first of the pending events has got past those that it tried, but for
the one that has ended the batch. -/
theorem Handler.Ran.worked {stops : Nat} {past events : List Event}
    (ran : h.Ran instances batch a b d' p tried) (linked : a.world.log.Linked)
    (keeps : h.registry.KeepsIdentity) (distinct : batch.Pairwise (·.sequence ≠ ·.sequence))
    (first : past <+: a.world.log.pending h instances a.world.store.data)
    (got : h.registry.reduceAll past = .ok tried.past)
    (run : h.registry.reduceAll events = .ok (tried.map Prod.fst))
    (among : events <+: a.world.log.pending h instances a.world.store.data)
    (left : ∀ e ∈ b.world.log.pending h instances b.world.store.data,
      max h.config.maxFailureCount (h.failures d' e) =
        max h.config.maxFailureCount (h.failures a.world.store.data e))
    (spent : h.patience a.world.store.faults d'
        (b.world.log.pending h instances b.world.store.data) + stops =
      h.patience a.world.store.faults a.world.store.data
        (b.world.log.pending h instances b.world.store.data)) :
    h.Worked instances stops past a b := by
  have pending := ran.pending past first got
  have carried := ran.carried
  have counts : ∀ e, h.failures b.world.store.data e = h.failures d' e := by
    intro e
    rw [failures, ran.data, StoreData.failures?_raiseAll]
    rfl
  have listed : ∀ e ∈ a.world.log.pending h instances a.world.store.data,
      e ∈ a.world.log.events := fun e member => (EventLog.mem_pending.mp member).1
  have operations :
      tried.applied.map (·.operation) = h.soundOperations a.world.store.faults past := by
    rw [carried.applied_of_faults, soundOperations_eq got]
  have passed : ∀ e ∈ past, h.poisoned a.world.store.faults e = true →
      h.config.maxFailureCount ≤ h.failures a.world.store.data e ∧
        h.failures d' e = h.failures a.world.store.data e + 1 := by
    intro e member poisoned
    obtain ⟨st, inPast, reduced⟩ := Registry.exists_statement got member
    exact carried.failures_past (by rwa [Step.statements_each]) keeps reduced inPast poisoned
  refine ⟨?_, pending, ?_, ?_, ?_, ?_, ?_, ?_⟩
  · rw [ran.outside, show b.world.store.begins = a.world.store.begins + 1 from
      congrArg Outside.begins ran.outside]
  · rw [ran.ledger, operations]
  · rw [ran.data, StoreData.tables_raiseAll, carried.tables, operations]
  · intro e member poisoned
    obtain ⟨often, counted⟩ := passed e member poisoned
    rw [counts, counted, Nat.max_eq_right often]
  · intro e member
    rw [counts]
    exact left e member
  · intro e inLog settled
    rw [counts]
    refine carried.failures_untried keeps linked (fun f member => listed f (among.subset member))
      run inLog fun member => settled (among.subset member)
  · have none : h.patience a.world.store.faults a.world.store.data past = 0 :=
      patience_eq_zero fun e member poisoned => (passed e member poisoned).1
    rw [patience_congr fun e _ => counts e, spent, pending, patience_append, none, Nat.zero_add]

/-- An update that has run its batch to the end has got past all its events. -/
theorem Handler.Ran.all (ran : h.Ran instances batch a b d' p tried) (linked : a.world.log.Linked)
    (keeps : h.registry.KeepsIdentity) (distinct : batch.Pairwise (·.sequence ≠ ·.sequence))
    (first : events <+: a.world.log.pending h instances a.world.store.data)
    (page : h.registry.reduceAll events = .ok tried.past)
    (map : tried.map Prod.fst = tried.past) : h.Worked instances 0 events a b := by
  have pending := ran.pending events first page
  have run := page.trans (congrArg Except.ok map.symm)
  have same := ran.carried.failures_after keeps linked pending run
  refine ran.worked linked keeps distinct first page run first ?_ (patience_congr same)
  intro e member
  rw [same e member]

/-- An update whose batch was ended by a failure has got past the events before. -/
theorem Handler.Ran.stopped (ran : h.Ran instances batch a b d' p tried)
    (linked : a.world.log.Linked) (keeps : h.registry.KeepsIdentity)
    (distinct : batch.Pairwise (·.sequence ≠ ·.sequence))
    (first : events <+: a.world.log.pending h instances a.world.store.data)
    {st : Statement} {others : List Statement}
    (page : h.registry.reduceAll events = .ok (tried.past ++ st :: others))
    (ends : (st, .stopped) ∈ tried) (map : tried.map Prod.fst = tried.past ++ [st]) :
    ∃ past rest, events = past ++ rest ∧ rest ≠ [] ∧ past.length = tried.past.length ∧
      h.Worked instances 1 past a b := by
  obtain ⟨past, e, rest, rfl, length, got, reduced⟩ := Registry.reduceAll_split page
  have run : h.registry.reduceAll (past ++ [e]) = .ok (tried.map Prod.fst) := by
    rw [map, Registry.reduceAll_append, got, Registry.reduceAll, reduced]
    rfl
  have early := (List.prefix_append past (e :: rest)).trans first
  have pending := ran.pending past early got
  obtain ⟨later, next⟩ :
      e :: rest <+: b.world.log.pending h instances b.world.store.data := by
    rwa [pending, List.prefix_append_right_inj] at first
  have whole : a.world.log.pending h instances a.world.store.data =
      (past ++ [e]) ++ (rest ++ later) := by
    rw [pending, ← next, List.append_assoc]
    rfl
  obtain ⟨poisoned, seldom, counted⟩ :=
    ran.carried.failures_stopped (by rwa [Step.statements_each]) keeps reduced ends
  have same := ran.carried.failures_after keeps linked whole run
  refine ⟨past, e :: rest, rfl, List.cons_ne_nil _ _, length, ?_⟩
  refine ran.worked linked keeps distinct early got run ⟨_, whole.symm⟩ ?_ ?_
  · rw [← next]
    intro f member
    rcases List.mem_cons.mp member with rfl | afterwards
    · rw [counted]
      omega
    · rw [same f afterwards]
  · rw [← next, List.cons_append, patience_cons, patience_cons, patience_congr same,
      if_pos poisoned, if_pos poisoned, counted]
    omega

/-- An update that takes the first of the pending events gets past all of them, or up to one whose
failure ends the batch. -/
theorem Handler.update_works (h : Handler) (ctx : Context) (around : Surroundings) (task : Nat)
    {events : List Event} (linked : a.world.log.Linked) (keeps : h.registry.KeepsIdentity)
    (calm : Calm ctx.token a.world.outside)
    (first : events <+: a.world.log.pending h instances a.world.store.data)
    (page : h.registry.reduceAll events = .ok batch) (some : events ≠ []) :
    let ended := (h.update ctx batch).run.run (Audit.answer around task) a
    ((∃ last, ended.1 = .ok last) ∧ h.Worked instances 0 events a ended.2) ∨
      ∃ past rest, events = past ++ rest ∧ rest ≠ [] ∧
        ended.1 = .error (.someStatementsFailed
          (if past.length = 0 then none else .some (past.length - 1))) ∧
        h.Worked instances 1 past a ended.2 := by
  intro ended
  have logged := Registry.logged_of_reduceAll page
    fun e inPage => (EventLog.mem_pending.mp (first.subset inPage)).1
  have plan := linked.plan_page keeps first page
  have distinct := linked.statements_distinct keeps logged plan
  rw [Step.statements_each] at distinct
  obtain ⟨d, tried, concludes, left, _, after⟩ := h.update_concludes ctx batch task around a
  have after := after (Registry.reduceAll_ne_nil page some) calm.uncancelled
  rcases concludes.of_calm calm linked keeps logged with
    ⟨e, failed, _⟩ | ⟨steps, d', p, planned, carried, rfl, result⟩
  · rw [plan] at failed
    cases failed
  obtain rfl := Except.ok.inj (plan.symm.trans planned)
  have ran : h.Ran instances batch a ended.2 d' p tried := by
    refine ⟨carried, after.around, left, after.committed, fun past among got => ?_⟩
    rw [show ended.2.world.log = a.world.log from congrArg Outside.log after.around, left]
    exact carried.pending_past linked keeps logged plan among got
  rcases carried.past_or_stop rfl with ⟨going, all, map⟩ | ⟨st, others, stops, parts, ends, map⟩
  · rw [Step.statements_each] at all
    refine .inl ⟨⟨p.lastApplied, ?_⟩, ran.all linked keeps distinct first (all ▸ page) map⟩
    rw [result, Progress.result, going]
    rfl
  · rw [Step.statements_each] at parts
    obtain ⟨past, rest, same, more, length, worked⟩ :=
      ran.stopped linked keeps distinct first (parts ▸ page) ends map
    refine .inr ⟨past, rest, same, more, ?_, worked⟩
    rw [result, Progress.result, stops, if_pos rfl, carried.lastApplied_each, length, Nat.zero_add]

end Update

/-- Surroundings in which the time of a pause goes by, unless a token is cancelled, and nothing that a
handler works with changes meanwhile. -/
structure Surroundings.Patient (around : Surroundings) : Prop where
  waits : ∀ ms token w, w.tokens.isCancelled token = false → (around (.pause ms token) w).1 = true
  outside : ∀ ms token w, (around (.pause ms token) w).2.outside = w.outside
  data : ∀ ms token w, (around (.pause ms token) w).2.store.data = w.store.data

section Trigger

variable {h : Handler} {instances : List InstanceId} {around : Surroundings} {task : Nat}
  {ctx : Context} {a : Audit} {events : List Event} {batch : List Statement}

open ReadModel.Frame

theorem upholds_pause (patient : around.Patient) {ms : Nat} {token : Token}
    (uncancelled : a.world.tokens.isCancelled token = false) {post : Bool → Audit → Prop}
    (rest : ∀ b : Audit, b.world.outside = a.world.outside →
      b.world.store.data = a.world.store.data → b.ledger = a.ledger → post true b) :
    (Setting.alone (Audit.answer around task)).Upholds post (askTask (.pause ms token)) a := by
  rintro t rfl _
  refine ⟨trivial, ?_⟩
  have ended := rest (Audit.answer around task (.task (.pause ms token)) a).2
    (patient.outside ms token a.world) (patient.data ms token a.world) rfl
  rw [← patient.waits ms token a.world uncancelled] at ended
  exact ended

/-- A page is got past, or all its retries are used up. -/
theorem Handler.upholds_applyWithRetries (patient : around.Patient)
    (keeps : h.registry.KeepsIdentity) (retries offset : Nat) (linked : a.world.log.Linked)
    (calm : Calm ctx.token a.world.outside)
    (first : events <+: a.world.log.pending h instances a.world.store.data)
    (page : h.registry.reduceAll events = .ok batch) (some : events ≠ []) :
    (Setting.alone (Audit.answer around task)).Upholds (fun result b =>
      (result = .ok () ∧ ∃ stops, h.Worked instances stops events a b) ∨
        (∃ last, result = .error (.someStatementsFailed last)) ∧
          ∃ past, h.Worked instances (retries + 1) past a b)
      (h.applyWithRetries ctx retries offset batch).run a := by
  induction retries generalizing a events batch offset with
  | zero =>
    unfold applyWithRetries
    refine upholds_seq (Setting.Upholds.bind (d := (h.update ctx batch).run) (.of_run ?_))
    rcases h.update_works ctx around task linked keeps calm first page some with
      ⟨⟨last, applied⟩, worked⟩ | ⟨past, rest, _, _, failed, worked⟩
    · rw [applied]
      exact .inl ⟨rfl, 0, worked⟩
    · rw [failed]
      exact .inr ⟨⟨_, rfl⟩, past, worked⟩
  | succ retries ih =>
    unfold applyWithRetries
    refine upholds_seq (Setting.Upholds.bind (d := (h.update ctx batch).run) (.of_run ?_))
    rcases h.update_works ctx around task linked keeps calm first page some with
      ⟨⟨last, applied⟩, worked⟩ | ⟨past, rest, rfl, left, failed, worked⟩
    · rw [applied]
      exact .inl ⟨rfl, 0, worked⟩
    · rw [failed]
      generalize ((h.update ctx batch).run.run (Audit.answer around task) a).2 = ended at worked
      have again : ∀ offset, (Setting.alone (Audit.answer around task)).Upholds (fun result b =>
          (result = .ok () ∧ ∃ stops, h.Worked instances stops (past ++ rest) a b) ∨
            (∃ last, result = .error (.someStatementsFailed last)) ∧
              ∃ past, h.Worked instances (retries + 1 + 1) past a b)
          (do
            if ← askTask (.pause h.config.retryFailedAfter ctx.token) then
              h.applyWithRetries ctx retries offset (batch.drop past.length)
            else throw .cancelled : Action Unit).run ended := by
        intro offset
        have uncancelled : ∀ token, ended.world.tokens.isCancelled token =
            a.world.tokens.isCancelled token := by
          intro token
          rw [show ended.world.tokens = a.world.tokens from congrArg Outside.tokens worked.outside]
        refine upholds_seq (Setting.Upholds.bind (upholds_pause patient
          ((uncancelled _).trans calm.uncancelled) fun b outside data ledger => ?_))
        have until_ := worked.trans (.still outside data ledger) linked
        rw [List.append_nil] at until_
        have drop := Registry.reduceAll_drop page past.length
        rw [List.drop_left] at drop
        have next : rest <+: b.world.log.pending h instances b.world.store.data := by
          rwa [until_.pending, List.prefix_append_right_inj] at first
        refine (ih offset (until_.log ▸ linked) (until_.calm calm) next drop left).mono ?_
        rintro result c (⟨ends, stops, worked⟩ | ⟨ends, later, worked⟩)
        · exact .inl ⟨ends, _, until_.trans worked linked⟩
        · refine .inr ⟨ends, past ++ later, ?_⟩
          rw [Nat.add_comm]
          exact until_.trans worked linked
      cases count : past.length with
      | zero =>
        rw [count] at again
        exact again (offset + 0)
      | succ n =>
        rw [count] at again
        exact again (offset + (n + 1))

/-- A trigger has got past all pending events, or it has used up its retries. -/
def Handler.Tried (h : Handler) (instances : List InstanceId) (a : Audit)
    (result : Except HandlerError Reach) (b : Audit) : Prop :=
  ∃ stops past, h.Worked instances stops past a b ∧
    ((result = .ok .caughtUp ∧ b.world.log.pending h instances b.world.store.data = []) ∨
      ((∃ last, result = .error (.someStatementsFailed last)) ∧ h.config.maxRetries < stops))

theorem Handler.Tried.after {stops : Nat} {past : List Event} {b c : Audit}
    {result : Except HandlerError Reach} (tried : h.Tried instances b result c)
    (worked : h.Worked instances stops past a b) (linked : a.world.log.Linked) :
    h.Tried instances a result c := by
  obtain ⟨more, later, next, ends⟩ := tried
  refine ⟨stops + more, past ++ later, worked.trans next linked, ends.imp_right ?_⟩
  rintro ⟨failed, used⟩
  exact ⟨failed, by omega⟩

variable (around task) in
theorem Handler.upholds_catchUp_tried (patient : around.Patient) (positive : 0 < h.config.bulkLimit)
    (keeps : h.registry.KeepsIdentity) {pages : Nat} (linked : a.world.log.Linked)
    (accepts : ∀ e ∈ a.world.log.events, ∃ st, h.registry.reduce e = .ok st)
    (calm : Calm ctx.token a.world.outside) (present : ctx.asOf = none)
    (enough : (a.world.log.pending h instances a.world.store.data).length / h.config.bulkLimit <
      pages) :
    (Setting.alone (Audit.answer around task)).Upholds (h.Tried instances a)
      (h.catchUp instances pages ctx).run a := by
  induction pages generalizing a ctx with
  | zero => exact absurd enough (Nat.not_lt_zero _)
  | succ pages ih =>
    rw [catchUp]
    refine upholds_seq (upholds_checkCancelled calm.uncancelled ?_)
    refine upholds_seq (h.upholds_searchQuery present fun s outside data ledger => ?_)
    refine upholds_seq (upholds_filter ?_)
    have until_ : h.Worked instances 0 [] a s := .still outside data ledger
    rw [h.filter_pageQuery]
    have log := until_.log
    rw [← log] at linked accepts
    rw [until_.pending, List.nil_append] at enough
    have calm := until_.calm calm
    have first := List.take_prefix h.config.bulkLimit
      (s.world.log.pending h instances s.world.store.data)
    have taken := List.length_take (i := h.config.bulkLimit)
      (l := s.world.log.pending h instances s.world.store.data)
    dsimp only
    split
    next empty =>
      have none := List.isEmpty_iff.mp empty
      rw [List.take_eq_nil_iff] at none
      exact ⟨0, [], until_, .inl ⟨rfl, none.resolve_left (by omega)⟩⟩
    next full =>
      generalize (s.world.log.pending h instances s.world.store.data).take
        h.config.bulkLimit = page at first taken full
      have some : page ≠ [] := fun none => full (by rw [none]; rfl)
      obtain ⟨batch, reduced⟩ := Registry.exists_reduceAll fun e member =>
        accepts e (EventLog.mem_pending.mp (first.subset member)).1
      refine upholds_seq ?_
      rw [process, reduced]
      refine (upholds_applyWithRetries patient keeps _ 0 linked calm first reduced some).mono ?_
      rintro result b (⟨rfl, stops, worked⟩ | ⟨⟨last, rfl⟩, past, worked⟩)
      · have log' := worked.log
        have left := worked.pending
        have count := congrArg List.length left
        rw [List.length_append] at count
        dsimp only
        split
        next short =>
          have none : b.world.log.pending h instances b.world.store.data = [] := by
            rw [← List.length_eq_zero_iff]
            omega
          exact Tried.after ⟨stops, page, worked, .inl ⟨rfl, none⟩⟩ until_ (log ▸ linked)
        next whole =>
          have fewer : (b.world.log.pending h instances b.world.store.data).length /
              h.config.bulkLimit < pages := by
            have less := Nat.div_eq_sub_div positive (show h.config.bulkLimit ≤
              (s.world.log.pending h instances s.world.store.data).length by omega)
            rw [show (b.world.log.pending h instances b.world.store.data).length =
              (s.world.log.pending h instances s.world.store.data).length - h.config.bulkLimit by
                omega]
            omega
          rw [← log'] at linked accepts
          have again : Calm ctx.readingAll.token b.world.outside := worked.calm calm
          refine (ih linked accepts again rfl fewer).mono ?_
          intro result c tried
          exact (tried.after worked (log' ▸ linked)).after until_ (log ▸ log' ▸ linked)
      · exact Tried.after ⟨_, past, worked, .inr ⟨⟨last, rfl⟩, Nat.lt_succ_self _⟩⟩ until_
          (log ▸ linked)

end Trigger

/-- The instances that a trigger brings up to date. -/
def Context.targets (ctx : Context) : List InstanceId → List InstanceId
  | [] => ctx.instanceId.toList
  | id :: rest => id :: rest

theorem Handler.trigger_eq (h : Handler) (pages : Nat) {ctx : Context} {given : List InstanceId}
    (some : ctx.targets given ≠ []) :
    h.trigger pages ctx given = h.catchUp (ctx.targets given) pages ctx := by
  unfold trigger
  cases given with
  | cons id rest => rfl
  | nil =>
    cases instance_ : ctx.instanceId with
    | some id => simp only [Context.targets, instance_, Option.toList_some]
    | none => simp [Context.targets, instance_] at some

/-- Triggers once for each context. -/
def Handler.triggers (h : Handler) (pages : Nat) (given : List InstanceId) :
    List Context → Task (List (Except HandlerError Reach))
  | [] => pure []
  | ctx :: rest => do
    let result ← (h.trigger pages ctx given).run
    let results ← h.triggers pages given rest
    return result :: results

section Triggers

variable {h : Handler} {instances given : List InstanceId} {around : Surroundings} {task : Nat}
  {a : Audit} {pages : Nat}

/-- Triggers that follow each other share what patience there is. -/
theorem Handler.upholds_triggers (patient : around.Patient) (positive : 0 < h.config.bulkLimit)
    (keeps : h.registry.KeepsIdentity) (some : instances ≠ []) {ctxs : List Context}
    (linked : a.world.log.Linked)
    (accepts : ∀ e ∈ a.world.log.events, ∃ st, h.registry.reduce e = .ok st)
    (calm : ∀ ctx ∈ ctxs, Calm ctx.token a.world.outside) (present : ∀ ctx ∈ ctxs, ctx.asOf = none)
    (targets : ∀ ctx ∈ ctxs, ctx.targets given = instances)
    (enough : (a.world.log.pending h instances a.world.store.data).length / h.config.bulkLimit <
      pages) :
    (Setting.alone (Audit.answer around task)).Upholds (fun results b =>
      ∃ stops past, h.Worked instances stops past a b ∧
        (∀ result ∈ results, result = .ok .caughtUp ∨
          ∃ last, result = .error (.someStatementsFailed last)) ∧
        results.countP (fun result => !result.isOk) * (h.config.maxRetries + 1) ≤ stops ∧
        (.ok .caughtUp ∈ results → b.world.log.pending h instances b.world.store.data = []))
      (h.triggers pages given ctxs) a := by
  induction ctxs generalizing a with
  | nil => exact ⟨0, [], .still rfl rfl rfl, by simp, by simp, by simp⟩
  | cons ctx rest ih =>
    have ours := targets ctx (List.mem_cons_self ..)
    have start := h.trigger_eq pages (ours ▸ some : ctx.targets given ≠ [])
    rw [ours] at start
    unfold triggers
    refine Setting.Upholds.bind ?_
    rw [start]
    refine (upholds_catchUp_tried around task patient positive keeps linked accepts
      (calm ctx (List.mem_cons_self ..)) (present ctx (List.mem_cons_self ..)) enough).mono ?_
    rintro result b ⟨stops, past, worked, ends⟩
    have log := worked.log
    have fewer : (b.world.log.pending h instances b.world.store.data).length /
        h.config.bulkLimit < pages := by
      refine Nat.lt_of_le_of_lt (Nat.div_le_div_right ?_) enough
      rw [worked.pending, List.length_append]
      omega
    refine Setting.Upholds.bind ((ih (log ▸ linked) (log ▸ accepts)
      (fun ctx member => worked.calm (calm ctx (List.mem_cons_of_mem _ member)))
      (fun ctx member => present ctx (List.mem_cons_of_mem _ member))
      (fun ctx member => targets ctx (List.mem_cons_of_mem _ member)) fewer).mono ?_)
    rintro results c ⟨more, later, next, kinds, count, reached⟩
    refine ⟨stops + more, past ++ later, worked.trans next linked, ?_, ?_, ?_⟩
    · intro other member
      rcases List.mem_cons.mp member with rfl | later
      · exact ends.imp And.left And.left
      · exact kinds other later
    · rcases ends with ⟨rfl, _⟩ | ⟨⟨last, rfl⟩, used⟩
      · rw [List.countP_cons_of_neg Bool.false_ne_true]
        omega
      · rw [List.countP_cons_of_pos rfl, Nat.add_mul]
        omega
    · intro member
      rcases List.mem_cons.mp member with same | later
      · -- after a trigger that has succeeded nothing is pending any more
        have none : b.world.log.pending h instances b.world.store.data = [] := by
          rcases ends with ⟨_, none⟩ | ⟨⟨last, rfl⟩, _⟩
          · exact none
          · cases same
        have left := next.pending
        rw [none] at left
        exact (List.append_eq_nil_iff.mp left.symm).2
      · exact reached later

end Triggers

/-- Events that always fail do not block a projection. Triggers that are repeated fail only as long as
there is patience left with such events, and each that fails uses up one more than its retries. Once
a trigger has succeeded, all pending events are done with: each was applied once, in the order of the
log, unless it always fails, when it has failed once more often than is allowed. -/
theorem Handler.triggers_outlast_poison (h : Handler) (instances given : List InstanceId)
    (ctxs : List Context) {around : Surroundings} (patient : around.Patient) (task : Nat)
    {w : World} {pages : Nat} (pushed : w.log.Pushed) (keeps : h.registry.KeepsIdentity)
    (accepts : ∀ e ∈ w.log.events, ∃ st, h.registry.reduce e = .ok st)
    (calm : ∀ ctx ∈ ctxs, Calm ctx.token w.outside) (present : ∀ ctx ∈ ctxs, ctx.asOf = none)
    (targets : ∀ ctx ∈ ctxs, ctx.targets given = instances) (some : instances ≠ [])
    (positive : 0 < h.config.bulkLimit)
    (enough : (w.log.pending h instances w.store.data).length / h.config.bulkLimit < pages) :
    let pending := w.log.pending h instances w.store.data
    let poison := pending.filter (h.poisoned w.store.faults)
    let ended := (h.triggers pages given ctxs).run (Audit.answer around task) ⟨w, {}⟩
    let data := ended.2.world.store.data
    (∀ result ∈ ended.1,
      result = .ok .caughtUp ∨ ∃ last, result = .error (.someStatementsFailed last)) ∧
    ended.1.countP (fun result => !result.isOk) ≤
      (poison.map fun e => h.config.maxFailureCount - h.failures w.store.data e).sum /
        (h.config.maxRetries + 1) ∧
    (.ok .caughtUp ∈ ended.1 →
      (∀ e ∈ pending, e.sequence ≤ data.stands h.name e.key) ∧
      ended.2.ledger.committed = h.soundOperations w.store.faults pending ∧
      data.tables = w.store.data.tables.replay (h.soundOperations w.store.faults pending) ∧
      ∀ e ∈ poison,
        h.failures data e = max h.config.maxFailureCount (h.failures w.store.data e) + 1) := by
  intro pending poison ended data
  have linked := pushed.linked
  have upheld : (Setting.alone (Audit.answer around task)).Upholds _ (h.triggers pages given ctxs)
      ⟨w, {}⟩ :=
    Handler.upholds_triggers patient positive keeps some linked accepts calm present targets enough
  obtain ⟨stops, past, worked, kinds, count, reached⟩ := upheld.run
  refine ⟨kinds, ?_, fun succeeded => ?_⟩
  · rw [Nat.le_div_iff_mul_le (Nat.succ_pos _)]
    refine Nat.le_trans count (Nat.le_trans (Nat.le_add_left _ _) (Nat.le_of_eq worked.spent))
  · have none := reached succeeded
    have whole := worked.pending
    rw [none, List.append_nil] at whole
    obtain rfl : pending = past := whole
    refine ⟨fun e member => ?_, ?_, worked.tables, fun e member => ?_⟩
    · obtain ⟨inLog, follows, _⟩ := EventLog.mem_pending.mp member
      by_contra above
      have left : e ∈ ended.2.world.log.pending h instances data := by
        rw [EventLog.mem_pending, worked.log]
        exact ⟨inLog, follows, Nat.lt_of_not_le above⟩
      rw [none] at left
      cases left
    · rw [worked.committed]
      rfl
    · obtain ⟨listed, poisoned⟩ := List.mem_filter.mp member
      exact worked.passed e listed poisoned

/-- Surroundings in which nobody else is there and the time of a pause goes by. -/
def Surroundings.waiting : Surroundings
  | .pause ms token, w => (!w.tokens.isCancelled token, { w with clock := w.clock + ms })
  | call, w => Surroundings.still call w

theorem Surroundings.waiting_patient : Surroundings.waiting.Patient where
  waits _ _ _ uncancelled := by
    simp only [waiting, uncancelled]
    rfl
  outside _ _ _ := rfl
  data _ _ _ := rfl

/-- The second of three organizations can never be stored. Of two triggers with one retry each one
succeeds, though three failures are allowed. -/
theorem Handler.triggers_outlast_poison_of_second :
    let h : Handler :=
      { orgsHandler with config := { bulkLimit := 2, maxRetries := 1, maxFailureCount := 3 } }
    let w : World :=
      { threeOrgs with store.faults.values := [⟨"projections.orgs", "name", .text "2"⟩] }
    let ended := (h.triggers 2 [⟨"a"⟩] (List.replicate 2 { token := ⟨0, []⟩ })).run
      (Audit.answer .waiting 0) ⟨w, {}⟩
    ended.1.countP (fun result => !result.isOk) ≤ 1 ∧ .ok .caughtUp ∈ ended.1 ∧
      ended.2.ledger.committed.length = 2 := by
  intro h w ended
  have pending : (w.log.pending h [⟨"a"⟩] w.store.data).length = 3 := by decide +kernel
  have enough : (w.log.pending h [⟨"a"⟩] w.store.data).length / 2 < 2 := by
    rw [pending]
    decide
  have willing : h.Willing threeOrgs.outside := by decide +kernel
  obtain ⟨kinds, failed, settled⟩ := h.triggers_outlast_poison [⟨"a"⟩] [⟨"a"⟩]
    (List.replicate 2 { token := ⟨0, []⟩ }) Surroundings.waiting_patient 0 (w := w)
    (.push _ _ .empty) Orgs.keepsIdentity willing.accepts
    (fun ctx member => by rw [List.eq_of_mem_replicate member]; exact ⟨rfl, rfl, rfl⟩)
    (fun ctx member => by rw [List.eq_of_mem_replicate member])
    (fun ctx member => rfl) (List.cons_ne_nil _ _) (by decide) enough
  have patience : (((w.log.pending h [⟨"a"⟩] w.store.data).filter
      (h.poisoned w.store.faults)).map fun e =>
        h.config.maxFailureCount - h.failures w.store.data e).sum / (h.config.maxRetries + 1) = 1 := by
    decide +kernel
  have count : ended.1.length = 2 := by decide +kernel
  have sound : (h.soundOperations w.store.faults
      (w.log.pending h [⟨"a"⟩] w.store.data)).length = 2 := by decide +kernel
  rw [patience] at failed
  have succeeded : .ok .caughtUp ∈ ended.1 := by
    by_contra none
    have all : ended.1.countP (fun result => !result.isOk) = ended.1.length := by
      refine List.countP_eq_length.mpr fun result member => ?_
      rcases kinds result member with rfl | ⟨last, rfl⟩
      · exact absurd member none
      · rfl
    have bound : ended.1.length ≤ 1 := all ▸ failed
    rw [count] at bound
    exact absurd bound (by decide)
  exact ⟨failed, succeeded, (congrArg List.length (settled succeeded).2.1).trans sound⟩

end ReadModel
