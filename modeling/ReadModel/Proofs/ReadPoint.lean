import ReadModel.Proofs.Advancing
import ReadModel.Proofs.Patience

/-!
Reading as of a point in time.

A trigger that reads as of a date fetches the pending events that were created by then. But an event
that is missing before one of them is applied as well, whenever it was created: what is done are the
events that are due (`EventLog.due`), which are all up to the last one of their key that was created by
the date.
-/

namespace ReadModel

namespace EventLog

/-- The pending events that were created by a date. -/
def pendingBy (log : EventLog) (h : Handler) (instances : List InstanceId) (d : StoreData)
    (date : Instant) : List Event :=
  (log.pending h instances d).filter fun e => !date.before e.creationDate

/-- The pending events that were created by a date, and those of their keys before them. -/
def due (log : EventLog) (h : Handler) (instances : List InstanceId) (d : StoreData)
    (date : Instant) : List Event :=
  (log.pending h instances d).filter fun e => (log.pendingBy h instances d date).any fun f =>
    decide (f.key = e.key) && decide (e.sequence ≤ f.sequence)

variable {log : EventLog} {h : Handler} {instances : List InstanceId} {d : StoreData} {date : Instant}
  {e : Event}

theorem mem_pendingBy : e ∈ log.pendingBy h instances d date ↔
    e ∈ log.pending h instances d ∧ date.before e.creationDate = false := by
  simp [pendingBy]

theorem mem_due : e ∈ log.due h instances d date ↔
    e ∈ log.pending h instances d ∧
      ∃ f ∈ log.pendingBy h instances d date, f.key = e.key ∧ e.sequence ≤ f.sequence := by
  simp [due]

theorem due_eq_nil (none : log.pendingBy h instances d date = []) :
    log.due h instances d date = [] := by
  rw [List.eq_nil_iff_forall_not_mem]
  intro e member
  obtain ⟨_, f, listed, _⟩ := mem_due.mp member
  rw [none] at listed
  cases listed

end EventLog

namespace Handler

/-- The query for the next page of some instances as of a point in time, if there is one. -/
def queryUntil (h : Handler) (asOf : Option Instant) (current : SequenceMap)
    (instances : List InstanceId) : SearchQuery where
  clauses := instances.flatMap fun id => h.registry.aggregateTypes.map fun aggregateType =>
    { pageClause current ⟨aggregateType, id⟩ with createdUntil := asOf }
  limit := some h.config.bulkLimit

/-- A page as of a date has the first of the pending events that were created by then. -/
theorem filter_queryUntil (h : Handler) (log : EventLog) (d : StoreData) (date : Instant)
    (instances : List InstanceId) :
    log.filter (h.queryUntil (some date) (SequenceMap.ofRows (d.currentSequences h.name fun key =>
      decide (key.instanceId ∈ instances))) instances) =
      (log.pendingBy h instances d date).take h.config.bulkLimit := by
  have asked (e : Event) (c : QueryClause) (unbounded : c.createdUntil = none) :
      ({ c with createdUntil := some date }).matches e =
        (c.matches e && !date.before e.creationDate) := by
    simp [QueryClause.matches, unbounded]
  have matches_ (current : SequenceMap) (e : Event) :
      (h.queryUntil (some date) current instances).matches e =
        ((h.pageQuery current instances).matches e && !date.before e.creationDate) := by
    simp only [queryUntil, pageQuery, SearchQuery.matches, List.any_flatMap, List.any_map,
      Function.comp_def, asked e (pageClause ..) rfl]
    cases date.before e.creationDate <;> simp
  rw [EventLog.filter, SearchQuery.select]
  show List.take _ _ = _
  rw [EventLog.pendingBy, EventLog.pending, List.filter_filter]
  congr 1
  refine List.filter_congr fun e _ => ?_
  rw [matches_, Bool.eq_iff_iff]
  simp only [Bool.and_eq_true, matches_pageQuery, Follows, decide_eq_true_eq]
  constructor
  · rintro ⟨⟨⟨listed, handled⟩, above⟩, early⟩
    exact ⟨early, listed, handled, above⟩
  · rintro ⟨early, listed, handled, above⟩
    exact ⟨⟨⟨listed, handled⟩, above⟩, early⟩

section Due

variable {h : Handler} {log : EventLog} {instances : List InstanceId} {d : StoreData} {date : Instant}
  {batch : List Statement}

/-- What a page as of a date gets the keys to is what is due. -/
theorem between_reach (keeps : h.registry.KeepsIdentity)
    (page : h.registry.reduceAll (log.pendingBy h instances d date) = .ok batch) (key : SequenceKey) :
    log.between key (d.stands h.name key) (max (d.stands h.name key) (Statement.reach key batch)) =
      (log.due h instances d date).filter fun e => decide (e.key = key) := by
  rw [EventLog.due, EventLog.pending, List.filter_filter, List.filter_filter, EventLog.between]
  refine List.filter_congr fun e inLog => ?_
  rw [Bool.eq_iff_iff]
  simp only [Bool.and_eq_true, decide_eq_true_eq, List.any_eq_true]
  constructor
  · rintro ⟨rfl, above, below⟩
    have some : ∃ st ∈ batch, st.key = e.key := by
      by_contra none
      rw [Statement.reach_eq_zero fun st member ours => none ⟨st, member, ours⟩] at below
      omega
    -- the last event of the key in the page is the one that makes the others due
    obtain ⟨st, inBatch, ours, largest⟩ := Statement.exists_reach some
    obtain ⟨f, inPage, reduced⟩ := Registry.exists_event page inBatch
    have same : f.key = e.key := (keeps.key reduced).symm.trans ours
    have last := (keeps.sequence reduced).symm.trans largest
    have follows := (EventLog.mem_pending.mp (EventLog.mem_pendingBy.mp inPage).1).2.1
    rw [same] at follows
    exact ⟨⟨rfl, f, inPage, same, by omega⟩, follows.1, follows.2, above⟩
  · rintro ⟨⟨rfl, f, inPage, same, before⟩, _, _, above⟩
    obtain ⟨st, inBatch, reduced⟩ := Registry.exists_statement page inPage
    have bound := Statement.le_reach inBatch
    rw [keeps.key reduced, keeps.sequence reduced, same] at bound
    exact ⟨rfl, above, by omega⟩

end Due

/-- What a call leaves that has done what is due as of a date, and nothing else. -/
def Settled (h : Handler) (instances : List InstanceId) (date : Instant) (a b : Audit) : Prop :=
  ∃ run, h.Advanced run a b ∧ ∀ key, run.filter (fun e => decide (e.key = key)) =
    (a.world.log.due h instances a.world.store.data date).filter fun e => decide (e.key = key)

section Trigger

variable {h : Handler} {instances : List InstanceId} {around : Surroundings} {task : Nat}
  {ctx : Context} {a b : Audit} {date : Instant}

theorem Settled.after (settled : h.Settled instances date b c) (unmoved : a.Unmoved b)
    (linked : a.world.log.Linked) : h.Settled instances date a c := by
  obtain ⟨run, advanced, due⟩ := settled
  refine ⟨run, (Advanced.still unmoved).trans advanced linked, fun key => ?_⟩
  rw [due, unmoved.data, show b.world.log = a.world.log from unmoved.like.log]

theorem upholds_process_amid (quiet : around.Quiet) (keeps : h.registry.KeepsIdentity)
    {events : List Event} (linked : a.world.log.Linked) (among : ∀ e ∈ events, e ∈ a.world.log.events)
    (shown : a.world.hidden = fun _ => false) :
    (Setting.amid around task).Upholds (fun result b => result = .ok () →
        ∃ batch, h.registry.reduceAll events = .ok batch ∧ h.Applied batch a b)
      (h.process ctx events).run a := by
  unfold process
  cases reduced : h.registry.reduceAll events with
  | error e => exact fun ended => nomatch ended
  | ok batch =>
    have logged := Registry.logged_of_reduceAll reduced among
    refine (upholds_applyWithRetries_amid quiet keeps _ 0 linked logged shown).mono ?_
    exact fun result b applied ended => ⟨batch, rfl, applied ended⟩

theorem upholds_searchQuery_amid {post : Except HandlerError SearchQuery → Audit → Prop}
    (rest : ∀ b, a.Unmoved b → post (.ok (h.queryUntil ctx.asOf (SequenceMap.ofRows
      (a.world.store.data.currentSequences h.name fun key =>
        decide (key.instanceId ∈ instances))) instances)) b) :
    (Setting.amid around task).Upholds post (h.searchQuery ctx instances).run a :=
  upholds_seq (Setting.Upholds.bind (upholds_currentSequences_amid fun b unmoved => rest b unmoved))

/-- A trigger as of a date that gets through with its first page has done what is due. -/
theorem upholds_catchUp_amid (quiet : around.Quiet) (keeps : h.registry.KeepsIdentity) (pages : Nat)
    (linked : a.world.log.Linked) (shown : a.world.hidden = fun _ => false)
    (asOf : ctx.asOf = some date)
    (fits : (a.world.log.pendingBy h instances a.world.store.data date).length < h.config.bulkLimit) :
    (Setting.amid around task).Upholds
      (fun result b => result = .ok .caughtUp → h.Settled instances date a b)
      (h.catchUp instances pages ctx).run a := by
  cases pages with
  | zero =>
    intro ended
    cases ended
  | succ pages =>
    rw [catchUp]
    refine upholds_seq (upholds_checkCancelled_amid (fun b _ ended => by cases ended) fun b first => ?_)
    refine upholds_seq (upholds_searchQuery_amid fun c second => ?_)
    refine upholds_seq (upholds_filter_amid fun d third => ?_)
    have until_ := (first.trans second).trans third
    rw [show c.world.log = a.world.log from (first.trans second).like.log, first.data, asOf,
      filter_queryUntil, List.take_of_length_le (Nat.le_of_lt fits)]
    have log : d.world.log = a.world.log := until_.like.log
    dsimp only
    split
    next empty =>
      refine fun _ => ⟨[], .still until_, fun key => ?_⟩
      rw [EventLog.due_eq_nil (List.isEmpty_iff.mp empty)]
    next =>
      have listed : ∀ e ∈ a.world.log.pendingBy h instances a.world.store.data date,
          e ∈ d.world.log.events := by
        intro e member
        rw [log]
        exact (EventLog.mem_pending.mp (EventLog.mem_pendingBy.mp member).1).1
      refine upholds_seq ((upholds_process_amid quiet keeps (log ▸ linked) listed
        (until_.like.hidden.trans shown)).mono ?_)
      rintro (e | _) b ended
      · intro same
        cases same
      · obtain ⟨batch, reduced, run, advanced, stands⟩ := ended rfl
        dsimp only
        refine fun _ => Settled.after ⟨run, advanced, fun key => ?_⟩ until_ linked
        rw [advanced.ofKey, stands, log, until_.data]
        exact between_reach keeps reduced key

end Trigger

theorem trigger_of_targets (h : Handler) (pages : Nat) {ctx : Context} {given : List InstanceId}
    (none : ctx.targets given = []) : h.trigger pages ctx given = throw .noInstance := by
  cases given with
  | nil =>
    have noInstance : ctx.instanceId = .none := Option.toList_eq_nil_iff.mp none
    unfold trigger
    rw [noInstance]
  | cons id rest => cases none

/-- A trigger as of a date that ends well has applied what is due by then, if its page takes all pending
events that were created by the date: of each key the events up to the last one that was created by
then, once and in the order of the log. So an event that was created later is applied exactly if it is
missing before one of its key that was created by the date. -/
theorem trigger_as_of (h : Handler) (pages : Nat) (ctx : Context) (given : List InstanceId)
    {date : Instant} {around : Surroundings} (quiet : around.Quiet) (task : Nat) (tokens : Nat → Tokens)
    {w : World} (pushed : w.log.Pushed) (keeps : h.registry.KeepsIdentity)
    (shown : w.hidden = fun _ => false) (asOf : ctx.asOf = some date)
    (fits : (w.log.pendingBy h (ctx.targets given) w.store.data date).length < h.config.bulkLimit) :
    let pending := w.log.pending h (ctx.targets given) w.store.data
    let ended := (h.trigger pages ctx given).run.run (Audit.answerAmid tokens around task)
      { audit := ⟨w, {}⟩ }
    ended.1 = .ok .caughtUp → ∃ run,
      ended.2.audit.ledger.committed = h.soundOperations w.store.faults run ∧
      ended.2.audit.world.store.data.tables =
        w.store.data.tables.replay (h.soundOperations w.store.faults run) ∧
      (∀ key, run.filter (fun e => decide (e.key = key)) =
        (w.log.due h (ctx.targets given) w.store.data date).filter fun e => decide (e.key = key)) ∧
      ∀ e, date.before e.creationDate = true → (e ∈ run ↔ e ∈ pending ∧ ∃ f ∈ pending,
        f.key = e.key ∧ e.sequence < f.sequence ∧ date.before f.creationDate = false) := by
  intro pending ended caughtUp
  have some : ctx.targets given ≠ [] := by
    intro none
    simp only [ended, h.trigger_of_targets pages none] at caughtUp
    cases caughtUp
  have settles : (Setting.amid around task).Upholds
      (fun result b => result = .ok .caughtUp → h.Settled (ctx.targets given) date ⟨w, {}⟩ b)
      (h.trigger pages ctx given).run ⟨w, {}⟩ := by
    rw [h.trigger_eq pages some]
    exact upholds_catchUp_amid quiet keeps pages pushed.linked shown asOf fits
  obtain ⟨run, advanced, due⟩ := settles.run_amid _ tokens (s := { audit := ⟨w, {}⟩ }) caughtUp
  refine ⟨run, advanced.committed, advanced.tables, due, fun e late => ?_⟩
  have among : e ∈ run ↔ e ∈ w.log.due h (ctx.targets given) w.store.data date := by
    have ofKey := congrArg (e ∈ ·) (due e.key)
    simpa only [List.mem_filter, decide_eq_true_eq, and_true, eq_iff_iff] using ofKey
  rw [among, EventLog.mem_due]
  refine and_congr_right fun listed => exists_congr fun f => ?_
  rw [EventLog.mem_pendingBy]
  constructor
  · rintro ⟨⟨listed', early⟩, same, before⟩
    refine ⟨listed', same, Nat.lt_of_le_of_ne before fun equal => ?_, early⟩
    obtain rfl := pushed.linked.eq_of_sequence (EventLog.mem_pending.mp listed).1
      (EventLog.mem_pending.mp listed').1 equal
    rw [late] at early
    cases early
  · rintro ⟨listed', same, before, early⟩
    exact ⟨⟨listed', early⟩, same, Nat.le_of_lt before⟩

end Handler

/-- The world in which an organization was added after another was, but is said to have been created
before. -/
def predated : World :=
  { threeOrgs with
    log := ((EventLog.push {} ⟨2, 0⟩ [⟨⟨"org"⟩, ⟨"1"⟩, ⟨"a"⟩, ⟨"org.added"⟩,
      .object [("name", .text "1")]⟩]).2.push ⟨0, 0⟩ [⟨⟨"org"⟩, ⟨"2"⟩, ⟨"a"⟩, ⟨"org.added"⟩,
        .object [("name", .text "2")]⟩]).2 }

/-- A trigger as of a date between them applies both events, the one that was created later as well. -/
theorem Handler.trigger_as_of_of_predated :
    let ctx : Context := { asOf := some ⟨1, 0⟩, token := ⟨0, []⟩ }
    let ended := (orgsHandler.trigger 1 ctx [⟨"a"⟩]).run.run
      (Audit.answerAmid (fun _ => {}) .still 0) { audit := ⟨predated, {}⟩ }
    ended.1 = .ok .caughtUp ∧ ∃ run : List Event, (∃ e ∈ run, e.creationDate = ⟨2, 0⟩) ∧
      ended.2.audit.ledger.committed = orgsHandler.soundOperations {} run := by
  intro ctx ended
  have caughtUp : ended.1 = .ok .caughtUp := by
    have option : ended.1.toOption = some .caughtUp := by decide +kernel
    revert option
    cases ended.1 <;> simp [Except.toOption]
  obtain ⟨run, committed, _, _, late⟩ := orgsHandler.trigger_as_of 1 ctx [⟨"a"⟩]
    Surroundings.still_quiet 0 (fun _ => {}) (w := predated) (.push _ _ (.push _ _ .empty))
    Orgs.keepsIdentity rfl rfl (by decide +kernel) caughtUp
  have pending (e : Event) (inLog : e ∈ predated.log.events)
      (follows : orgsHandler.Follows [⟨"a"⟩] e.key)
      (above : predated.store.data.stands orgsHandler.name e.key < e.sequence) :
      e ∈ predated.log.pending orgsHandler [⟨"a"⟩] predated.store.data :=
    EventLog.mem_pending.mpr ⟨inLog, follows, above⟩
  have first := pending (predated.log.events.head (by decide +kernel)) (List.head_mem _)
    ⟨by decide +kernel, by decide +kernel⟩ (by decide +kernel)
  have second := pending (predated.log.events.getLast (by decide +kernel)) (List.getLast_mem _)
    ⟨by decide +kernel, by decide +kernel⟩ (by decide +kernel)
  exact ⟨caughtUp, run, ⟨_, (late _ (by decide +kernel)).mpr
    ⟨first, _, second, by decide +kernel, by decide +kernel, by decide +kernel⟩, by decide +kernel⟩,
    committed⟩

end ReadModel
