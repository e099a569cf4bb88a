import ReadModel.Proofs.CatchUp
import ReadModel.Proofs.Reaching

/-!
Batches that leave nothing behind.

A batch of a sweep that succeeds has reached all events of its instances that are older than the sweep
(`Scene.Clear`). Others may push events and bring keys forward all the time; what they push is younger.
-/

namespace ReadModel

/-- Every event of some instances that is older than a limit is reached; the limit lies in the past. -/
structure Scene.Clear (s : Scene) (h : Handler) (limit : Instant) (among : InstanceId → Prop) :
    Prop where
  past : s.world.today.before limit = false
  reached : ∀ e ∈ s.world.log.events, e.creationDate.before limit = true →
    h.registry.handles e.aggregateType = true → among e.instanceId →
    e.sequence ≤ s.world.store.data.stands h.name e.key

/-- An event that is older than a limit in the past was there before. -/
theorem Scene.Onward.older_than {s t : Scene} (onward : s.Onward t) {limit : Instant}
    (past : s.world.today.before limit = false) {e : Event} (member : e ∈ t.world.log.events)
    (older : e.creationDate.before limit = true) : e ∈ s.world.log.events := by
  refine (onward.older e member).resolve_right fun young => ?_
  rw [Instant.before_of_not_before older past] at young
  cases young

theorem Scene.Clear.onward {s t : Scene} {h : Handler} {limit : Instant}
    {among : InstanceId → Prop} (clear : s.Clear h limit among) (onward : s.Onward t) :
    t.Clear h limit among where
  past := Instant.not_before_trans clear.past onward.later
  reached e member older handled listed :=
    (clear.reached e (onward.older_than clear.past member older) older handled listed).trans
      (onward.raised _ _)

/-- Once the events are reached that are pending in the log for a storage of earlier, no older ones are
left. -/
theorem Scene.clear_of_pending {s t u : Scene} {h : Handler} {limit : Instant}
    {instances : List InstanceId} (fromRows : s.Onward u) (fromLog : t.Onward u)
    (past : t.world.today.before limit = false)
    (reached : ∀ e ∈ t.world.log.pending h instances s.world.store.data,
      e.sequence ≤ u.world.store.data.stands h.name e.key) :
    u.Clear h limit (· ∈ instances) where
  past := Instant.not_before_trans past fromLog.later
  reached e member older handled listed := by
    have inLog := fromLog.older_than past member older
    by_cases above : s.world.store.data.stands h.name e.key < e.sequence
    · exact reached e (EventLog.mem_pending.mpr ⟨inLog, ⟨listed, handled⟩, above⟩)
    · exact (Nat.le_of_not_lt above).trans (fromRows.raised _ _)

/-- An actor asks the log, which may fail. -/
theorem Actor.Among.source {a : Actor} {S : Setting handlerInterface Scene} (among : a.Among S)
    {β : Type} {s : Scene} (sane : s.Sane) {call : SourceCall} {next : call.Value → Action β}
    {post : Except HandlerError β → Scene → Prop}
    (failed : ∀ t e, a.Undisturbed s t → post (.error e) t)
    (rest : ∀ t, a.Undisturbed s t → a.Undisturbed t (t.answerSource call).2 →
      S.Upholds post (next (t.world.answerSource call).1).run (t.answerSource call).2) :
    S.Upholds post (askSource call >>= next).run s := by
  have quiet : ∀ (b : Actor) t, a.Undisturbed s t →
      b.Undisturbed t (Scene.answer a.number (.source call) t).2 :=
    fun _ t moved => .of_quiet (moved.sane sane) a.number (by simp)
  refine .source among.answer (fun t other _ => among.self_iff.mpr fun b _ => ?_)
    (fun t e other => failed t e (among.others other)) fun t other _ => ?_
  · exact quiet b t (among.others other)
  · exact rest t (among.others other) (quiet a t (among.others other))

namespace Handler

variable {a : Actor} {S : Setting handlerInterface Scene} {s : Scene} {h : Handler} {ctx : Context}

theorem upholds_applyWithRetries_reached (among : a.Among S) {retries offset : Nat}
    {statements : List Statement} (free : a.Free s) :
    S.Upholds (fun result t => a.Free t ∧ (result = .ok () →
        ∀ st ∈ statements, st.sequence ≤ t.world.store.data.stands h.name st.key))
      (h.applyWithRetries ctx retries offset statements).run s := by
  induction retries using Nat.strongRecOn generalizing offset statements s with
  | _ retries ih =>
    rw [applyWithRetries]
    refine upholds_seq (Setting.Upholds.bind (d := (h.update ctx statements).run)
      ((upholds_update_reached among free).mono ?_))
    rintro (e | last) t ⟨free, reported⟩
    · cases e with
      | someStatementsFailed last =>
        have first : ∀ st ∈ statements.take (HandlerError.someStatementsFailed last).applied,
            st.sequence ≤ t.world.store.data.stands h.name st.key := by
          intro st member
          obtain ⟨k, inside, rfl⟩ := List.mem_take_iff_getElem.mp member
          have bound := Nat.lt_min.mp inside
          exact reported (List.getElem?_eq_getElem bound.2) bound.1
        cases retries with
        | zero => exact ⟨free, fun ends => by cases ends⟩
        | succ retries =>
          refine upholds_seq (among.quiet free.sane (by simp) fun u _ moved after => ?_)
          have there := (free.undisturbed moved).undisturbed after
          cases (Scene.answer a.number (.task (.pause h.config.retryFailedAfter ctx.token)) u).1 with
          | false => exact ⟨there, fun ends => by cases ends⟩
          | true =>
            refine (among.onward (ih retries (Nat.lt_succ_self _) there)).mono ?_
            rintro result v ⟨⟨free, rest⟩, onward⟩
            refine ⟨free, fun ends st member => ?_⟩
            have others : ∀ st ∈ statements.drop (HandlerError.someStatementsFailed last).applied,
                st.sequence ≤ v.world.store.data.stands h.name st.key := by
              cases last <;> exact rest ends
            rw [← List.take_append_drop (HandlerError.someStatementsFailed last).applied statements]
              at member
            rcases List.mem_append.mp member with early | late
            · have further := (moved.toOnward.trans after.toOnward).trans onward
              exact (first st early).trans (further.raised _ _)
            · exact others st late
      | _ => exact ⟨free, fun ends => by cases ends⟩
    · refine ⟨free, fun _ st member => ?_⟩
      obtain ⟨k, found⟩ := List.getElem?_of_mem member
      exact reported found trivial

/-- Events that are processed without an error are reached. -/
theorem upholds_process_reached (among : a.Among S) (keeps : h.registry.KeepsIdentity)
    {events : List Event} (free : a.Free s) :
    S.Upholds (fun result t => a.Free t ∧ (result = .ok () →
        ∀ e ∈ events, e.sequence ≤ t.world.store.data.stands h.name e.key))
      (h.process ctx events).run s := by
  unfold Handler.process
  cases reduced : h.registry.reduceAll events with
  | error e => exact ⟨free, nofun⟩
  | ok statements =>
    refine (upholds_applyWithRetries_reached among free).mono ?_
    rintro result t ⟨free, reached⟩
    refine ⟨free, fun ends e member => ?_⟩
    obtain ⟨st, inside, step⟩ := Registry.exists_statement reduced member
    have bound := reached ends st inside
    rwa [keeps.sequence step, keeps.key step] at bound

/-- The sequences that the next page is asked for with are those of the storage at some time. -/
theorem upholds_searchQuery_reached (among : a.Among S) {instances : List InstanceId}
    (free : a.Free s) {post : Except HandlerError SearchQuery → Scene → Prop}
    (failed : ∀ t e, a.Free t → post (.error e) t)
    (rest : ∀ t q, s.Onward t → a.Free t → (ctx.asOf = none →
      q = h.pageQuery (SequenceMap.ofRows (t.world.store.data.currentSequences h.name
        fun key => decide (key.instanceId ∈ instances))) instances) → post (.ok q) t) :
    S.Upholds post (h.searchQuery ctx instances).run s := by
  intro t other ready
  have moved := among.others other
  have there := free.undisturbed moved
  have idle := there.idle rfl (among.ready ready)
  have own : ∀ b, b ≠ a → b.Undisturbed t
      (Scene.answer a.number (.store (.currentSequences h.name instances)) t).2 :=
    fun b apart => .of_store there.sane _ apart (by simp [idle])
  rw [among.answer]
  refine ⟨among.self_iff.mpr own, ?_⟩
  have none : t.world.store.transaction = none := by
    have owned := there.sane.owned
    rw [idle] at owned
    exact Option.not_isSome_iff_eq_none.mp (Bool.eq_false_iff.mp owned)
  have world : (t.world.answerStore a.number (.currentSequences h.name instances)).2 = t.world := by
    rw [World.answerStore_world]
    simp only [MemoryStore.answer, none, ← idle, Option.isSome_none, Bool.false_eq_true, if_false]
  dsimp only [Scene.answer, Scene.answerStore]
  cases t.outage with
  | some message => exact failed _ _ there
  | none =>
    dsimp only
    rw [world]
    refine rest t _ moved.toOnward there fun present => ?_
    simp only [present]
    rfl

/-- A trigger that has caught up leaves nothing behind that is older than the sweep. -/
theorem upholds_catchUp_clear (among : a.Among S) (keeps : h.registry.KeepsIdentity)
    (positive : 0 < h.config.bulkLimit) {started : Instant} {instances : List InstanceId}
    {pages : Nat} (past : s.world.today.before started = false) (free : a.Free s) :
    S.Upholds (fun result t => a.Free t ∧ (ctx.asOf = none → result = .ok .caughtUp →
        t.Clear h started (· ∈ instances)))
      (h.catchUp instances pages ctx).run s := by
  induction pages generalizing ctx s with
  | zero => exact ⟨free, fun _ ends => by cases ends⟩
  | succ pages ih =>
    rw [catchUp]
    refine upholds_seq (among.quiet free.sane (by simp) fun t _ moved after => ?_)
    have there := (free.undisturbed moved).undisturbed after
    have toHere := moved.toOnward.trans after.toOnward
    cases (Scene.answer a.number (.task (.isCancelled ctx.token)) t).1 with
    | true => exact ⟨there, fun _ ends => by cases ends⟩
    | false =>
      refine upholds_seq (upholds_searchQuery_reached among there
        (fun _ _ free => ⟨free, fun _ ends => by cases ends⟩) fun u q onward there query => ?_)
      refine among.source there.sane (fun t _ moved =>
        ⟨there.undisturbed moved, fun _ ends => by cases ends⟩)
        fun v moved after => ?_
      have there := (there.undisturbed moved).undisturbed after
      have past := Instant.not_before_trans past ((toHere.trans onward).trans moved.toOnward).later
      have page : ctx.asOf = none → (v.world.answerSource (.filter q)).1 =
          (v.world.log.pending h instances u.world.store.data).take h.config.bulkLimit := by
        intro present
        rw [query present]
        exact h.filter_pageQuery ..
      generalize (v.world.answerSource (.filter q)).1 = events at page ⊢
      generalize found : v.world.log.pending h instances u.world.store.data = pending at page
      have fromLog := after.toOnward
      have fromRows := moved.toOnward.trans fromLog
      split
      next empty =>
        refine ⟨there, fun present _ => Scene.clear_of_pending fromRows fromLog past ?_⟩
        have taken := (page present).symm.trans (List.isEmpty_iff.mp empty)
        rw [List.take_eq_nil_iff] at taken
        rw [found, taken.resolve_left (by omega)]
        simp
      next =>
        refine upholds_seq ((among.onward (upholds_process_reached among keeps there)).mono ?_)
        rintro (e | done) w ⟨⟨free, reached⟩, further⟩
        · exact ⟨free, fun _ ends => by cases ends⟩
        · dsimp only
          split
          next short =>
            refine ⟨free, fun present _ => Scene.clear_of_pending (fromRows.trans further)
              (fromLog.trans further) past ?_⟩
            rw [page present, List.length_take] at short
            have whole : pending.take h.config.bulkLimit = pending :=
              List.take_of_length_le (by omega)
            rw [found, ← whole, ← page present]
            exact reached rfl
          next =>
            refine (ih (Instant.not_before_trans past (fromLog.trans further).later) free).mono ?_
            exact fun _ _ done => ⟨done.1, fun _ => done.2 rfl⟩

/-- Locks are taken and released without taking anything away from what is done under them. -/
theorem upholds_underLock (among : a.Among S) {α : Type} {post : α → Scene → Prop}
    {work : Context → Task α} {session : Nat} {instances : List InstanceId} (sane : s.Sane)
    (stable : ∀ {result t u}, post result t → a.Undisturbed t u → post result u)
    (rest : ∀ token t, a.Undisturbed s t → S.Upholds post (work (ctx.withToken token)) t) :
    S.Upholds post (h.underLock ctx session instances work) s := by
  refine among.quiet sane (by simp) fun t _ moved after => ?_
  have toHere := moved.trans after
  refine among.quiet (toHere.sane sane) (by simp) fun u _ moved after => ?_
  have further := moved.trans after
  generalize (Scene.answer a.number (.task (.childToken ctx.token)) t).1 = token at *
  have worked := rest token _ (toHere.trans further)
  refine Setting.Upholds.bind (d := work (ctx.withToken token))
    ((among.sane worked ((toHere.trans further).sane sane)).mono ?_)
  -- the session is stopped, the token cancelled, and the locks are released
  rintro result v ⟨ended, sane⟩
  refine among.quiet sane (by simp) fun w _ moved after => ?_
  have stopped := moved.trans after
  refine among.quiet (stopped.sane sane) (by simp) fun x _ moved after => ?_
  have cancelled := stopped.trans (moved.trans after)
  refine among.quiet (cancelled.sane sane) (by simp) fun y _ moved after => ?_
  exact stable ended (cancelled.trans (moved.trans after))

theorem upholds_runUnlocked_clear (among : a.Among S) (keeps : h.registry.KeepsIdentity)
    (positive : 0 < h.config.bulkLimit) {started : Instant} {instances : List InstanceId}
    {pages : Nat} (past : s.world.today.before started = false) (free : a.Free s) :
    S.Upholds (fun ok t => a.Free t ∧ (ok = true → ctx.asOf = none → instances ≠ [] →
        t.Clear h started (· ∈ instances)))
      (h.runUnlocked pages ctx instances) s := by
  have triggered : S.Upholds (fun result t => a.Free t ∧ (result = .ok .caughtUp →
      ctx.asOf = none → instances ≠ [] → t.Clear h started (· ∈ instances)))
      (h.trigger pages ctx instances).run s := by
    cases instances with
    | cons id rest =>
      refine (upholds_catchUp_clear among keeps positive past free).mono fun result t ended => ?_
      exact ⟨ended.1, fun all present _ => ended.2 present all⟩
    | nil =>
      unfold Handler.trigger
      cases ctx.instanceId with
      | none => exact ⟨free, nofun⟩
      | some id =>
        refine (upholds_catchUp_clear among keeps positive past free).mono fun result t ended => ?_
        exact ⟨ended.1, fun _ _ listed => absurd rfl listed⟩
  refine Setting.Upholds.bind (triggered.mono fun result t ⟨free, clear⟩ => ?_)
  split
  next => exact ⟨free, fun _ => clear rfl⟩
  next => exact ⟨free, nofun⟩
  next => exact ⟨free, nofun⟩

/-- A batch that succeeds leaves nothing behind that is older than its sweep. -/
theorem upholds_runBatch_clear (among : a.Among S) (keeps : h.registry.KeepsIdentity)
    (positive : 0 < h.config.bulkLimit) {started : Instant} {batch : Batch} {pages : Nat}
    (past : s.world.today.before started = false) (free : a.Free s) :
    S.Upholds (fun ok t => a.Free t ∧ (ok = true → batch.context.asOf = none →
        batch.instances ≠ [] → t.Clear h started (· ∈ batch.instances)))
      (h.runBatch pages batch) s := by
  unfold Handler.runBatch
  split
  next =>
    refine among.quiet free.sane (by simp) fun t _ moved after => ?_
    have there := (free.undisturbed moved).undisturbed after
    have past := Instant.not_before_trans past (moved.trans after).later
    cases (Scene.answer a.number
      (.lock (.acquire h.holder h.config.lockDuration batch.instances)) t).1 with
    | error e => exact ⟨there, nofun⟩
    | ok session =>
      change S.Upholds _ (h.underLock batch.context session batch.instances
        fun ctx => h.runUnlocked pages ctx batch.instances) _
      refine upholds_underLock among there.sane ?_ fun token u moved => ?_
      · rintro result u v ⟨free, clear⟩ moved
        exact ⟨free.undisturbed moved,
          fun ok present listed => (clear ok present listed).onward moved.toOnward⟩
      · have past := Instant.not_before_trans past moved.later
        have there := there.undisturbed moved
        have unlocked : S.Upholds _
            (h.runUnlocked pages (batch.context.withToken token) batch.instances) u :=
          upholds_runUnlocked_clear among keeps positive past there
        exact unlocked
  next => exact upholds_runUnlocked_clear among keeps positive past free

end Handler

end ReadModel
