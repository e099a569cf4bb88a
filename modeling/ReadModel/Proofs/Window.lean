import ReadModel.Proofs.Backlog
import ReadModel.Proofs.Identity

/-!
What a scheduler can pass over.

A later sweep only looks at the instances that have had events since the last clean sweep, less a
window. It can do so because that sweep has left nothing behind that was older (`Scene.Swept`), and
because what is pushed while a sweep runs is no older than the sweep.
-/

namespace ReadModel

theorem Instant.before_of_minusMillis? {t since : Instant} {ms : Nat}
    (earlier : t.minusMillis? ms = some since) (positive : 0 < ms) (regular : t.nanos < 1000000000) :
    since.before t = true := by
  unfold minusMillis? at earlier
  dsimp only at earlier
  split at earlier
  next =>
    obtain rfl := Option.some.inj earlier
    rw [before_iff]
    dsimp only
    omega
  next => cases earlier

theorem ProjectionConfig.bulkLimit_pos {c : ProjectionConfig} (valid : c.validate = .ok ()) :
    0 < c.bulkLimit := by
  refine Nat.pos_of_ne_zero fun none => ?_
  simp [validate, positive, none, bind, Except.bind] at valid

/-- Nothing is left behind that is older than the last clean sweep. -/
def Scene.Swept (s : Scene) (h : Handler) (state : SchedulerState) : Prop :=
  ∀ last, state.lastCleanSweep = some last →
    last.nanos < 1000000000 ∧ s.Clear h last (· ≠ systemInstance)

theorem Scene.Swept.onward {s t : Scene} {h : Handler} {state : SchedulerState}
    (swept : s.Swept h state) (onward : s.Onward t) : t.Swept h state := by
  intro last remembered
  obtain ⟨regular, clear⟩ := swept last remembered
  exact ⟨regular, clear.onward onward⟩

/-- A query for instances misses only events that are older than the last clean sweep. -/
def InstanceQuery.Sees (q : InstanceQuery) (state : SchedulerState) : Prop :=
  ∀ e : Event, e.instanceId ≠ systemInstance → q.matches e = true ∨
    ∃ last, state.lastCleanSweep = some last ∧ e.creationDate.before last = true

theorem InstanceQuery.sees_all (state : SchedulerState) :
    (({} : InstanceQuery).excluding systemInstance).Sees state := by
  intro e other
  simp [InstanceQuery.matches, InstanceQuery.excluding, other]

theorem Handler.sees_active {h : Handler} {state : SchedulerState}
    (positive : 0 < h.config.activeInstanceWindow)
    (regular : ∀ last, state.lastCleanSweep = some last → last.nanos < 1000000000) :
    (h.activeQuery state).Sees state := by
  unfold Handler.activeQuery
  dsimp only
  split
  next since found =>
    obtain ⟨last, remembered, earlier⟩ := Option.bind_eq_some_iff.mp found
    intro e other
    cases young : since.before e.creationDate with
    | true => simp [InstanceQuery.matches, InstanceQuery.excluding, InstanceQuery.after, other, young]
    | false =>
      have behind := Instant.before_of_minusMillis? earlier positive (regular last remembered)
      refine .inr ⟨last, remembered, ?_⟩
      rw [Instant.not_before_iff] at young
      rw [Instant.before_iff] at *
      omega
  next => exact InstanceQuery.sees_all state

/-- Once the instances that a query has seen are clear, all are. -/
theorem Scene.clear_of_seen {s t : Scene} {h : Handler} {state : SchedulerState}
    {started : Instant} {q : InstanceQuery} (sees : q.Sees state) (onward : s.Onward t)
    (past : s.world.today.before started = false) (swept : t.Swept h state)
    (clear : t.Clear h started (· ∈ s.world.log.instanceIds q)) :
    t.Clear h started (· ≠ systemInstance) where
  past := clear.past
  reached e member older handled other := by
    rcases sees e other with matched | ⟨last, remembered, before⟩
    · have inLog := onward.older_than past member older
      have listed := EventLog.mem_instanceIds.mpr ⟨e, inLog, matched, rfl⟩
      exact clear.reached e member older handled listed
    · exact (swept last remembered).2.reached e member before handled other

/-- What the actors of a fleet promise each other so that no sweep leaves anything behind. -/
def Pact.window : Pact where
  fine := Scene.Sane
  fit _ := True
  permits
    | .sweep _ ctx => ctx.asOf = none
    | _ => True
  rely := Actor.Undisturbed
  rest h state s := s.Swept h state
  under started s := s.world.today.before started = false ∧ started.nanos < 1000000000
  out a s := s.world.transactionOf ≠ some a.number
  batchEnd h started batch ok s := ok = true → batch.context.asOf = none → batch.instances ≠ [] →
    s.Clear h started (· ∈ batch.instances)
  sweepEnd h state started result s := ∀ outcome next, result = .ok (outcome, next) →
    s.Swept h next ∧ (next = state ∨
      outcome.failedBatches = 0 ∧ outcome.skipped = false ∧ next = ⟨some started⟩)

namespace Pact

variable {h : Handler} {started : Instant} {a : Actor} {s t : Scene} {state : SchedulerState}
  {ctx : Context} {index : Nat} {locked : Bool}

theorem window_among : a.Among (window.setting h started a) :=
  ⟨rfl, id, Iff.rfl, fun ready => ready.2.1⟩

/-- What is known while a sweep is under way. -/
structure Sweeping (h : Handler) (state : SchedulerState) (started : Instant) (s : Scene) : Prop where
  sane : s.Sane
  past : s.world.today.before started = false
  regular : started.nanos < 1000000000
  swept : s.Swept h state

theorem Sweeping.undisturbed (sweeping : Sweeping h state started s) (moved : a.Undisturbed s t) :
    Sweeping h state started t where
  sane := moved.sane sweeping.sane
  past := Instant.not_before_trans sweeping.past moved.later
  regular := sweeping.regular
  swept := sweeping.swept.onward moved.toOnward

theorem Sweeping.unchanged (sweeping : Sweeping h state started s) {outcome : SweepOutcome} :
    window.sweepEnd h state started (.ok (outcome, state)) s := by
  rintro _ _ ⟨⟩
  exact ⟨sweeping.swept, .inl rfl⟩

theorem Sweeping.clean (sweeping : Sweeping h state started s) {outcome : SweepOutcome}
    (none : outcome.failedBatches = 0) (ran : outcome.skipped = false)
    (clear : s.Clear h started (· ≠ systemInstance)) :
    window.sweepEnd h state started (.ok (outcome, ⟨some started⟩)) s := by
  rintro _ _ ⟨⟩
  refine ⟨?_, .inr ⟨none, ran, rfl⟩⟩
  rintro _ ⟨⟩
  exact ⟨sweeping.regular, clear⟩

theorem window_failed {e : HandlerError} : window.sweepEnd h state started (.error e) s := nofun

/-- Where no batch has failed, the instances are clear. -/
theorem window_runBatches {instances : List InstanceId} (present : ctx.asOf = none)
    (sweeping : Sweeping h state started s) :
    (window.setting h started ⟨index, none⟩).Upholds
      (fun failed t => Sweeping h state started t ∧
        (failed = 0 → t.Clear h started (· ∈ instances)))
      (h.runBatches ctx instances locked) s := by
  intro t other ready
  have there := sweeping.undisturbed other
  have answered := ready.2.2 rfl _ rfl
  refine ⟨fun b _ => .of_quiet there.sane _ (by simp), ?_⟩
  refine ⟨there.undisturbed (a := ⟨index, none⟩) (.of_quiet there.sane _ (by simp)), fun none => ?_⟩
  have passed : ∀ result ∈ t.results, (!result) ≠ true := List.countP_eq_zero.mp none
  refine ⟨there.past, fun e member older handled listed => ?_⟩
  obtain ⟨part, inside, among⟩ : ∃ part ∈ chunks (max 1 h.config.concurrentInstances) instances,
      e.instanceId ∈ part := exists_chunk listed
  obtain ⟨number, found⟩ := List.getElem?_of_mem
    (List.mem_map_of_mem (f := fun ids => ({ context := ctx, instances := ids, locked } : Batch)) inside)
  have within : number < t.results.length := by
    rw [answered.length]
    exact (List.getElem?_eq_some_iff.mp found).1
  have succeeded : t.results[number] = true := by
    simpa using passed _ (List.getElem_mem within)
  have clear := answered.ended found (List.getElem?_eq_getElem within) succeeded present
    (chunks_ne_nil inside)
  exact clear.reached e member older handled among

/-- A sweep asks for instances and brings them up to date. -/
theorem window_instances {β : Type} {q : InstanceQuery} (sees : q.Sees state)
    (present : ctx.asOf = none) (sweeping : Sweeping h state started s)
    {next : List InstanceId → Nat → Action β} {post : Except HandlerError β → Scene → Prop}
    (failed : ∀ e t, post (.error e) t)
    (rest : ∀ instances failed t, Sweeping h state started t →
      (failed = 0 → t.Clear h started (· ≠ systemInstance)) →
      (window.setting h started ⟨index, none⟩).Upholds post (next instances failed).run t) :
    (window.setting h started ⟨index, none⟩).Upholds post
      (do
        let instances ← askSource (.instanceIds q)
        let failed ← h.runBatches ctx instances locked
        next instances failed : Action β).run s := by
  refine window_among.source sweeping.sane (fun _ e _ => failed e _) fun t moved after => ?_
  have asked := sweeping.undisturbed moved
  refine upholds_seq (Setting.Upholds.bind ((window_among.onward
    (window_runBatches present (asked.undisturbed after))).mono ?_))
  rintro failures u ⟨⟨sweeping, clear⟩, onward⟩
  refine rest _ failures u sweeping fun none => ?_
  exact Scene.clear_of_seen sees (after.toOnward.trans onward) asked.past sweeping.swept (clear none)

/-- A later sweep leaves nothing behind. -/
theorem window_steadySweep (positive : 0 < h.config.activeInstanceWindow) (present : ctx.asOf = none)
    (sweeping : Sweeping h state started s) :
    (window.setting h started ⟨index, none⟩).Upholds (window.sweepEnd h state started)
      (h.steadySweep ctx state started).run s := by
  have sees := Handler.sees_active positive fun last remembered =>
    (sweeping.swept last remembered).1
  refine window_instances sees present sweeping (fun _ _ => window_failed)
    fun instances failed t there clear => ?_
  by_cases none : failed = 0
  · rw [if_pos none]
    exact there.clean none rfl (clear none)
  · rw [if_neg none]
    exact there.unchanged

/-- A first sweep leaves nothing behind. -/
theorem window_firstRunLocked (present : ctx.asOf = none) (sweeping : Sweeping h state started s) :
    (window.setting h started ⟨index, none⟩).Upholds (window.sweepEnd h state started)
      (h.firstRunLocked ctx state started).run s := by
  refine window_instances (InstanceQuery.sees_all state) present sweeping (fun _ _ => window_failed)
    fun instances failed t there clear => ?_
  refine upholds_seq (window_among.quiet there.sane (by simp) fun u _ moved after => ?_)
  have onward := moved.toOnward.trans after.toOnward
  have there := (there.undisturbed moved).undisturbed after
  dsimp only [Dialogue.bind, Function.comp_apply, Setting.Upholds]
  split
  next clean =>
    have clear := (clear clean.1).onward onward
    refine window_among.source there.sane (fun _ _ _ => window_failed) fun v moved after => ?_
    have there := (there.undisturbed moved).undisturbed after
    exact there.clean clean.1 rfl (clear.onward (moved.toOnward.trans after.toOnward))
  next => exact there.unchanged

theorem window_firstRun (present : ctx.asOf = none) (sweeping : Sweeping h state started s) :
    (window.setting h started ⟨index, none⟩).Upholds (window.sweepEnd h state started)
      (h.firstRun ctx state started).run s := by
  refine upholds_seq (window_among.quiet sweeping.sane (by simp) fun t _ moved after => ?_)
  have there := (sweeping.undisturbed moved).undisturbed after
  cases (Scene.answer (Actor.number ⟨index, none⟩)
    (.lock (.acquire h.holder h.config.lockDuration [systemInstance])) t).1 with
  | error e => exact there.unchanged
  | ok session =>
    change (window.setting h started ⟨index, none⟩).Upholds _ (h.underLock ctx session
      [systemInstance] fun ctx => (h.firstRunLocked ctx state started).run) _
    refine Handler.upholds_underLock window_among there.sane ?_ fun token u moved => ?_
    · intro result u v ended moved outcome next same
      obtain ⟨swept, changed⟩ := ended outcome next same
      exact ⟨swept.onward moved.toOnward, changed⟩
    · have withToken : (ctx.withToken token).asOf = none := present
      exact window_firstRunLocked withToken (there.undisturbed moved)

theorem window_sweepFrom (positive : 0 < h.config.activeInstanceWindow) (present : ctx.asOf = none)
    (sweeping : Sweeping h state started s) :
    (window.setting h started ⟨index, none⟩).Upholds (window.sweepEnd h state started)
      (h.sweepFrom ctx state started).run s := by
  refine window_among.source sweeping.sane (fun _ _ _ => window_failed) fun t moved after => ?_
  have there := (sweeping.undisturbed moved).undisturbed after
  split
  next => exact window_firstRun present there
  next => exact window_steadySweep positive present there

variable {pages : Nat} {handlers : List Handler}

theorem window_laws (able : ∀ h ∈ handlers, h.registry.KeepsIdentity ∧
      h.config.validate = .ok () ∧ 0 < h.config.activeInstanceWindow) :
    window.Laws pages handlers where
  refl := .refl
  trans := .trans
  results := .of_still rfl rfl rfl rfl rfl rfl
  fit := id
  fine moved := moved.sane
  rest moved swept := swept.onward moved.toOnward
  under moved since := ⟨Instant.not_before_trans since.1 moved.later, since.2⟩
  out moved := moved.foreign
  batchEnd moved clear ok present some := (clear ok present some).onward moved.toOnward
  sweepEnd moved ended outcome next same := by
    obtain ⟨swept, changed⟩ := ended outcome next same
    exact ⟨swept.onward moved.toOnward, changed⟩
  remembered ended := (ended _ _ rfl).1
  moves _ _ sane := .of_after sane _
  begins sane := ⟨Instant.before_self _, sane.regular⟩
  sweeps there present sane swept := by
    obtain ⟨_, _, positive⟩ := able _ (List.mem_of_getElem? there)
    exact window_sweepFrom positive present ⟨sane, Instant.before_self _, sane.regular, swept⟩
  launches there _ sane since _ _ _ out := by
    obtain ⟨keeps, valid, _⟩ := able _ (List.mem_of_getElem? there)
    have positive := ProjectionConfig.bulkLimit_pos valid
    refine (Handler.upholds_runBatch_clear window_among keeps positive since.1 ⟨sane, out⟩).mono ?_
    exact fun _ _ ⟨free, clear⟩ => ⟨free.out, clear⟩

theorem window_start {projection : String} {day : Instant} (regular : day.nanos < 1000000000) :
    window.Holds handlers (Fleet.start projection day handlers) where
  fine := ⟨fun projection tx opened => (by cases opened), rfl, rfl, regular⟩
  handlers := by simp [Fleet.start, Function.comp_def]
  safe {index p} there := by
    simp only [Fleet.start, List.getElem?_map, Option.map_eq_some_iff] at there
    obtain ⟨h, _, rfl⟩ := there
    exact ⟨fun last clean => (by cases clean), fun number _ owned => (by cases owned),
      fun idle => (by cases idle), fun idle => (by cases idle)⟩

end Pact

namespace Fleet

/-- In every state that a fleet can reach, all events are reached that are older than the last clean
sweep. What a scheduler remembers as that changes only where a sweep ends that was not skipped and in
which no batch has failed, and then to the time at which this sweep has begun. -/
theorem sweeps_leave_nothing_behind (pages : Nat) (projection : String) {day : Instant}
    {handlers : List Handler} {moves : List Move}
    (able : ∀ h ∈ handlers, h.registry.KeepsIdentity ∧
      h.config.validate = .ok () ∧ 0 < h.config.activeInstanceWindow)
    (regular : day.nanos < 1000000000)
    (present : ∀ index ctx, .sweep index ctx ∈ moves → ctx.asOf = none) :
    let run := run pages projection day handlers
    let f := run moves
    ∀ (index : Nat) (p : Process), f.processes[index]? = some p →
      (∀ last, p.state.lastCleanSweep = some last → ∀ e ∈ f.scene.world.log.events,
        p.handler.registry.handles e.aggregateType = true → e.instanceId ≠ systemInstance →
        e.creationDate.before last = true →
        e.sequence ≤ f.scene.world.store.data.stands p.handler.name e.key) ∧
      ∀ (m : Move) (q : Process), (f.move pages m).processes[index]? = some q →
        q.state ≠ p.state → ∃ sweep outcome, p.sweep = some sweep ∧
          sweep.program = .done (.ok (outcome, q.state)) ∧
          outcome.failedBatches = 0 ∧ outcome.skipped = false ∧
          q.state.lastCleanSweep = some sweep.started ∧
          ∃ before ctx, before ++ [.sweep index ctx] <+: moves ∧
            sweep.started = (run before).scene.world.today := by
  intro run f index p there
  have permitted : ∀ m ∈ moves, Pact.window.permits m := by
    intro m member
    cases m with
    | sweep index ctx => exact present index ctx member
    | _ => trivial
  have safe := (Pact.holds_run (Pact.window_laws able) (Pact.window_start regular)
    (fun _ _ => trivial) permitted).safe there
  refine ⟨fun last remembered e member handled other older => ?_, fun m q after changed => ?_⟩
  · exact (safe.rest last remembered).2.reached e member older handled other
  · obtain ⟨p', there', moved⟩ := moved_move after
    obtain rfl := Option.some.inj (there.symm.trans there')
    cases moved with
    | still | begins | goes | fails => exact absurd rfl changed
    | @ends _ sweep outcome state under ends =>
      obtain ⟨_, upholds⟩ := safe.sweep under
      rw [ends] at upholds
      obtain ⟨_, same | ⟨none, ran, clean⟩⟩ := upholds outcome state rfl
      · exact absurd same changed
      · exact ⟨sweep, outcome, under, ends, none, ran, congrArg _ clean, exists_begin there under⟩

/-- In the second sweep of two, an instance is passed over that has had no events since the first, and
that gets another one while the sweep is under way. -/
theorem sweeps_leave_nothing_behind_of_two :
    let h : Handler :=
      { name := rawProjection.name, registry := rawProjection.registry
        config := { activeInstanceWindow? := some 1 }, owner := "first" }
    let event (id : String) : NewEvent := ⟨⟨"x"⟩, ⟨"1"⟩, ⟨id⟩, ⟨"x.other"⟩, .null⟩
    let turns := (List.replicate 28 [Move.turn ⟨0, none⟩, .turn ⟨0, some 0⟩]).flatten
    let moves := [.push [event "a"], .date ⟨1, 0⟩, .sweep 0 { token := ⟨9, []⟩ }] ++ turns ++
      [.push [event "b"], .date ⟨2, 0⟩, .sweep 0 { token := ⟨9, []⟩ }, .turn ⟨0, none⟩,
        .turn ⟨0, none⟩, .push [event "a"]] ++ turns
    ∃ f p, f = run 2 rawProjection.name ⟨0, 0⟩ [h] moves ∧
      f.processes[0]? = some p ∧ p.state.lastCleanSweep = some ⟨2, 0⟩ ∧
      ∀ e ∈ f.scene.world.log.events, p.handler.registry.handles e.aggregateType = true →
        e.instanceId ≠ systemInstance → e.creationDate.before ⟨2, 0⟩ = true →
        e.sequence ≤ f.scene.world.store.data.stands p.handler.name e.key := by
  intro h event turns moves
  have clean : (run 2 rawProjection.name ⟨0, 0⟩ [h] moves).processes[0]?.map
      (·.state.lastCleanSweep) = some (some ⟨2, 0⟩) := by
    decide +kernel
  obtain ⟨p, there, last⟩ := Option.map_eq_some_iff.mp clean
  have able : ∀ handler ∈ [h], handler.registry.KeepsIdentity ∧
      handler.config.validate = .ok () ∧ 0 < handler.config.activeInstanceWindow := by
    intro handler member
    obtain rfl := List.mem_singleton.mp member
    exact ⟨Raw.keepsIdentity, rfl, Nat.one_pos⟩
  have present : ∀ index ctx, .sweep index ctx ∈ moves → ctx.asOf = none := by
    intro index ctx member
    simp only [moves, turns, List.mem_append, List.mem_cons, List.mem_flatten,
      List.mem_replicate] at member
    simp at member
    obtain ⟨_, rfl⟩ := member
    rfl
  have regular : (⟨0, 0⟩ : Instant).nanos < 1000000000 := by simp
  have swept := sweeps_leave_nothing_behind 2 rawProjection.name able regular present
  exact ⟨_, p, rfl, there, last, (swept 0 p there).1 ⟨2, 0⟩ last⟩

end Fleet

end ReadModel
