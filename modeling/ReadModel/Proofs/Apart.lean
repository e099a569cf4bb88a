import Mathlib.Data.List.Nodup
import ReadModel.Proofs.Finishing
import ReadModel.Proofs.Paging

/-!
Batches that leave each other alone.

However the batches of a later sweep take turns, each ends as it does where the sweep is for its
instances only: with the same success, and with the same rows, sequences and failures of its
instances. So the sweep counts the batches that are locked out or whose trigger fails, and has brought
the instances of all others up to date. Sessions of others renew their leases meanwhile, so that the same
instances stay taken.
-/

namespace ReadModel

section Chunks

variable {α : Type} {size : Nat} {items part : List α}

theorem flatten_chunks (size : Nat) (items : List α) : (chunks size items).flatten = items := by
  fun_induction chunks size items with
  | case1 => rfl
  | case2 a rest ih =>
    rw [List.flatten_cons, ih, List.cons_append, List.take_append_drop]

theorem length_le_of_mem_chunks (positive : 0 < size) (member : part ∈ chunks size items) :
    part.length ≤ size := by
  fun_induction chunks size items with
  | case1 => cases member
  | case2 a rest ih =>
    rcases List.mem_cons.mp member with rfl | later
    · simp only [List.length_cons, List.length_take]
      omega
    · exact ih later

theorem chunks_of_length_le (some : items ≠ []) (short : items.length ≤ size) :
    chunks size items = [items] := by
  cases items with
  | nil => exact absurd rfl some
  | cons a rest =>
    rw [List.length_cons] at short
    rw [chunks, List.take_of_length_le (by omega), List.drop_of_length_le (by omega), chunks]

theorem disjoint_chunks (distinct : items.Nodup) (size : Nat) :
    (chunks size items).Pairwise List.Disjoint := by
  rw [← flatten_chunks size items] at distinct
  exact (List.nodup_flatten.mp distinct).2

end Chunks

/-- The parts of a sweep divide its instances. -/
theorem Handler.parts_divide (h : Handler) (instances : List InstanceId) :
    (h.parts instances).flatten = instances ∧ ∀ part ∈ h.parts instances,
      part ≠ [] ∧ part.length ≤ max 1 h.config.concurrentInstances ∧ h.parts part = [part] := by
  refine ⟨flatten_chunks .., fun part member => ?_⟩
  have some := chunks_ne_nil member
  have short := length_le_of_mem_chunks (Nat.lt_of_lt_of_le Nat.zero_lt_one (Nat.le_max_left ..)) member
  exact ⟨some, short, chunks_of_length_le some short⟩

/-- The scene at another date. -/
def Scene.dated (s : Scene) (date : Instant) : Scene :=
  s.inWorld { s.world with today := date, pushDate := date }

/-- A batch that has succeeded by itself has reached all events of its instances. -/
theorem Siblings.reached_of_lot {σ : Siblings} {batch pages : Nat} {part : List InstanceId}
    (here : σ.parts[batch]? = some part) (some : part ≠ [])
    (positive : 0 < σ.handler.config.bulkLimit) (present : σ.context.asOf = none) {date : Instant}
    (regular : date.nanos < 1000000000)
    (older : ∀ e ∈ σ.start.world.log.events, e.creationDate.before date = true)
    (solo : σ.Solo false (σ.start.dated date)) (free : σ.start.world.transactionOf = none)
    (ok : (σ.lot pages part (σ.start.dated date)).1 = true) {e : Event}
    (logged : e ∈ σ.start.world.log.events)
    (handled : σ.handler.registry.handles e.aggregateType = true) (among : e.instanceId ∈ part) :
    e.sequence ≤ (σ.lot pages part (σ.start.dated date)).2.stands σ.handler.name e.key := by
  unfold lot at ok ⊢
  split at ok
  next => cases ok
  next unlocked =>
    rw [if_neg unlocked]
    have closed : σ.start.world.store.transaction = none :=
      Option.not_isSome_iff_eq_none.mp (Bool.eq_false_iff.mp solo.opened)
    have sane : (σ.start.dated date).Sane := by
      refine ⟨fun _ tx isOpen => ?_, ?_, rfl, regular⟩
      · cases closed.symm.trans isOpen
      · exact (congrArg Option.isSome closed).trans (congrArg Option.isSome free).symm
    have out : (σ.start.dated date).world.transactionOf ≠ .some (Actor.number ⟨0, none⟩) := by
      simp [Scene.dated, Scene.inWorld, free]
    have upholds : (Actor.solitude ⟨0, none⟩).Upholds _
        (σ.handler.runUnlocked pages σ.context part) (σ.start.dated date) :=
      Handler.upholds_runUnlocked_clear (Actor.among_solitude _) σ.keeps positive
        (Instant.before_self date) ⟨sane, out⟩
    have clear := (Actor.run_in_solitude sane (.inl free) upholds).1
    -- the log is as it was
    let m : σ.Member := ⟨batch, part, ⟨0, σ.context.token.line⟩, here, rfl⟩
    have log := (m.follows_runUnlocked pages rfl solo some).ends.log
    exact (clear.2 ok present some).reached e (log ▸ logged) (older e logged) handled among

/-- A scene in which a handler can begin a sweep: nobody has a transaction, nothing is out of order, and
the context is not cancelled. -/
structure Scene.Restful (s : Scene) (ctx : Context) : Prop where
  running : s.outage = none
  shown : s.world.hidden = fun _ => false
  idle : s.world.store.transaction = none
  free : s.world.transactionOf = none
  dated : s.world.pushDate = s.world.today
  regular : s.world.today.nanos < 1000000000
  uncancelled : s.world.tokens.isCancelled ctx.token = false
  handedOut : ∀ id ∈ ctx.token.line ++ s.world.tokens.cancelled, id < s.world.tokens.nextId
  watched : ∀ w ∈ s.world.leases.watchers, w.token.id < s.world.tokens.nextId
  numbered : ∀ session ∈ s.world.leases.sessions, session.id < s.world.leases.nextSession

theorem Scene.Restful.sane {s : Scene} {ctx : Context} (restful : s.Restful ctx) : s.Sane where
  rising _ tx isOpen := by cases restful.idle.symm.trans isOpen
  owned := (congrArg Option.isSome restful.idle).trans (congrArg Option.isSome restful.free).symm
  dated := restful.dated
  regular := restful.regular

/-- Whether a batch fails that has a scene for itself: one of its instances is leased to someone else,
or its trigger ends with an error. -/
def Handler.fails (h : Handler) (pages : Nat) (ctx : Context) (s : Scene) (part : List InstanceId) :
    Bool :=
  part.any (s.world.leases.table.heldByOther s.world.clock h.holder) ||
    match ((h.trigger pages ctx part).run.run (Scene.answer 0) s).1 with
    | .ok _ => false
    | .error _ => true

theorem Handler.fst_runUnlocked (h : Handler) (pages : Nat) (ctx : Context)
    (part : List InstanceId) (s : Scene) :
    ((h.runUnlocked pages ctx part).run (Scene.answer 0) s).1 =
      match ((h.trigger pages ctx part).run.run (Scene.answer 0) s).1 with
      | .ok .caughtUp => true
      | .ok .outOfPages | .error _ => false := by
  refine (congrArg Prod.fst (Dialogue.run_bind ..)).trans ?_
  generalize (h.trigger pages ctx part).run.run (Scene.answer 0) s = ended
  obtain ⟨e | reach, t⟩ := ended
  · rfl
  · cases reach <;> rfl

theorem Siblings.lot_eq (σ : Siblings) {pages : Nat} {part : List InstanceId}
    (restful : σ.start.Restful σ.context) (some : part ≠ [])
    (enough : σ.start.world.log.events.length < pages) :
    (σ.lot pages part σ.start).1 = !σ.handler.fails pages σ.context σ.start part := by
  unfold lot Handler.fails
  split
  next held =>
    have taken : part.any
        (σ.start.world.leases.table.heldByOther σ.start.world.clock σ.handler.holder) = true := held
    rw [taken]
    rfl
  next unlocked =>
    have free : part.any
        (σ.start.world.leases.table.heldByOther σ.start.world.clock σ.handler.holder) = false :=
      Bool.eq_false_iff.mpr unlocked
    rw [free, Bool.false_or]
    refine (σ.handler.fst_runUnlocked pages σ.context part σ.start).trans ?_
    have paged : ((σ.handler.trigger pages σ.context part).run.run (Scene.answer 0) σ.start).1 ≠
        .ok .outOfPages :=
      Handler.trigger_ne_outOfPages σ.keeps restful.sane restful.free some
        (Nat.lt_of_le_of_lt (List.length_filter_le ..) enough)
    revert paged
    cases ((σ.handler.trigger pages σ.context part).run.run (Scene.answer 0) σ.start).1 with
    | error e => exact fun _ => rfl
    | ok reach =>
      cases reach with
      | caughtUp => exact fun _ => rfl
      | outOfPages => exact fun paged => absurd rfl paged

/-- The batches of a sweep over instances that begins in a scene. -/
def Handler.siblings (h : Handler) (ctx : Context) (s : Scene) {instances : List InstanceId}
    (distinct : instances.Nodup) (separates : h.registry.Separates)
    (keeps : h.registry.KeepsIdentity) : Siblings where
  handler := h
  context := ctx
  parts := h.parts instances
  start := s
  separates
  keeps
  disjoint := disjoint_chunks distinct _

section Sweep

variable {h : Handler} {state : SchedulerState} {ctx : Context} {s r : Scene}
  {instances : List InstanceId} {distinct : instances.Nodup} {separates : h.registry.Separates}
  {keeps : h.registry.KeepsIdentity}

theorem Scene.Restful.solo (restful : s.Restful ctx) :
    (h.siblings ctx s distinct separates keeps).Solo false s where
  running := restful.running
  log := rfl
  faults := rfl
  shown := restful.shown
  uncancelled := restful.uncancelled
  opened := congrArg Option.isSome restful.idle

theorem Scene.Restful.solo_dated (restful : s.Restful ctx) (date : Instant) :
    (h.siblings ctx s distinct separates keeps).Solo false (s.dated date) :=
  { (restful.solo : (h.siblings ctx s distinct separates keeps).Solo false s) with }

theorem Scene.Restful.fine (restful : s.Restful ctx) :
    (h.siblings ctx s distinct separates keeps).Fine { scene := s } where
  running := restful.running
  log := rfl
  faults := rfl
  shown := restful.shown
  owned := (congrArg Option.isSome restful.idle).trans (congrArg Option.isSome restful.free).symm
  uncancelled := restful.uncancelled
  handedOut := restful.handedOut
  made _ _ made := by cases made
  later := Nat.le_refl _
  leases :=
    { held := fun _ => rfl
      kept := fun session among new => absurd new (Nat.not_le.mpr (restful.numbered session among))
      own := fun session among new => absurd new (Nat.not_le.mpr (restful.numbered session among))
      watched := fun w among _ => restful.watched w among
      below := restful.numbered
      first := Nat.le_refl _ }

/-- The batches of a sweep begin, seen in a scene with the same data. -/
theorem Scene.Restful.underway (restful : s.Restful ctx) (pages : Nat)
    (solo : (h.siblings ctx s distinct separates keeps).Solo false r)
    (data : r.world.store.data = s.world.store.data) :
    (h.siblings ctx s distinct separates keeps).Underway pages r
      ((h.siblings ctx s distinct separates keeps).launched pages) { scene := s } :=
  Siblings.underway_launched (fun part member => ((h.parts_divide instances).2 part member).1) solo
    restful.fine data restful.free

/-- A process that begins a sweep. -/
def Fleet.begun (h : Handler) (state : SchedulerState) (ctx : Context) (s : Scene) : Fleet :=
  ⟨s, [({ handler := h, state } : Process).begin ctx s.world.today]⟩

/-- A fleet whose only process is at a later sweep over some instances. -/
def Fleet.AtSweep (f : Fleet) (σ : Siblings) (pages : Nat) (r : Scene) (state : SchedulerState)
    (instances : List InstanceId) : Prop :=
  ∃ p maker, σ.Sweeps pages r (max 1 σ.handler.config.batchConcurrency)
    (fun results => .ok (Handler.sweptOver state σ.start.world.today instances results)) f p maker

theorem Fleet.AtSweep.moves {σ : Siblings} {f : Fleet} (sweeps : f.AtSweep σ pages r state instances)
    {moves : List Fleet.Move} (calm : ∀ m ∈ moves, m.calm)
    (undisturbed : f.Undisturbed σ.handler σ.context pages σ.start.world.leases.nextSession moves) :
    (moves.foldl (Fleet.move pages) f).AtSweep σ pages r state instances := by
  obtain ⟨p, maker, sweeps⟩ := sweeps
  exact sweeps.moves calm undisturbed

end Sweep

section Ends

variable {h : Handler} {ctx : Context} {s : Scene} {pages : Nat} {instances : List InstanceId}
  {distinct : instances.Nodup} {separates : h.registry.Separates} {keeps : h.registry.KeepsIdentity}
  {state : SchedulerState} {f : Fleet}

/-- A sweep that is seen in the scene of its beginning fails in the batches that fail by themselves. -/
theorem Fleet.AtSweep.ended
    (sweeps : f.AtSweep (h.siblings ctx s distinct separates keeps) pages s state instances)
    (restful : s.Restful ctx) (enough : s.world.log.events.length < pages)
    {final : Except HandlerError (SweepOutcome × SchedulerState)} (ended : f.Ended final) :
    final = .ok (Handler.sweptOver state s.world.today instances f.scene.results) ∧
      f.scene.world.log = s.world.log ∧
      f.scene.asked = (h.parts instances).map (fun part => ⟨ctx, part, true⟩) ∧
      f.scene.results = (h.parts instances).map (fun part => !h.fails pages ctx s part) ∧
      ∀ part ∈ h.parts instances, f.scene.world.store.data.Alike h.name (· ∈ part)
        ((h.siblings ctx s distinct separates keeps).lot pages part s).2 := by
  obtain ⟨p, maker, sweeps⟩ := sweeps
  obtain ⟨same, log, asked, results, data⟩ := sweeps.ended ended
  refine ⟨same, log, asked, results.trans (List.map_congr_left fun part member => ?_), data⟩
  exact Siblings.lot_eq _ restful ((h.parts_divide instances).2 part member).1 enough

/-- Where a batch succeeds, its instances are up to date. -/
theorem Fleet.AtSweep.reached {date : Instant}
    (sweeps : f.AtSweep (h.siblings ctx s distinct separates keeps) pages (s.dated date) state
      instances)
    (positive : 0 < h.config.bulkLimit) (present : ctx.asOf = none) (restful : s.Restful ctx)
    (regular : date.nanos < 1000000000)
    (older : ∀ e ∈ s.world.log.events, e.creationDate.before date = true)
    {final : Except HandlerError (SweepOutcome × SchedulerState)} (ended : f.Ended final)
    {batch : Nat} {part : List InstanceId} (here : (h.parts instances)[batch]? = some part)
    (ok : f.scene.results[batch]? = some true) {e : Event} (logged : e ∈ s.world.log.events)
    (handled : h.registry.handles e.aggregateType = true) (among : e.instanceId ∈ part) :
    e.sequence ≤ f.scene.world.store.data.stands h.name e.key := by
  obtain ⟨p, maker, sweeps⟩ := sweeps
  obtain ⟨_, _, _, results, data⟩ := sweeps.ended ended
  have listed := List.mem_of_getElem? here
  rw [results, List.getElem?_map] at ok
  obtain ⟨part', found, ok⟩ := Option.map_eq_some_iff.mp ok
  obtain rfl := Option.some.inj (here.symm.trans found)
  have reached := Siblings.reached_of_lot here ((h.parts_divide instances).2 part listed).1 positive
    present regular older (restful.solo_dated date) restful.free ok logged handled among
  refine reached.trans_eq ?_
  exact congrArg (Option.getD · 0) ((data part listed).sequences among).symm

variable {part : List InstanceId}

end Ends

end ReadModel
