import ReadModel.Proofs.CatchUp
import ReadModel.Proofs.Leases
import ReadModel.Proofs.Modesty
import ReadModel.Proofs.Pact
import ReadModel.Projections.Raw

/-!
Who makes the first sweep.

A sweep that has found no marker takes the lock of the system instance, and pushes the marker before it
gives the lock up. It does not look for the marker again once it has the lock. So there is at most one
marker more than there were times that the lock was taken late.
-/

namespace ReadModel

/-- Whether an event that is to be pushed is a marker of a projection. -/
def NewEvent.marks (e : NewEvent) (projection : String) : Bool :=
  decide (e.instanceId = systemInstance) && decide (e.aggregateType = Handler.markerType) &&
    decide (e.aggregateId = ⟨projection⟩) && decide (e.eventType = Handler.succeededOnce)

theorem EventLog.length_markers_push (log : EventLog) (date : Instant) (new : List NewEvent)
    (projection : String) : ((log.push date new).2.markers projection).length =
      (log.markers projection).length + new.countP (·.marks projection) := by
  induction new generalizing log with
  | nil => rfl
  | cons first rest ih =>
    have added : (⟨log.events ++ [log.number first date]⟩ : EventLog).markers projection =
        log.markers projection ++ if first.marks projection then [log.number first date] else [] := by
      unfold markers
      rw [List.filter_append, List.filter_singleton, Bool.cond_eq_ite]
      rfl
    refine (ih _).trans ?_
    rw [added, List.length_append, List.countP_cons]
    split
    next => simp only [List.length_singleton]; omega
    next => simp

theorem Handler.not_mem_active (h : Handler) (state : SchedulerState) (log : EventLog) :
    systemInstance ∉ log.instanceIds (h.activeQuery state) := by
  intro listed
  obtain ⟨e, _, matched, system⟩ := EventLog.mem_instanceIds.mp listed
  have excluded : (h.activeQuery state).excluded = [systemInstance] := by
    unfold activeQuery
    dsimp only
    split <;> rfl
  rw [InstanceQuery.matches, excluded, system] at matched
  simp at matched

theorem Handler.marks_marker (h : Handler) : h.marker.marks h.name = true := by
  simp [NewEvent.marks, marker]

namespace Scene

/-- How many markers of a projection there are. -/
def marked (s : Scene) (projection : String) : Nat := (s.world.log.markers projection).length

/-- Who has the lock for a first sweep. -/
def keeper? (s : Scene) (projection : String) : Option String :=
  s.world.leases.table.owner? projection systemInstance

/-- No lease has run out. -/
def Live (s : Scene) : Prop := s.world.leases.table.Live s.world.clock

/-- What is true of the markers and of the batches that were asked for. -/
structure Counted (s : Scene) (projection : String) : Prop where
  bounded : s.marked projection ≤ 1 + s.late
  modest : ∀ batch ∈ s.asked, batch.locked = true → systemInstance ∉ batch.instances

/-- The one who has the lock for a first sweep may push a marker. -/
structure Kept (s : Scene) (projection owner : String) : Prop where
  keeper : s.keeper? projection = some owner
  fewer : s.marked projection ≤ s.late

/-- The lock for a first sweep and the markers are as before. -/
structure Still (s t : Scene) (projection : String) : Prop where
  marked : t.marked projection = s.marked projection
  keeper : t.keeper? projection = s.keeper? projection
  late : t.late = s.late
  asked : t.asked = s.asked

variable {s : Scene} {projection : String}

theorem Still.of_same {t : Scene} (log : t.world.log = s.world.log)
    (table : t.world.leases.table = s.world.leases.table) (late : t.late = s.late)
    (asked : t.asked = s.asked) : s.Still t projection where
  marked := by rw [Scene.marked, log, Scene.marked]
  keeper := by rw [keeper?, table, keeper?]
  late
  asked

/-- What becomes of a scene where leases are taken. -/
theorem answerLock_acquire (s : Scene) (holder : LockHolder) (duration : Nat)
    (instances : List InstanceId) (projection : String) :
    let answered := s.answerLock (.acquire holder duration instances)
    (∃ e, answered.1 = .error e ∧ s.Still answered.2 projection) ∨
      ∃ session table, answered.1 = .ok session ∧
        s.world.leases.table.acquire s.world.clock holder duration instances = .ok table ∧
        answered.2.world.log = s.world.log ∧ answered.2.world.leases.table = table ∧
        answered.2.asked = s.asked ∧ answered.2.late = s.late +
          (decide (systemInstance ∈ instances) &&
            !(s.world.log.markers holder.projection).isEmpty).toNat := by
  dsimp only [answerLock]
  cases s.outage with
  | some message => exact .inl ⟨_, rfl, .of_same rfl rfl rfl rfl⟩
  | none =>
    dsimp only [World.answerLock]
    rcases s.world.leases.lock_cases s.world.clock holder duration instances with
      ⟨e, refused⟩ | ⟨session, table, taken, answered, table'⟩
    · rw [refused]
      refine .inl ⟨e, rfl, .of_same rfl rfl ?_ rfl⟩
      simp [takenLate, Except.isOk, Except.toBool]
    · refine .inr ⟨session, table, answered, taken, rfl, table', rfl, ?_⟩
      rw [answered]
      simp [takenLate, Except.isOk, Except.toBool]

/-- A modest call leaves the markers and the lock for a first sweep as they are. -/
theorem still_of_modest {call : HandlerCall} (modest : call.Modest) (number : Nat) :
    s.Still (Scene.answer number call s).2 projection := by
  cases call with
  | store c =>
    dsimp only [answer, answerStore]
    cases s.outage with
    | none =>
      dsimp only
      rw [World.answerStore_world]
      exact .of_same rfl rfl rfl rfl
    | some message => cases c <;> exact .of_same rfl rfl rfl rfl
  | source c =>
    dsimp only [answer, answerSource]
    cases s.outage with
    | some message => exact .of_same rfl rfl rfl rfl
    | none =>
      cases c with
      | push => exact absurd modest id
      | filter | instanceIds => exact .of_same rfl rfl rfl rfl
  | lock c =>
    cases c with
    | acquire holder duration instances =>
      rcases s.answerLock_acquire holder duration instances projection with
        ⟨_, _, still⟩ | ⟨_, table, _, taken, log, given, asked, late⟩
      · exact still
      · refine ⟨by rw [answer, marked, log, marked], ?_, ?_, asked⟩
        · rw [answer, keeper?, given, keeper?]
          exact LeaseTable.owner?_acquire_of_not_mem taken modest
        · rw [answer, late, decide_eq_false modest]
          rfl
    | release holder instances =>
      dsimp only [answer, answerLock]
      cases s.outage with
      | some message => exact .of_same rfl rfl rfl rfl
      | none => exact ⟨rfl, LeaseTable.owner?_release_of_not_mem modest, rfl, rfl⟩
    | watch session token => exact .of_same rfl (s.world.leases.table_watch session token) rfl rfl
    | stop => exact .of_same rfl rfl rfl rfl
  | task c => cases c <;> first | exact absurd modest id | exact .of_same rfl rfl rfl rfl

end Scene

/-- What an actor can count on while others work: the markers stay within their bound, and while its
process has the lock for a first sweep it keeps the lock, and no markers are added. -/
structure Actor.Trusting (handlers : List Handler) (projection : String) (a : Actor)
    (s t : Scene) : Prop where
  late : s.late ≤ t.late
  counted : s.Counted projection → t.Counted projection
  kept : a.batch = none → ∀ h, handlers[a.process]? = some h →
    s.keeper? projection = some h.owner →
    t.keeper? projection = some h.owner ∧ t.marked projection ≤ s.marked projection

namespace Actor.Trusting

variable {handlers : List Handler} {projection : String} {a : Actor} {s t u : Scene} {h : Handler}
  {index : Nat}

theorem of_still (still : s.Still t projection) : a.Trusting handlers projection s t where
  late := still.late.ge
  counted before := by
    refine ⟨?_, ?_⟩
    · rw [still.marked, still.late]
      exact before.bounded
    · rw [still.asked]
      exact before.modest
  kept _ h _ mine := ⟨still.keeper.trans mine, still.marked.le⟩

theorem trans (first : a.Trusting handlers projection s t)
    (second : a.Trusting handlers projection t u) : a.Trusting handlers projection s u where
  late := first.late.trans second.late
  counted := second.counted ∘ first.counted
  kept own h there mine := by
    obtain ⟨mine, fewer⟩ := first.kept own h there mine
    obtain ⟨still, fewer'⟩ := second.kept own h there mine
    exact ⟨still, fewer'.trans fewer⟩

/-- Owners of different processes are different. -/
theorem owner_ne (distinct : (handlers.map (·.owner)).Nodup) (there : handlers[index]? = some h)
    {g : Handler} (apart : a ≠ ⟨index, none⟩) (own : a.batch = none)
    (other : handlers[a.process]? = some g) : g.owner ≠ h.owner := by
  intro same
  obtain ⟨process, batch⟩ := a
  obtain rfl : batch = none := own
  have first : (handlers.map (·.owner))[process]? = some h.owner := by
    rw [List.getElem?_map, other, Option.map_some, same]
  have second : (handlers.map (·.owner))[index]? = some h.owner := by
    rw [List.getElem?_map, there, Option.map_some]
  have inside := (List.getElem?_eq_some_iff.mp first).1
  exact apart (congrArg (Actor.mk · none)
    ((List.getElem?_inj inside distinct).mp (first.trans second.symm)))

/-- Taking the lock for a first sweep takes it away from nobody. -/
theorem of_acquire (live : s.Live) (number duration : Nat) (holder : LockHolder)
    (instances : List InstanceId) : a.Trusting handlers projection s
      (Scene.answer number (.lock (.acquire holder duration instances)) s).2 := by
  rcases s.answerLock_acquire holder duration instances projection with
    ⟨_, _, still⟩ | ⟨_, table, _, taken, log, given, asked, late⟩
  · exact of_still still
  · have more : s.late ≤ (s.answerLock (.acquire holder duration instances)).2.late := by
      rw [late]
      exact Nat.le_add_right ..
    have same : (s.answerLock (.acquire holder duration instances)).2.marked projection =
        s.marked projection := by
      rw [Scene.marked, log, Scene.marked]
    refine ⟨more, fun before => ⟨?_, ?_⟩, fun _ h _ mine => ⟨?_, same.le⟩⟩
    · have := before.bounded
      rw [Scene.answer, same]
      omega
    · rw [Scene.answer, asked]
      exact before.modest
    · rw [Scene.answer, Scene.keeper?, given]
      exact LeaseTable.owner?_acquire live taken mine

/-- Only the process itself gives its lock up. -/
theorem of_release (distinct : (handlers.map (·.owner)).Nodup) (there : handlers[index]? = some h)
    (apart : a ≠ ⟨index, none⟩) (number : Nat) (instances : List InstanceId) :
    a.Trusting handlers projection s
      (Scene.answer number (.lock (.release h.holder instances)) s).2 := by
  dsimp only [Scene.answer, Scene.answerLock]
  cases s.outage with
  | some message => exact of_still (.of_same rfl rfl rfl rfl)
  | none =>
    refine ⟨Nat.le_refl _, fun before => ⟨before.bounded, before.modest⟩, fun own g other mine => ?_⟩
    refine ⟨?_, Nat.le_refl _⟩
    exact LeaseTable.owner?_release_of_ne (owner_ne distinct there apart own other) mine

/-- The one who has the lock pushes a marker. -/
theorem of_marker (distinct : (handlers.map (·.owner)).Nodup) (there : handlers[index]? = some h)
    (apart : a ≠ ⟨index, none⟩) (kept : s.Kept h.name h.owner) :
    a.Trusting handlers h.name s (s.answerSource (.push [h.marker])).2 := by
  dsimp only [Scene.answerSource]
  cases s.outage with
  | some message => exact of_still (.of_same rfl rfl rfl rfl)
  | none =>
    refine ⟨Nat.le_refl _, fun before => ⟨?_, before.modest⟩, fun own g other mine => ?_⟩
    · have added := s.world.log.length_markers_push s.world.pushDate [h.marker] h.name
      rw [List.countP_singleton, h.marks_marker, if_pos rfl] at added
      have fewer := kept.fewer
      unfold Scene.marked at fewer ⊢
      dsimp only [World.answerSource, Scene.inWorld]
      omega
    · have same := Option.some.inj (mine.symm.trans kept.keeper)
      exact absurd same (owner_ne distinct there apart own other)

/-- Batches are asked for that leave the system instance alone. -/
theorem of_asked {batches : List Batch}
    (modest : ∀ batch ∈ batches, batch.locked = true → systemInstance ∉ batch.instances) :
    a.Trusting handlers projection s { s with asked := batches } where
  late := Nat.le_refl _
  counted before := ⟨before.bounded, modest⟩
  kept _ _ _ mine := ⟨mine, Nat.le_refl _⟩

theorem of_after (m : Fleet.Move) (live : s.Live)
    (pushed : ∀ events, m = .push events → ∀ new ∈ events, new.marks projection = false)
    (unrevoked : ∀ instances, m ≠ .revoke instances) :
    a.Trusting handlers projection s (s.after m) := by
  cases m with
  | push events =>
    have none : events.countP (·.marks projection) = 0 := by
      rw [List.countP_eq_zero]
      exact fun new among => Bool.eq_false_iff.mp (pushed events rfl new among)
    have same := s.world.log.length_markers_push s.world.pushDate events projection
    rw [none] at same
    exact of_still ⟨same, rfl, rfl, rfl⟩
  | revoke instances => exact absurd rfl (unrevoked instances)
  | renew id =>
    dsimp only [Scene.after]
    split
    next session _ =>
      split
      next =>
        refine ⟨Nat.le_refl _, fun before => ⟨before.bounded, before.modest⟩, fun _ g _ mine => ?_⟩
        exact ⟨Leases.owner?_renew live session mine, Nat.le_refl _⟩
      next => exact of_still (.of_same rfl rfl rfl rfl)
    next => exact of_still (.of_same rfl rfl rfl rfl)
  | date date =>
    dsimp only [Scene.after]
    split <;> exact of_still (.of_same rfl rfl rfl rfl)
  | wait | disturb | hide | outage | cancel | sweep | turn =>
    exact of_still (.of_same rfl rfl rfl rfl)

end Actor.Trusting

/-- What the actors of a fleet promise each other so that there are not too many markers. -/
def Pact.firstRun (handlers : List Handler) (projection : String) : Pact where
  fine s := s.Counted projection
  fit := Scene.Live
  permits
    | .push events => ∀ new ∈ events, new.marks projection = false
    | .revoke _ => False
    | _ => True
  rely := Actor.Trusting handlers projection
  rest _ _ _ := True
  under _ _ := True
  out _ _ := True
  batchEnd _ _ _ _ _ := True
  sweepEnd _ _ _ _ _ := True

namespace Pact

variable {handlers : List Handler} {h : Handler} {started : Instant} {state : SchedulerState}
  {ctx : Context} {index : Nat} {s : Scene} {α β : Type}

/-- What a process knows that its own calls and those of others leave true. -/
def Lasting (handlers : List Handler) (projection : String) (index : Nat) (I : Scene → Prop) : Prop :=
  ∀ s t, I s → Actor.Trusting handlers projection ⟨index, none⟩ s t → I t

theorem lasting_kept (there : handlers[index]? = some h) :
    Lasting handlers h.name index (Scene.Kept · h.name h.owner) := by
  intro s t kept moved
  obtain ⟨mine, fewer⟩ := moved.kept rfl h there kept.keeper
  exact ⟨mine, fewer.trans (kept.fewer.trans moved.late)⟩

section Sweep

variable {I : Scene → Prop} {S : Setting handlerInterface Scene}
  (among : S = (firstRun handlers h.name).setting h started ⟨index, none⟩)

include among

theorem firstRun_modest (lasting : Lasting handlers h.name index I) (start : I s)
    {call : HandlerCall} {next : call.Answer → Task α} {post : α → Scene → Prop}
    (modest : call.Modest) (rest : ∀ t answer, I t → S.Upholds post (next answer) t) :
    S.Upholds post (.ask call next) s := by
  subst among
  intro t other _
  have still : t.Still _ h.name := Scene.still_of_modest modest (Actor.number ⟨index, none⟩)
  have kept := lasting _ _ (lasting _ _ start other) (.of_still still)
  exact ⟨fun b _ => .of_still still, rest _ _ kept⟩

/-- The log is asked, which may fail. -/
theorem firstRun_source (lasting : Lasting handlers h.name index I) (start : I s)
    {call : SourceCall} {next : call.Value → Action β} {post : Except HandlerError β → Scene → Prop}
    (modest : (HandlerCall.source call).Modest) (failed : ∀ e t, post (.error e) t)
    (rest : ∀ (t u : Scene), I u → S.Upholds post (next (t.world.answerSource call).1).run u) :
    S.Upholds post (askSource call >>= next).run s := by
  subst among
  have still : ∀ t : Scene, t.Still (t.answerSource call).2 h.name := fun t =>
    Scene.still_of_modest (s := t) modest (Actor.number ⟨index, none⟩)
  refine .source rfl (fun t _ _ b _ => .of_still (still t)) (fun t e _ => failed e t)
    fun t other _ => ?_
  exact rest t _ (lasting _ _ (lasting _ _ start other) (.of_still (still t)))

theorem firstRun_runBatches (lasting : Lasting handlers h.name index I) (start : I s)
    {instances : List InstanceId} {locked : Bool}
    (modest : locked = true → systemInstance ∉ instances) :
    S.Upholds (fun _ t => I t) (h.runBatches ctx instances locked) s := by
  subst among
  intro t other _
  have asked : ∀ batch ∈ (chunks (max 1 h.config.concurrentInstances) instances).map
      (fun ids => ({ context := ctx, instances := ids, locked } : Batch)),
      batch.locked = true → systemInstance ∉ batch.instances := by
    intro batch among isLocked
    obtain ⟨part, inside, rfl⟩ := List.mem_map.mp among
    exact fun listed => modest isLocked (mem_of_mem_chunk inside listed)
  exact ⟨fun b _ => .of_asked asked, lasting _ _ (lasting _ _ start other) (.of_asked asked)⟩

theorem firstRun_acquire (counted : s.Counted h.name)
    {next : Except LockError Nat → Task α} {post : α → Scene → Prop}
    (refused : ∀ e t, S.Upholds post (next (.error e)) t)
    (taken : ∀ session t, t.Kept h.name h.owner → S.Upholds post (next (.ok session)) t) :
    S.Upholds post (.ask (.lock (.acquire h.holder h.config.lockDuration [systemInstance])) next)
      s := by
  subst among
  intro t other ready
  refine ⟨fun b _ => .of_acquire ready.1 (Actor.number ⟨index, none⟩) _ _ _, ?_⟩
  dsimp only [setting, Scene.answer]
  rcases t.answerLock_acquire h.holder h.config.lockDuration [systemInstance] h.name with
    ⟨e, answered, _⟩ | ⟨session, table, answered, given, log, table', _, late⟩
  · rw [answered]
    exact refused e _
  · rw [answered]
    have mine := LeaseTable.owner?_acquire_self given (List.mem_singleton_self systemInstance)
    refine taken session _ ⟨?_, ?_⟩
    · rw [Scene.keeper?, table']
      exact mine
    · -- there was no marker yet, or the lock has been taken late
      have bounded := (other.counted counted).bounded
      rw [Scene.marked, log, late, decide_eq_true (List.mem_singleton_self systemInstance),
        Bool.true_and]
      unfold Scene.marked at bounded
      dsimp only [Handler.holder]
      generalize t.world.log.markers h.name = markers at *
      cases markers with
      | nil => exact Nat.zero_le _
      | cons first rest => exact Nat.add_comm .. ▸ bounded

theorem firstRun_release (there : handlers[index]? = some h)
    (distinct : (handlers.map (·.owner)).Nodup) {next : Except LockError Unit → Task α}
    {post : α → Scene → Prop} (rest : ∀ t answer, S.Upholds post (next answer) t) :
    S.Upholds post (.ask (.lock (.release h.holder [systemInstance])) next) s := by
  subst among
  intro t other _
  exact ⟨fun b apart => .of_release distinct there apart (Actor.number ⟨index, none⟩) _, rest _ _⟩

/-- The marker is pushed under the lock, or the push fails. -/
theorem firstRun_push (there : handlers[index]? = some h)
    (distinct : (handlers.map (·.owner)).Nodup) (kept : s.Kept h.name h.owner)
    {next : List Event → Action β} {post : Except HandlerError β → Scene → Prop}
    (failed : ∀ e t, post (.error e) t)
    (rest : ∀ t events, S.Upholds post (next events).run t) :
    S.Upholds post (askSource (.push [h.marker]) >>= next).run s := by
  subst among
  refine .source rfl (fun t other _ b apart => ?_) (fun t e _ => failed e t) fun t _ _ => rest _ _
  exact .of_marker distinct there apart (lasting_kept there _ _ kept other)

theorem firstRun_firstRunLocked (there : handlers[index]? = some h)
    (distinct : (handlers.map (·.owner)).Nodup) (kept : s.Kept h.name h.owner) :
    S.Upholds (fun _ _ => True) (h.firstRunLocked ctx state started).run s := by
  have lasting := lasting_kept there
  refine firstRun_source among lasting kept trivial (fun _ _ => trivial) fun u t kept => ?_
  generalize (u.world.answerSource _).1 = instances
  have batches : S.Upholds _ (h.runBatches ctx instances false) t :=
    firstRun_runBatches among lasting kept (by simp)
  refine upholds_seq (Setting.Upholds.bind (batches.mono fun failed t kept => ?_))
  refine upholds_seq (firstRun_modest among lasting kept (by trivial) fun t cancelled kept => ?_)
  dsimp only [Dialogue.bind, Function.comp_apply, Setting.Upholds]
  split
  next => exact firstRun_push among there distinct kept (fun _ _ => trivial) fun _ _ => trivial
  next => trivial

theorem firstRun_underLock (there : handlers[index]? = some h)
    (distinct : (handlers.map (·.owner)).Nodup) (kept : s.Kept h.name h.owner) {session : Nat}
    {work : Context → Task α}
    (rest : ∀ ctx t, t.Kept h.name h.owner → S.Upholds (fun _ _ => True) (work ctx) t) :
    S.Upholds (fun _ _ => True) (h.underLock ctx session [systemInstance] work) s := by
  have lasting := lasting_kept there
  refine firstRun_modest among lasting kept (by trivial) fun t token kept => ?_
  refine firstRun_modest among lasting kept (by trivial) fun t _ kept => ?_
  refine Setting.Upholds.bind (d := work (ctx.withToken token)) ((rest _ t kept).mono ?_)
  rintro result t -
  have nothing : Lasting handlers h.name index fun _ => True := fun _ _ _ _ => trivial
  refine firstRun_modest among nothing trivial (by trivial) fun t _ _ => ?_
  refine firstRun_modest among nothing trivial (by trivial) fun t _ _ => ?_
  exact firstRun_release among there distinct fun _ _ => trivial

theorem firstRun_firstRun (there : handlers[index]? = some h)
    (distinct : (handlers.map (·.owner)).Nodup) (counted : s.Counted h.name) :
    S.Upholds (fun _ _ => True) (h.firstRun ctx state started).run s := by
  refine upholds_seq (firstRun_acquire among counted (fun _ _ => trivial)
    fun session t kept => ?_)
  change S.Upholds (fun _ _ => True) (h.underLock ctx session [systemInstance]
    fun ctx => (h.firstRunLocked ctx state started).run) t
  exact firstRun_underLock among there distinct kept fun ctx t kept =>
    firstRun_firstRunLocked among there distinct kept

/-- A later sweep leaves the system instance alone. -/
theorem firstRun_steadySweep :
    S.Upholds (fun _ _ => True) (h.steadySweep ctx state started).run s := by
  have nothing : Lasting handlers h.name index fun _ => True := fun _ _ _ _ => trivial
  refine firstRun_source among nothing trivial trivial (fun _ _ => trivial) fun u t _ => ?_
  have batches : S.Upholds _
      (h.runBatches ctx (u.world.log.instanceIds (h.activeQuery state)) true) t :=
    firstRun_runBatches among nothing trivial fun _ => h.not_mem_active state u.world.log
  exact upholds_seq (Setting.Upholds.bind (batches.mono fun _ _ _ => trivial))

theorem firstRun_sweepFrom (there : handlers[index]? = some h)
    (distinct : (handlers.map (·.owner)).Nodup) (counted : s.Counted h.name) :
    S.Upholds (fun _ _ => True) (h.sweepFrom ctx state started).run s := by
  refine firstRun_source among (fun _ _ counted moved => moved.counted counted) counted trivial
    (fun _ _ => trivial) fun _ t counted => ?_
  split
  next => exact firstRun_firstRun among there distinct counted
  next => exact firstRun_steadySweep among

end Sweep

variable {pages : Nat} {projection : String}

/-- The batches that a sweep asks for leave the system instance alone. -/
theorem firstRun_batch {call : HandlerCall}
    {next : call.Answer → Task (Except HandlerError (SweepOutcome × SchedulerState))}
    {post : Except HandlerError (SweepOutcome × SchedulerState) → Scene → Prop}
    {batches : List Batch} {batch : Batch} (live : s.Live) (counted : s.Counted projection)
    (upholds : ((firstRun handlers projection).setting h started ⟨index, none⟩).Upholds post
      (.ask call next) s)
    (asked : call.batches? = some batches) (among : batch ∈ batches) :
    batch.locked = true → systemInstance ∉ batch.instances := by
  obtain ⟨limit, rfl⟩ : ∃ limit, call = .task (.batches limit batches) := by
    cases call with
    | task c =>
      cases c with
      | batches limit others =>
        obtain rfl := Option.some.inj asked
        exact ⟨limit, rfl⟩
      | _ => cases asked
    | _ => cases asked
  -- the scheduler may be answered that all of them have failed
  have answered : (firstRun handlers projection).Answered h started batches
      { s with results := List.replicate batches.length false } :=
    ⟨List.length_replicate, fun _ _ => trivial⟩
  obtain ⟨own, _⟩ := upholds { s with results := List.replicate batches.length false }
    (.of_still (.of_same rfl rfl rfl rfl))
    ⟨live, rfl, fun _ others same => Option.some.inj same ▸ answered⟩
  exact ((own ⟨index, some 0⟩ (by simp)).counted ⟨counted.bounded, counted.modest⟩).modest batch among

theorem firstRun_laws (named : ∀ h ∈ handlers, h.name = projection)
    (distinct : (handlers.map (·.owner)).Nodup) :
    (firstRun handlers projection).Laws pages handlers where
  refl := .of_still (.of_same rfl rfl rfl rfl)
  trans := .trans
  results := .of_still (.of_same rfl rfl rfl rfl)
  fit := id
  fine moved := moved.counted
  rest _ := id
  under _ := id
  out _ := id
  batchEnd _ := id
  sweepEnd _ := id
  remembered _ := trivial
  moves {a s m} permitted live _ := by
    refine .of_after m live ?_ ?_
    · rintro events rfl
      exact permitted
    · rintro instances rfl
      exact permitted
  begins _ := trivial
  sweeps there _ counted _ := by
    obtain rfl := named _ (List.mem_of_getElem? there)
    exact firstRun_sweepFrom rfl there distinct counted
  launches {index h started call next post batches batch number s} there live counted _ upholds asked
      among _ := by
    have modest := firstRun_batch live counted upholds asked among
    refine (Setting.Upholds.of_only (h.runBatch_modest modest pages) fun call s modest => ?_).mono
      fun _ _ _ => ⟨trivial, trivial⟩
    exact fun b _ => .of_still (Scene.still_of_modest modest _)

theorem firstRun_start {day : Instant} :
    (firstRun handlers projection).Holds handlers (Fleet.start projection day handlers) where
  fine := ⟨Nat.zero_le _, fun batch asked => by cases asked⟩
  handlers := by simp [Fleet.start, Function.comp_def]
  safe {index p} there := by
    simp only [Fleet.start, List.getElem?_map, Option.map_eq_some_iff] at there
    obtain ⟨h, _, rfl⟩ := there
    exact ⟨trivial, fun _ _ => trivial, fun idle => (by cases idle), fun idle => (by cases idle)⟩

end Pact

namespace Fleet

/-- Of processes with leases that do not run out and are not revoked, each pushes a marker only while it
has the lock for a first sweep. All together they push at most one marker more than the lock was taken
by one that found a marker there only then. -/
theorem markers_le (pages : Nat) (projection : String) (day : Instant) {handlers : List Handler}
    {moves : List Move} (named : ∀ h ∈ handlers, h.name = projection)
    (distinct : (handlers.map (·.owner)).Nodup)
    (live : ∀ before, before <+: moves → (run pages projection day handlers before).scene.Live)
    (unrevoked : ∀ instances, .revoke instances ∉ moves)
    (pushed : ∀ events, .push events ∈ moves → ∀ new ∈ events, new.marks projection = false) :
    let scene := (run pages projection day handlers moves).scene
    (scene.world.log.markers projection).length ≤ 1 + scene.late := by
  have permitted : ∀ m ∈ moves, (Pact.firstRun handlers projection).permits m := by
    intro m among
    cases m with
    | push events => exact pushed events among
    | revoke instances => exact unrevoked instances among
    | _ => trivial
  exact (Pact.holds_run (Pact.firstRun_laws named distinct) Pact.firstRun_start live
    permitted).fine.bounded

/-- Whether a test passes in every state of a run. -/
def always (pages : Nat) (test : Scene → Bool) : Fleet → List Move → Bool
  | f, [] => test f.scene
  | f, m :: rest => test f.scene && always pages test (f.move pages m) rest

theorem always_before {pages : Nat} {test : Scene → Bool} {f : Fleet} {before moves : List Move}
    (passes : always pages test f moves = true) (inside : before <+: moves) :
    test (before.foldl (move pages) f).scene = true := by
  induction moves generalizing f before with
  | nil =>
    obtain rfl := List.prefix_nil.mp inside
    exact passes
  | cons m rest ih =>
    obtain ⟨here, later⟩ := Bool.and_eq_true_iff.mp passes
    cases before with
    | nil => exact here
    | cons first others =>
      obtain ⟨rfl, tail⟩ := List.cons_prefix_cons.mp inside
      exact ih (f := f.move pages first) later tail

instance (s : Scene) : Decidable s.Live :=
  inferInstanceAs (Decidable (∀ entry ∈ s.world.leases.table.entries,
    s.world.clock < entry.2.expiry))

/-- Two processes that look for the marker before either has the lock push one each. -/
theorem markers_le_of_race :
    let handler (owner : String) : Handler :=
      { name := rawProjection.name, registry := rawProjection.registry, config := {}, owner }
    let handlers := [handler "first", handler "second"]
    let turns (process : Nat) : List Move :=
      (List.replicate 28 [Move.turn ⟨process, none⟩, .turn ⟨process, some 0⟩]).flatten
    let moves := [.push [⟨⟨"x"⟩, ⟨"1"⟩, ⟨"a"⟩, ⟨"x.other"⟩, .null⟩],
      .sweep 0 { token := ⟨8, []⟩ }, .sweep 1 { token := ⟨9, []⟩ },
      .turn ⟨0, none⟩, .turn ⟨1, none⟩] ++ turns 0 ++ turns 1
    ∃ scene, scene = (run 2 rawProjection.name default handlers moves).scene ∧
      scene.late = 1 ∧ (scene.world.log.markers rawProjection.name).length = 2 ∧
      (scene.world.log.markers rawProjection.name).length ≤ 1 + scene.late := by
  intro handler handlers turns moves
  have live : always 2 (fun s => decide s.Live)
      (start rawProjection.name default handlers) moves = true := by
    decide +kernel
  have late : (run 2 rawProjection.name default handlers moves).scene.late = 1 := by
    decide +kernel
  have two : ((run 2 rawProjection.name default handlers moves).scene.world.log.markers
      rawProjection.name).length = 2 := by
    decide +kernel
  refine ⟨_, rfl, late, two, markers_le 2 rawProjection.name default ?_ ?_ ?_ ?_ ?_⟩
  · simp [handlers, handler]
  · simp [handlers, handler]
  · exact fun before inside => of_decide_eq_true (always_before live inside)
  · intro instances among
    simp [moves, turns] at among
  · intro events among new inside
    simp [moves, turns] at among
    subst among
    obtain rfl := List.mem_singleton.mp inside
    decide

end Fleet

end ReadModel
