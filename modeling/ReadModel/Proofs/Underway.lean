import ReadModel.Proofs.Locked
import ReadModel.Proofs.Pact

/-!
A later sweep, step by step.

A process that sweeps asks the log for its instances, runs the batches, and counts those that have
failed. While the batches take turns, each goes on so that it ends as it ends by itself
(`Siblings.Underway`), in whatever order they make their calls. However far they have got, they can
be brought to an end.
-/

namespace ReadModel

namespace Handler

/-- The instances of the batches of a sweep. -/
def parts (h : Handler) (instances : List InstanceId) : List (List InstanceId) :=
  chunks (max 1 h.config.concurrentInstances) instances

/-- What a later sweep ends with whose batches have answered. -/
def sweptOver (state : SchedulerState) (started : Instant) (instances : List InstanceId)
    (results : List Bool) : SweepOutcome × SchedulerState :=
  ({ regime := .steadyState
     instances := instances.length
     failedBatches := results.countP (!·)
     skipped := false }, if results.countP (!·) = 0 then ⟨some started⟩ else state)

end Handler

/-- Nobody waits who has the open transaction, or where none is open. -/
theorem World.waits_of_owner {w : World} {number : Nat}
    (owned : w.store.transaction.isSome = w.transactionOf.isSome)
    (free : w.transactionOf = none ∨ w.transactionOf = some number) (call : HandlerCall) :
    w.waits number call = false := by
  cases call with
  | source | lock | task => rfl
  | store call =>
    rcases free with none | mine
    · rw [none] at owned
      have blocks : w.store.blocks call = false := by cases call <;> first | exact owned | rfl
      rw [World.waits, World.blocks, blocks, Bool.false_and]
    · rw [World.waits, World.blocks, mine, bne_self_eq_false, Bool.and_false]

namespace Scene

/-- A call leaves no transaction open but that of whoever makes it, or one that was open. -/
theorem owner_answer (number : Nat) (call : HandlerCall) (s : Scene) :
    (Scene.answer number call s).2.world.transactionOf = s.world.transactionOf ∨
      (Scene.answer number call s).2.world.transactionOf = none ∨
        (Scene.answer number call s).2.world.transactionOf = some number := by
  cases call with
  | store call =>
    dsimp only [Scene.answer, Scene.answerStore]
    cases s.outage with
    | none =>
      dsimp only [Scene.inWorld]
      rw [World.answerStore_world]
      cases (s.world.store.answer call).2.transaction with
      | none => exact .inr (.inl rfl)
      | some tx => exact .inr (.inr rfl)
    | some message =>
      rcases s.world.failStore_cases call with same | same
      · exact .inl (by simp only [same, Scene.inWorld])
      · exact .inr (.inl (by simp only [same, Scene.inWorld]))
  | source call =>
    dsimp only [Scene.answer, Scene.answerSource]
    cases s.outage <;> cases call <;> exact .inl rfl
  | lock call =>
    cases call <;> dsimp only [Scene.answer, Scene.answerLock] <;> cases s.outage <;> exact .inl rfl
  | task call => cases call <;> exact .inl rfl

theorem answers_after (s : Scene) (m : Fleet.Move) :
    (s.after m).results = s.results ∧ (s.after m).asked = s.asked := by
  cases m with
  | date date =>
    dsimp only [Scene.after]
    split <;> exact ⟨rfl, rfl⟩
  | renew id =>
    dsimp only [Scene.after]
    split
    next => split <;> exact ⟨rfl, rfl⟩
    next => exact ⟨rfl, rfl⟩
  | push | wait | revoke | disturb | hide | outage | cancel | sweep | turn => exact ⟨rfl, rfl⟩

end Scene

namespace Fleet

section Single

variable {pages : Nat} {f : Fleet} {p : Process}

theorem move_turn (processes : f.processes = [p]) :
    f.move pages (.turn ⟨0, none⟩) = ⟨(p.turn pages (Actor.number ⟨0, none⟩) f.scene).2,
      [(p.turn pages (Actor.number ⟨0, none⟩) f.scene).1]⟩ := by
  simp only [move, put, processes, List.getElem?_cons_zero, List.set_cons_zero]

theorem move_batchTurn (processes : f.processes = [p]) (batch : Nat) :
    f.move pages (.turn ⟨0, some batch⟩) =
      ⟨(p.batchTurn (Actor.number ⟨0, some batch⟩) batch f.scene).2,
        [(p.batchTurn (Actor.number ⟨0, some batch⟩) batch f.scene).1]⟩ := by
  simp only [move, put, processes, List.getElem?_cons_zero, List.set_cons_zero]

end Single

/-- The moves by which a sweep goes on with nothing in its way: an actor makes its next call, time goes
by, or leases are renewed. -/
def Move.calm : Move → Prop
  | .turn _ | .wait _ | .date _ | .renew _ => True
  | _ => False

instance : (m : Move) → Decidable m.calm
  | .turn _ | .wait _ | .date _ | .renew _ => .isTrue trivial
  | .push _ | .revoke _ | .disturb _ | .hide _ | .outage _ | .cancel _ | .sweep .. => .isFalse id

/-- Whether a move is a sweep's own: an actor makes its next call, or a session renews its leases that the
sweep has opened. The sessions with lower numbers were there before. -/
def Move.Own (first : Nat) : Move → Prop
  | .turn _ => True
  | .renew id => first ≤ id
  | _ => False

instance (first : Nat) : (m : Move) → Decidable (m.Own first)
  | .turn _ => .isTrue trivial
  | .renew id => inferInstanceAs (Decidable (first ≤ id))
  | .push _ | .date _ | .wait _ | .revoke _ | .disturb _ | .hide _ | .outage _ | .cancel _
  | .sweep .. => .isFalse id

end Fleet

/-- What has happened between two scenes does not disturb a sweep: the same instances are leased to
others, and the context is not cancelled. -/
structure Scene.Undisturbed (h : Handler) (ctx : Context) (s t : Scene) : Prop where
  leased : ∀ id, t.world.leases.table.heldByOther t.world.clock h.holder id =
    s.world.leases.table.heldByOther s.world.clock h.holder id
  uncancelled : t.world.tokens.isCancelled ctx.token = false

/-- Only the instances that have a row can make a difference. -/
theorem Scene.undisturbed_iff {h : Handler} {ctx : Context} {s t : Scene} :
    s.Undisturbed h ctx t ↔
      (∀ entry ∈ s.world.leases.table.entries ++ t.world.leases.table.entries,
        t.world.leases.table.heldByOther t.world.clock h.holder entry.1.2 =
          s.world.leases.table.heldByOther s.world.clock h.holder entry.1.2) ∧
      t.world.tokens.isCancelled ctx.token = false := by
  refine ⟨fun undisturbed => ⟨fun entry _ => undisturbed.leased entry.1.2, undisturbed.uncancelled⟩,
    fun ⟨rows, uncancelled⟩ => ⟨fun id => ?_, uncancelled⟩⟩
  by_cases row : ∃ entry ∈ s.world.leases.table.entries ++ t.world.leases.table.entries,
    entry.1.2 = id
  · obtain ⟨entry, among, rfl⟩ := row
    exact rows entry among
  · have none : ∀ entry ∈ s.world.leases.table.entries ++ t.world.leases.table.entries,
        entry.1.2 ≠ id := fun entry among same => row ⟨entry, among, same⟩
    obtain ⟨before, after⟩ := List.forall_mem_append.mp none
    rw [LeaseTable.heldByOther_of_not_mem before, LeaseTable.heldByOther_of_not_mem after]

instance (h : Handler) (ctx : Context) (s t : Scene) : Decidable (s.Undisturbed h ctx t) :=
  decidable_of_iff' _ Scene.undisturbed_iff

/-- No move disturbs a sweep that is not its own. -/
def Fleet.Undisturbed (h : Handler) (ctx : Context) (pages first : Nat) : Fleet → List Move → Prop
  | _, [] => True
  | f, m :: rest =>
    (¬m.Own first → f.scene.Undisturbed h ctx (f.move pages m).scene) ∧
      Undisturbed h ctx pages first (f.move pages m) rest

instance Fleet.decidableUndisturbed (h : Handler) (ctx : Context) (pages first : Nat) :
    (f : Fleet) → (moves : List Fleet.Move) → Decidable (f.Undisturbed h ctx pages first moves)
  | _, [] => .isTrue trivial
  | f, m :: rest =>
    have : Decidable ((f.move pages m).Undisturbed h ctx pages first rest) :=
      decidableUndisturbed h ctx pages first (f.move pages m) rest
    inferInstanceAs (Decidable (_ ∧ _))

namespace Siblings

variable {σ : Siblings} {pages : Nat} {r : Scene} {tasks : List (Task Bool)} {s t : Staged}

/-- How a batch ends: as it ends by itself. -/
def Ends (σ : Siblings) (pages : Nat) (r : Scene) (batch : Nat) (part : List InstanceId) (ok : Bool)
    (t : Staged) : Prop :=
  ok = (σ.lot pages part r).1 ∧ σ.Idle batch part (σ.lot pages part r).2 t

/-- Each batch goes on so that it ends as it ends by itself, and an open transaction is one's of them. -/
structure Underway (σ : Siblings) (pages : Nat) (r : Scene) (tasks : List (Task Bool)) (s : Staged) :
    Prop where
  fine : σ.Fine s
  length : tasks.length = σ.parts.length
  going : ∀ {batch part task}, σ.parts[batch]? = some part → tasks[batch]? = some task →
    (σ.setting batch).Upholds (σ.Ends pages r batch part) task s
  owner : ∀ number, s.world.transactionOf = some number →
    ∃ batch, batch < σ.parts.length ∧ number = Siblings.number batch

/-- The tasks with which the batches begin. -/
def launched (σ : Siblings) (pages : Nat) : List (Task Bool) :=
  σ.parts.map fun part => σ.handler.runBatch pages ⟨σ.context, part, true⟩

theorem underway_launched (nonempty : ∀ part ∈ σ.parts, part ≠ []) (solo : σ.Solo false r)
    (fine : σ.Fine s) (data : r.world.store.data = s.data) (none : s.world.transactionOf = none) :
    σ.Underway pages r (σ.launched pages) s where
  fine
  length := List.length_map ..
  going {batch part task} here found := by
    rw [launched, List.getElem?_map, here] at found
    obtain rfl := Option.some.inj found
    refine upholds_runBatch here (nonempty part (List.mem_of_getElem? here)) solo
      ⟨fine, by simp [none], ?_⟩
    rw [data]
  owner number ours := by
    rw [none] at ours
    cases ours

namespace Underway

theorem moved (underway : σ.Underway pages r tasks s) (fine : σ.Fine t)
    (owner : t.world.transactionOf = s.world.transactionOf) (rely : ∀ batch, σ.Rely batch s t) :
    σ.Underway pages r tasks t where
  fine
  length := underway.length
  going {batch _ _} here found :=
    Setting.Upholds.others (underway.going here found) (rely batch) Rely.trans
      fun ended moved => ⟨ended.1, ended.2.others here moved⟩
  owner := owner ▸ underway.owner

theorem leased (underway : σ.Underway pages r tasks s) (leased : σ.Leased s t) :
    σ.Underway pages r tasks t := underway.moved leased.fine leased.owner leased.rely

/-- A batch makes its next call. -/
theorem answered (underway : σ.Underway pages r tasks s) {batch : Nat} {call : HandlerCall}
    {next : call.Answer → Task Bool} (found : tasks[batch]? = some (.ask call next))
    (ready : s.world.waits (number batch) call = false) :
    σ.Underway pages r (tasks.set batch (next (Staged.answer batch call s).1))
      (Staged.answer batch call s).2 := by
  have inside : batch < σ.parts.length := by
    rw [← underway.length]
    exact (List.getElem?_eq_some_iff.mp found).1
  have here := List.getElem?_eq_getElem inside
  obtain ⟨own, rest⟩ := underway.going here found s .refl ready
  have another : σ.Fine (Staged.answer batch call s).2 :=
    (own (batch + 1) (Nat.succ_ne_self batch)).fine underway.fine
  refine ⟨another, (List.length_set ..).trans underway.length, fun {other part task} there listed => ?_,
    fun number ours => ?_⟩
  · -- to the other batches this is one of the steps that they rely on
    by_cases same : other = batch
    · subst same
      obtain rfl := Option.some.inj (here.symm.trans there)
      rw [List.getElem?_set_self (underway.length ▸ inside)] at listed
      obtain rfl := Option.some.inj listed
      exact rest
    · rw [List.getElem?_set_ne (Ne.symm same)] at listed
      exact Setting.Upholds.others (underway.going there listed) (own other same) Rely.trans
        fun ended moved => ⟨ended.1, ended.2.others there moved⟩
  · rcases Scene.owner_answer (Siblings.number batch) call s.scene with same | none | mine
    · exact underway.owner number (same.symm.trans ours)
    · cases none.symm.trans ours
    · exact ⟨batch, inside, Option.some.inj (ours.symm.trans mine)⟩

/-- The date and the clock go on, while the same instances are leased to others. -/
theorem later (underway : σ.Underway pages r tasks s) {clock : Nat} {today date : Instant}
    (leased : ∀ id, s.world.leases.table.heldByOther clock σ.handler.holder id =
      s.world.leases.table.heldByOther s.world.clock σ.handler.holder id) :
    σ.Underway pages r tasks
      { s with scene := s.scene.inWorld { s.world with clock, today, pushDate := date } } := by
  have after : σ.Fine
      { s with scene := s.scene.inWorld { s.world with clock, today, pushDate := date } } :=
    { underway.fine with leases := underway.fine.leases.later leased }
  exact underway.moved after rfl fun _ => .of_quiet (fun _ => after) rfl rfl fun _ ours => ⟨ours, id⟩

/-- A session of the sweep renews its leases, and nobody hears of it. -/
theorem renewed (underway : σ.Underway pages r tasks s) {session : LockSession}
    (inside : session ∈ s.world.leases.sessions)
    (own : σ.start.world.leases.nextSession ≤ session.id) :
    σ.Underway pages r tasks { s with scene := s.scene.inWorld (s.world.renew session) } := by
  obtain ⟨none, settled⟩ := underway.fine.leases.renew inside own
  refine underway.leased (underway.fine.leased ?_ rfl rfl settled)
  show ({ s.world with leases := (s.world.leases.renew s.world.clock session).2 } : World).cancelAll
    (s.world.leases.renew s.world.clock session).1 = _
  rw [none]
  rfl

theorem mem_cancelAll {tokens : List Token} {ts : Tokens} {id : Nat}
    (cancelled : id ∈ (tokens.foldl Tokens.cancel ts).cancelled) :
    id ∈ ts.cancelled ∨ ∃ token ∈ tokens, token.id = id := by
  induction tokens generalizing ts with
  | nil => exact .inl cancelled
  | cons token rest ih =>
    rcases ih cancelled with here | ⟨later, member, same⟩
    · rcases List.mem_cons.mp here with rfl | before
      · exact .inr ⟨token, List.mem_cons_self .., rfl⟩
      · exact .inl before
    · exact .inr ⟨later, List.mem_cons_of_mem _ member, same⟩

theorem nextId_cancelAll (tokens : List Token) (ts : Tokens) :
    (tokens.foldl Tokens.cancel ts).nextId = ts.nextId := by
  induction tokens generalizing ts with
  | nil => rfl
  | cons token rest ih => exact ih _

/-- A session from before renews its leases or loses them, which the batches do not hear of. -/
theorem renewed_elsewhere (underway : σ.Underway pages r tasks s) {session : LockSession}
    (old : session.id < σ.start.world.leases.nextSession)
    (undisturbed : s.scene.Undisturbed σ.handler σ.context
      (s.scene.inWorld (s.world.renew session))) :
    σ.Underway pages r tasks { s with scene := s.scene.inWorld (s.world.renew session) } := by
  have fine := underway.fine
  obtain ⟨older, settled⟩ := fine.leases.renew_elsewhere old undisturbed.leased
  have lost {id : Nat} (cancelled : id ∈ (s.world.renew session).tokens.cancelled) :
      id ∈ s.world.tokens.cancelled ∨ id < σ.start.world.tokens.nextId := by
    refine (mem_cancelAll cancelled).imp_right ?_
    rintro ⟨token, member, rfl⟩
    exact older token member
  have next : (s.world.renew session).tokens.nextId = s.world.tokens.nextId := nextId_cancelAll _ _
  have handedOut : ∀ id ∈ σ.context.token.line ++ (s.world.renew session).tokens.cancelled,
      id < s.world.tokens.nextId := by
    intro id member
    rcases List.mem_append.mp member with inside | cancelled
    · exact fine.handedOut id (List.mem_append_left _ inside)
    · rcases lost cancelled with before | old
      · exact fine.handedOut id (List.mem_append_right _ before)
      · exact Nat.lt_of_lt_of_le old fine.later
  have after : σ.Fine { s with scene := s.scene.inWorld (s.world.renew session) } :=
    fine.quiet rfl rfl undisturbed.uncancelled (next ▸ handedOut) (next ▸ fine.made)
      (next ▸ fine.later) settled
  refine underway.moved after rfl fun batch => .of_quiet (fun _ => after) rfl rfl fun id ours => ?_
  refine ⟨ours, fun alive cancelled => (lost cancelled).elim alive fun old => ?_⟩
  exact absurd (fine.made id batch ours).1 (Nat.not_le.mpr old)

/-- Time goes by, or leases are renewed. -/
theorem after (underway : σ.Underway pages r tasks s) {m : Fleet.Move} (calm : m.calm)
    (undisturbed : ¬m.Own σ.start.world.leases.nextSession →
      s.scene.Undisturbed σ.handler σ.context (s.scene.after m)) :
    σ.Underway pages r tasks { s with scene := s.scene.after m } := by
  cases m with
  | push | revoke | disturb | hide | outage | cancel | sweep => cases calm
  | turn => exact underway
  | wait ms => exact underway.later (undisturbed id).leased
  | date date =>
    dsimp only [Scene.after]
    split
    next => exact underway
    next => exact underway.later fun _ => rfl
  | renew id =>
    dsimp only [Scene.after] at undisturbed ⊢
    split
    next session found =>
      have inside := List.mem_of_find?_eq_some found
      have number : session.id = id := by simpa using List.find?_some found
      simp only [found] at undisturbed
      split
      next renews =>
        rw [if_pos renews] at undisturbed
        rcases Nat.lt_or_ge session.id σ.start.world.leases.nextSession with old | own
        · exact underway.renewed_elsewhere old
            (undisturbed (number ▸ Nat.not_le.mpr old))
        · exact underway.renewed inside own
      next => exact underway
    next => exact underway

end Underway

end Siblings

/-- A program that asks the log for things until it comes to another one. -/
inductive EventLog.LeadsTo {α : Type} (log : EventLog) (goal : Task α) : Task α → Prop
  | here : LeadsTo log goal goal
  | filter {q next} : LeadsTo log goal (next (.ok (log.filter q))) →
      LeadsTo log goal (.ask (.source (.filter q)) next)
  | instanceIds {q next} : LeadsTo log goal (next (.ok (log.instanceIds q))) →
      LeadsTo log goal (.ask (.source (.instanceIds q)) next)

namespace Siblings

variable {σ : Siblings} {pages limit : Nat} {r scene : Scene} {maker : Nat → Option Nat}
  {result : List Bool → Except HandlerError (SweepOutcome × SchedulerState)} {p : Process}

/-- The batches of a sweep. -/
def batches (σ : Siblings) : List Batch := σ.parts.map fun part => ⟨σ.context, part, true⟩

/-- A sweep that asks for its batches. -/
def asking (σ : Siblings) (limit : Nat)
    (result : List Bool → Except HandlerError (SweepOutcome × SchedulerState)) :
    Task (Except HandlerError (SweepOutcome × SchedulerState)) :=
  .ask (.task (.batches limit σ.batches)) fun results => .done (result results)

/-- How far a sweep has got: it asks the log, runs its batches, has ended, or is over. -/
inductive Sweeping (σ : Siblings) (pages : Nat) (r : Scene) (limit : Nat)
    (result : List Bool → Except HandlerError (SweepOutcome × SchedulerState)) :
    Option Sweep → Staged → Prop
  | asks {started program s} : σ.start.world.log.LeadsTo (σ.asking limit result) program →
      σ.Underway pages r (σ.launched pages) s →
      Sweeping σ pages r limit result (some ⟨started, program, none⟩) s
  | works {started tasks s} : σ.Underway pages r tasks s →
      Sweeping σ pages r limit result (some ⟨started, σ.asking limit result, some tasks⟩) s
  | ends {started s} : σ.Underway pages r (s.scene.results.map .done) s →
      s.scene.asked = σ.batches →
      Sweeping σ pages r limit result (some ⟨started, .done (result s.scene.results), none⟩) s
  | gone {s} : Sweeping σ pages r limit result none s

/-- A sweep that asks the log goes on with the answer. -/
theorem turn_source (started : Instant) {call : SourceCall}
    {next : Except SourceError call.Value → Task (Except HandlerError (SweepOutcome × SchedulerState))}
    (under : p.sweep = some ⟨started, .ask (.source call) next, none⟩)
    (running : scene.outage = none) (number : Nat) :
    p.turn pages number scene =
      ({ p with sweep := some ⟨started, next (.ok (scene.world.answerSource call).1), none⟩ },
        { scene with results := [], world := (scene.world.answerSource call).2 }) := by
  simp only [Process.turn, under, HandlerCall.batches?, Option.getD_none, results?, World.waits,
    Bool.false_eq_true, if_false, Scene.answer, Scene.answerSource, running]
  rfl

/-- A sweep that comes to its batches starts them. -/
theorem turn_asking (started : Instant)
    (under : p.sweep = some ⟨started, σ.asking limit result, none⟩) (same : p.handler = σ.handler)
    (number : Nat) :
    p.turn pages number scene =
      ({ p with sweep := some ⟨started, σ.asking limit result, some (σ.launched pages)⟩ }, scene) := by
  have launched : σ.batches.map (σ.handler.runBatch pages) = σ.launched pages := List.map_map ..
  simp only [Process.turn, under, asking, HandlerCall.batches?, same, launched]

/-- A sweep ends once all of its batches have ended. -/
theorem turn_results (started : Instant) {tasks : List (Task Bool)} {results : List Bool}
    (under : p.sweep = some ⟨started, σ.asking limit result, some tasks⟩)
    (all : results? tasks = some results) (number : Nat) :
    p.turn pages number scene =
      ({ p with sweep := some ⟨started, .done (result results), none⟩ },
        { scene with results, asked := σ.batches }) := by
  simp only [Process.turn, under, asking, HandlerCall.batches?, Option.getD_some, all, World.waits,
    Bool.false_eq_true, if_false]
  rfl

theorem Underway.without_results {tasks : List (Task Bool)}
    (underway : σ.Underway pages r tasks ⟨scene, maker⟩) (results : List Bool) (asked : List Batch) :
    σ.Underway pages r tasks ⟨{ scene with results, asked }, maker⟩ :=
  underway.leased (underway.fine.leased rfl rfl rfl underway.fine.leases)

namespace Sweeping

theorem turn (sweeping : σ.Sweeping pages r limit result p.sweep ⟨scene, maker⟩)
    (same : p.handler = σ.handler) (number : Nat) :
    (p.turn pages number scene).1.handler = σ.handler ∧
      σ.Sweeping pages r limit result (p.turn pages number scene).1.sweep
        ⟨(p.turn pages number scene).2, maker⟩ := by
  obtain ⟨handler, state, sweep⟩ := p
  obtain rfl : handler = σ.handler := same
  cases sweeping with
  | gone => exact ⟨rfl, .gone⟩
  | ends underway asked =>
    dsimp only [Process.turn]
    cases result scene.results <;> exact ⟨rfl, .gone⟩
  | asks leads underway =>
    have log : scene.world.log = σ.start.world.log := underway.fine.log
    cases leads with
    | here =>
      rw [turn_asking _ rfl rfl]
      exact ⟨rfl, .works underway⟩
    | filter later | instanceIds later =>
      rw [turn_source _ rfl underway.fine.running]
      exact ⟨rfl, .asks (log ▸ later) (underway.without_results [] scene.asked)⟩
  | works underway =>
    rename_i started tasks
    cases all : results? tasks with
    | none =>
      simp only [Process.turn, asking, HandlerCall.batches?, Option.getD_some, all]
      exact ⟨trivial, .works underway⟩
    | some results =>
      obtain ⟨length, ended⟩ := results?_eq_some all
      have done : tasks = results.map .done := by
        refine List.ext_getElem (by simp [length]) fun index inside _ => ?_
        have found := ended index _ (List.getElem?_eq_getElem (length ▸ inside))
        rw [List.getElem?_eq_getElem inside] at found
        simpa using Option.some.inj found
      rw [turn_results _ rfl all]
      refine ⟨rfl, ?_⟩
      subst done
      exact .ends (s := ⟨{ scene with results, asked := σ.batches }, maker⟩)
        (underway.without_results results σ.batches) rfl

/-- A batch of the sweep takes its turn. -/
theorem batchTurn (sweeping : σ.Sweeping pages r limit result p.sweep ⟨scene, maker⟩)
    (same : p.handler = σ.handler) (batch : Nat) :
    (p.batchTurn (number batch) batch scene).1.handler = σ.handler ∧ ∃ maker',
      σ.Sweeping pages r limit result (p.batchTurn (number batch) batch scene).1.sweep
        ⟨(p.batchTurn (number batch) batch scene).2, maker'⟩ := by
  obtain ⟨handler, state, sweep⟩ := p
  obtain rfl : handler = σ.handler := same
  cases sweeping with
  | gone => exact ⟨rfl, maker, .gone⟩
  | ends underway asked => exact ⟨rfl, maker, .ends underway asked⟩
  | asks leads underway => exact ⟨rfl, maker, .asks leads underway⟩
  | works underway =>
    rename_i started tasks
    dsimp only [Process.batchTurn]
    split
    next call next found =>
      split
      next => exact ⟨rfl, maker, .works underway⟩
      next ready =>
        have answered := underway.answered found (Bool.eq_false_iff.mpr ready)
        exact ⟨rfl, _, .works answered⟩
    next => exact ⟨rfl, maker, .works underway⟩

theorem after {s : Staged} {sweep : Option Sweep}
    (sweeping : σ.Sweeping pages r limit result sweep s) {m : Fleet.Move} (calm : m.calm)
    (undisturbed : ¬m.Own σ.start.world.leases.nextSession →
      s.scene.Undisturbed σ.handler σ.context (s.scene.after m)) :
    σ.Sweeping pages r limit result sweep { s with scene := s.scene.after m } := by
  cases sweeping with
  | gone => exact .gone
  | asks leads underway => exact .asks leads (underway.after calm undisturbed)
  | works underway => exact .works (underway.after calm undisturbed)
  | ends underway asked =>
    obtain ⟨results, still⟩ := s.scene.answers_after m
    have ended := underway.after calm undisturbed
    rw [← results] at ended ⊢
    exact .ends (s := { s with scene := s.scene.after m }) ended (still.trans asked)

end Sweeping

/-- The only process of a fleet is at a sweep. -/
structure Sweeps (σ : Siblings) (pages : Nat) (r : Scene) (limit : Nat)
    (result : List Bool → Except HandlerError (SweepOutcome × SchedulerState))
    (f : Fleet) (p : Process) (maker : Nat → Option Nat) : Prop where
  processes : f.processes = [p]
  handler : p.handler = σ.handler
  sweeping : σ.Sweeping pages r limit result p.sweep ⟨f.scene, maker⟩

variable {f : Fleet}

/-- A sweep goes on with each move that leaves it in peace. -/
theorem Sweeps.move (sweeps : σ.Sweeps pages r limit result f p maker) {m : Fleet.Move}
    (calm : m.calm) (undisturbed : ¬m.Own σ.start.world.leases.nextSession →
      f.scene.Undisturbed σ.handler σ.context (f.move pages m).scene) :
    ∃ p' maker', σ.Sweeps pages r limit result (f.move pages m) p' maker' := by
  obtain ⟨processes, handler, sweeping⟩ := sweeps
  cases m with
  | push | revoke | disturb | hide | outage | cancel | sweep => cases calm
  | wait | date | renew => exact ⟨p, maker, processes, handler, sweeping.after calm undisturbed⟩
  | turn actor =>
    obtain ⟨index, batch⟩ := actor
    cases index with
    | succ index =>
      have nobody : f.processes[index + 1]? = none := by rw [processes]; rfl
      simp only [Fleet.move, nobody]
      exact ⟨p, maker, processes, handler, sweeping⟩
    | zero =>
      cases batch with
      | none =>
        obtain ⟨same, further⟩ := sweeping.turn handler (Actor.number ⟨0, none⟩)
        rw [Fleet.move_turn processes]
        exact ⟨_, maker, rfl, same, further⟩
      | some batch =>
        obtain ⟨same, maker', further⟩ := sweeping.batchTurn handler batch
        rw [Fleet.move_batchTurn processes]
        exact ⟨_, maker', rfl, same, further⟩

theorem Sweeps.moves (sweeps : σ.Sweeps pages r limit result f p maker) {moves : List Fleet.Move}
    (calm : ∀ m ∈ moves, m.calm)
    (undisturbed : f.Undisturbed σ.handler σ.context pages σ.start.world.leases.nextSession moves) :
    ∃ p' maker', σ.Sweeps pages r limit result (moves.foldl (Fleet.move pages) f) p' maker' := by
  induction moves generalizing f p maker with
  | nil => exact ⟨p, maker, sweeps⟩
  | cons m rest ih =>
    obtain ⟨first, later⟩ := List.forall_mem_cons.mp calm
    obtain ⟨here, rest⟩ := undisturbed
    obtain ⟨p', maker', next⟩ := sweeps.move first here
    exact ih next later rest

end Siblings

namespace Fleet

/-- The sweep of the only process has ended with a result. -/
def Ended (f : Fleet) (result : Except HandlerError (SweepOutcome × SchedulerState)) : Prop :=
  ∃ p sweep, f.processes = [p] ∧ p.sweep = some sweep ∧ sweep.program = .done result

end Fleet

/-- At the end of a sweep each batch has ended as it ends by itself. -/
theorem Siblings.Sweeps.ended {σ : Siblings} {pages limit : Nat} {r : Scene} {f : Fleet} {p : Process}
    {maker : Nat → Option Nat}
    {result : List Bool → Except HandlerError (SweepOutcome × SchedulerState)}
    (sweeps : σ.Sweeps pages r limit result f p maker)
    {final : Except HandlerError (SweepOutcome × SchedulerState)} (ended : f.Ended final) :
    final = result f.scene.results ∧ f.scene.world.log = σ.start.world.log ∧
      f.scene.asked = σ.batches ∧ f.scene.results = σ.parts.map (fun part => (σ.lot pages part r).1) ∧
        ∀ part ∈ σ.parts,
          f.scene.world.store.data.Alike σ.handler.name (· ∈ part) (σ.lot pages part r).2 := by
  obtain ⟨processes, _, sweeping⟩ := sweeps
  obtain ⟨p', sweep, same, under, done⟩ := ended
  obtain rfl := List.singleton_inj.mp (processes.symm.trans same)
  obtain ⟨started, program, tasks⟩ := sweep
  obtain rfl : program = .done final := done
  rw [under] at sweeping
  cases sweeping with
  | asks leads => cases leads
  | ends underway asked =>
    have each : ∀ {batch : Nat} {part : List InstanceId} {ok : Bool}, σ.parts[batch]? = some part →
        f.scene.results[batch]? = some ok → σ.Ends pages r batch part ok ⟨f.scene, maker⟩ := by
      intro batch part ok here found
      have task : (f.scene.results.map Dialogue.done)[batch]? = some (.done ok : Task Bool) := by
        rw [List.getElem?_map, found]
        rfl
      exact underway.going here task
    have length : f.scene.results.length = σ.parts.length := by
      rw [← underway.length, List.length_map]
    refine ⟨rfl, underway.fine.log, asked, ?_, fun part member => ?_⟩
    · refine List.ext_getElem (by simp [length]) fun batch inside _ => ?_
      rw [List.getElem_map]
      exact (each (List.getElem?_eq_getElem (length ▸ inside)) (List.getElem?_eq_getElem inside)).1
    · obtain ⟨batch, inside, rfl⟩ := List.getElem_of_mem member
      have within := length.symm ▸ inside
      exact (each (List.getElem?_eq_getElem inside) (List.getElem?_eq_getElem within)).2.data

end ReadModel
