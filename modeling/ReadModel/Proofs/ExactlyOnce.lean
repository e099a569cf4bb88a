import ReadModel.Proofs.Identity
import ReadModel.Proofs.Team

/-!
Events take effect once and in order.

Each task of a team upholds what the others rely on, whatever they do between its calls. So the
operations that have taken effect are at any time those of the settled events.
-/

namespace ReadModel

namespace MemoryStore

theorem answer_data (s : MemoryStore) {call : StoreCall}
    (inside : (HandlerCall.store call).inside) : (s.answer call).2.data = s.data := by
  refine s.answer_data_of_ne_commit ?_
  rintro rfl
  exact inside

end MemoryStore

theorem Ledger.committed_note (l : Ledger) {call : StoreCall}
    (inside : (HandlerCall.store call).inside) (answer : Except StorageError call.Value) :
    (l.note call answer).committed = l.committed := by
  cases call <;> simp only [HandlerCall.inside] at inside <;> cases answer <;> rfl

section Calls

variable {c : Charge} {i j : Nat} {s : Audit} {call : StoreCall}

/-- The storage and the ledger after a call on the storage still belong to the log. -/
structure Settles (c : Charge) (task : Nat) (call : StoreCall) (a : Audit) : Prop where
  fits : (a.world.store.answer call).2.data.Fits a.world.log c.projection.name c.limit
  effects : (Audit.answer c.surroundings task (.store call) a).2.Effects c
  replayed : (Audit.answer c.surroundings task (.store call) a).2.Replayed

theorem Faithful.settles (faithful : Faithful c s)
    (data : (s.world.store.answer call).2.data = s.world.store.data)
    (committed : (s.ledger.note call (s.world.answerStore i call).1).committed =
      s.ledger.committed) : Settles c i call s where
  fits := by
    rw [data]
    exact faithful.fits
  effects := by
    obtain ⟨applied, operations, settled⟩ := faithful.effects
    refine ⟨applied, committed.trans operations, fun key => ?_⟩
    simp only [Audit.answer, World.answer, World.answerStore_world, data]
    exact settled key
  replayed := by
    simp only [Audit.Replayed, Audit.answer, World.answer, World.answerStore_world, data]
    exact faithful.replayed.trans (congrArg _ committed.symm)

/-- A call on the storage takes nothing away from a task that does not own a transaction. -/
theorem Rely.of_call (apart : j ≠ i) (free : s.world.transactionOf ≠ some j)
    (settles : Faithful c s → Settles c i call s) :
    Rely c j s (Audit.answer c.surroundings i (.store call) s).2 where
  grown := by
    simp only [Audit.answer, World.answer, World.answerStore_world]
    exact List.prefix_rfl
  linked := by
    simp only [Audit.answer, World.answer, World.answerStore_world]
    exact id
  hidden := by simp only [Audit.answer, World.answer, World.answerStore_world]
  faithful before := by
    obtain ⟨fits, effects, replayed⟩ := settles before
    refine ⟨?_, ?_, ?_, ?_, effects, replayed⟩ <;>
      simp only [Audit.answer, World.answer, World.answerStore_world]
    · exact before.linked
    · exact before.shown
    · cases (s.world.store.answer call).2.transaction <;> rfl
    · exact fits
  kept ours := absurd ours free
  foreign _ := by
    simp only [Audit.answer, World.answer, World.answerStore_world]
    split
    next => exact fun same => apart (Option.some.inj same).symm
    next => simp

end Calls

namespace Team

/-- A task among the others of its team. -/
def setting (c : Charge) (task : Nat) : Setting handlerInterface Audit where
  answer := Audit.answer c.surroundings task
  ready call a := a.world.waits task call = false
  others := Rely c task
  self a b := ∀ other, other ≠ task → Rely c other a b

/-- What the transaction of a task can meet that has begun with a log. -/
def frame (task : Nat) (a : Audit) : Frame where
  task
  base := a.world.store.data
  committed := a.ledger.committed
  around o := o.log.Linked ∧ a.world.log.events <+: o.log.events ∧ o.hidden = fun _ => false

variable {c : Charge} {task : Nat} {a : Audit}

/-- Other tasks leave a transaction alone, and it leaves them alone until it is committed. -/
theorem sheltered (c : Charge) (task : Nat) (a : Audit) :
    (frame task a).Sheltered c.surroundings (setting c task) where
  answer := rfl
  others within rely := by
    obtain ⟨owner, transaction, data, ledger⟩ := rely.kept within.owner
    obtain ⟨linked, grown, shown⟩ := within.around
    exact ⟨owner, transaction.trans within.transaction, data.trans within.base,
      ledger ▸ within.committed, ledger ▸ within.pending, rely.linked linked,
      grown.trans rely.grown, rely.hidden.trans shown⟩
  self call inside within other apart := by
    cases call with
    | store call =>
      have free : _ ≠ some other :=
        fun ours => apart (Option.some.inj (ours.symm.trans within.owner))
      exact .of_call apart free fun before =>
        before.settles (MemoryStore.answer_data _ inside) (Ledger.committed_note _ inside _)
    | source call =>
      cases call with
      | filter q => exact .refl
      | push events => cases inside
      | instanceIds q => cases inside
    | lock call => cases inside
    | task call =>
      cases call with
      | isCancelled token => exact .refl
      | _ => cases inside

/-- A transaction that ends settles the events that it applied and no others. -/
theorem settles_commit {config : ProjectionConfig} {owner : String} {token : Token}
    {batch : List Statement} {result : Except HandlerError (Option Nat)} {d : StoreData}
    {tried : Trial} {t : Audit} (keeps : c.projection.registry.KeepsIdentity)
    (logged : c.projection.registry.Logged a.world.log batch)
    (concludes : (c.handler config owner).Concludes (frame task a) a.world.log token batch result d
      tried)
    (within : (frame task a).Within d [] (tried.applied.map (·.operation)) t)
    (faithful : Faithful c t) : Settles c task .commit t := by
  have data : (t.world.store.answer .commit).2.data = d := by
    simp only [MemoryStore.answer, within.transaction]
  have committed : (t.ledger.note .commit (t.world.answerStore task .commit).1).committed =
      t.ledger.committed ++ tried.applied.map (·.operation) := by
    have answer := (within.commit c.surroundings).1
    rw [show (frame task a).task = task from rfl] at answer
    rw [answer, Ledger.note, within.pending]
  have base : t.world.store.data = a.world.store.data := within.base
  cases concludes with
  | unreduced | cancelled | refused =>
    exact faithful.settles (data.trans base.symm) (by simpa [Trial.applied] using committed)
  | @committed o steps d p _ around plan carried below =>
    -- the plan was made with the log as it was at some time, but it is that of the log now
    obtain ⟨linked, grown, shown⟩ := within.around
    have same := fun (st : Statement) (member : st ∈ batch) =>
      logged.filter_gapQuery keeps linked grown member
    rw [around.2.2, ← (c.handler config owner).planIn_congr _ 0 same] at plan
    have logged' := logged.mono grown
    have fits : a.world.store.data.Fits t.world.log c.projection.name c.limit :=
      base ▸ faithful.fits
    refine ⟨?_, ?_, ?_⟩
    · rw [data]
      exact carried.fits linked keeps logged' plan fits
    · obtain ⟨applied, operations, settled⟩ := faithful.effects
      refine ⟨applied ++ tried.applied, ?_, fun key => ?_⟩
      · rw [List.map_append, ← operations]
        exact committed
      · have before := settled key
        rw [base] at before
        have after := carried.settled linked keeps logged' plan fits before
        rw [List.filter_append]
        simp only [Audit.answer, World.answer, World.answerStore_world, data]
        exact after
    · have before := faithful.replayed
      unfold Audit.Replayed at before
      simp only [Audit.Replayed, Audit.answer, World.answer, World.answerStore_world, data,
        Ledger.after]
      rw [committed, StoreData.tables_raiseAll, carried.tables, Tables.replay_append, ← before, base]
      rfl

/-- A call of a handler upholds what the other tasks rely on. -/
theorem upholds_update (keeps : c.projection.registry.KeepsIdentity) (config : ProjectionConfig)
    (owner : String) (ctx : Context) {batch : List Statement}
    (logged : c.projection.registry.Logged a.world.log batch) (faithful : Faithful c a)
    (free : a.world.transactionOf ≠ some task) :
    (setting c task).Upholds (fun _ _ => True)
      ((c.handler config owner).update ctx batch).run a := by
  have answer : (setting c task).answer = Audit.answer c.surroundings task := rfl
  refine Frame.upholds_update answer
    (I := fun t => Faithful c t ∧ t.world.transactionOf ≠ some task ∧
      c.projection.registry.Logged t.world.log batch) ⟨faithful, free, logged⟩ ?_
    (fun _ _ _ => .refl) (fun _ => trivial) (fun _ _ _ => trivial) ?_
  · rintro s t ⟨faithful, free, logged⟩ rely
    exact ⟨rely.faithful faithful, rely.foreign free, logged.mono rely.grown⟩
  · rintro t ⟨faithful, free, logged⟩ ready
    have idle : t.world.transactionOf = none := by
      have waits :
          (t.world.store.transaction.isSome && t.world.transactionOf != some task) = false := ready
      rw [faithful.owned, bne_iff_ne.mpr free, Bool.and_true] at waits
      exact Option.not_isSome_iff_eq_none.mp (Bool.eq_false_iff.mp waits)
    refine ⟨fun other apart => ?_, ?_⟩
    · exact .of_call apart (by simp [idle]) fun before => before.settles rfl rfl
    · have within : (frame task t).Within (frame task t).base [] []
          (Audit.answer c.surroundings task (.store .begin) t).2 :=
        ⟨rfl, rfl, rfl, rfl, rfl, faithful.linked, List.prefix_rfl, faithful.shown⟩
      have steady : (frame task t).Steady t.world.log batch :=
        fun o around st member => logged.filter_gapQuery keeps around.1 around.2.1 member
      refine (sheltered c task t).conclude steady within ?_ fun _ _ _ _ _ _ => trivial
      · intro u result d tried concludes within other apart
        have owner : u.world.transactionOf = some task := within.owner
        refine .of_call apart ?_ (settles_commit keeps logged concludes within)
        rw [owner]
        exact fun same => apart (Option.some.inj same).symm

/-- Nothing is wrong with a team. -/
structure Sound (c : Charge) (team : Team) : Prop where
  faithful : Faithful c team.audit
  owners : ∀ task, team.audit.world.transactionOf = some task → task < team.tasks.length
  safe : ∀ (task : Nat) d, team.tasks[task]? = some d →
    (setting c task).Upholds (fun _ _ => True) d team.audit

theorem sound_start (c : Charge) (day : Instant) : (start c day).Sound c where
  faithful :=
    ⟨EventLog.Pushed.empty.linked, rfl, rfl, StoreData.fits_empty _ _ _,
      ⟨[], rfl, fun _ => rfl⟩, rfl⟩
  owners _ owner := by cases owner
  safe _ _ there := by simp [start] at there

/-- What every task can count on keeps a team sound. -/
theorem Sound.rely {team : Team} (sound : team.Sound c) {audit : Audit}
    (rely : ∀ task, Rely c task team.audit audit) : Team.Sound c { team with audit } where
  faithful := (rely 0).faithful sound.faithful
  owners task owner := by
    refine sound.owners task (Classical.byContradiction fun other => ?_)
    exact (rely task).foreign other owner
  safe task d there :=
    (sound.safe task d there).others (rely task) Rely.trans fun _ _ => trivial

/-- A task that is added with nobody else's transaction keeps a team sound. -/
theorem Sound.add {team : Team} (sound : team.Sound c)
    {d : Task (Except HandlerError (Option Nat))}
    (safe : team.audit.world.transactionOf ≠ some team.tasks.length →
      (setting c team.tasks.length).Upholds (fun _ _ => True) d team.audit) :
    Team.Sound c { team with tasks := team.tasks ++ [d] } where
  faithful := sound.faithful
  owners task owner := by
    rw [List.length_append]
    exact Nat.lt_add_right 1 (sound.owners task owner)
  safe task d' there := by
    rcases Nat.lt_trichotomy task team.tasks.length with old | rfl | beyond
    · rw [List.getElem?_append_left old] at there
      exact sound.safe task d' there
    · rw [List.getElem?_concat_length] at there
      obtain rfl := Option.some.inj there
      exact safe fun ours => Nat.lt_irrefl _ (sound.owners _ ours)
    · rw [List.getElem?_eq_none (List.length_append ▸ beyond)] at there
      cases there

theorem Sound.turn {team : Team} (sound : team.Sound c) {call : HandlerCall}
    {next : call.Answer → Task (Except HandlerError (Option Nat))}
    (there : team.tasks[task]? = some (.ask call next))
    (free : team.audit.world.waits task call = false) :
    Team.Sound c
      { audit := (Audit.answer c.surroundings task call team.audit).2
        tasks := team.tasks.set task
          (next (Audit.answer c.surroundings task call team.audit).1) } := by
  obtain ⟨rely, rest⟩ := sound.safe task _ there _ .refl free
  refine ⟨(rely (task + 1) (by omega)).faithful sound.faithful, fun other owner => ?_,
    fun other d found => ?_⟩
  · rw [List.length_set]
    by_cases same : other = task
    · rw [same]
      exact (List.getElem?_eq_some_iff.mp there).1
    · refine sound.owners other (Classical.byContradiction fun foreign => ?_)
      exact (rely other same).foreign foreign owner
  · by_cases same : other = task
    · subst same
      rw [List.getElem?_set_self (List.getElem?_eq_some_iff.mp there).1] at found
      obtain rfl := Option.some.inj found
      exact rest
    · rw [List.getElem?_set_ne (Ne.symm same)] at found
      exact (sound.safe other d found).others (rely other same) Rely.trans fun _ _ => trivial

theorem Sound.move (keeps : c.projection.registry.KeepsIdentity) {team : Team}
    (sound : team.Sound c) (m : Move) : (team.move c m).Sound c := by
  cases m with
  | push date events =>
    refine sound.rely fun task => .of_same (EventLog.prefix_push _ date events)
      (fun linked => linked.push date events) rfl rfl rfl rfl rfl
  | disturb faults => exact sound.rely fun task => .of_same List.prefix_rfl id rfl rfl rfl rfl rfl
  | cancel token => exact sound.rely fun task => .of_same List.prefix_rfl id rfl rfl rfl rfl rfl
  | update config owner ctx sequences =>
    dsimp only [Team.move]
    cases reduced : c.projection.registry.reduceAll
        (sequences.filterMap team.audit.world.log.find?) with
    | error e => exact sound
    | ok batch =>
      refine sound.add (upholds_update keeps config owner ctx ?_ sound.faithful)
      intro st member
      obtain ⟨e, found, step⟩ := Registry.exists_event reduced member
      obtain ⟨n, _, found⟩ := List.mem_filterMap.mp found
      exact ⟨e, List.mem_of_find?_eq_some found, step⟩
  | turn task =>
    dsimp only [Team.move]
    split
    next call next there =>
      split
      next => exact sound
      next free => exact sound.turn there (Bool.eq_false_iff.mpr free)
    next => exact sound

theorem sound_run (keeps : c.projection.registry.KeepsIdentity) (day : Instant)
    (moves : List Move) : (run c day moves).Sound c := by
  unfold run
  have fold : ∀ team : Team, team.Sound c → (moves.foldl (Team.move c) team).Sound c := by
    induction moves with
    | nil => exact fun _ sound => sound
    | cons m rest ih => exact fun team sound => ih _ (sound.move keeps m)
  exact fold _ (sound_start c day)

/-- In every state that a team can reach, the operations that have taken effect are those of the
settled events: key by key each once, in the order of the log. -/
theorem exactly_once (keeps : c.projection.registry.KeepsIdentity) (day : Instant)
    (moves : List Move) :
    ∃ applied : List Statement,
      (run c day moves).audit.ledger.committed = applied.map (·.operation) ∧
      ∀ key, ∃ events : List Event,
        events = (run c day moves).audit.world.log.events.filter (fun e =>
          e.key = key ∧
          e.sequence ≤
            (run c day moves).audit.world.store.data.stands c.projection.name key ∧
          (run c day moves).audit.world.store.data.failures? c.projection.name e.instanceId
            e.sequence ≤ c.limit) ∧
        events.Pairwise (·.sequence < ·.sequence) ∧
        c.projection.registry.reduceAll events =
          .ok (applied.filter fun st => decide (st.key = key)) := by
  have faithful := (sound_run keeps day moves).faithful
  obtain ⟨applied, committed, settled⟩ := faithful.effects
  refine ⟨applied, committed, fun key => ⟨_, ?_, ?_, settled key⟩⟩
  · refine List.filter_congr fun e _ => ?_
    simp only [Bool.decide_and]
  · exact faithful.linked.ascending.filter _

/-- Two handlers get the same events in different batches and take turns; each event takes effect
once. -/
theorem exactly_once_of_two_handlers :
    ∃ (team : Team) (applied : List Statement), team = run ⟨rawProjection, 0, .still⟩ default
      ([.push default [⟨⟨"x"⟩, ⟨"1"⟩, ⟨"a"⟩, ⟨"x.other"⟩, .null⟩,
          ⟨⟨"x"⟩, ⟨"2"⟩, ⟨"a"⟩, ⟨"x.other"⟩, .null⟩],
        .update {} "first" { token := ⟨0, []⟩ } [2],
        .update {} "second" { token := ⟨1, []⟩ } [2, 1]] ++
        (List.replicate 20 [Move.turn 0, .turn 1]).flatten) ∧
      team.audit.ledger.committed = applied.map (·.operation) ∧ applied.length = 2 := by
  obtain ⟨applied, committed, _⟩ := exactly_once (c := ⟨rawProjection, 0, .still⟩)
    Raw.keepsIdentity default _
  refine ⟨_, applied, rfl, committed, ?_⟩
  rw [← List.length_map (·.operation), ← committed]
  decide +kernel

/-- In every state that a team can reach, the tables are what the operations have made of them that
have taken effect. -/
theorem tables_run (keeps : c.projection.registry.KeepsIdentity) (day : Instant)
    (moves : List Move) : (run c day moves).audit.Replayed :=
  (sound_run keeps day moves).faithful.replayed

end Team

end ReadModel
