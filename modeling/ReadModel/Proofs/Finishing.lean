import ReadModel.Proofs.Underway

/-!
A sweep can always be brought to an end.

Whoever has the open transaction never waits, and nobody else has to wait once it is over. So from
wherever a sweep has got to, its batches can take turns until all have ended, and then the sweep has.
-/

namespace ReadModel

/-- What a fleet is like after turns of actors. -/
def Fleet.turns (pages : Nat) (f : Fleet) (actors : List Actor) : Fleet :=
  actors.foldl (fun f actor => f.move pages (.turn actor)) f

theorem Fleet.turns_append (pages : Nat) (f : Fleet) (first later : List Actor) :
    f.turns pages (first ++ later) = (f.turns pages first).turns pages later :=
  List.foldl_append ..

namespace Siblings

variable {σ : Siblings} {pages limit : Nat} {r : Scene} {f : Fleet} {tasks : List (Task Bool)}
  {result : List Bool → Except HandlerError (SweepOutcome × SchedulerState)}

/-- The batches of a fleet's sweep run. -/
structure Working (σ : Siblings) (pages : Nat) (r : Scene) (limit : Nat)
    (result : List Bool → Except HandlerError (SweepOutcome × SchedulerState))
    (tasks : List (Task Bool)) (f : Fleet) : Prop where
  process : ∃ p started, f.processes = [p] ∧ p.handler = σ.handler ∧
    p.sweep = some ⟨started, σ.asking limit result, some tasks⟩
  underway : ∃ maker, σ.Underway pages r tasks ⟨f.scene, maker⟩

/-- No batch but one may have a transaction. -/
def Free (batch : Nat) (f : Fleet) : Prop :=
  f.scene.world.transactionOf = none ∨ f.scene.world.transactionOf = some (number batch)

namespace Working

/-- A batch makes its next call. -/
theorem answered (working : σ.Working pages r limit result tasks f) {batch : Nat} (free : Free batch f)
    {call : HandlerCall} {next : call.Answer → Task Bool}
    (found : tasks[batch]? = some (.ask call next)) :
    ∃ answer, σ.Working pages r limit result (tasks.set batch (next answer))
        (f.move pages (.turn ⟨0, some batch⟩)) ∧
      Free batch (f.move pages (.turn ⟨0, some batch⟩)) := by
  obtain ⟨⟨p, started, processes, handler, under⟩, maker, underway⟩ := working
  obtain ⟨own, state, sweep⟩ := p
  obtain rfl : sweep = _ := under
  have ready := World.waits_of_owner underway.fine.owned free call
  have goes : f.move pages (.turn ⟨0, some batch⟩) =
      ⟨(Scene.answer (number batch) call f.scene).2, [⟨own, state,
        some ⟨started, σ.asking limit result,
          some (tasks.set batch (next (Scene.answer (number batch) call f.scene).1))⟩⟩]⟩ := by
    rw [Fleet.move_batchTurn processes]
    simp only [Process.batchTurn, found, Staged.world] at ready ⊢
    rw [if_neg (Bool.eq_false_iff.mp ready)]
  rw [goes]
  refine ⟨_, ⟨⟨_, started, rfl, handler, rfl⟩, _, underway.answered found ready⟩, ?_⟩
  rcases Scene.owner_answer (number batch) call f.scene with same | none | mine
  · exact free.imp same.trans same.trans
  · exact .inl none
  · exact .inr mine

/-- A batch can be brought to its end, and has no transaction then. -/
theorem finishes (working : σ.Working pages r limit result tasks f) {batch : Nat} (free : Free batch f)
    {task : Task Bool} (found : tasks[batch]? = some task) :
    ∃ actors ok, σ.Working pages r limit result (tasks.set batch (.done ok)) (f.turns pages actors) ∧
      (f.turns pages actors).scene.world.transactionOf = none := by
  induction task generalizing f tasks with
  | done ok =>
    obtain ⟨inside, same⟩ := List.getElem?_eq_some_iff.mp found
    refine ⟨[], ok, ?_, ?_⟩
    · rw [← same, List.set_getElem_self]
      exact working
    · obtain ⟨maker, underway⟩ := working.underway
      have here := List.getElem?_eq_getElem (underway.length ▸ inside)
      have ended : σ.Ends pages r batch _ ok ⟨f.scene, maker⟩ := underway.going here found
      exact free.resolve_right ended.2.out
  | ask call next ih =>
    obtain ⟨answer, next', free'⟩ := working.answered free found
    have inside := (List.getElem?_eq_some_iff.mp found).1
    obtain ⟨actors, ok, ended, none⟩ := ih answer next' free' (List.getElem?_set_self inside)
    rw [List.set_set] at ended
    exact ⟨⟨0, some batch⟩ :: actors, ok, ended, none⟩

/-- The first batches can be brought to their ends. -/
theorem finish_first (working : σ.Working pages r limit result tasks f)
    (free : f.scene.world.transactionOf = none) {count : Nat} (bound : count ≤ tasks.length) :
    ∃ actors tasks', σ.Working pages r limit result tasks' (f.turns pages actors) ∧
      (f.turns pages actors).scene.world.transactionOf = none ∧ tasks'.length = tasks.length ∧
        ∀ batch, batch < count → ∃ ok, tasks'[batch]? = some (.done ok) := by
  induction count with
  | zero => exact ⟨[], tasks, working, free, rfl, nofun⟩
  | succ count ih =>
    obtain ⟨actors, tasks', there, none, length, done⟩ := ih (Nat.le_of_succ_le bound)
    have inside : count < tasks'.length := length ▸ bound
    obtain ⟨more, ok, further, none⟩ :=
      there.finishes (.inl none) (List.getElem?_eq_getElem inside)
    refine ⟨actors ++ more, tasks'.set count (.done ok), ?_, ?_, (List.length_set ..).trans length,
      fun batch within => ?_⟩
    · rw [Fleet.turns_append]
      exact further
    · rw [Fleet.turns_append]
      exact none
    · rcases Nat.lt_succ_iff_lt_or_eq.mp within with before | rfl
      · rw [List.getElem?_set_ne (Nat.ne_of_gt before)]
        exact done batch before
      · exact ⟨ok, List.getElem?_set_self inside⟩

/-- All batches can be brought to their ends, whoever has a transaction. -/
theorem finish_all (working : σ.Working pages r limit result tasks f) :
    ∃ actors tasks', σ.Working pages r limit result tasks' (f.turns pages actors) ∧
      ∀ batch, batch < tasks'.length → ∃ ok, tasks'[batch]? = some (.done ok) := by
  -- the batch that has the open transaction goes first, since the others may wait for it
  have idle : ∃ actors tasks', σ.Working pages r limit result tasks' (f.turns pages actors) ∧
      (f.turns pages actors).scene.world.transactionOf = none := by
    obtain ⟨maker, underway⟩ := working.underway
    cases owner : f.scene.world.transactionOf with
    | none => exact ⟨[], tasks, working, owner⟩
    | some number =>
      obtain ⟨batch, inside, rfl⟩ := underway.owner number owner
      rw [← underway.length] at inside
      obtain ⟨actors, ok, ended, none⟩ :=
        working.finishes (.inr owner) (List.getElem?_eq_getElem inside)
      exact ⟨actors, _, ended, none⟩
  obtain ⟨first, tasks', there, none⟩ := idle
  obtain ⟨later, tasks'', ended, _, length, done⟩ := there.finish_first none (Nat.le_refl _)
  refine ⟨first ++ later, tasks'', ?_, fun batch inside => done batch (length ▸ inside)⟩
  rw [Fleet.turns_append]
  exact ended

end Working

theorem exists_results {tasks : List (Task Bool)}
    (done : ∀ batch, batch < tasks.length → ∃ ok, tasks[batch]? = some (.done ok)) :
    ∃ results, results? tasks = some results := by
  induction tasks with
  | nil => exact ⟨[], rfl⟩
  | cons task rest ih =>
    obtain ⟨ok, first⟩ := done 0 (Nat.zero_lt_succ _)
    obtain rfl : task = .done ok := Option.some.inj first
    obtain ⟨results, later⟩ := ih fun batch inside => done (batch + 1) (Nat.succ_lt_succ inside)
    exact ⟨ok :: results, congrArg (Option.map (ok :: ·)) later⟩

/-- A sweep whose batches run can be brought to its end. -/
theorem Working.ended (working : σ.Working pages r limit result tasks f) :
    ∃ actors final, (f.turns pages actors).Ended final := by
  obtain ⟨actors, tasks', there, done⟩ := working.finish_all
  obtain ⟨results, all⟩ := exists_results done
  obtain ⟨p, started, processes, handler, under⟩ := there.process
  refine ⟨actors ++ [⟨0, none⟩], result results, ?_⟩
  rw [Fleet.turns_append]
  rw [Fleet.turns, List.foldl_cons, List.foldl_nil, Fleet.move_turn processes,
    turn_results started under all]
  exact ⟨_, _, rfl, rfl, rfl⟩

/-- A sweep that asks the log comes to its batches. -/
theorem works_of_asks {program : Task (Except HandlerError (SweepOutcome × SchedulerState))}
    (leads : σ.start.world.log.LeadsTo (σ.asking limit result) program) {p : Process}
    {started : Instant} {maker : Nat → Option Nat} (processes : f.processes = [p])
    (handler : p.handler = σ.handler)
    (under : p.sweep = some ⟨started, program, none⟩)
    (underway : σ.Underway pages r (σ.launched pages) ⟨f.scene, maker⟩) :
    ∃ actors, σ.Working pages r limit result (σ.launched pages) (f.turns pages actors) := by
  induction leads generalizing f p with
  | here =>
    refine ⟨[⟨0, none⟩], ?_⟩
    rw [Fleet.turns, List.foldl_cons, List.foldl_nil, Fleet.move_turn processes,
      turn_asking started under handler]
    exact ⟨⟨_, started, rfl, handler, rfl⟩, maker, underway⟩
  | filter later ih | instanceIds later ih =>
    have log : f.scene.world.log = σ.start.world.log := underway.fine.log
    have goes : f.move pages (.turn ⟨0, none⟩) = _ := Fleet.move_turn processes
    rw [turn_source started under underway.fine.running] at goes
    have there : ∃ actors, σ.Working pages r limit result (σ.launched pages)
        ((f.move pages (.turn ⟨0, none⟩)).turns pages actors) := by
      rw [goes]
      refine ih rfl handler ?_ (underway.without_results [] f.scene.asked)
      rw [← log]
      rfl
    obtain ⟨actors, working⟩ := there
    exact ⟨⟨0, none⟩ :: actors, working⟩

/-- A sweep can be brought to its end from wherever it has got to. -/
theorem Sweeps.finishes {p : Process} {maker : Nat → Option Nat}
    (sweeps : σ.Sweeps pages r limit result f p maker)
    (under : p.sweep ≠ none) : ∃ actors final, (f.turns pages actors).Ended final := by
  obtain ⟨processes, handler, sweeping⟩ := sweeps
  generalize at_ : p.sweep = sweep at sweeping under
  cases sweeping with
  | gone => exact absurd rfl under
  | ends => exact ⟨[], _, p, _, processes, at_, rfl⟩
  | works underway =>
    have working : σ.Working pages r limit result _ f :=
      ⟨⟨p, _, processes, handler, at_⟩, maker, underway⟩
    exact working.ended
  | asks leads underway =>
    obtain ⟨first, working⟩ := works_of_asks leads processes handler at_ underway
    obtain ⟨later, final, ended⟩ := working.ended
    refine ⟨first ++ later, final, ?_⟩
    rw [Fleet.turns_append]
    exact ended

end Siblings

end ReadModel
