import ReadModel.Proofs.Holdings
import ReadModel.Proofs.Pact

/-!
Sweeps give back what they lock.

A `Visit` is a sweep in a world that it shares with others. These take leases and give them up, leases
are revoked, and renewed when this is due, and all calls of the sweep and of its batches but those on the
locks are answered anyhow. Leases of others that have not run out are left alone. Once the sweep has
returned, whether or not it has failed, its owner has no more leases than it had or renewed before, and no
session will take one again, if no renewal is due between the time at which a session of this owner is
stopped and the end of its task.
-/

namespace ReadModel

/-- A sweep under way in a world that it shares with others: what is left of it to do, and its batches
while they run. -/
structure Visit where
  world : World
  program : Task (Except HandlerError (SweepOutcome × SchedulerState))
  batches : Option (List (Task Bool)) := none

namespace Visit

/-- What can happen next: someone else makes a call on the locks, leases are revoked, a session renews
its leases, the task of a stopped session quits, time goes by, or the sweep or one of its batches makes
its next call. -/
inductive Move where
  | call (call : LockCall)
  | revoke (projection : String) (instances : List InstanceId)
  | renew (session : Nat)
  | quit (session : Nat)
  | wait (ms : Nat)
  | turn (replies : (call : HandlerCall) → call.Answer)
  | batchTurn (index : Nat) (replies : (call : HandlerCall) → call.Answer)

/-- A sweep that begins. -/
def start (h : Handler) (ctx : Context) (state : SchedulerState) (world : World) : Visit where
  world
  program := (h.sweep ctx state).run

/-- The sweep makes its next call; a call for batches starts these first, and is answered once all of
them have ended. -/
def turn (h : Handler) (pages : Nat) (replies : (call : HandlerCall) → call.Answer) (v : Visit) :
    Visit :=
  match v.program with
  | .done _ => v
  | .ask (.task (.batches _ batches)) next =>
    match v.batches with
    | none => { v with batches := some (batches.map (h.runBatch pages)) }
    | some tasks =>
      match results? tasks with
      | none => v
      | some results => { v with program := next results, batches := none }
  | .ask call next =>
    let (answer, world) := v.world.respond replies call
    { v with world, program := next answer }

/-- A batch makes its next call. -/
def batchTurn (index : Nat) (replies : (call : HandlerCall) → call.Answer) (v : Visit) : Visit :=
  match v.batches with
  | none => v
  | some tasks =>
    match tasks[index]? with
    | some (.ask call next) =>
      let (answer, world) := v.world.respond replies call
      { v with world, batches := some (tasks.set index (next answer)) }
    | _ => v

/-- What a visit is like after a move. A trigger of a batch fetches at most so many pages. A session can
renew its leases once this is due, even one that was stopped, until its task has ended. -/
def move (h : Handler) (pages : Nat) (v : Visit) : Move → Visit
  | .call call => { v with world := (v.world.answerLock call).2 }
  | .revoke projection instances =>
    { v with world.leases := v.world.leases.revoke v.world.clock projection instances }
  | .renew id =>
    match v.world.leases.session? id with
    | some session =>
      if session.mayRenew = true ∧ session.renewAt ≤ v.world.clock then
        { v with world := v.world.renew session }
      else v
    | none => v
  | .quit id => { v with world.leases := v.world.leases.quit id }
  | .wait ms => { v with world.clock := v.world.clock + ms }
  | .turn replies => v.turn h pages replies
  | .batchTurn index replies => v.batchTurn index replies

/-- What a visit is like after moves. -/
def run (h : Handler) (pages : Nat) (v : Visit) (moves : List Move) : Visit :=
  moves.foldl (move h pages) v

/-- The sweep has returned. -/
def Returned (v : Visit) : Prop := ∃ result, v.program = .done result

/-- A move that gives leases to a holder. -/
def Move.Gives (holder : LockHolder) : Move → Prop
  | .call (.acquire taker ..) => taker = holder
  | .revoke projection _ => ⟨projection, "revoked"⟩ = holder
  | _ => False

/-- Whether a move is the sweep's own: it makes a call, one of its batches does, or a session of its
owner renews its leases. -/
def Own (h : Handler) (v : Visit) : Move → Prop
  | .turn _ | .batchTurn .. => True
  | .renew id => ∃ s, v.world.leases.session? id = some s ∧ s.holder = h.holder
  | .call _ | .revoke .. | .quit _ | .wait _ => False

/-- The lease on an instance of a projection. -/
def row? (v : Visit) (key : String × InstanceId) : Option Lease := v.world.leases.table.find? key

/-- What is not the sweep's own leaves a lease as it is. -/
def Untouched (h : Handler) (pages : Nat) (key : String × InstanceId) : Visit → List Move → Prop
  | _, [] => True
  | v, m :: rest =>
    (¬v.Own h m → (v.move h pages m).row? key = v.row? key) ∧
      Untouched h pages key (v.move h pages m) rest

/-- At no time a session of the sweep's owner is due to renew its leases that was stopped and whose task
has not ended. -/
def InTime (h : Handler) (pages : Nat) : Visit → List Move → Prop
  | v, [] => v.world.leases.StopsInTime h.holder v.world.clock
  | v, m :: rest =>
    v.world.leases.StopsInTime h.holder v.world.clock ∧ InTime h pages (v.move h pages m) rest

variable {h : Handler} {pages : Nat} {among : InstanceId → Prop} {v : Visit}
  {stages : Option Nat → LockStage}

/-- The tasks of the sweep keep to the order of their calls, and account for what its owner has. -/
structure Sound (h : Handler) (among : InstanceId → Prop) (v : Visit)
    (stages : Option Nat → LockStage) : Prop where
  leases : v.world.leases.Accounted h.holder among stages
  program : LockStage.Ends h.holder v.program (stages none)
  batch : ∀ index task, (v.batches.getD [])[index]? = some task →
    LockStage.Ends h.holder task (stages (some index))
  idle : ∀ index, (v.batches.getD [])[index]? = none → stages (some index) = .free
  waits : v.batches ≠ none → ∃ limit batches next,
    v.program = .ask (.task (.batches limit batches)) next

namespace Sound

theorem inWorld (sound : v.Sound h among stages) {w : World}
    (leases : w.leases.Accounted h.holder among stages) : Sound h among { v with world := w } stages :=
  { sound with leases }

theorem respond (sound : v.Sound h among stages) (replies : (call : HandlerCall) → call.Answer)
    {call : HandlerCall} {task : Option Nat} {α : Type} {next : call.Answer → Task α}
    (ends : LockStage.Ends h.holder (.ask call next) (stages task)) :
    ∃ stage, (v.world.respond replies call).2.leases.Accounted h.holder among
        (Function.update stages task stage) ∧
      LockStage.Ends h.holder (next (v.world.respond replies call).1) stage := by
  obtain ⟨stage, step, rest⟩ := ends (v.world.respond replies call).1
  exact ⟨stage, sound.leases.respond step, rest⟩

/-- A batch that has ended is at no stage. -/
theorem free_of_results (sound : v.Sound h among stages) {tasks : List (Task Bool)}
    {results : List Bool} (running : v.batches = some tasks)
    (ended : results? tasks = some results) (index : Nat) : stages (some index) = .free := by
  have batch := sound.batch index
  have idle := sound.idle index
  rw [running, Option.getD_some] at batch idle
  obtain ⟨length, done⟩ := results?_eq_some ended
  cases answer : results[index]? with
  | none =>
    rw [List.getElem?_eq_none_iff, length] at answer
    exact idle (List.getElem?_eq_none answer)
  | some result => exact batch _ (done index result answer)

theorem turn (sound : v.Sound h among stages) (replies : (call : HandlerCall) → call.Answer) :
    ∃ stages, (v.turn h pages replies).Sound h among stages := by
  unfold Visit.turn
  split
  next => exact ⟨stages, sound⟩
  next limit batches next asks =>
    split
    next none =>
      have free (index : Nat) : stages (some index) = .free := sound.idle index (by simp [none])
      refine ⟨stages, sound.leases, sound.program, fun index task found => ?_, fun index _ =>
        free index, fun _ => ⟨limit, batches, next, asks⟩⟩
      rw [Option.getD_some, List.getElem?_map, Option.map_eq_some_iff] at found
      obtain ⟨batch, _, rfl⟩ := found
      rw [free index]
      exact h.runBatch_ends pages batch
    next tasks running =>
      split
      next => exact ⟨stages, sound⟩
      next results ended =>
        have program := sound.program
        rw [asks] at program
        obtain ⟨stage, step, rest⟩ := program results
        obtain rfl := Option.some.inj step
        exact ⟨stages, sound.leases, rest, fun index task found => by simp at found,
          fun index _ => sound.free_of_results running ended index, fun some => absurd rfl some⟩
  next call next other asks =>
    have none : v.batches = none := by
      by_contra running
      obtain ⟨limit, batches, next', same⟩ := sound.waits running
      rw [asks] at same
      cases same
      exact other limit batches next' rfl HEq.rfl
    obtain ⟨stage, leases, rest⟩ := sound.respond replies (asks ▸ sound.program)
    refine ⟨Function.update stages Option.none stage, leases, ?_, fun index task found => ?_,
      fun index out => ?_, fun some => absurd none some⟩
    · rwa [Function.update_self]
    · rw [Function.update_of_ne (Option.some_ne_none index)]
      exact sound.batch index task found
    · rw [Function.update_of_ne (Option.some_ne_none index)]
      exact sound.idle index out

theorem batchTurn (sound : v.Sound h among stages) (index : Nat)
    (replies : (call : HandlerCall) → call.Answer) :
    ∃ stages, (v.batchTurn index replies).Sound h among stages := by
  unfold Visit.batchTurn
  split
  next => exact ⟨stages, sound⟩
  next tasks running =>
    split
    next call next asks =>
      have batch := sound.batch
      have idle := sound.idle
      rw [running, Option.getD_some] at batch idle
      obtain ⟨stage, leases, rest⟩ := sound.respond replies (batch index _ asks)
      refine ⟨Function.update stages (some index) stage, leases, ?_, fun other task found => ?_,
        fun other out => ?_, fun _ => sound.waits (by simp [running])⟩
      · rw [Function.update_of_ne (Option.some_ne_none index).symm]
        exact sound.program
      · rw [Option.getD_some, List.getElem?_set] at found
        by_cases same : index = other
        · subst same
          rw [if_pos rfl] at found
          obtain ⟨_, here⟩ := Option.ite_none_right_eq_some.mp found
          rw [Function.update_self, ← Option.some.inj here]
          exact rest
        · rw [if_neg same] at found
          rw [Function.update_of_ne fun also => same (Option.some.inj also).symm]
          exact batch other task found
      · rw [Option.getD_some, List.getElem?_eq_none_iff, List.length_set,
          ← List.getElem?_eq_none_iff] at out
        rw [Function.update_of_ne, idle other out]
        rintro ⟨⟩
        rw [out] at asks
        cases asks
    next => exact ⟨stages, sound⟩

/-- Others that give the owner nothing leave it no more than is accounted for. -/
theorem call (sound : v.Sound h among stages) {call : LockCall}
    (other : ¬(Move.call call).Gives h.holder) : (v.move h pages (.call call)).Sound h among stages := by
  refine sound.inWorld (sound.leases.noMore ?_)
  cases call with
  | acquire taker duration instances => exact Leases.noMore_lock rfl other
  | watch session token => exact Leases.noMore_watch session token
  | stop session => exact Leases.noMore_stop session
  | release giver instances => exact Leases.noMore_unlock giver instances

/-- A session that renews leases of the owner was not stopped before. -/
theorem renew (sound : v.Sound h among stages)
    (inTime : v.world.leases.StopsInTime h.holder v.world.clock) (id : Nat) :
    (v.move h pages (.renew id)).Sound h among stages := by
  dsimp only [move]
  split
  next s found =>
    split
    next renews =>
      have inside := List.mem_of_find?_eq_some found
      refine sound.inWorld (sound.leases.renew inside (fun own => ?_) _)
      exact inTime.renewing inside own renews.1 renews.2
    next => exact sound
  next => exact sound

theorem move (sound : v.Sound h among stages) (pages : Nat) {m : Move}
    (other : ¬m.Gives h.holder) (inTime : v.world.leases.StopsInTime h.holder v.world.clock) :
    ∃ stages, (v.move h pages m).Sound h among stages := by
  cases m with
  | call call => exact ⟨stages, sound.call other⟩
  | revoke projection instances =>
    exact ⟨stages, sound.inWorld (sound.leases.noMore (Leases.noMore_revoke other _ _))⟩
  | renew id => exact ⟨stages, sound.renew inTime id⟩
  | quit id => exact ⟨stages, sound.inWorld (sound.leases.noMore (Leases.noMore_quit id))⟩
  | wait ms => exact ⟨stages, sound.inWorld sound.leases⟩
  | turn replies => exact sound.turn replies
  | batchTurn index replies => exact sound.batchTurn index replies

theorem run (sound : v.Sound h among stages) {moves : List Move}
    (others : ∀ m ∈ moves, ¬m.Gives h.holder) (inTime : v.InTime h pages moves) :
    ∃ stages, (v.run h pages moves).Sound h among stages := by
  induction moves generalizing v stages with
  | nil => exact ⟨stages, sound⟩
  | cons m rest ih =>
    obtain ⟨other, others⟩ := List.forall_mem_cons.mp others
    obtain ⟨now, later⟩ := inTime
    obtain ⟨stages, sound⟩ := sound.move pages other now
    exact ih sound others later

theorem start {w : World} (confined : w.leases.Confined h.holder among) (ctx : Context)
    (state : SchedulerState) :
    (Visit.start h ctx state w).Sound h among fun _ => .free where
  leases := ⟨fun id row => .inl (confined.rows id row),
    fun s inside owned renews => .inl (confined.renewals s inside owned renews)⟩
  program := h.sweep_ends ctx state
  batch _ _ found := by simp [Visit.start] at found
  idle _ _ := rfl
  waits some := absurd rfl some

/-- Once the sweep has returned, none of its tasks is at any stage. -/
theorem confined (sound : v.Sound h among stages) (returned : v.Returned) :
    v.world.leases.Confined h.holder among := by
  obtain ⟨result, done⟩ := returned
  have none : v.batches = none := by
    by_contra running
    obtain ⟨limit, batches, next, same⟩ := sound.waits running
    rw [done] at same
    cases same
  refine sound.leases.confined fun task => ?_
  cases task with
  | none =>
    have program := sound.program
    rwa [done] at program
  | some index => exact sound.idle index (by simp [none])

end Sound

/-- The sweep and its batches keep to the order of their calls on the locks. -/
structure InOrder (h : Handler) (v : Visit) : Prop where
  program : ∃ stage, LockStage.Ends h.holder v.program stage
  batches : ∀ task ∈ v.batches.getD [], ∃ stage, LockStage.Ends h.holder task stage

namespace InOrder

theorem start (h : Handler) (ctx : Context) (state : SchedulerState) (w : World) :
    (Visit.start h ctx state w).InOrder h :=
  ⟨⟨.free, h.sweep_ends ctx state⟩, nofun⟩

theorem turn (inOrder : v.InOrder h) (replies : (call : HandlerCall) → call.Answer) :
    (v.turn h pages replies).InOrder h := by
  obtain ⟨stage, program⟩ := inOrder.program
  unfold Visit.turn
  split
  next => exact inOrder
  next limit batches next asks =>
    rw [asks] at program
    split
    next =>
      refine ⟨inOrder.program, List.forall_mem_map.mpr fun batch _ => ?_⟩
      exact ⟨.free, h.runBatch_ends pages batch⟩
    next tasks running =>
      split
      next => exact inOrder
      next results ended =>
        obtain ⟨stage, _, rest⟩ := program results
        exact ⟨⟨stage, rest⟩, nofun⟩
  next call next _ asks =>
    rw [asks] at program
    obtain ⟨stage, _, rest⟩ := program (v.world.respond replies call).1
    exact ⟨⟨stage, rest⟩, inOrder.batches⟩

theorem batchTurn (inOrder : v.InOrder h) (index : Nat)
    (replies : (call : HandlerCall) → call.Answer) : (v.batchTurn index replies).InOrder h := by
  unfold Visit.batchTurn
  split
  next => exact inOrder
  next tasks running =>
    have batches := inOrder.batches
    rw [running, Option.getD_some] at batches
    split
    next call next asks =>
      refine ⟨inOrder.program, fun task member => ?_⟩
      rcases List.mem_or_eq_of_mem_set member with before | rfl
      · exact batches task before
      · obtain ⟨stage, asked⟩ := batches _ (List.mem_of_getElem? asks)
        obtain ⟨stage, _, rest⟩ := asked (v.world.respond replies call).1
        exact ⟨stage, rest⟩
    next => exact inOrder

theorem move (inOrder : v.InOrder h) (pages : Nat) (m : Move) : (v.move h pages m).InOrder h := by
  cases m with
  | call | revoke | quit | wait => exact ⟨inOrder.program, inOrder.batches⟩
  | renew id =>
    dsimp only [Visit.move]
    split
    next => split <;> exact ⟨inOrder.program, inOrder.batches⟩
    next => exact inOrder
  | turn replies => exact inOrder.turn replies
  | batchTurn index replies => exact inOrder.batchTurn index replies

theorem run (inOrder : v.InOrder h) (pages : Nat) (moves : List Move) :
    (v.run h pages moves).InOrder h := by
  induction moves generalizing v with
  | nil => exact inOrder
  | cons m rest ih => exact ih (inOrder.move pages m)

/-- What the sweep does leaves leases of others alone that have not run out. -/
theorem find?_move (inOrder : v.InOrder h) {m : Move} (own : v.Own h m)
    {key : String × InstanceId} {lease : Lease} (row : v.row? key = some lease)
    (other : ⟨key.1, lease.owner⟩ ≠ h.holder) (unexpired : v.world.clock < lease.expiry) :
    (v.move h pages m).row? key = some lease := by
  cases m with
  | call | revoke | quit | wait => exact own.elim
  | renew id =>
    obtain ⟨s, found, holder⟩ := own
    dsimp only [Visit.move]
    rw [found]
    dsimp only
    split
    next => exact World.find?_renew row (holder ▸ other) unexpired
    next => exact row
  | turn replies =>
    obtain ⟨stage, program⟩ := inOrder.program
    dsimp only [Visit.move, Visit.turn]
    split
    next => exact row
    next =>
      split
      next => exact row
      next => split <;> exact row
    next call next _ asks =>
      rw [asks] at program
      obtain ⟨stage, step, _⟩ := program (v.world.respond replies call).1
      exact World.find?_respond step row other unexpired
  | batchTurn index replies =>
    dsimp only [Visit.move, Visit.batchTurn]
    split
    next => exact row
    next tasks running =>
      split
      next call next asks =>
        obtain ⟨stage, batch⟩ := inOrder.batches (.ask call next) (by
          rw [running]
          exact List.mem_of_getElem? asks)
        obtain ⟨stage, step, _⟩ := batch (v.world.respond replies call).1
        exact World.find?_respond step row other unexpired
      next => exact row

end InOrder

/-- The clock never goes back. -/
theorem clock_le_move (v : Visit) (m : Move) : v.world.clock ≤ (v.move h pages m).world.clock := by
  cases m with
  | call call => exact (v.world.clock_answerLock call).ge
  | revoke | quit => exact Nat.le_refl _
  | renew id =>
    dsimp only [move]
    split
    next => split <;> exact Nat.le_refl _
    next => exact Nat.le_refl _
  | wait ms => exact Nat.le_add_right ..
  | turn replies =>
    dsimp only [move, turn]
    split
    next => exact Nat.le_refl _
    next =>
      split
      next => exact Nat.le_refl _
      next => split <;> exact Nat.le_refl _
    next call _ _ _ => exact (v.world.clock_respond replies call).ge
  | batchTurn index replies =>
    dsimp only [move, batchTurn]
    split
    next => exact Nat.le_refl _
    next =>
      split
      next call _ _ => exact (v.world.clock_respond replies call).ge
      next => exact Nat.le_refl _

theorem clock_le_run (h : Handler) (pages : Nat) (v : Visit) (moves : List Move) :
    v.world.clock ≤ (v.run h pages moves).world.clock := by
  induction moves generalizing v with
  | nil => exact Nat.le_refl _
  | cons m rest ih => exact (v.clock_le_move m).trans (ih _)

theorem InOrder.find?_run (inOrder : v.InOrder h) {moves : List Move}
    {key : String × InstanceId} {lease : Lease} (untouched : v.Untouched h pages key moves)
    (row : v.row? key = some lease) (other : ⟨key.1, lease.owner⟩ ≠ h.holder)
    (unexpired : (v.run h pages moves).world.clock < lease.expiry) :
    (v.run h pages moves).row? key = some lease := by
  induction moves generalizing v with
  | nil => exact row
  | cons m rest ih =>
    obtain ⟨here, later⟩ := untouched
    have next : (v.move h pages m).row? key = some lease := by
      by_cases own : v.Own h m
      · have early := (v.clock_le_run h pages (m :: rest)).trans_lt unexpired
        exact inOrder.find?_move own row other early
      · exact (here own).trans row
    exact ih (inOrder.move pages m) later next unexpired

/-- What a sweep does to the leases of others on a visit. -/
structure SparesOthers (h : Handler) (pages : Nat) (v : Visit) (moves : List Move) : Prop where
  /-- What the sweep does next leaves the leases of others alone, as long as they have not run out. -/
  next : ∀ m key lease, (v.run h pages moves).Own h m →
    (v.run h pages moves).row? key = some lease → ⟨key.1, lease.owner⟩ ≠ h.holder →
    (v.run h pages moves).world.clock < lease.expiry →
    ((v.run h pages moves).move h pages m).row? key = some lease
  /-- A lease of someone else that has never run out is the same as before, unless others have changed
  it. -/
  unchanged : ∀ key lease, v.Untouched h pages key moves →
    v.row? key = some lease → ⟨key.1, lease.owner⟩ ≠ h.holder →
    (v.run h pages moves).world.clock < lease.expiry →
    (v.run h pages moves).row? key = some lease

/-- A sweep leaves no locks behind: once it has returned, its owner has and renews leases only where it
did so before. Moves may follow when it has returned, so that this stays so. The leases of others are
spared in any case. -/
theorem sweep_gives_back (h : Handler) (ctx : Context) (state : SchedulerState) (pages : Nat) (w : World)
    (moves : List Move) :
    (start h ctx state w).SparesOthers h pages moves ∧
      ∀ among : InstanceId → Prop, w.leases.Confined h.holder among →
        (∀ m ∈ moves, ¬m.Gives h.holder) → (start h ctx state w).InTime h pages moves →
        ((start h ctx state w).run h pages moves).Returned →
        ((start h ctx state w).run h pages moves).world.leases.Confined h.holder among := by
  have begun := InOrder.start h ctx state w
  refine ⟨⟨fun m key lease own row other unexpired => ?_,
    fun key lease untouched row other unexpired => ?_⟩,
    fun among before others inTime returned => ?_⟩
  · exact (begun.run pages moves).find?_move own row other unexpired
  · exact begun.find?_run untouched row other unexpired
  · obtain ⟨stages, sound⟩ := (Sound.start before ctx state).run others inTime
    exact sound.confined returned

instance (v : Visit) : Decidable v.Returned :=
  match program : v.program with
  | .done result => .isTrue ⟨result, program⟩
  | .ask _ _ => .isFalse fun returned => by
    obtain ⟨result, done⟩ := returned
    cases program.symm.trans done

instance (holder : LockHolder) : (m : Move) → Decidable (m.Gives holder)
  | .call (.acquire taker _ _) => inferInstanceAs (Decidable (taker = holder))
  | .revoke projection _ => inferInstanceAs (Decidable (⟨projection, "revoked"⟩ = holder))
  | .call (.watch ..) | .call (.stop _) | .call (.release ..) | .renew _ | .quit _ | .wait _ | .turn _
  | .batchTurn .. => .isFalse id

instance decidableInTime (h : Handler) (pages : Nat) :
    (v : Visit) → (moves : List Move) → Decidable (v.InTime h pages moves)
  | v, [] => inferInstanceAs (Decidable (v.world.leases.StopsInTime h.holder v.world.clock))
  | v, m :: rest =>
    have := decidableInTime h pages (v.move h pages m) rest
    inferInstanceAs (Decidable
      (v.world.leases.StopsInTime h.holder v.world.clock ∧ InTime h pages (v.move h pages m) rest))

/-- Answers to a later sweep over some instances while the storage fails. -/
def repliesFor (instances : List InstanceId) : (call : HandlerCall) → call.Answer
  | .store call => .error (.database call.name "down")
  | .source (.instanceIds _) => .ok instances
  | .source (.filter _) | .source (.push _) => .ok [default]
  | .lock (.acquire ..) => .error .noInstances
  | .lock (.release ..) => .ok ()
  | .lock (.watch ..) | .lock (.stop _) | .task (.cancel _) | .task (.crash _) => ()
  | .task (.isCancelled _) | .task (.pause ..) => false
  | .task (.childToken token) => ⟨1, token.id :: token.ancestors⟩
  | .task .today => default
  | .task .clock => 0
  | .task (.waitUntil ..) => none
  | .task (.receive ..) => none
  | .task (.batches ..) => []

/-- Of three batches one is refused its lock, since someone else has the instance, and another loses
its lock while the storage fails. The sweep returns with all three failed, and has no lease. -/
theorem sweep_gives_back_refused_and_revoked :
    let h := orgsHandler
    let replies := repliesFor [⟨"a"⟩, ⟨"b"⟩, ⟨"c"⟩]
    let w : World := { projection := h.name, today := default, pushDate := default }
    let moves : List Move := .call (.acquire ⟨h.name, "other"⟩ 60000 [⟨"b"⟩]) ::
      List.replicate 4 (.turn replies) ++
      [.batchTurn 0 replies, .batchTurn 1 replies, .batchTurn 2 replies, .wait 20000, .renew 1,
        .revoke h.name [⟨"c"⟩], .renew 2] ++
      (List.replicate 7 [Move.batchTurn 0 replies, .batchTurn 2 replies]).flatten ++
      [.turn replies, .quit 1, .wait 20000]
    let v := start h { token := ⟨0, []⟩ } {} w
    w.leases.Confined h.holder (fun _ => False) ∧ (∀ m ∈ moves, ¬m.Gives h.holder) ∧
      v.InTime h 3 moves ∧ (v.run h 3 moves).Returned ∧ v.SparesOthers h 3 moves ∧
      (v.run h 3 moves).world.leases.Confined h.holder fun _ => False := by
  intro h replies w moves v
  have nothing : w.leases.Confined h.holder fun _ => False :=
    ⟨fun _ row => Option.some_ne_none _ (show some _ = none from row.symm), nofun⟩
  have others : ∀ m ∈ moves, ¬m.Gives h.holder := by decide +kernel
  have inTime : v.InTime h 3 moves := by decide +kernel
  have returned : (v.run h 3 moves).Returned := by decide +kernel
  obtain ⟨spares, gives⟩ := sweep_gives_back h { token := ⟨0, []⟩ } {} 3 w moves
  exact ⟨nothing, others, inTime, returned, spares, gives _ nothing others inTime returned⟩

/-- It is not enough that the owner has no leases before: one that it has given up, and that a session of
its still renews, is there again when the sweep has returned. -/
theorem not_given_back_of_forgotten :
    let h := orgsHandler
    let replies := repliesFor [⟨"b"⟩]
    let leases := (Leases.lock {} 0 h.holder 3000 [⟨"a"⟩]).2.unlock h.holder [⟨"a"⟩]
    let w : World := { projection := h.name, today := default, pushDate := default, leases }
    let moves : List Move := List.replicate 4 (.turn replies) ++
      [.batchTurn 0 replies, .wait 1000, .renew 0] ++ List.replicate 7 (.batchTurn 0 replies) ++
      [.turn replies]
    let v := start h { token := ⟨0, []⟩ } {} w
    (∀ id, w.leases.table.owner? h.name id = none) ∧ (∀ m ∈ moves, ¬m.Gives h.holder) ∧
      v.InTime h 3 moves ∧ (v.run h 3 moves).Returned ∧
      (v.run h 3 moves).world.leases.table.owner? h.name ⟨"a"⟩ = some h.owner := by
  intro h replies leases w moves v
  exact ⟨fun _ => rfl, by decide +kernel, by decide +kernel, by decide +kernel, by decide +kernel⟩

/-- A renewal that is due when a batch stops its session, and made after the batch has unlocked its
instance, leaves a lease. -/
example :
    let h := orgsHandler
    let replies := repliesFor [⟨"b"⟩]
    let w : World := { projection := h.name, today := default, pushDate := default }
    let moves : List Move := List.replicate 4 (.turn replies) ++ [.batchTurn 0 replies, .wait 20000] ++
      List.replicate 7 (.batchTurn 0 replies) ++ [.renew 0, .turn replies]
    let v := (start h { token := ⟨0, []⟩ } {} w).run h 3 moves
    v.Returned ∧ v.row? (h.name, ⟨"b"⟩) = some ⟨h.owner, 80000⟩ := by
  decide +kernel

end Visit

end ReadModel
