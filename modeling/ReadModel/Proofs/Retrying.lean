import ReadModel.Proofs.Advancing
import ReadModel.Proofs.Patience

/-!
Calls that are broken off.

A call that tries again commits one attempt after the other, and may then end with another error than
the one that tells of progress. What it leaves behind is what a call with fewer retries leaves that does
tell of it (`Handler.BrokenOff`).
-/

namespace ReadModel

/-- Some event has failed more often since, and none less often. -/
structure StoreData.FailedMore (projection : String) (before after : StoreData) : Prop where
  le : ∀ id n, before.failures? projection id n ≤ after.failures? projection id n
  lt : ∃ id n, before.failures? projection id n < after.failures? projection id n

theorem StoreData.FailedMore.ne {projection : String} {d d' : StoreData}
    (more : FailedMore projection d d') : d' ≠ d := by
  rintro rfl
  obtain ⟨id, n, less⟩ := more.lt
  exact Nat.lt_irrefl _ less

theorem StoreData.FailedMore.trans {projection : String} {d d' d'' : StoreData}
    (first : FailedMore projection d d') (second : FailedMore projection d' d'') :
    FailedMore projection d d'' := by
  obtain ⟨id, n, less⟩ := first.lt
  exact ⟨fun id n => (first.le id n).trans (second.le id n),
    id, n, Nat.lt_of_lt_of_le less (second.le id n)⟩

section Failures

variable {h : Handler} {allowed : Faults → Prop} {faults : Faults} {d d' : StoreData}
  {p p' : Progress} {steps : List Step} {tried : Trial}

theorem Handler.failures_le_attempted {st : Statement} {verdict : Verdict}
    (attempt : h.attempted faults d st = (verdict, d')) (name : String) (id : InstanceId) (n : Nat) :
    d.failures? name id n ≤ d'.failures? name id n := by
  rcases Handler.attempted_cases attempt with ⟨_, _, rfl⟩ | ⟨e, _, rfl, _⟩
  · exact Nat.le_refl _
  · conv => rhs; rw [StoreData.failures?, StoreData.failure?_recordFailure]
    split
    next same =>
      obtain ⟨rfl, rfl, rfl⟩ := same
      exact Nat.le_succ _
    next => exact Nat.le_refl _

theorem Handler.failures_lt_attempted {st : Statement}
    (attempt : h.attempted faults d st = (.stopped, d')) :
    d.failures? h.name st.instanceId st.sequence < d'.failures? h.name st.instanceId st.sequence := by
  rcases Handler.attempted_cases attempt with ⟨applied, _, _⟩ | ⟨e, _, rfl, _⟩
  · cases applied
  · conv => rhs; rw [StoreData.failures?, StoreData.failure?_recordFailure, if_pos ⟨rfl, rfl, rfl⟩]
    exact Nat.lt_succ_self _

theorem Carried.failures_le (carried : Carried h allowed d p steps d' p' tried) (name : String)
    (id : InstanceId) (n : Nat) : d.failures? name id n ≤ d'.failures? name id n := by
  induction carried with
  | done => exact Nat.le_refl _
  | skip _ ih => exact ih
  | past _ attempt _ _ ih => exact (Handler.failures_le_attempted attempt name id n).trans ih
  | stop _ attempt => exact Handler.failures_le_attempted attempt name id n

/-- The failure that ends a batch is counted. -/
theorem Carried.failedMore (carried : Carried h allowed d p steps d' p' tried)
    (going : p.stopped = false) (stopped : p'.stopped = true) : d.FailedMore h.name d' := by
  refine ⟨carried.failures_le h.name, ?_⟩
  induction carried with
  | done =>
    rw [going] at stopped
    cases stopped
  | skip _ ih => exact ih going stopped
  | past _ attempt _ _ ih =>
    obtain ⟨id, n, less⟩ := ih going stopped
    exact ⟨id, n, (Handler.failures_le_attempted attempt h.name id n).trans_lt less⟩
  | stop _ attempt => exact ⟨_, _, Handler.failures_lt_attempted attempt⟩

end Failures

/-- With what is read under lock, a batch awaits the events of its keys above where these stand. -/
theorem EventLog.Linked.mem_awaited_locked {log : EventLog} (linked : log.Linked) {d : StoreData}
    {projection : String} {batch : List Statement} {e : Event} :
    e ∈ log.awaited (d.locked projection (fun _ => false) batch) batch ↔
      e ∈ log.events ∧ d.stands projection e.key < e.sequence ∧
        e.sequence ≤ Statement.reach e.key batch := by
  rw [linked.mem_awaited]
  refine and_congr_right fun _ => and_congr_left fun below => ?_
  by_cases touched : ∃ st ∈ batch, st.key = e.key
  · obtain ⟨st, inBatch, same⟩ := touched
    have known := d.get_locked_shown projection inBatch
    rw [same] at known
    rw [known]
  · have none : Statement.reach e.key batch = 0 :=
      Statement.reach_eq_zero fun st inBatch same => touched ⟨st, inBatch, same⟩
    omega

/-- All events can be reduced that a batch asks for. -/
def Handler.Reduces (h : Handler) (batch : List Statement) (a : Audit) : Prop :=
  ∀ e ∈ a.world.log.events, a.world.store.data.stands h.name e.key < e.sequence →
    e.sequence ≤ Statement.reach e.key batch → ∃ st, h.registry.reduce e = .ok st

section Errors

variable {h : Handler} {ctx : Context} {batch : List Statement} {around : Surroundings} {task : Nat}
  {a b : Audit} {token : Token} {tried : Trial}

theorem Handler.reduces_iff (linked : a.world.log.Linked) (keeps : h.registry.KeepsIdentity)
    (logged : h.registry.Logged a.world.log batch) : h.Reduces batch a ↔ ∃ steps,
      h.planIn a.world.log (a.world.store.data.locked h.name (fun _ => false) batch) 0 batch =
        .ok steps := by
  constructor
  · intro reduces
    have each : ∀ e ∈ a.world.log.awaited
        (a.world.store.data.locked h.name (fun _ => false) batch) batch,
          ∃ st, h.registry.reduce e = .ok st := by
      intro e awaited
      obtain ⟨inLog, above, below⟩ := linked.mem_awaited_locked.mp awaited
      exact reduces e inLog above below
    obtain ⟨statements, reduced⟩ := Registry.exists_reduceAll each
    rw [← linked.planIn_statements keeps logged _ 0] at reduced
    cases plan : h.planIn a.world.log
        (a.world.store.data.locked h.name (fun _ => false) batch) 0 batch with
    | ok steps => exact ⟨steps, rfl⟩
    | error e =>
      rw [plan] at reduced
      cases reduced
  · rintro ⟨steps, plan⟩ e inLog above below
    obtain ⟨st, _, reduced⟩ := Registry.exists_statement
      (linked.awaited_statements keeps logged plan)
      (linked.mem_awaited_locked.mpr ⟨inLog, above, below⟩)
    exact ⟨st, reduced⟩

/-- The errors that a call can end with once its events are known to be reduced. -/
def HandlerError.Late (faults : Faults) : HandlerError → Prop
  | .someStatementsFailed _ | .cancelled => True
  | .sequenceUpdate _ => faults.rejectSequences = true
  | _ => False

theorem Handler.Leaves.late {e : HandlerError} (leaves : h.Leaves token task batch a (.error e) tried b)
    (linked : a.world.log.Linked) (keeps : h.registry.KeepsIdentity)
    (logged : h.registry.Logged a.world.log batch) (shown : a.world.hidden = fun _ => false)
    (reduces : h.Reduces batch a) : e.Late a.world.store.faults := by
  obtain ⟨steps, plan⟩ := (reduces_iff linked keeps logged).mp reduces
  have concludes := leaves.concludes
  generalize ended : Except.error e = result, b.world.store.data = left at concludes
  cases concludes with
  | @unreduced o e' like failed =>
    rw [show o.hidden = _ from like.hidden.trans shown] at failed
    cases plan.symm.trans failed
  | cancelled =>
    obtain rfl := Except.error.inj ended
    trivial
  | @refused o steps d p tried faults key sequence like plan carried member allowed refuses =>
    rw [show o.hidden = _ from like.hidden.trans shown] at plan
    rw [Frame.allows_amid] at allowed
    obtain rfl := allowed
    obtain rfl := Except.error.inj ended
    exact carried.rejects linked keeps logged plan member refuses
  | @committed o steps d p =>
    unfold Progress.result at ended
    split at ended
    next =>
      obtain rfl := Except.error.inj ended
      trivial
    next => cases ended

/-- Once a call knows its events to be reduced, it fails only because statements have failed, because it
is cancelled, or because the storage takes no sequences. -/
theorem Handler.upholds_retries_late (quiet : around.Quiet) (keeps : h.registry.KeepsIdentity)
    (retries offset : Nat) (linked : a.world.log.Linked)
    (logged : h.registry.Logged a.world.log batch) (shown : a.world.hidden = fun _ => false)
    (reduces : h.Reduces batch a) :
    (Setting.amid around task).Upholds
      (fun result _ => ∀ e, result = .error e → e.Late a.world.store.faults)
      (h.applyWithRetries ctx retries offset batch).run a := by
  refine upholds_retries_amid quiet (I := fun rest b => a.world.outside.Like b.world.outside ∧
    h.registry.Logged b.world.log rest ∧ h.Reduces rest b) ?_ retries offset ⟨.refl _, logged, reduces⟩
  rintro rest b ⟨like, logged, reduces⟩ result tried c leaves
  have log : b.world.log = a.world.log := like.log
  have linked' := log ▸ linked
  have shown' : b.world.hidden = fun _ => false := like.hidden.trans shown
  cases result with
  | ok last => exact nofun
  | error e =>
    have late := leaves.late linked' keeps logged shown' reduces
    rw [show b.world.store.faults = a.world.store.faults from like.faults] at late
    have ended : ∀ e', Except.error (α := Unit) e = .error e' → e'.Late a.world.store.faults :=
      fun e' same => Except.error.inj same ▸ late
    cases e with
    | someStatementsFailed last =>
      refine ⟨fun last e' same => Except.error.inj same ▸ trivial, fun d unmoved =>
        ⟨fun e' same => Except.error.inj same ▸ trivial, ?_⟩⟩
      have onward := leaves.like.trans unmoved.like
      obtain ⟨run, advanced⟩ := leaves.advanced linked' keeps logged shown'
      have log' : d.world.log = b.world.log := onward.log
      refine ⟨like.trans onward, ?_, fun f inLog above below => ?_⟩
      · rw [log']
        exact logged.drop _
      · -- what the rest asks for was asked for before
        rw [unmoved.data] at above
        rw [log'] at inLog
        exact reduces f inLog (Nat.lt_of_le_of_lt (advanced.stands f.key) above)
          (below.trans (Statement.reach_drop_le ..))
    | _ => exact ended

end Errors

section Runs

variable {h : Handler} {ctx : Context} {batch : List Statement} {around : Surroundings} {task : Nat}
  {tokens : Nat → Tokens} {a b : Audit} {token : Token} {tried : Trial}

theorem Handler.Leaves.failedMore {last : Option Nat}
    (leaves : h.Leaves token task batch a (.error (.someStatementsFailed last)) tried b) :
    a.world.store.data.FailedMore h.name b.world.store.data := by
  obtain ⟨o, steps, d, p, _, _, carried, _, data, result⟩ := leaves.concludes.carried rfl
  have stopped : p.stopped = true := by
    by_contra going
    rw [Progress.result, if_neg going] at result
    cases result
  have more : a.world.store.data.FailedMore h.name d := carried.failedMore rfl stopped
  rw [data]
  exact ⟨by simpa using more.le, by simpa using more.lt⟩

theorem Surroundings.Quiet.data_pause (quiet : around.Quiet) (tokens : Nat → Tokens) (task ms : Nat)
    (token : Token) (s : Course) :
    (Audit.answerAmid tokens around task (.task (.pause ms token)) s).2.audit.world.store.data =
      s.audit.world.store.data :=
  quiet.data ..

/-- What a call does after an attempt that was committed in part depends on whether it may wait. -/
theorem Handler.afterAttempt_pause {answer : (c : HandlerCall) → Course → c.Answer × Course}
    (n offset : Nat) (last : Option Nat) (t : Course) :
    (h.afterAttempt ctx (n + 1) offset batch (.error (.someStatementsFailed last))).run.run answer t =
      (if (answer (.task (.pause h.config.retryFailedAfter ctx.token)) t).1 = true then
          h.applyWithRetries ctx n (offset + (HandlerError.someStatementsFailed last).applied)
            (batch.drop (HandlerError.someStatementsFailed last).applied)
        else throw .cancelled : Action Unit).run.run answer
        (answer (.task (.pause h.config.retryFailedAfter ctx.token)) t).2 := rfl

/-- Whether a call tells that it was committed in part. -/
def TellsProgress (result : Except HandlerError Unit) : Prop :=
  ∃ last, result = .error (.someStatementsFailed last)

/-- How a call is broken off that ends as `ended` tells with each number of retries: nothing has changed,
or the first attempt was committed in part. Then what is left behind is what the call leaves with fewer
retries where it tells of its progress. -/
def Handler.BrokenOff (h : Handler) (before : StoreData)
    (ended : Nat → Except HandlerError Unit × Course) (retries : Nat) : Prop :=
  (ended retries).2.audit.world.store.data = before ∧ ¬TellsProgress (ended 0).1 ∨
    before.FailedMore h.name (ended retries).2.audit.world.store.data ∧ TellsProgress (ended 0).1 ∧
      ∃ n < retries, TellsProgress (ended n).1 ∧
        (ended n).2.audit.world.store.data = (ended retries).2.audit.world.store.data

section BrokenOff

variable {before between : StoreData} {ended later : Nat → Except HandlerError Unit × Course}
  {t : Course} {retries : Nat}

theorem Handler.BrokenOff.atOnce {e : HandlerError} (same : t.audit.world.store.data = before)
    (other : ∀ last, e ≠ .someStatementsFailed last) (all : ∀ n, ended n = (.error e, t)) :
    h.BrokenOff before ended retries := by
  refine .inl ⟨by rw [all]; exact same, fun ⟨last, told⟩ => ?_⟩
  rw [all] at told
  exact other last (Except.error.inj told)

theorem Handler.BrokenOff.after {last : Option Nat}
    (first : ended 0 = (.error (.someStatementsFailed last), t))
    (more : before.FailedMore h.name t.audit.world.store.data)
    (still : between = t.audit.world.store.data) (goesOn : ∀ n, ended (n + 1) = later n)
    (brokenOff : h.BrokenOff between later retries) : h.BrokenOff before ended (retries + 1) := by
  subst still
  unfold BrokenOff
  rw [goesOn, first]
  rcases brokenOff with ⟨same, _⟩ | ⟨further, _, n, fewer, told, same⟩
  · rw [same]
    exact .inr ⟨more, ⟨last, rfl⟩, 0, Nat.succ_pos _, by rw [first]; exact ⟨⟨last, rfl⟩, rfl⟩⟩
  · exact .inr ⟨more.trans further, ⟨last, rfl⟩, n + 1, Nat.succ_lt_succ fewer,
      by rw [goesOn]; exact ⟨told, same⟩⟩

end BrokenOff

/-- A call that ends with another error than the one that tells of progress was broken off. -/
theorem Handler.brokenOff (quiet : around.Quiet) (retries offset : Nat) {batch : List Statement}
    (s : Course) {e : HandlerError}
    (failed : ((h.applyWithRetries ctx retries offset batch).run.run
      (Audit.answerAmid tokens around task) s).1 = .error e)
    (other : ∀ last, e ≠ .someStatementsFailed last) :
    h.BrokenOff s.audit.world.store.data (fun n => (h.applyWithRetries ctx n offset batch).run.run
      (Audit.answerAmid tokens around task) s) retries := by
  have run n : (h.applyWithRetries ctx n offset batch).run.run
      (Audit.answerAmid tokens around task) s = _ :=
    (congrArg (·.run (Audit.answerAmid tokens around task) s)
      (h.run_applyWithRetries n offset)).trans (Dialogue.run_bind ..)
  obtain ⟨tried, leaves⟩ := h.update_leaves ctx batch around task tokens s
  generalize (h.update ctx batch).run.run (Audit.answerAmid tokens around task) s = first at run leaves
  obtain ⟨result, t⟩ := first
  dsimp only at run leaves
  rw [run] at failed
  cases result with
  | ok last => cases failed
  | error error =>
    cases error with
    | someStatementsFailed last =>
      cases retries with
      | zero => exact absurd (Except.error.inj failed).symm (other _)
      | succ retries =>
        refine .after (run 0) leaves.failedMore
          (quiet.data_pause tokens task h.config.retryFailedAfter ctx.token t) (fun n => run (n + 1)) ?_
        cases waited : (Audit.answerAmid tokens around task
            (.task (.pause h.config.retryFailedAfter ctx.token)) t).1 with
        | false =>
          refine .atOnce rfl (e := .cancelled) nofun fun n => ?_
          rw [afterAttempt_pause, waited]
          rfl
        | true =>
          simp only [afterAttempt_pause, waited, if_true] at failed ⊢
          exact brokenOff quiet retries _ _ failed other
    | _ =>
      obtain rfl := Except.error.inj failed
      exact .atOnce (leaves.unchanged rfl).1 other run

/-- A first attempt that is committed in part has reduced all events. -/
theorem Handler.reduces_of_told {s : Course} (linked : s.audit.world.log.Linked)
    (keeps : h.registry.KeepsIdentity) (logged : h.registry.Logged s.audit.world.log batch)
    (shown : s.audit.world.hidden = fun _ => false)
    (told : TellsProgress ((h.applyWithRetries ctx 0 0 batch).run.run
      (Audit.answerAmid tokens around task) s).1) : h.Reduces batch s.audit := by
  obtain ⟨last, told⟩ := told
  obtain ⟨tried, leaves⟩ := h.update_leaves ctx batch around task tokens s
  rw [run_applyWithRetries, Dialogue.run_bind] at told
  generalize (h.update ctx batch).run.run (Audit.answerAmid tokens around task) s = first at told leaves
  obtain ⟨result, t⟩ := first
  have done : wasCommitted result = true := by
    cases result with
    | ok last => rfl
    | error error =>
      cases error with
      | someStatementsFailed last => rfl
      | _ => cases told
  obtain ⟨steps, _, _, plan, _⟩ := leaves.carried shown done
  exact (reduces_iff linked keeps logged).mpr ⟨steps, plan⟩

end Runs

/-- Reduces events and applies them, and tries again so many times. -/
def Handler.processTrying (h : Handler) (ctx : Context) (retries : Nat) (events : List Event) :
    Action Unit :=
  match h.registry.reduceAll events with
  | .error e => throw (.reduce e)
  | .ok batch => h.applyWithRetries ctx retries 0 batch

/-- A call that ends with an error other than `someStatementsFailed` has left the data alone exactly if
its first attempt was not committed in part. Otherwise it leaves what a call with fewer retries leaves that
ends with `someStatementsFailed`. Then some event has failed more often than before, and the error says
that the call was cancelled, or that a sequence was refused by a storage that takes none. -/
theorem Handler.process_broken_off (h : Handler) (ctx : Context) {around : Surroundings}
    (quiet : around.Quiet) (task : Nat) (tokens : Nat → Tokens) {w : World} (pushed : w.log.Pushed)
    (keeps : h.registry.KeepsIdentity) (shown : w.hidden = fun _ => false) {events : List Event}
    (among : ∀ e ∈ events, e ∈ w.log.events) {e : HandlerError}
    (other : ∀ last, e ≠ .someStatementsFailed last) :
    let trying retries := (h.processTrying ctx retries events).run.run
      (Audit.answerAmid tokens around task) { audit := ⟨w, {}⟩ }
    let ended := (h.process ctx events).run.run
      (Audit.answerAmid tokens around task) { audit := ⟨w, {}⟩ }
    let data := ended.2.audit.world.store.data
    ended.1 = .error e →
      (data = w.store.data ↔ ∀ last, (trying 0).1 ≠ .error (.someStatementsFailed last)) ∧
      (data ≠ w.store.data →
        (∃ retries < h.config.maxRetries,
          (∃ last, (trying retries).1 = .error (.someStatementsFailed last)) ∧
          (trying retries).2.audit.world.store.data = data) ∧
        (∃ id n, w.store.data.failures? h.name id n < data.failures? h.name id n) ∧
        (e = .cancelled ∨
          w.store.faults.rejectSequences = true ∧ ∃ key, e = .sequenceUpdate key)) := by
  intro trying ended data failed
  cases reduced : h.registry.reduceAll events with
  | error cause =>
    have all n : trying n = (.error (.reduce cause), { audit := ⟨w, {}⟩ }) := by
      simp only [trying, processTrying, reduced]
      rfl
    have same : data = w.store.data := by
      simp only [data, ended, process, reduced]
      rfl
    refine ⟨⟨fun _ last told => ?_, fun _ => same⟩, fun moved => absurd same moved⟩
    rw [all] at told
    cases told
  | ok batch =>
    have attempts : trying = fun n => (h.applyWithRetries ctx n 0 batch).run.run
        (Audit.answerAmid tokens around task) { audit := ⟨w, {}⟩ } := by
      simp only [trying, processTrying, reduced]
    have linked := pushed.linked
    have logged := Registry.logged_of_reduceAll reduced among
    have whole : ended = trying h.config.maxRetries := rfl
    have brokenOff : h.BrokenOff w.store.data trying h.config.maxRetries := by
      rw [whole, attempts] at failed
      rw [attempts]
      exact h.brokenOff quiet _ _ _ failed other
    rcases brokenOff with ⟨same, silent⟩ | ⟨more, told, n, fewer, toldBy, same⟩
    · exact ⟨⟨fun _ last told => silent ⟨last, told⟩, fun _ => same⟩, fun moved => absurd same moved⟩
    · refine ⟨⟨fun same => absurd same more.ne, fun silent => ?_⟩,
        fun _ => ⟨⟨n, fewer, toldBy, same⟩, more.lt, ?_⟩⟩
      · obtain ⟨last, told⟩ := told
        exact absurd told (silent last)
      · rw [attempts] at told
        rw [whole, attempts] at failed
        have late := (upholds_retries_late quiet keeps h.config.maxRetries 0 linked logged shown
          (reduces_of_told linked keeps logged shown told)).run_amid _ tokens
          (s := { audit := ⟨w, {}⟩ }) e failed
        cases e with
        | cancelled => exact .inl rfl
        | sequenceUpdate key => exact .inr ⟨late, key, rfl⟩
        | someStatementsFailed last => exact absurd rfl (other last)
        | _ => cases late

theorem Surroundings.waiting_quiet : Surroundings.waiting.Quiet :=
  ⟨fun _ _ _ => ⟨rfl, rfl, rfl⟩, fun _ _ _ => rfl⟩

/-- The second of three organizations can never be stored. A call that is cancelled while it waits before
it tries that one again has stored the first and counted the failure. -/
theorem Handler.process_broken_off_of_pause :
    let h : Handler := { orgsHandler with config := { maxRetries := 3, maxFailureCount := 5 } }
    let ctx : Context := { token := ⟨0, []⟩ }
    let w : World :=
      { threeOrgs with store.faults.values := [⟨"projections.orgs", "name", .text "2"⟩] }
    let tokens : Nat → Tokens := fun calls => if calls < 15 then {} else { cancelled := [0] }
    let s : Course := { audit := ⟨w, {}⟩ }
    let ended := (h.process ctx w.log.events).run.run (Audit.answerAmid tokens .waiting 0) s
    ended.1 = .error .cancelled ∧ ended.2.audit.world.store.data ≠ w.store.data ∧
      ∃ retries < 3,
        let fewer := (h.processTrying ctx retries w.log.events).run.run
          (Audit.answerAmid tokens .waiting 0) s
        (∃ last, fewer.1 = .error (.someStatementsFailed last)) ∧
          fewer.2.audit.world.store.data = ended.2.audit.world.store.data := by
  intro h ctx w tokens s ended
  have cancelled : ended.1 = .error .cancelled := by
    have told : (match ended.1 with | .error .cancelled => true | _ => false) = true := by
      decide +kernel
    split at told
    next result => exact result
    next => cases told
  have moved : ended.2.audit.world.store.data ≠ w.store.data := by
    intro same
    have count : ended.2.audit.world.store.data.failures? h.name ⟨"a"⟩ 2 = 1 := by decide +kernel
    rw [same] at count
    exact absurd count (by decide +kernel)
  obtain ⟨_, changed⟩ := h.process_broken_off ctx Surroundings.waiting_quiet 0 tokens (w := w)
    (.push _ _ .empty) Orgs.keepsIdentity rfl (fun _ member => member) (e := .cancelled) nofun cancelled
  exact ⟨cancelled, moved, (changed moved).1⟩

end ReadModel
