import Mathlib.Logic.Function.Basic
import ReadModel.Proofs.LockStages
import ReadModel.Proofs.Sessions
import ReadModel.Simulation.World

/-!
What a holder has of leases.

The tasks of a holder are each at some stage with the leases that they take. What the holder has and
renews is accounted for by these stages (`Leases.Accounted`), whatever others do that does not give it
anything, and whatever its tasks do in the order that they keep to, as long as none of its sessions makes
a renewal after it was stopped (`Leases.StopsInTime`). Leases of others that have not run out are left
alone.
-/

namespace ReadModel

namespace Leases

variable {l l' : Leases} {holder : LockHolder} {among : InstanceId → Prop}

/-- A holder has leases on instances of a kind only, and renews no others. -/
structure Confined (holder : LockHolder) (among : InstanceId → Prop) (l : Leases) : Prop where
  rows : ∀ id, l.table.owner? holder.projection id = some holder.owner → among id
  renewals : ∀ s ∈ l.sessions, s.holder = holder → s.renewing = true → ∀ id ∈ s.instances, among id

/-- No session of a holder is due to renew its leases that was stopped and whose task has not ended. -/
def StopsInTime (holder : LockHolder) (now : Nat) (l : Leases) : Prop :=
  ∀ s ∈ l.sessions, s.holder = holder → s.lingering = true → now < s.renewAt
  deriving Decidable

theorem StopsInTime.renewing {now : Nat} {s : LockSession} (inTime : l.StopsInTime holder now)
    (inside : s ∈ l.sessions) (own : s.holder = holder) (renews : s.mayRenew = true)
    (due : s.renewAt ≤ now) : s.renewing = true :=
  (LockSession.mayRenew_iff.mp renews).resolve_right fun lingers =>
    absurd (inTime s inside own lingers) (Nat.not_lt.mpr due)

/-- What a holder has or renews later, it has or renews now. -/
structure NoMore (holder : LockHolder) (l l' : Leases) : Prop where
  rows : ∀ id, l'.table.owner? holder.projection id = some holder.owner →
    l.table.owner? holder.projection id = some holder.owner
  renewals : ∀ s' ∈ l'.sessions, s'.holder = holder → s'.renewing = true →
    ∃ s ∈ l.sessions, s.grant = s'.grant ∧ s.renewing = true

theorem noMore_modify {number : Nat} {change : LockSession → LockSession}
    (grant : ∀ s, (change s).grant = s.grant)
    (renewing : ∀ s, (change s).renewing = true → s.renewing = true) :
    NoMore holder l (l.modify number change) where
  rows _ row := row
  renewals s' among _ renews := by
    obtain ⟨s, inside, rfl⟩ := List.mem_map.mp among
    refine ⟨s, inside, ?_⟩
    by_cases here : s.id = number
    · rw [if_pos here] at renews ⊢
      exact ⟨(grant s).symm, renewing s renews⟩
    · rw [if_neg here] at renews ⊢
      exact ⟨rfl, renews⟩

theorem noMore_stop (number : Nat) : NoMore holder l (l.stop number) :=
  noMore_modify (fun _ => rfl) fun _ renews => absurd renews Bool.false_ne_true

theorem noMore_quit (number : Nat) : NoMore holder l (l.quit number) :=
  noMore_modify (fun _ => rfl) fun _ renews => renews

theorem noMore_watch (number : Nat) (token : Token) : NoMore holder l (l.watch number token).2 := by
  unfold watch claim
  cases l.session? number with
  | none => exact ⟨fun _ row => row, fun s inside _ renews => ⟨s, inside, rfl, renews⟩⟩
  | some s =>
    have claimed : NoMore holder l (l.modify number fun s => { s with claimed := true }) :=
      noMore_modify (fun _ => rfl) fun _ renews => renews
    exact ⟨claimed.rows, claimed.renewals⟩

theorem noMore_unlock (giver : LockHolder) (instances : List InstanceId) :
    NoMore holder l (l.unlock giver instances) where
  rows id row := by
    rw [unlock, LeaseTable.owner?, LeaseTable.find?_release_eq] at row
    split at row
    next => cases row
    next => exact row
  renewals s inside _ renews := ⟨s, inside, rfl, renews⟩

/-- Where others are given leases, a holder has no more of them. -/
theorem owner?_of_grant {t : LeaseTable} {projection : String} {lease : Lease}
    {instances : List InstanceId} {id : InstanceId} (other : ⟨projection, lease.owner⟩ ≠ holder)
    (row : (t.grant projection lease instances).owner? holder.projection id = some holder.owner) :
    t.owner? holder.projection id = some holder.owner := by
  rw [LeaseTable.owner?, LeaseTable.find?_grant] at row
  split at row
  next here => exact absurd (congrArg₂ LockHolder.mk here.1 (Option.some.inj row)) other
  next => exact row

theorem noMore_lock {taker : LockHolder} {now duration : Nat} {instances : List InstanceId}
    {answer : Except LockError Nat} (locked : l.lock now taker duration instances = (answer, l'))
    (other : taker ≠ holder) : NoMore holder l l' := by
  cases answer with
  | error e =>
    obtain rfl := lock_eq_error locked
    exact ⟨fun _ row => row, fun s inside _ renews => ⟨s, inside, rfl, renews⟩⟩
  | ok session =>
    obtain ⟨table, taken, rfl, rfl⟩ := lock_eq_ok locked
    obtain ⟨_, rfl⟩ := LeaseTable.acquire_eq_ok taken
    refine ⟨fun _ row => owner?_of_grant other row, ?_⟩
    simp only [List.forall_mem_append, List.forall_mem_singleton]
    exact ⟨fun s inside _ renews => ⟨s, inside, rfl, renews⟩, fun same => absurd same other⟩

theorem noMore_revoke {projection : String} (other : ⟨projection, "revoked"⟩ ≠ holder) (now : Nat)
    (instances : List InstanceId) : NoMore holder l (l.revoke now projection instances) where
  rows _ row := owner?_of_grant other row
  renewals s inside _ renews := ⟨s, inside, rfl, renews⟩

theorem noMore_renew {s : LockSession} (other : s.holder ≠ holder) (now : Nat) :
    NoMore holder l (l.renew now s).2 := by
  rcases l.renew_cases now s with ⟨table, taken, same⟩ | ⟨e, _, same⟩ <;> rw [same]
  · obtain ⟨_, rfl⟩ := LeaseTable.acquire_eq_ok taken
    have renewed : NoMore holder l (l.modify s.id (renewed now l.stamp)) :=
      noMore_modify (fun _ => rfl) fun _ renews => renews
    exact ⟨fun _ row => owner?_of_grant other row, renewed.renewals⟩
  · exact noMore_modify (fun _ => rfl) fun _ renews => absurd renews Bool.false_ne_true

/-- What a holder has and renews is on instances of a kind, or some task is at a stage with it. -/
structure Accounted (holder : LockHolder) (among : InstanceId → Prop)
    (stages : Option Nat → LockStage) (l : Leases) : Prop where
  rows : ∀ id, l.table.owner? holder.projection id = some holder.owner →
    among id ∨ ∃ task, id ∈ (stages task).instances
  renewals : ∀ s ∈ l.sessions, s.holder = holder → s.renewing = true →
    (∀ id ∈ s.instances, among id) ∨ ∃ task, stages task = .renewed s.id s.instances

namespace Accounted

variable {stages : Option Nat → LockStage} {task : Option Nat} {next : LockStage}

theorem noMore (accounted : l.Accounted holder among stages) (fewer : NoMore holder l l') :
    l'.Accounted holder among stages where
  rows id row := accounted.rows id (fewer.rows id row)
  renewals s' among owned renews := by
    obtain ⟨s, inside, same, before⟩ := fewer.renewals s' among owned renews
    have number : s.id = s'.id := congrArg Grant.session same
    have owner : s.holder = s'.holder := congrArg Grant.holder same
    have names : s.instances = s'.instances := congrArg Grant.instances same
    rw [← number, ← names]
    exact accounted.renewals s inside (owner.trans owned) before

/-- The leases of a session that renews them are accounted for. -/
theorem renew (accounted : l.Accounted holder among stages) {s : LockSession}
    (inside : s ∈ l.sessions) (renews : s.holder = holder → s.renewing = true) (now : Nat) :
    (l.renew now s).2.Accounted holder among stages := by
  by_cases own : s.holder = holder
  · rcases l.renew_cases now s with ⟨table, taken, same⟩ | ⟨e, _, same⟩ <;> rw [same]
    · obtain ⟨_, rfl⟩ := LeaseTable.acquire_eq_ok taken
      have renewed : NoMore holder l (l.modify s.id (renewed now l.stamp)) :=
        noMore_modify (fun _ => rfl) fun _ renews => renews
      refine ⟨fun id row => ?_, (accounted.noMore renewed).renewals⟩
      by_cases granted : id ∈ s.instances
      · refine (accounted.renewals s inside own (renews own)).imp (fun all => all id granted) ?_
        rintro ⟨task, stage⟩
        exact ⟨task, by rwa [stage]⟩
      · rw [LeaseTable.owner?, LeaseTable.find?_grant, if_neg fun here => granted here.2] at row
        exact accounted.rows id row
    · exact accounted.noMore <|
        noMore_modify (fun _ => rfl) fun _ renews => absurd renews Bool.false_ne_true
  · exact accounted.noMore (noMore_renew own now)

theorem confined (accounted : l.Accounted holder among stages)
    (free : ∀ task, stages task = .free) : l.Confined holder among where
  rows id row := by
    refine (accounted.rows id row).resolve_right ?_
    rintro ⟨task, inside⟩
    rw [free task] at inside
    cases inside
  renewals s inside owned renews := by
    refine (accounted.renewals s inside owned renews).resolve_right ?_
    rintro ⟨task, stage⟩
    rw [free task] at stage
    cases stage

/-- A task goes from one stage to another. -/
theorem trade (accounted : l.Accounted holder among stages)
    (rows : ∀ id, l'.table.owner? holder.projection id = some holder.owner →
      id ∈ next.instances ∨ l.table.owner? holder.projection id = some holder.owner ∧
        id ∉ (stages task).instances)
    (renewals : ∀ s ∈ l'.sessions, s.holder = holder → s.renewing = true →
      next = .renewed s.id s.instances ∨ s ∈ l.sessions ∧
        stages task ≠ .renewed s.id s.instances) :
    l'.Accounted holder among (Function.update stages task next) where
  rows id row := by
    rcases rows id row with here | ⟨before, gone⟩
    · exact .inr ⟨task, by rwa [Function.update_self]⟩
    · refine (accounted.rows id before).imp_right ?_
      rintro ⟨other, inside⟩
      have apart : other ≠ task := fun same => gone (same ▸ inside)
      exact ⟨other, by rwa [Function.update_of_ne apart]⟩
  renewals s among owned renews := by
    rcases renewals s among owned renews with here | ⟨before, gone⟩
    · exact .inr ⟨task, by rwa [Function.update_self]⟩
    · refine (accounted.renewals s before owned renews).imp_right ?_
      rintro ⟨other, stage⟩
      have apart : other ≠ task := fun same => gone (same ▸ stage)
      exact ⟨other, by rwa [Function.update_of_ne apart]⟩

theorem acquire (accounted : l.Accounted holder among stages) {now duration : Nat}
    {instances : List InstanceId} {answer : Except LockError Nat}
    (locked : l.lock now holder duration instances = (answer, l')) (free : stages task = .free)
    (step : LockStage.free.next holder (.acquire holder duration instances) answer = some next) :
    l'.Accounted holder among (Function.update stages task next) := by
  cases answer with
  | error e =>
    obtain rfl : LockStage.free = next := by simpa [LockStage.next] using step
    obtain rfl := lock_eq_error locked
    rw [← free, Function.update_eq_self]
    exact accounted
  | ok session =>
    obtain rfl : LockStage.renewed session instances = next := by
      simpa [LockStage.next] using step
    obtain ⟨table, taken, rfl, rfl⟩ := lock_eq_ok locked
    obtain ⟨_, rfl⟩ := LeaseTable.acquire_eq_ok taken
    refine accounted.trade (fun id row => ?_) ?_
    · by_cases granted : id ∈ instances
      · exact .inl granted
      · rw [LeaseTable.owner?, LeaseTable.find?_grant, if_neg fun here => granted here.2] at row
        exact .inr ⟨row, by simp [free, LockStage.instances]⟩
    · simp only [List.forall_mem_append, List.forall_mem_singleton]
      exact ⟨fun s inside _ _ => .inr ⟨inside, by simp [free]⟩, fun _ _ => .inl trivial⟩

theorem stop (accounted : l.Accounted holder among stages) {session : Nat}
    {instances : List InstanceId} (renewed : stages task = .renewed session instances) :
    (l.stop session).Accounted holder among (Function.update stages task (.kept instances)) := by
  refine accounted.trade (fun id row => ?_) fun s inside _ renews => ?_
  · by_cases held : id ∈ instances
    · exact .inl held
    · exact .inr ⟨row, by rwa [renewed]⟩
  · obtain ⟨s, before, rfl⟩ := List.mem_map.mp inside
    by_cases here : s.id = session
    · rw [if_pos here] at renews
      cases renews
    · rw [if_neg here, renewed]
      exact .inr ⟨before, fun same => here (LockStage.renewed.inj same).1.symm⟩

theorem release (accounted : l.Accounted holder among stages) {instances : List InstanceId}
    (kept : stages task = .kept instances) :
    (l.unlock holder instances).Accounted holder among (Function.update stages task .free) := by
  refine accounted.trade (fun id row => .inr ?_) fun s inside _ _ => .inr ⟨inside, by simp [kept]⟩
  rw [unlock, LeaseTable.owner?, LeaseTable.find?_release_eq] at row
  split at row
  next => cases row
  next other => exact ⟨row, fun inside => other ⟨rfl, by rwa [kept] at inside, row⟩⟩

end Accounted

end Leases

/-- Answers a call: on the locks out of a world, and anyhow otherwise. -/
def World.respond (w : World) (replies : (call : HandlerCall) → call.Answer) :
    (call : HandlerCall) → call.Answer × World
  | .lock call => w.answerLock call
  | call => (replies call, w)

namespace Leases.Accounted

variable {w : World} {holder : LockHolder} {among : InstanceId → Prop}
  {stages : Option Nat → LockStage} {task : Option Nat} {next : LockStage}
  {replies : (call : HandlerCall) → call.Answer}

/-- A task that keeps to the order of its calls keeps account of what they do. -/
theorem respond (accounted : w.leases.Accounted holder among stages) {call : HandlerCall}
    (step : (stages task).after holder ⟨call, (w.respond replies call).1⟩ = some next) :
    (w.respond replies call).2.leases.Accounted holder among (Function.update stages task next) := by
  cases call with
  | store | source | task =>
    obtain rfl := Option.some.inj step
    rw [Function.update_eq_self]
    exact accounted
  | lock call =>
    cases here : stages task with
    | free =>
      rw [here] at step
      cases call with
      | acquire taker duration instances =>
        obtain rfl : taker = holder := by
          by_contra other
          simp [LockStage.after, LockStage.next, other] at step
        exact accounted.acquire rfl here step
      | watch | stop | release => cases step
    | renewed session instances =>
      rw [here] at step
      cases call with
      | watch watched token =>
        obtain ⟨rfl, same⟩ := Option.ite_none_right_eq_some.mp step
        rw [← Option.some.inj same, ← here, Function.update_eq_self]
        exact accounted.noMore (noMore_watch watched token)
      | stop stopped =>
        obtain ⟨rfl, same⟩ := Option.ite_none_right_eq_some.mp step
        rw [← Option.some.inj same]
        exact accounted.stop here
      | acquire | release => cases step
    | kept instances =>
      rw [here] at step
      cases call with
      | release giver given =>
        obtain ⟨⟨rfl, rfl⟩, same⟩ := Option.ite_none_right_eq_some.mp step
        rw [← Option.some.inj same]
        exact accounted.release here
      | acquire | watch | stop => cases step

end Leases.Accounted

/-- A call on the locks that takes no leases for others and gives up none of theirs. -/
def LockCall.For (holder : LockHolder) : LockCall → Prop
  | .acquire taker .. => taker = holder
  | .release giver _ => giver = holder
  | .watch .. | .stop _ => True

theorem LockStage.for_of_next {holder : LockHolder} {stage next : LockStage} {call : LockCall}
    {answer : call.Answer} (step : stage.next holder call answer = some next) : call.For holder := by
  cases call with
  | acquire taker duration instances =>
    cases stage with
    | free => exact (Option.ite_none_right_eq_some.mp step).1
    | renewed | kept => cases step
  | release giver instances =>
    cases stage with
    | kept => exact (Option.ite_none_right_eq_some.mp step).1.1
    | free | renewed => cases step
  | watch | stop => trivial

namespace World

variable {w : World} {holder : LockHolder} {key : String × InstanceId} {lease : Lease}

/-- What a holder does leaves leases of others alone that have not run out. -/
theorem find?_answerLock {call : LockCall} (own : call.For holder)
    (row : w.leases.table.find? key = some lease) (other : ⟨key.1, lease.owner⟩ ≠ holder)
    (unexpired : w.clock < lease.expiry) :
    (w.answerLock call).2.leases.table.find? key = some lease := by
  obtain ⟨projection, id⟩ := key
  cases call with
  | acquire taker duration instances =>
    obtain rfl : taker = holder := own
    change (w.leases.lock w.clock taker duration instances).2.table.find? _ = _
    rcases w.leases.lock_cases w.clock taker duration instances with
      ⟨_, same⟩ | ⟨_, table, taken, _, same⟩
    · rwa [same]
    · rw [same]
      exact LeaseTable.find?_acquire_of_held taken row unexpired fun mine => absurd mine.symm other
  | watch session token =>
    change (w.leases.watch session token).2.table.find? _ = _
    rwa [Leases.table_watch]
  | stop session => exact row
  | release giver instances =>
    obtain rfl : giver = holder := own
    refine (LeaseTable.find?_release fun same _ lease' row' mine => other ?_).trans row
    obtain rfl := Option.some.inj (row.symm.trans row')
    rw [mine, ← same]

theorem find?_renew {s : LockSession} (row : w.leases.table.find? key = some lease)
    (other : ⟨key.1, lease.owner⟩ ≠ s.holder) (unexpired : w.clock < lease.expiry) :
    (w.renew s).leases.table.find? key = some lease := by
  change (w.leases.renew w.clock s).2.table.find? key = some lease
  rcases w.leases.renew_cases w.clock s with ⟨table, taken, same⟩ | ⟨e, _, same⟩ <;> rw [same]
  · exact LeaseTable.find?_acquire_of_held taken row unexpired fun mine => absurd mine.symm other
  · exact row

theorem find?_respond {replies : (call : HandlerCall) → call.Answer} {call : HandlerCall}
    {stage next : LockStage} (step : stage.after holder ⟨call, (w.respond replies call).1⟩ = some next)
    (row : w.leases.table.find? key = some lease) (other : ⟨key.1, lease.owner⟩ ≠ holder)
    (unexpired : w.clock < lease.expiry) :
    (w.respond replies call).2.leases.table.find? key = some lease := by
  cases call with
  | lock call => exact find?_answerLock (LockStage.for_of_next step) row other unexpired
  | store | source | task => exact row

theorem clock_answerLock (w : World) (call : LockCall) : (w.answerLock call).2.clock = w.clock := by
  cases call <;> rfl

theorem clock_respond (w : World) (replies : (call : HandlerCall) → call.Answer)
    (call : HandlerCall) : (w.respond replies call).2.clock = w.clock := by
  cases call with
  | lock call => exact w.clock_answerLock call
  | store | source | task => rfl

end World

end ReadModel
