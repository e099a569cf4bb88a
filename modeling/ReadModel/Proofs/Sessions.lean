import Mathlib.Algebra.GroupWithZero.Nat
import Mathlib.Algebra.Order.BigOperators.Group.List
import Mathlib.Algebra.Order.Group.Nat
import ReadModel.Lease.Clock
import ReadModel.Proofs.Leases

/-!
Sessions that renew their leases on time.

A session that renews on time will renew its leases before one of them runs out (`Leases.Serves`), since
it does so every third of the time for which they last. What others do leaves it its leases, if no other
session of the same owner may renew one of them (`Leases.Timely`).
-/

namespace ReadModel

/-- What a session was opened with: an owner's leases on instances. -/
structure Grant where
  session : Nat
  holder : LockHolder
  duration : Nat
  instances : List InstanceId
  deriving DecidableEq

/-- Whether one of the instances is among others. -/
def Grant.Meets (g : Grant) (instances : List InstanceId) : Prop := ∃ id ∈ g.instances, id ∈ instances
  deriving Decidable

/-- What a session was opened with. -/
def LockSession.grant (s : LockSession) : Grant := ⟨s.id, s.holder, s.duration, s.instances⟩

theorem LockSession.mayRenew_iff {s : LockSession} :
    s.mayRenew = true ↔ s.renewing = true ∨ s.lingering = true :=
  Bool.or_eq_true_iff ..

namespace Leases

variable {l : Leases} {now : Nat} {g : Grant} {s s' : LockSession}

/-- The sessions are told apart by their numbers, they renew on time, and no two of one owner may renew
a lease on the same instance. -/
structure Timely (l : Leases) (now : Nat) : Prop where
  fresh : ∀ s ∈ l.sessions, s.id < l.nextSession
  unique : ∀ s ∈ l.sessions, ∀ s' ∈ l.sessions, s.id = s'.id → s = s'
  onTime : ∀ s ∈ l.sessions, s.mayRenew = true → now ≤ s.renewAt
  apart : ∀ s ∈ l.sessions, ∀ s' ∈ l.sessions, s.mayRenew = true → s'.mayRenew = true →
    s.holder = s'.holder → s.id ≠ s'.id → ¬s.grant.Meets s'.instances

/-- A session renews its leases, and will do so again before one of them runs out. -/
structure Serves (l : Leases) (g : Grant) (s : LockSession) : Prop where
  among : s ∈ l.sessions
  grant : s.grant = g
  renewing : s.renewing = true
  loss : s.loss = none
  held : ∀ id ∈ g.instances, ∃ expiry,
    l.table.find? (g.holder.projection, id) = some ⟨g.holder.owner, expiry⟩ ∧ s.renewAt < expiry

theorem Serves.mayRenew (serves : l.Serves g s) : s.mayRenew = true :=
  LockSession.mayRenew_iff.mpr (.inl serves.renewing)

theorem Timely.session?_eq (timely : l.Timely now) (among : s ∈ l.sessions) :
    l.session? s.id = some s := by
  cases found : l.session? s.id with
  | none => exact absurd (beq_self_eq_true s.id) (List.find?_eq_none.mp found s among)
  | some s' =>
    have same : s'.id = s.id := by simpa using List.find?_some found
    rw [timely.unique s' (List.mem_of_find?_eq_some found) s among same]

/-- Sessions that change stay told apart, on time and apart from others, unless they begin to renew. -/
theorem Timely.map {l' : Leases} {change : LockSession → LockSession} (timely : l.Timely now)
    (sessions : l'.sessions = l.sessions.map change) (next : l'.nextSession = l.nextSession)
    (grant : ∀ s, (change s).grant = s.grant)
    (renewing : ∀ s ∈ l.sessions, (change s).mayRenew = true →
      s.mayRenew = true ∧ now ≤ (change s).renewAt) : l'.Timely now := by
  have ids (s : LockSession) : (change s).id = s.id := congrArg Grant.session (grant s)
  have holders (s : LockSession) : (change s).holder = s.holder := congrArg Grant.holder (grant s)
  have instances (s : LockSession) : (change s).instances = s.instances :=
    congrArg Grant.instances (grant s)
  refine ⟨?_, ?_, ?_, ?_⟩ <;>
    simp only [sessions, next, List.forall_mem_map, ids, holders, instances, grant]
  · exact timely.fresh
  · intro s among s' among' same
    rw [timely.unique s among s' among' same]
  · exact fun s among renews => (renewing s among renews).2
  · intro s among s' among' renews renews'
    exact timely.apart s among s' among' (renewing s among renews).1 (renewing s' among' renews').1

theorem Timely.frame {l' : Leases} (timely : l.Timely now) (sessions : l'.sessions = l.sessions)
    (next : l'.nextSession = l.nextSession) : l'.Timely now :=
  timely.map (sessions.trans (List.map_id _).symm) next (fun _ => rfl)
    fun s among renews => ⟨renews, timely.onTime s among renews⟩

theorem Timely.modify {id : Nat} {change : LockSession → LockSession} (timely : l.Timely now)
    (grant : ∀ s, (change s).grant = s.grant)
    (renewing : ∀ s ∈ l.sessions, (change s).mayRenew = true →
      s.mayRenew = true ∧ now ≤ (change s).renewAt) : (l.modify id change).Timely now := by
  refine timely.map rfl rfl (fun s => ?_) fun s among => ?_
  · split
    · exact grant s
    · rfl
  · split
    · exact renewing s among
    · exact fun renews => ⟨renews, timely.onTime s among renews⟩

theorem mem_modify_self (among : s ∈ l.sessions) (change : LockSession → LockSession) :
    change s ∈ (l.modify s.id change).sessions :=
  List.mem_map.mpr ⟨s, among, if_pos rfl⟩

theorem mem_modify_of_ne {id : Nat} (among : s ∈ l.sessions) (ne : s.id ≠ id)
    (change : LockSession → LockSession) : s ∈ (l.modify id change).sessions :=
  List.mem_map.mpr ⟨s, among, if_neg ne⟩

/-- The leases of a session that renews on time have not run out. -/
theorem Serves.unexpired (serves : l.Serves g s) (timely : l.Timely now) {id : InstanceId}
    (among : id ∈ g.instances) : ∃ expiry,
      l.table.find? (g.holder.projection, id) = some ⟨g.holder.owner, expiry⟩ ∧ now < expiry := by
  obtain ⟨expiry, row, later⟩ := serves.held id among
  exact ⟨expiry, row, Nat.lt_of_le_of_lt (timely.onTime s serves.among serves.mayRenew) later⟩

/-- A session goes on where neither it nor its leases change. -/
theorem Serves.frame {l' : Leases} (serves : l.Serves g s) (among : s ∈ l'.sessions)
    (rows : ∀ id ∈ g.instances, l'.table.find? (g.holder.projection, id) =
      l.table.find? (g.holder.projection, id)) : l'.Serves g s where
  among
  grant := serves.grant
  renewing := serves.renewing
  loss := serves.loss
  held id member := by
    rw [rows id member]
    exact serves.held id member

/-- Leases stay as they are where others are taken that none of the owner's sessions may renew. -/
theorem Serves.find?_acquire (serves : l.Serves g s) (timely : l.Timely now) {holder : LockHolder}
    {duration : Nat} {instances : List InstanceId} {table : LeaseTable}
    (taken : l.table.acquire now holder duration instances = .ok table)
    (spares : holder = s.holder → ¬s.grant.Meets instances) :
    ∀ id ∈ g.instances, table.find? (g.holder.projection, id) =
      l.table.find? (g.holder.projection, id) := by
  intro id among
  obtain ⟨expiry, row, unexpired⟩ := serves.unexpired timely among
  rw [row]
  refine LeaseTable.find?_acquire_of_held taken row unexpired fun same also => ?_
  obtain rfl := serves.grant
  exact spares same ⟨id, among, also⟩

/-- Every third of the time that leases last is soon enough, if they last for two milliseconds. -/
theorem renewalPeriod_lt {duration : Nat} (long : 2 ≤ duration) : renewalPeriod duration < duration := by
  unfold renewalPeriod
  omega

theorem lock_eq_ok {l' : Leases} {holder : LockHolder} {duration session : Nat}
    {instances : List InstanceId} (locked : l.lock now holder duration instances = (.ok session, l')) :
    ∃ table, l.table.acquire now holder duration instances = .ok table ∧ session = l.nextSession ∧
      l' = { l with
        table
        sessions := l.sessions ++ [{
          id := l.nextSession
          holder, instances, duration
          renewAt := now + renewalPeriod duration
          stamp := l.stamp }]
        nextSession := l.nextSession + 1
        stamp := l.stamp + 1 } := by
  unfold lock at locked
  split at locked
  next => cases locked
  next =>
    split at locked
    next => cases locked
    next table taken =>
      cases locked
      exact ⟨table, taken, rfl, rfl⟩

theorem Timely.lock {l' : Leases} {holder : LockHolder} {duration session : Nat}
    {instances : List InstanceId} (timely : l.Timely now)
    (locked : l.lock now holder duration instances = (.ok session, l'))
    (spares : ∀ s ∈ l.sessions, s.mayRenew = true → s.holder = holder → ¬s.grant.Meets instances) :
    l'.Timely now := by
  obtain ⟨table, taken, rfl, rfl⟩ := lock_eq_ok locked
  refine ⟨?_, ?_, ?_, ?_⟩ <;> simp only [List.forall_mem_append, List.forall_mem_singleton]
  · exact ⟨fun s among => Nat.lt_succ_of_lt (timely.fresh s among), Nat.lt_succ_self _⟩
  · refine ⟨fun s among => ⟨timely.unique s among, fun same => ?_⟩,
      fun s among same => ?_, fun _ => trivial⟩
    · exact absurd same (Nat.ne_of_lt (timely.fresh s among))
    · exact absurd same (Nat.ne_of_gt (timely.fresh s among))
  · exact ⟨timely.onTime, fun _ => Nat.le_add_right ..⟩
  · refine ⟨fun s among => ⟨timely.apart s among, fun renews _ same _ => spares s among renews same⟩,
      fun s among _ renews same _ => ?_, fun _ _ _ ne => absurd rfl ne⟩
    rintro ⟨id, mine, also⟩
    exact spares s among renews same.symm ⟨id, also, mine⟩

theorem Serves.lock {l' : Leases} {holder : LockHolder} {duration session : Nat}
    {instances : List InstanceId} (serves : l.Serves g s) (timely : l.Timely now)
    (locked : l.lock now holder duration instances = (.ok session, l'))
    (spares : ∀ s ∈ l.sessions, s.mayRenew = true → s.holder = holder → ¬s.grant.Meets instances) :
    l'.Serves g s := by
  obtain ⟨table, taken, rfl, rfl⟩ := lock_eq_ok locked
  exact serves.frame (List.mem_append_left _ serves.among) <|
    serves.find?_acquire timely taken fun same => spares s serves.among serves.mayRenew same.symm

/-- A session that is opened has its leases, and will renew them in time. -/
theorem serves_of_lock {l' : Leases} {holder : LockHolder} {duration session : Nat}
    {instances : List InstanceId} (locked : l.lock now holder duration instances = (.ok session, l'))
    (long : 2 ≤ duration) : ∃ s, l'.Serves ⟨session, holder, duration, instances⟩ s := by
  obtain ⟨table, taken, rfl, rfl⟩ := lock_eq_ok locked
  refine ⟨_, List.mem_append_right _ (List.mem_singleton_self _), rfl, rfl, rfl, fun id among => ?_⟩
  obtain ⟨_, rfl⟩ := LeaseTable.acquire_eq_ok taken
  refine ⟨now + duration, ?_, Nat.add_lt_add_left (renewalPeriod_lt long) now⟩
  rw [LeaseTable.find?_grant, if_pos ⟨rfl, among⟩]

/-- What a renewal makes of a session. -/
def renewed (now stamp : Nat) (s : LockSession) : LockSession :=
  { s with renewAt := now + renewalPeriod s.duration, stamp, lingering := false }

/-- What a renewal that fails makes of a session. -/
def lapsed (e : LockError) (s : LockSession) : LockSession :=
  { s with renewing := false, lingering := false, loss := some e }

theorem mayRenew_of_renewed {stamp : Nat} (renews : (renewed now stamp s).mayRenew = true) :
    s.renewing = true := by
  simpa [renewed, LockSession.mayRenew] using renews

theorem mayRenew_of_stopped
    (renews : ({ s with renewing := false, lingering := s.mayRenew } : LockSession).mayRenew = true) :
    s.mayRenew = true := by
  simpa [LockSession.mayRenew] using renews

theorem renew_cases (l : Leases) (now : Nat) (s : LockSession) :
    (∃ table, l.table.acquire now s.holder s.duration s.instances = .ok table ∧
        (l.renew now s).2 =
          { l.modify s.id (renewed now l.stamp) with table, stamp := l.stamp + 1 }) ∨
      ∃ e, l.table.acquire now s.holder s.duration s.instances = .error e ∧
        (l.renew now s).2 = l.modify s.id (lapsed e) := by
  unfold renew
  cases taken : l.table.acquire now s.holder s.duration s.instances with
  | ok table => exact .inl ⟨table, rfl, rfl⟩
  | error e => exact .inr ⟨e, rfl, rfl⟩

theorem Timely.renew (timely : l.Timely now) (s : LockSession) : (l.renew now s).2.Timely now := by
  rcases l.renew_cases now s with ⟨table, _, same⟩ | ⟨e, _, same⟩
  · have modified : (l.modify s.id (renewed now l.stamp)).Timely now :=
      timely.modify (fun _ => rfl) fun _ _ renews =>
        ⟨LockSession.mayRenew_iff.mpr (.inl (mayRenew_of_renewed renews)), Nat.le_add_right ..⟩
    rw [same]
    exact modified.frame rfl rfl
  · rw [same]
    exact timely.modify (fun _ => rfl) fun _ _ renews => nomatch renews

theorem Serves.acquire (serves : l.Serves g s) (now : Nat) :
    l.table.acquire now s.holder s.duration s.instances =
      .ok (l.table.grant s.holder.projection ⟨s.holder.owner, now + s.duration⟩ s.instances) := by
  refine LeaseTable.acquire_of_own fun id among => ?_
  obtain rfl := serves.grant
  obtain ⟨expiry, row, _⟩ := serves.held id among
  exact ⟨expiry, row⟩

/-- A session that renews its leases has them for longer; those of others stay as they are. -/
theorem Serves.renew (serves : l.Serves g s) (timely : l.Timely now) (long : 2 ≤ g.duration)
    (among : s' ∈ l.sessions) (renews : s'.mayRenew = true) :
    ∃ s, (l.renew now s').2.Serves g s := by
  by_cases own : s.id = s'.id
  · -- its own leases are never another's, so the renewal does not fail
    obtain rfl := timely.unique s serves.among s' among own
    rcases l.renew_cases now s with ⟨table, taken, same⟩ | ⟨e, taken, _⟩
    · refine ⟨renewed now l.stamp s, ?_, serves.grant, serves.renewing, serves.loss,
        fun id member => ?_⟩
      · rw [same]
        exact mem_modify_self among _
      · obtain rfl := serves.grant
        rw [serves.acquire now] at taken
        rw [same, ← Except.ok.inj taken]
        refine ⟨now + s.duration, ?_, Nat.add_lt_add_left (renewalPeriod_lt long) now⟩
        exact (LeaseTable.find?_grant ..).trans (if_pos ⟨rfl, member⟩)
    · rw [serves.acquire now] at taken
      cases taken
  · refine ⟨s, ?_⟩
    rcases l.renew_cases now s' with ⟨table, taken, same⟩ | ⟨e, _, same⟩
    · rw [same]
      refine serves.frame (mem_modify_of_ne serves.among own _) ?_
      exact serves.find?_acquire timely taken fun holder =>
        timely.apart s serves.among s' among serves.mayRenew renews holder.symm own
    · rw [same]
      exact serves.frame (mem_modify_of_ne serves.among own _) fun _ _ => rfl

/-- A session that was stopped is still on time, and may make one more renewal. -/
theorem Timely.stop (timely : l.Timely now) (id : Nat) : (l.stop id).Timely now :=
  timely.modify (fun _ => rfl) fun s among renews =>
    ⟨mayRenew_of_stopped renews, timely.onTime s among (mayRenew_of_stopped renews)⟩

theorem mayRenew_of_quit
    (renews : ({ s with lingering := false } : LockSession).mayRenew = true) : s.mayRenew = true := by
  rw [LockSession.mayRenew_iff] at renews ⊢
  exact renews.imp_right fun lingers => nomatch lingers

theorem Timely.quit (timely : l.Timely now) (id : Nat) : (l.quit id).Timely now :=
  timely.modify (fun _ => rfl) fun s among renews =>
    ⟨mayRenew_of_quit renews, timely.onTime s among (mayRenew_of_quit renews)⟩

theorem Timely.quitAll (timely : l.Timely now) : l.quitAll.Timely now :=
  timely.map rfl rfl (fun _ => rfl) fun s among renews =>
    ⟨mayRenew_of_quit renews, timely.onTime s among (mayRenew_of_quit renews)⟩

theorem Serves.stop (serves : l.Serves g s) {id : Nat} (other : g.session ≠ id) :
    (l.stop id).Serves g s := by
  have apart : s.id ≠ id := fun same =>
    other ((congrArg Grant.session serves.grant).symm.trans same)
  exact serves.frame (mem_modify_of_ne serves.among apart _) fun _ _ => rfl

/-- The session goes on where tasks of stopped ones end. -/
theorem Serves.quit (serves : l.Serves g s) (id : Nat) : ∃ s, (l.quit id).Serves g s := by
  by_cases own : s.id = id
  · refine ⟨{ s with lingering := false }, ?_, serves.grant, serves.renewing, serves.loss, serves.held⟩
    exact own ▸ mem_modify_self serves.among _
  · exact ⟨s, serves.frame (mem_modify_of_ne serves.among own _) fun _ _ => rfl⟩

theorem Serves.quitAll (serves : l.Serves g s) :
    l.quitAll.Serves g { s with lingering := false } where
  among := List.mem_map_of_mem serves.among
  grant := serves.grant
  renewing := serves.renewing
  loss := serves.loss
  held := serves.held

theorem Serves.unlock (serves : l.Serves g s) {holder : LockHolder} {instances : List InstanceId}
    (other : ¬(g.holder = holder ∧ g.Meets instances)) : (l.unlock holder instances).Serves g s := by
  refine serves.frame serves.among fun id among =>
    LeaseTable.find?_release fun same also lease row owned => ?_
  obtain ⟨expiry, held, _⟩ := serves.held id among
  rw [row, Option.some_inj] at held
  refine other ⟨?_, id, among, also⟩
  have owner : g.holder.owner = holder.owner := by rw [← owned, held]
  exact (congrArg₂ LockHolder.mk same owner.symm).symm

theorem Serves.revoke (serves : l.Serves g s) (now : Nat) {projection : String}
    {instances : List InstanceId}
    (other : ¬(g.holder.projection = projection ∧ g.Meets instances)) :
    (l.revoke now projection instances).Serves g s :=
  serves.frame serves.among fun id among =>
    (LeaseTable.find?_grant ..).trans <| if_neg fun hit => other ⟨hit.1.symm, id, among, hit.2⟩

theorem LockSession.le_of_sooner (sooner : LockSession.sooner s s' = true) : s.renewAt ≤ s'.renewAt := by
  simp only [LockSession.sooner, Bool.or_eq_true, Bool.and_eq_true, decide_eq_true_eq,
    beq_iff_eq] at sooner
  omega

theorem LockSession.le_of_not_sooner (later : ¬LockSession.sooner s s' = true) :
    s'.renewAt ≤ s.renewAt := by
  simp only [LockSession.sooner, Bool.or_eq_true, Bool.and_eq_true, decide_eq_true_eq, beq_iff_eq,
    not_or] at later
  omega

/-- Of some sessions none is before the one that renews first. -/
theorem foldl_sooner (rest : List LockSession) (best : LockSession) :
    ∃ s ∈ best :: rest, rest.foldl (fun best s =>
        match best with
        | none => some s
        | some b => if LockSession.sooner s b then some s else some b) (some best) = some s ∧
      ∀ s' ∈ best :: rest, s.renewAt ≤ s'.renewAt := by
  induction rest generalizing best with
  | nil => exact ⟨best, List.mem_singleton_self _, rfl, by simp⟩
  | cons next rest ih =>
    rw [List.foldl_cons]
    dsimp only
    by_cases sooner : LockSession.sooner next best = true
    · obtain ⟨s, among, found, least⟩ := ih next
      rw [if_pos sooner]
      have first := least next (List.mem_cons_self ..)
      exact ⟨s, List.mem_cons_of_mem _ among, found, List.forall_mem_cons.mpr
        ⟨first.trans (LockSession.le_of_sooner sooner), least⟩⟩
    · obtain ⟨s, among, found, least⟩ := ih best
      rw [if_neg sooner]
      obtain ⟨first, later⟩ := List.forall_mem_cons.mp least
      exact ⟨s, List.cons_subset_cons best (List.subset_cons_self next rest) among, found,
        List.forall_mem_cons.mpr ⟨first, List.forall_mem_cons.mpr
          ⟨first.trans (LockSession.le_of_not_sooner sooner), later⟩⟩⟩

/-- No session renews its leases before the next one. -/
theorem nextRenewal?_cases (l : Leases) :
    (l.nextRenewal? = none ∧ ∀ s ∈ l.sessions, ¬s.renewing = true) ∨
      ∃ s ∈ l.sessions, l.nextRenewal? = some s ∧ s.renewing = true ∧
        ∀ s' ∈ l.sessions, s'.renewing = true → s.renewAt ≤ s'.renewAt := by
  unfold nextRenewal?
  cases renewing : l.sessions.filter (·.renewing) with
  | nil => exact .inl ⟨rfl, List.filter_eq_nil_iff.mp renewing⟩
  | cons first rest =>
    obtain ⟨s, among, found, least⟩ := foldl_sooner rest first
    rw [← renewing] at among least
    obtain ⟨member, renews⟩ := List.mem_filter.mp among
    exact .inr ⟨s, member, found, renews, fun s' member' renews' =>
      least s' (List.mem_filter.mpr ⟨member', renews'⟩)⟩

/-- How often a session can renew its leases up to a time, at most once in a millisecond. -/
def renewals (target : Nat) (s : LockSession) : Nat :=
  if s.renewing then target + 1 - s.renewAt else 0

theorem sum_renewals_modify {target : Nat} {change : LockSession → LockSession}
    (timely : l.Timely now) (among : s ∈ l.sessions)
    (fewer : renewals target (change s) < renewals target s) :
    ((l.modify s.id change).sessions.map (renewals target)).sum <
      (l.sessions.map (renewals target)).sum := by
  rw [modify, List.map_map]
  refine List.sum_lt_sum _ _ (fun s' member => ?_) ⟨s, among, ?_⟩
  · rw [Function.comp_apply]
    split
    next same =>
      rw [timely.unique s' member s among same]
      exact fewer.le
    next => exact Nat.le_refl _
  · rw [Function.comp_apply, if_pos rfl]
    exact fewer

/-- A renewal is one less to come. -/
theorem sum_renewals_renew {target : Nat} (timely : l.Timely now) (among : s ∈ l.sessions)
    (renewing : s.renewing = true) (due : s.renewAt = now) (le : now ≤ target) :
    ((l.renew now s).2.sessions.map (renewals target)).sum <
      (l.sessions.map (renewals target)).sum := by
  have before : renewals target s = target + 1 - s.renewAt := if_pos renewing
  rcases l.renew_cases now s with ⟨table, _, same⟩ | ⟨e, _, same⟩
  · have period : 1 ≤ renewalPeriod s.duration := Nat.le_max_left ..
    have later : renewals target (renewed now l.stamp s) =
        target + 1 - (now + renewalPeriod s.duration) := if_pos renewing
    rw [same]
    refine sum_renewals_modify timely among ?_
    rw [before, later]
    omega
  · have none : renewals target (lapsed e s) = 0 := if_neg Bool.false_ne_true
    rw [same]
    refine sum_renewals_modify timely among ?_
    rw [before, none]
    omega

/-- The tasks of all sessions that were stopped have ended. -/
def Quiet (l : Leases) : Prop := ∀ s ∈ l.sessions, s.lingering = false

theorem quiet_quitAll (l : Leases) : l.quitAll.Quiet :=
  List.forall_mem_map.mpr fun _ _ => rfl

theorem Quiet.renewing (quiet : l.Quiet) (among : s ∈ l.sessions) (renews : s.mayRenew = true) :
    s.renewing = true :=
  (LockSession.mayRenew_iff.mp renews).resolve_right (Bool.eq_false_iff.mp (quiet s among))

theorem Quiet.modify (quiet : l.Quiet) {id : Nat} {change : LockSession → LockSession}
    (ended : ∀ s, (change s).lingering = false) : (l.modify id change).Quiet := by
  refine List.forall_mem_map.mpr fun s among => ?_
  split
  · exact ended s
  · exact quiet s among

theorem Quiet.renew (quiet : l.Quiet) (now : Nat) (s : LockSession) : (l.renew now s).2.Quiet := by
  rcases l.renew_cases now s with ⟨table, _, same⟩ | ⟨e, _, same⟩ <;> rw [same]
  · have modified : (l.modify s.id (renewed now l.stamp)).Quiet := quiet.modify fun _ => rfl
    exact modified
  · exact quiet.modify fun _ => rfl

theorem find?_renew_elsewhere {projection : String} {id : InstanceId}
    (other : s.holder.projection ≠ projection) :
    (l.renew now s).2.table.find? (projection, id) = l.table.find? (projection, id) := by
  rcases l.renew_cases now s with ⟨table, taken, same⟩ | ⟨e, _, same⟩
  · rw [same]
    exact LeaseTable.find?_acquire_elsewhere taken other
  · rw [same]
    rfl

/-- Who renews after a renewal has done so before, for the same owner. -/
theorem exists_of_mem_renew (among : s' ∈ (l.renew now s).2.sessions) :
    ∃ s ∈ l.sessions, s'.holder = s.holder ∧ (s'.renewing = true → s.renewing = true) := by
  rcases l.renew_cases now s with ⟨table, _, same⟩ | ⟨e, _, same⟩
  · rw [same] at among
    obtain ⟨s, member, rfl⟩ := List.mem_map.mp among
    exact ⟨s, member, by split <;> rfl, by split <;> exact fun renews => renews⟩
  · rw [same] at among
    obtain ⟨s, member, rfl⟩ := List.mem_map.mp among
    refine ⟨s, member, by split <;> rfl, ?_⟩
    split
    · exact fun renews => nomatch renews
    · exact fun renews => renews

end Leases

theorem LeaseClock.find?_renewUntil_elsewhere {c : LeaseClock} {target fuel : Nat} {projection : String}
    {id : InstanceId}
    (others : ∀ s ∈ c.leases.sessions, s.renewing = true → s.holder.projection ≠ projection) :
    (renewUntil target fuel c).leases.table.find? (projection, id) =
      c.leases.table.find? (projection, id) := by
  induction fuel generalizing c with
  | zero => rfl
  | succ fuel ih =>
    unfold renewUntil
    rcases c.leases.nextRenewal?_cases with ⟨none, _⟩ | ⟨s, among, next, renewing, _⟩
    · rw [none]
    · rw [next]
      dsimp only
      split
      · refine (ih fun s' among' renewing' => ?_).trans
          (Leases.find?_renew_elsewhere (others s among renewing))
        obtain ⟨before, member, holder, renews⟩ := Leases.exists_of_mem_renew among'
        rw [holder]
        exact others before member (renews renewing')
      · rfl

end ReadModel
