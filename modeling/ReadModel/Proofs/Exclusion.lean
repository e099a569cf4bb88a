import ReadModel.Proofs.Sessions

/-!
Leases exclude others.

Owners take leases and give them up, sessions renew theirs or are stopped, leases are revoked and time
goes on, in any order (`LeaseMove`), but renewals happen on time (`Leasing.OnTime`). A session that was
stopped may still make a renewal that is due before its task has ended. While a session has its leases
(`Grant`), nobody else gets one of them. Its renewals alone do not see to that: another session of the
same owner on the same instance can cut the lease short, so an owner must not lock an instance that one
of its own sessions may still renew (`Leasing.SparesRenewing`). That its sessions on the instance no
longer have their leases is not enough, since they go on renewing when the leases are unlocked, and that
these are stopped is not enough either as long as their tasks have not ended.
-/

namespace ReadModel

/-- What can happen to leases. A session that is dropped is stopped; some time later its task quits. Time
passes up to the next renewal, or it advances over all that are due, which then happen in their order,
the tasks of stopped sessions having ended. -/
inductive LeaseMove where
  | lock (holder : LockHolder) (duration : Nat) (instances : List InstanceId)
  | unlock (holder : LockHolder) (instances : List InstanceId)
  | revoke (projection : String) (instances : List InstanceId)
  | stop (session : Nat)
  | quit (session : Nat)
  | renew (session : Nat)
  | pass (ms : Nat)
  | advance (ms : Nat)

/-- Leases at a time, and what the sessions were opened with that were not stopped since, and none of
whose leases was unlocked by its owner or revoked. -/
structure Leasing where
  clock : LeaseClock
  live : List Grant := []

namespace Leasing

def move (t : Leasing) : LeaseMove → Leasing
  | .lock holder duration instances =>
    let (answer, clock) := t.clock.lock holder duration instances
    match answer with
    | .ok session => ⟨clock, ⟨session, holder, duration, instances⟩ :: t.live⟩
    | .error _ => ⟨clock, t.live⟩
  | .unlock holder instances =>
    ⟨{ t.clock with leases := t.clock.leases.unlock holder instances },
      t.live.filter fun g => decide ¬(g.holder = holder ∧ g.Meets instances)⟩
  | .revoke projection instances =>
    ⟨{ t.clock with leases := t.clock.leases.revoke t.clock.now projection instances },
      t.live.filter fun g => decide ¬(g.holder.projection = projection ∧ g.Meets instances)⟩
  | .stop session =>
    ⟨{ t.clock with leases := t.clock.leases.stop session },
      t.live.filter fun g => decide (g.session ≠ session)⟩
  | .quit session => ⟨{ t.clock with leases := t.clock.leases.quit session }, t.live⟩
  | .renew session =>
    match t.clock.leases.session? session with
    | some s =>
      let (lost, leases) := t.clock.leases.renew t.clock.now s
      ⟨{ t.clock with leases }.cancelAll lost, t.live⟩
    | none => t
  | .pass ms => ⟨{ t.clock with now := t.clock.now + ms }, t.live⟩
  | .advance ms => ⟨t.clock.advance ms, t.live⟩

def run (t : Leasing) (moves : List LeaseMove) : Leasing := moves.foldl move t

/-- Whether it is time for something: a session renews its leases when this is due, and time stands still
until it does, or until its task has ended where it was stopped. -/
def OnTime (t : Leasing) : LeaseMove → Prop
  | .renew session =>
    ∃ s ∈ t.clock.leases.sessions, s.id = session ∧ s.mayRenew = true ∧ s.renewAt ≤ t.clock.now
  | .pass ms => ∀ s ∈ t.clock.leases.sessions, s.mayRenew = true → t.clock.now + ms ≤ s.renewAt
  | _ => True

/-- Whether no owner gets a lease again that one of its own sessions has. -/
def SparesLive (t : Leasing) : LeaseMove → Prop
  | .lock holder duration instances =>
    (t.clock.lock holder duration instances).1.isOk = true →
      ∀ g ∈ t.live, g.holder = holder → ¬g.Meets instances
  | _ => True

/-- Whether no owner gets a lease again that one of its own sessions may still renew. -/
def SparesRenewing (t : Leasing) : LeaseMove → Prop
  | .lock holder duration instances =>
    (t.clock.lock holder duration instances).1.isOk = true →
      ∀ s ∈ t.clock.leases.sessions, s.mayRenew = true → s.holder = holder → ¬s.grant.Meets instances
  | _ => True

/-- Whether all that happens is on time and obeys a rule. -/
def Obeys (rule : Leasing → LeaseMove → Prop) : Leasing → List LeaseMove → Prop
  | _, [] => True
  | t, m :: rest => (t.OnTime m ∧ rule t m) ∧ Obeys rule (t.move m) rest

instance (t : Leasing) : (m : LeaseMove) → Decidable (t.OnTime m)
  | .renew session => inferInstanceAs <| Decidable <|
    ∃ s ∈ t.clock.leases.sessions, s.id = session ∧ s.mayRenew = true ∧ s.renewAt ≤ t.clock.now
  | .pass ms => inferInstanceAs <| Decidable <|
    ∀ s ∈ t.clock.leases.sessions, s.mayRenew = true → t.clock.now + ms ≤ s.renewAt
  | .lock .. | .unlock .. | .revoke .. | .stop .. | .quit .. | .advance .. => .isTrue trivial

instance (t : Leasing) : (m : LeaseMove) → Decidable (t.SparesLive m)
  | .lock holder duration instances => inferInstanceAs <| Decidable <|
    (t.clock.lock holder duration instances).1.isOk = true →
      ∀ g ∈ t.live, g.holder = holder → ¬g.Meets instances
  | .unlock .. | .revoke .. | .stop .. | .quit .. | .renew .. | .pass .. | .advance .. => .isTrue trivial

instance (t : Leasing) : (m : LeaseMove) → Decidable (t.SparesRenewing m)
  | .lock holder duration instances => inferInstanceAs <| Decidable <|
    (t.clock.lock holder duration instances).1.isOk = true →
      ∀ s ∈ t.clock.leases.sessions, s.mayRenew = true → s.holder = holder → ¬s.grant.Meets instances
  | .unlock .. | .revoke .. | .stop .. | .quit .. | .renew .. | .pass .. | .advance .. => .isTrue trivial

instance decidableObeys (rule : Leasing → LeaseMove → Prop) [∀ t m, Decidable (rule t m)] :
    (t : Leasing) → (moves : List LeaseMove) → Decidable (t.Obeys rule moves)
  | _, [] => .isTrue trivial
  | t, m :: rest =>
    have := decidableObeys rule (t.move m) rest
    inferInstanceAs (Decidable ((t.OnTime m ∧ rule t m) ∧ Obeys rule (t.move m) rest))

end Leasing

/-- What a session was opened with is its own, and nobody else can have any of it. -/
structure LeaseClock.Exclusive (c : LeaseClock) (g : Grant) : Prop where
  /-- All leases belong to the owner, and none has run out. -/
  held : ∀ id ∈ g.instances, ∃ expiry,
    c.leases.table.find? (g.holder.projection, id) = some ⟨g.holder.owner, expiry⟩ ∧ c.now < expiry
  /-- No renewal has failed, and another would not. -/
  renews : ∃ s, c.leases.session? g.session = some s ∧ s.grant = g ∧ s.renewing = true ∧
    s.loss = none ∧ (c.leases.table.acquire c.now s.holder s.duration s.instances).isOk = true
  /-- Others are told which of the instances are not theirs to lock, and nothing changes. -/
  excludes {other : LockHolder} (duration : Nat) {instances : List InstanceId}
    (projection : other.projection = g.holder.projection) (owner : other.owner ≠ g.holder.owner)
    (meets : g.Meets instances) :
    c.lock other duration instances =
      (.error (.alreadyLocked other.projection
        (instances.filter (c.leases.table.heldByOther c.now other))), c)

namespace Leasing

variable {t : Leasing} {m : LeaseMove}

/-- Sessions renew on time, and those that have their leases will renew them before they run out. A
lease that lasts for a millisecond runs out when it is due. -/
structure Kept (t : Leasing) : Prop where
  timely : t.clock.leases.Timely t.clock.now
  serves : ∀ g ∈ t.live, 2 ≤ g.duration → ∃ s, t.clock.leases.Serves g s

theorem Kept.renew (kept : t.Kept) {s : LockSession} (among : s ∈ t.clock.leases.sessions)
    (renewing : s.mayRenew = true) : (t.move (.renew s.id)).Kept := by
  dsimp only [Leasing.move]
  rw [kept.timely.session?_eq among]
  refine ⟨kept.timely.renew s, fun g live long => ?_⟩
  obtain ⟨s', serves⟩ := kept.serves g live long
  exact serves.renew kept.timely long among renewing

/-- Time can go on to where no renewal is due before. -/
theorem Kept.wait (kept : t.Kept) {target : Nat}
    (later : ∀ s ∈ t.clock.leases.sessions, s.mayRenew = true → target ≤ s.renewAt) :
    Kept { t with clock := { t.clock with now := target } } :=
  ⟨⟨kept.timely.fresh, kept.timely.unique, later, kept.timely.apart⟩, kept.serves⟩

/-- The renewals up to a time are as many as there is time for. -/
theorem Kept.renewUntil {target fuel : Nat} (kept : t.Kept) (quiet : t.clock.leases.Quiet)
    (enough : (t.clock.leases.sessions.map (Leases.renewals target)).sum ≤ fuel) :
    Kept { t with clock := { LeaseClock.renewUntil target fuel t.clock with now := target } } := by
  induction fuel generalizing t with
  | zero =>
    refine kept.wait fun s among mayRenew => ?_
    have renewing := quiet.renewing among mayRenew
    have none := List.sum_eq_zero_iff.mp (Nat.le_zero.mp enough) _ (List.mem_map_of_mem among)
    rw [Leases.renewals, if_pos renewing] at none
    omega
  | succ fuel ih =>
    unfold LeaseClock.renewUntil
    rcases t.clock.leases.nextRenewal?_cases with ⟨none, idle⟩ | ⟨s, among, next, renewing, least⟩
    · rw [none]
      exact kept.wait fun s among renews => absurd (quiet.renewing among renews) (idle s among)
    · have mayRenew := LockSession.mayRenew_iff.mpr (.inl renewing)
      have least : ∀ s' ∈ t.clock.leases.sessions, s'.mayRenew = true → s.renewAt ≤ s'.renewAt :=
        fun s' among' renews => least s' among' (quiet.renewing among' renews)
      rw [next]
      dsimp only
      split
      next due =>
        have waited := kept.wait least
        have renewed := waited.renew among mayRenew
        dsimp only [Leasing.move] at renewed
        rw [waited.timely.session?_eq among] at renewed
        rw [Nat.max_eq_right (kept.timely.onTime s among mayRenew)]
        -- the fuel is enough for the renewals to come, and this one was one of them
        have fewer := Leases.sum_renewals_renew waited.timely among renewing rfl due
        exact ih renewed (quiet.renew _ s) (Nat.le_of_lt_succ (Nat.lt_of_lt_of_le fewer enough))
      next later =>
        exact kept.wait fun s' among' renews =>
          (Nat.le_of_not_le later).trans (least s' among' renews)

/-- The tasks of stopped sessions can end. -/
theorem Kept.quitAll (kept : t.Kept) :
    Kept { t with clock := { t.clock with leases := t.clock.leases.quitAll } } := by
  refine ⟨kept.timely.quitAll, fun g live long => ?_⟩
  obtain ⟨s, serves⟩ := kept.serves g live long
  exact ⟨_, serves.quitAll⟩

theorem Kept.advance (kept : t.Kept) (ms : Nat) : (t.move (.advance ms)).Kept := by
  have quit := kept.quitAll
  refine quit.renewUntil t.clock.leases.quiet_quitAll ?_
  refine (List.sum_le_card_nsmul _ (ms + 1) fun n among => ?_).trans_eq (by simp [Leases.quitAll])
  obtain ⟨s, member, rfl⟩ := List.mem_map.mp among
  unfold Leases.renewals
  split
  next renewing =>
    have later : t.clock.now ≤ s.renewAt :=
      quit.timely.onTime s member (LockSession.mayRenew_iff.mpr (.inl renewing))
    omega
  next => exact Nat.zero_le _

/-- Leases can be taken away from those that are no longer counted. -/
theorem Kept.filter {l : Leases} {others : Grant → Bool} (kept : t.Kept)
    (timely : l.Timely t.clock.now)
    (serves : ∀ g s, t.clock.leases.Serves g s → others g = true → l.Serves g s) :
    Kept ⟨{ t.clock with leases := l }, t.live.filter others⟩ := by
  refine ⟨timely, fun g among long => ?_⟩
  obtain ⟨before, other⟩ := List.mem_filter.mp among
  obtain ⟨s, served⟩ := kept.serves g before long
  exact ⟨s, serves g s served other⟩

theorem Kept.move (kept : t.Kept) (onTime : t.OnTime m) (spares : t.SparesRenewing m) :
    (t.move m).Kept := by
  cases m with
  | lock holder duration instances =>
    dsimp only [Leasing.move, LeaseClock.lock, SparesRenewing] at spares ⊢
    cases locked : t.clock.leases.lock t.clock.now holder duration instances with
    | mk answer leases =>
      rw [locked] at spares
      cases answer with
      | error e =>
        -- who is refused leaves the table as it was, expired rows included
        obtain rfl : leases = t.clock.leases := by
          rcases t.clock.leases.lock_cases t.clock.now holder duration instances with
            ⟨_, same⟩ | ⟨_, _, _, same, _⟩
          · exact (Prod.mk.inj (locked.symm.trans same)).2
          · rw [locked] at same
            cases same
        exact kept
      | ok session =>
        refine ⟨kept.timely.lock locked (spares rfl), fun g among long => ?_⟩
        rcases List.mem_cons.mp among with rfl | before
        · exact Leases.serves_of_lock locked long
        · obtain ⟨s, serves⟩ := kept.serves g before long
          exact ⟨s, serves.lock kept.timely locked (spares rfl)⟩
  | unlock holder instances =>
    exact kept.filter (kept.timely.frame rfl rfl) fun _ _ serves other =>
      serves.unlock (of_decide_eq_true other)
  | revoke projection instances =>
    exact kept.filter (kept.timely.frame rfl rfl) fun _ _ serves other =>
      serves.revoke _ (of_decide_eq_true other)
  | stop session =>
    exact kept.filter (kept.timely.stop session) fun _ _ serves other =>
      serves.stop (of_decide_eq_true other)
  | quit session =>
    refine ⟨kept.timely.quit session, fun g live long => ?_⟩
    obtain ⟨s, serves⟩ := kept.serves g live long
    exact serves.quit session
  | renew session =>
    obtain ⟨s, among, rfl, renewing, _⟩ := onTime
    exact kept.renew among renewing
  | pass ms => exact kept.wait onTime
  | advance ms => exact kept.advance ms

theorem Kept.run {moves : List LeaseMove} (kept : t.Kept) (obeys : t.Obeys SparesRenewing moves) :
    (t.run moves).Kept := by
  induction moves generalizing t with
  | nil => exact kept
  | cons m rest ih =>
    obtain ⟨⟨onTime, spares⟩, later⟩ := obeys
    exact ih (kept.move onTime spares) later

theorem Kept.exclusive (kept : t.Kept) {g : Grant} (live : g ∈ t.live) (long : 2 ≤ g.duration) :
    t.clock.Exclusive g := by
  obtain ⟨s, serves⟩ := kept.serves g live long
  refine ⟨fun id among => serves.unexpired kept.timely among, ⟨s, ?_, serves.grant, serves.renewing,
    serves.loss, ?_⟩, ?_⟩
  · rw [← kept.timely.session?_eq serves.among, ← serves.grant]
    rfl
  · rw [serves.acquire]
    rfl
  · intro other duration instances projection owner ⟨id, mine, also⟩
    obtain ⟨expiry, row, unexpired⟩ := serves.unexpired kept.timely mine
    have contended : t.clock.leases.table.heldByOther t.clock.now other id = true := by
      rw [LeaseTable.heldByOther, projection, row, Option.any_some, decide_eq_true (Ne.symm owner),
        decide_eq_true unexpired]
      rfl
    have some : (instances.filter
        (t.clock.leases.table.heldByOther t.clock.now other)).isEmpty = false :=
      List.isEmpty_eq_false_iff.mpr (List.ne_nil_of_mem (List.mem_filter.mpr ⟨also, contended⟩))
    have asked : instances.isEmpty = false :=
      List.isEmpty_eq_false_iff.mpr (List.ne_nil_of_mem also)
    rw [LeaseClock.lock, Leases.lock, asked, LeaseTable.acquire, some]
    rfl

/-- The lease on an instance of a projection, whoever has it. -/
def row? (t : Leasing) (projection : String) (id : InstanceId) : Option Lease :=
  t.clock.leases.table.find? (projection, id)

/-- Whether something is about leases on instances of a projection. -/
def Reaches (t : Leasing) (projection : String) : LeaseMove → Prop
  | .lock holder .. | .unlock holder _ => holder.projection = projection
  | .revoke p _ => p = projection
  | .renew session =>
    ∃ s ∈ t.clock.leases.sessions, s.id = session ∧ s.holder.projection = projection
  | .stop _ | .quit _ | .pass _ => False
  | .advance _ =>
    ∃ s ∈ t.clock.leases.sessions, s.renewing = true ∧ s.holder.projection = projection

/-- Leases exclude others, now and in whatever happens next. -/
structure Safe (t : Leasing) : Prop where
  /-- What a session was opened with is its own, if leases last long enough to be renewed. -/
  exclusive : ∀ g ∈ t.live, 2 ≤ g.duration → t.clock.Exclusive g
  /-- Who gives leases up takes none from others. -/
  others {projection : String} {id : InstanceId} {lease : Lease}
    (row : t.row? projection id = some lease) (holder : LockHolder) (instances : List InstanceId)
    (other : lease.owner ≠ holder.owner) :
    (t.move (.unlock holder instances)).row? projection id = some lease
  /-- The leases on the instances of other projections stay as they are. -/
  elsewhere {m : LeaseMove} {projection : String} (other : ¬t.Reaches projection m)
    (id : InstanceId) : (t.move m).row? projection id = t.row? projection id

theorem row?_unlock {projection : String} {id : InstanceId} {lease : Lease}
    (row : t.row? projection id = some lease) (holder : LockHolder) (instances : List InstanceId)
    (other : lease.owner ≠ holder.owner) :
    (t.move (.unlock holder instances)).row? projection id = some lease := by
  refine (LeaseTable.find?_release fun _ _ lease' row' => ?_).trans row
  rwa [← Option.some_inj.mp (row.symm.trans row')]

theorem clock_move_lock (t : Leasing) (holder : LockHolder) (duration : Nat)
    (instances : List InstanceId) :
    (t.move (.lock holder duration instances)).clock = (t.clock.lock holder duration instances).2 := by
  dsimp only [Leasing.move]
  split <;> rfl

theorem row?_elsewhere {projection : String} (other : ¬t.Reaches projection m) (id : InstanceId) :
    (t.move m).row? projection id = t.row? projection id := by
  cases m with
  | lock holder duration instances =>
    rw [row?, clock_move_lock]
    dsimp only [LeaseClock.lock]
    rcases t.clock.leases.lock_cases t.clock.now holder duration instances with
      ⟨e, same⟩ | ⟨session, table, taken, _, same⟩
    · rw [same]
      rfl
    · rw [same]
      exact LeaseTable.find?_acquire_elsewhere taken other
  | unlock holder instances => exact LeaseTable.find?_release fun same => absurd same other
  | revoke p instances => exact LeaseTable.find?_grant_elsewhere other
  | renew session =>
    dsimp only [Leasing.move]
    cases found : t.clock.leases.session? session with
    | none => rfl
    | some s =>
      refine Leases.find?_renew_elsewhere fun same =>
        other ⟨s, List.mem_of_find?_eq_some found, ?_, same⟩
      simpa using List.find?_some found
  | stop | quit | pass => rfl
  | advance ms =>
    refine LeaseClock.find?_renewUntil_elsewhere (List.forall_mem_map.mpr fun s among renewing same => ?_)
    exact other ⟨s, among, renewing, same⟩

theorem Kept.safe (kept : t.Kept) : t.Safe where
  exclusive _ := kept.exclusive
  others := row?_unlock
  elsewhere := row?_elsewhere

theorem kept_of_fresh (fresh : t.clock.leases = {}) (none : t.live = []) : t.Kept := by
  refine ⟨?_, ?_⟩
  · rw [fresh]
    constructor <;> exact fun s among => nomatch among
  · rw [none]
    exact fun g among => nomatch among

/-- From a table without leases on, leases exclude others at all times, if no owner gets a lease again
that one of its own sessions may still renew. -/
theorem leases_exclude (clock : LeaseClock) {moves : List LeaseMove} (fresh : clock.leases = {})
    (obeys : Obeys SparesRenewing { clock } moves) : (run { clock } moves).Safe :=
  ((kept_of_fresh fresh rfl).run obeys).safe

/-- An owner unlocks an instance and locks it anew, for longer, before it stops the first session. -/
def forgotten : List LeaseMove :=
  let owner : LockHolder := ⟨"p", "a"⟩
  [.lock owner 300 [⟨"k"⟩], .unlock owner [⟨"k"⟩], .lock owner 9000 [⟨"k"⟩], .advance 150, .stop 0,
    .advance 1000]

/-- It is not enough that no owner gets a lease again that one of its own sessions has: what the first
session has renewed last runs out, and another owner gets the lease of the second. -/
theorem not_safe_of_forgotten :
    Obeys SparesLive { clock := {} } forgotten ∧
      ⟨1, ⟨"p", "a"⟩, 9000, [⟨"k"⟩]⟩ ∈ (run { clock := {} } forgotten).live ∧
      ((run { clock := {} } forgotten).clock.lock ⟨"p", "b"⟩ 1000 [⟨"k"⟩]).1.isOk = true ∧
      ¬(run { clock := {} } forgotten).Safe := by
  have live : ⟨1, ⟨"p", "a"⟩, 9000, [⟨"k"⟩]⟩ ∈ (run { clock := {} } forgotten).live := by
    decide +kernel
  have taken : ((run { clock := {} } forgotten).clock.lock ⟨"p", "b"⟩ 1000 [⟨"k"⟩]).1.isOk = true := by
    decide +kernel
  refine ⟨by decide +kernel, live, taken, fun safe => ?_⟩
  have refused : (run { clock := {} } forgotten).clock.lock ⟨"p", "b"⟩ 1000 [⟨"k"⟩] = _ :=
    (safe.exclusive _ live (by decide)).excludes 1000 rfl (by decide) (by decide)
  rw [refused] at taken
  cases taken

/-- A session that is stopped when a renewal is due may cut short what its owner has locked anew. -/
example :
    (run { clock := {} } [.lock ⟨"p", "a"⟩ 300 [⟨"k"⟩], .pass 100, .stop 0, .unlock ⟨"p", "a"⟩ [⟨"k"⟩],
      .lock ⟨"p", "a"⟩ 9000 [⟨"k"⟩], .renew 0]).row? "p" ⟨"k"⟩ = some ⟨"a", 400⟩ := by
  decide +kernel

/-- Two owners of a projection lock different instances, and one of them the other's in vain. One
session is stopped when a renewal is due, which it makes before its instance is locked anew. -/
def sharing : List LeaseMove :=
  [.lock ⟨"p", "a"⟩ 9000 [⟨"k"⟩, ⟨"l"⟩], .lock ⟨"p", "b"⟩ 2 [⟨"m"⟩], .lock ⟨"p", "b"⟩ 50 [⟨"m"⟩, ⟨"l"⟩],
    .lock ⟨"p", "b"⟩ 3 [⟨"n"⟩], .pass 1, .stop 2, .unlock ⟨"p", "b"⟩ [⟨"k"⟩, ⟨"n"⟩], .renew 1, .renew 2,
    .lock ⟨"p", "b"⟩ 9000 [⟨"n"⟩], .advance 3000]

theorem leases_exclude_of_sharing :
    ({} : LeaseClock).leases = {} ∧ Obeys SparesRenewing { clock := {} } sharing ∧
      (run { clock := {} } sharing).live =
        [⟨3, ⟨"p", "b"⟩, 9000, [⟨"n"⟩]⟩, ⟨1, ⟨"p", "b"⟩, 2, [⟨"m"⟩]⟩,
          ⟨0, ⟨"p", "a"⟩, 9000, [⟨"k"⟩, ⟨"l"⟩]⟩] ∧
      (run { clock := {} } sharing).Safe :=
  have obeys : Obeys SparesRenewing { clock := {} } sharing := by decide +kernel
  ⟨rfl, obeys, by decide +kernel, leases_exclude {} rfl obeys⟩

end Leasing

end ReadModel
