import Mathlib.Logic.Basic
import ReadModel.Lease

/-!
Who holds a lease.

A lease that has not run out keeps its owner, whoever takes leases, renews them or gives them up; only
the owner can give it up.
-/

namespace ReadModel

namespace LeaseTable

variable {t u : LeaseTable} {now duration expiry : Nat} {holder : LockHolder}
  {instances : List InstanceId} {projection owner : String} {id : InstanceId}

/-- No lease has run out. -/
def Live (t : LeaseTable) (now : Nat) : Prop := ∀ entry ∈ t.entries, now < entry.2.expiry

theorem find?_grant (t : LeaseTable) (p : String) (lease : Lease) (instances : List InstanceId)
    (projection : String) (id : InstanceId) :
    (t.grant p lease instances).find? (projection, id) =
      if p = projection ∧ id ∈ instances then some lease else t.find? (projection, id) := by
  unfold grant
  induction instances generalizing t with
  | nil => simp
  | cons first rest ih =>
    rw [List.foldl_cons, ih, Dict.find?_insert]
    by_cases later : p = projection ∧ id ∈ rest
    · rw [if_pos later, if_pos ⟨later.1, List.mem_cons_of_mem _ later.2⟩]
    · rw [if_neg later]
      refine if_congr ?_ rfl rfl
      rw [Prod.mk.injEq, List.mem_cons]
      constructor
      · rintro ⟨same, rfl⟩
        exact ⟨same, .inl rfl⟩
      · rintro ⟨same, rfl | among⟩
        · exact ⟨same, rfl⟩
        · exact absurd ⟨same, among⟩ later

theorem find?_grant_elsewhere {p : String} {lease : Lease} (other : p ≠ projection) :
    (t.grant p lease instances).find? (projection, id) = t.find? (projection, id) :=
  (t.find?_grant ..).trans (if_neg fun same => other same.1)

theorem acquire_eq_ok (taken : t.acquire now holder duration instances = .ok u) :
    (∀ id ∈ instances, t.heldByOther now holder id = false) ∧
      u = t.grant holder.projection ⟨holder.owner, now + duration⟩ instances := by
  unfold acquire at taken
  dsimp only at taken
  split at taken
  next free =>
    rw [List.isEmpty_iff, List.filter_eq_nil_iff] at free
    exact ⟨fun id among => Bool.eq_false_iff.mpr (free id among), (Except.ok.inj taken).symm⟩
  next => cases taken

theorem find?_acquire_elsewhere (taken : t.acquire now holder duration instances = .ok u)
    (other : holder.projection ≠ projection) : u.find? (projection, id) = t.find? (projection, id) := by
  rw [(acquire_eq_ok taken).2, find?_grant_elsewhere other]

/-- Leases that are taken belong to the one that has taken them. -/
theorem owner?_acquire_self (taken : t.acquire now holder duration instances = .ok u)
    (among : id ∈ instances) : u.owner? holder.projection id = some holder.owner := by
  obtain ⟨_, rfl⟩ := acquire_eq_ok taken
  rw [owner?, find?_grant, if_pos ⟨rfl, among⟩]
  rfl

theorem owner?_acquire_of_not_mem (taken : t.acquire now holder duration instances = .ok u)
    (out : id ∉ instances) : u.owner? projection id = t.owner? projection id := by
  obtain ⟨_, rfl⟩ := acquire_eq_ok taken
  rw [owner?, find?_grant, if_neg fun among => out among.2]
  rfl

/-- Nobody else can take a lease that has not run out. -/
theorem owner?_acquire (live : t.Live now) (taken : t.acquire now holder duration instances = .ok u)
    (owned : t.owner? projection id = some owner) : u.owner? projection id = some owner := by
  obtain ⟨free, rfl⟩ := acquire_eq_ok taken
  rw [owner?, find?_grant]
  split
  next granted =>
    obtain ⟨rfl, among⟩ := granted
    obtain ⟨lease, row, rfl⟩ := Option.map_eq_some_iff.mp owned
    have alive := live _ ((t.mem_entries_iff _ lease).mpr row)
    have mine := free id among
    rw [heldByOther, row, Option.any_some, Bool.and_eq_false_iff, decide_eq_false_iff_not,
      decide_eq_false_iff_not] at mine
    exact congrArg some (Decidable.not_not.mp (mine.resolve_right (not_not_intro alive))).symm
  next => exact owned

/-- A lease that has not run out stays as it is when others take leases. -/
theorem find?_acquire_of_held (taken : t.acquire now holder duration instances = .ok u)
    (row : t.find? (projection, id) = some ⟨owner, expiry⟩) (unexpired : now < expiry)
    (other : holder = ⟨projection, owner⟩ → id ∉ instances) :
    u.find? (projection, id) = some ⟨owner, expiry⟩ := by
  obtain ⟨free, rfl⟩ := acquire_eq_ok taken
  rw [find?_grant]
  split
  next granted =>
    obtain ⟨rfl, among⟩ := granted
    have mine := free id among
    rw [heldByOther, row, Option.any_some, decide_eq_true unexpired, Bool.and_true,
      decide_eq_false_iff_not, Decidable.not_not] at mine
    exact absurd among (other (congrArg (LockHolder.mk holder.projection) mine.symm))
  next => exact row

/-- Leases that one has can be taken again. -/
theorem acquire_of_own
    (own : ∀ id ∈ instances, ∃ expiry, t.find? (holder.projection, id) = some ⟨holder.owner, expiry⟩) :
    t.acquire now holder duration instances =
      .ok (t.grant holder.projection ⟨holder.owner, now + duration⟩ instances) := by
  have free : instances.filter (t.heldByOther now holder) = [] := by
    rw [List.filter_eq_nil_iff]
    intro id among
    obtain ⟨expiry, row⟩ := own id among
    simp [heldByOther, row]
  rw [acquire, free]
  rfl

/-- Giving up leases takes away those of the owner that are on the instances. -/
theorem find?_release_eq (t : LeaseTable) (holder : LockHolder) (instances : List InstanceId)
    (projection : String) (id : InstanceId) :
    (t.release holder instances).find? (projection, id) =
      if holder.projection = projection ∧ id ∈ instances ∧
          t.owner? projection id = some holder.owner then none
      else t.find? (projection, id) := by
  unfold release
  induction instances generalizing t with
  | nil => simp
  | cons first rest ih =>
    rw [List.foldl_cons, ih]
    split
    next mine =>
      rw [owner?, owner?, Dict.find?_erase]
      by_cases here : (holder.projection, first) = (projection, id)
      · obtain ⟨rfl, rfl⟩ := Prod.mk.inj here
        obtain ⟨lease, row, owned⟩ := (Option.any_eq_true _ _).mp mine
        simp [row, of_decide_eq_true owned]
      · rw [if_neg here]
        refine if_congr (and_congr_right fun same => and_congr_left fun _ => ?_) rfl rfl
        rw [List.mem_cons]
        exact ⟨.inr, fun among => among.resolve_left fun first => here (by rw [same, first])⟩
    next other =>
      refine if_congr (and_congr_right fun same => and_congr_left fun owned => ?_) rfl rfl
      rw [List.mem_cons]
      refine ⟨.inr, fun among => among.resolve_left ?_⟩
      rintro rfl
      obtain ⟨lease, row, mine⟩ := Option.map_eq_some_iff.mp owned
      rw [same, row] at other
      exact other (decide_eq_true mine)

theorem find?_release
    (kept : holder.projection = projection → id ∈ instances →
      ∀ lease, t.find? (projection, id) = some lease → lease.owner ≠ holder.owner) :
    (t.release holder instances).find? (projection, id) = t.find? (projection, id) := by
  rw [find?_release_eq, if_neg]
  rintro ⟨same, among, owned⟩
  obtain ⟨lease, row, mine⟩ := Option.map_eq_some_iff.mp owned
  exact kept same among lease row mine

/-- Only its owner can give a lease up. -/
theorem owner?_release_of_ne (other : owner ≠ holder.owner)
    (owned : t.owner? projection id = some owner) :
    (t.release holder instances).owner? projection id = some owner := by
  rw [owner?, find?_release]
  · exact owned
  · rintro - - lease row
    rw [owner?, row] at owned
    rwa [← Option.some_inj.mp owned] at other

theorem owner?_release_of_not_mem (out : id ∉ instances) :
    (t.release holder instances).owner? projection id = t.owner? projection id := by
  rw [owner?, find?_release fun _ among => absurd among out]
  rfl

end LeaseTable

namespace Leases

variable {l : Leases} {now duration : Nat} {holder : LockHolder} {instances : List InstanceId}
  {projection owner : String} {id : InstanceId}

/-- Leases are taken or refused. -/
theorem lock_cases (l : Leases) (now : Nat) (holder : LockHolder) (duration : Nat)
    (instances : List InstanceId) :
    (∃ e, l.lock now holder duration instances = (.error e, l)) ∨
      ∃ session table, l.table.acquire now holder duration instances = .ok table ∧
        (l.lock now holder duration instances).1 = .ok session ∧
        (l.lock now holder duration instances).2.table = table := by
  unfold lock
  split
  next => exact .inl ⟨_, rfl⟩
  next =>
    cases taken : l.table.acquire now holder duration instances with
    | error e => exact .inl ⟨e, rfl⟩
    | ok table => exact .inr ⟨_, table, rfl, rfl, rfl⟩

theorem lock_eq_error {l' : Leases} {e : LockError}
    (refused : l.lock now holder duration instances = (.error e, l')) : l' = l := by
  rcases l.lock_cases now holder duration instances with ⟨_, same⟩ | ⟨_, _, _, granted, _⟩
  · exact congrArg Prod.snd (refused.symm.trans same)
  · rw [refused] at granted
    cases granted

theorem owner?_renew (live : l.table.Live now) (s : LockSession)
    (owned : l.table.owner? projection id = some owner) :
    (l.renew now s).2.table.owner? projection id = some owner := by
  unfold renew
  cases taken : l.table.acquire now s.holder s.duration s.instances with
  | ok table => exact LeaseTable.owner?_acquire live taken owned
  | error e => exact owned

theorem table_watch (l : Leases) (session : Nat) (token : Token) :
    (l.watch session token).2.table = l.table := by
  unfold watch claim
  cases l.session? session <;> rfl

end Leases

end ReadModel
