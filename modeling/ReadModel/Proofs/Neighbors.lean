import ReadModel.Proofs.Sessions

/-!
Leases next to those of others.

As long as the same instances are leased to others, a holder can take what these leave
(`Leases.Settled`): it is refused exactly where one of the instances is taken, its sessions lose nothing,
and they do not change what is taken. Which leases the others have, and whether sessions renew them,
plays no part.
-/

namespace ReadModel

namespace LeaseTable

variable {t : LeaseTable} {now duration : Nat} {holder : LockHolder} {instances : List InstanceId}
  {id : InstanceId}

theorem acquire_of_free (free : ∀ id ∈ instances, t.heldByOther now holder id = false) :
    t.acquire now holder duration instances =
      .ok (t.grant holder.projection ⟨holder.owner, now + duration⟩ instances) := by
  have none : instances.filter (t.heldByOther now holder) = [] :=
    List.filter_eq_nil_iff.mpr fun id among => Bool.eq_false_iff.mp (free id among)
  rw [acquire, none]
  rfl

theorem heldByOther_release (t : LeaseTable) (holder : LockHolder) (instances : List InstanceId)
    (now : Nat) (id : InstanceId) :
    (t.release holder instances).heldByOther now holder id = t.heldByOther now holder id := by
  unfold release
  induction instances generalizing t with
  | nil => rfl
  | cons first rest ih =>
    rw [List.foldl_cons, ih]
    split
    next mine =>
      rw [heldByOther, heldByOther, Dict.find?_erase]
      split
      next same =>
        obtain ⟨lease, row, owned⟩ := (Option.any_eq_true _ _).mp mine
        obtain ⟨_, rfl⟩ := Prod.mk.inj same
        rw [row, Option.any_some, of_decide_eq_true owned]
        simp
      next => rfl
    next => rfl

/-- What nobody else has can be taken without harm to anyone. -/
theorem heldByOther_grant (free : ∀ id ∈ instances, t.heldByOther now holder id = false)
    (expiry : Nat) (id : InstanceId) :
    (t.grant holder.projection ⟨holder.owner, expiry⟩ instances).heldByOther now holder id =
      t.heldByOther now holder id := by
  rw [heldByOther, find?_grant]
  split
  next granted =>
    rw [free id granted.2, Option.any_some, decide_eq_false (not_not_intro rfl)]
    rfl
  next => rfl

/-- Only an instance that has a row can be leased to someone. -/
theorem heldByOther_of_not_mem (none : ∀ entry ∈ t.entries, entry.1.2 ≠ id) :
    t.heldByOther now holder id = false := by
  have missing : t.find? (holder.projection, id) = Option.none := by
    rw [Option.eq_none_iff_forall_not_mem]
    intro lease row
    exact none _ ((t.mem_entries_iff _ lease).mpr row) rfl
  rw [heldByOther, missing]
  rfl

end LeaseTable

namespace Leases

variable {l l' : Leases} {now duration first bound : Nat} {holder : LockHolder}
  {taken : InstanceId → Bool} {instances : List InstanceId} {s : LockSession}

/-- Which instances are leased to others. The sessions from some number on are the holder's, keep off
these instances, and have lost nothing. Who watches one of those before has a token from before. -/
structure Settled (holder : LockHolder) (taken : InstanceId → Bool) (first bound now : Nat)
    (l : Leases) : Prop where
  held : ∀ id, l.table.heldByOther now holder id = taken id
  kept : ∀ s ∈ l.sessions, first ≤ s.id → s.loss = none
  own : ∀ s ∈ l.sessions, first ≤ s.id → s.holder = holder ∧ ∀ id ∈ s.instances, taken id = false
  watched : ∀ w ∈ l.watchers, w.session < first → w.token.id < bound
  below : ∀ s ∈ l.sessions, s.id < l.nextSession
  first : first ≤ l.nextSession

namespace Settled

theorem frame (settled : l.Settled holder taken first bound now)
    (held : ∀ id, l'.table.heldByOther now holder id = l.table.heldByOther now holder id)
    (sessions : ∀ s' ∈ l'.sessions, ∃ s ∈ l.sessions, s'.grant = s.grant ∧
      (first ≤ s.id → s.loss = none → s'.loss = none))
    (watchers : l'.watchers = l.watchers) (next : l'.nextSession = l.nextSession) :
    l'.Settled holder taken first bound now where
  held id := (held id).trans (settled.held id)
  kept s' among new := by
    obtain ⟨s, inside, same, kept⟩ := sessions s' among
    have number : s'.id = s.id := congrArg Grant.session same
    rw [number] at new
    exact kept new (settled.kept s inside new)
  own s' among new := by
    obtain ⟨s, inside, same, _⟩ := sessions s' among
    have number : s'.id = s.id := congrArg Grant.session same
    have owner : s'.holder = s.holder := congrArg Grant.holder same
    have names : s'.instances = s.instances := congrArg Grant.instances same
    rw [owner, names]
    exact settled.own s inside (number ▸ new)
  watched := watchers ▸ settled.watched
  below s' among := by
    obtain ⟨s, inside, same, _⟩ := sessions s' among
    have number : s'.id = s.id := congrArg Grant.session same
    rw [number, next]
    exact settled.below s inside
  first := next ▸ settled.first

theorem modify (settled : l.Settled holder taken first bound now) {number : Nat}
    {change : LockSession → LockSession} (grant : ∀ s, (change s).grant = s.grant)
    (loss : first ≤ number → ∀ s, (change s).loss = s.loss) :
    (l.modify number change).Settled holder taken first bound now := by
  refine settled.frame (fun _ => rfl) (fun s' among => ?_) rfl rfl
  obtain ⟨s, inside, rfl⟩ := List.mem_map.mp among
  refine ⟨s, inside, ?_⟩
  split
  next here => exact ⟨grant s, fun new none => (loss (here ▸ new) s).trans none⟩
  next => exact ⟨rfl, fun _ none => none⟩

theorem spared (settled : l.Settled holder taken first bound now) {table : LeaseTable} {stamp : Nat}
    (held : ∀ id, table.heldByOther now holder id = l.table.heldByOther now holder id) :
    { l with table, stamp }.Settled holder taken first bound now :=
  settled.frame held (fun s among => ⟨s, among, rfl, fun _ none => none⟩) rfl rfl

/-- The same instances are taken at another time. -/
theorem later (settled : l.Settled holder taken first bound now) {next : Nat}
    (held : ∀ id, l.table.heldByOther next holder id = l.table.heldByOther now holder id) :
    l.Settled holder taken first bound next :=
  { settled with held := fun id => (held id).trans (settled.held id) }

theorem stop (settled : l.Settled holder taken first bound now) (number : Nat) :
    (l.stop number).Settled holder taken first bound now :=
  settled.modify (fun _ => rfl) fun _ _ => rfl

theorem unlock (settled : l.Settled holder taken first bound now) (instances : List InstanceId) :
    (l.unlock holder instances).Settled holder taken first bound now :=
  settled.spared (l.table.heldByOther_release holder instances now)

/-- Who watches a session of the holder has nothing to hear of. -/
theorem watch (settled : l.Settled holder taken first bound now) {id : Nat} (new : first ≤ id)
    (token : Token) :
    (l.watch id token).1 = [] ∧ (l.watch id token).2.Settled holder taken first bound now := by
  have joined {l : Leases} (settled : l.Settled holder taken first bound now) (late : Bool) :
      Settled holder taken first bound now
        { l with watchers := l.watchers ++ [⟨id, token, late⟩] } := by
    refine { settled with watched := fun w among old => ?_ }
    rcases List.mem_append.mp among with before | single
    · exact settled.watched w before old
    · rw [List.mem_singleton.mp single] at old
      exact absurd old (Nat.not_lt.mpr new)
  unfold Leases.watch claim
  cases found : l.session? id with
  | none => exact ⟨rfl, joined settled _⟩
  | some s =>
    have number : s.id = id := by simpa using List.find?_some found
    have none := settled.kept s (List.mem_of_find?_eq_some found) (number ▸ new)
    have claimed : (l.modify id fun s => { s with claimed := true }).Settled holder taken first bound
        now := settled.modify (fun _ => rfl) fun _ _ => rfl
    exact ⟨by simp [none], joined claimed _⟩

/-- Leases are refused where one of the instances is taken, and only there. -/
theorem lock (settled : l.Settled holder taken first bound now) (some : instances ≠ [])
    (duration : Nat) :
    ((∃ id ∈ instances, taken id = true) ∧
        ∃ e, l.lock now holder duration instances = (.error e, l)) ∨
      (∀ id ∈ instances, taken id = false) ∧
        (l.lock now holder duration instances).1 = .ok l.nextSession ∧
          (l.lock now holder duration instances).2.Settled holder taken first bound now := by
  by_cases free : ∀ id ∈ instances, taken id = false
  · refine .inr ⟨free, ?_⟩
    have unheld : ∀ id ∈ instances, l.table.heldByOther now holder id = false := fun id among =>
      (settled.held id).trans (free id among)
    have granted : l.table.acquire now holder duration instances = .ok _ :=
      LeaseTable.acquire_of_free unheld
    rw [Leases.lock, if_neg (by simpa using some), granted]
    refine ⟨rfl, fun id => (LeaseTable.heldByOther_grant unheld _ id).trans (settled.held id), ?_, ?_,
      settled.watched, ?_, Nat.le_succ_of_le settled.first⟩ <;>
      simp only [List.forall_mem_append, List.forall_mem_singleton]
    · exact ⟨settled.kept, fun _ => trivial⟩
    · exact ⟨settled.own, fun _ => ⟨trivial, free⟩⟩
    · exact ⟨fun s among => Nat.lt_succ_of_lt (settled.below s among), Nat.lt_succ_self _⟩
  · have held : ∃ id ∈ instances, taken id = true := by simpa using free
    refine .inl ⟨held, ?_⟩
    rcases l.lock_cases now holder duration instances with refused | ⟨_, _, granted, _⟩
    · exact refused
    · obtain ⟨id, among, other⟩ := held
      have mine := (LeaseTable.acquire_eq_ok granted).1 id among
      rw [settled.held, other] at mine
      cases mine

/-- A session of the holder renews its leases: it loses nothing, and takes nothing from others. -/
theorem renew (settled : l.Settled holder taken first bound now) (among : s ∈ l.sessions)
    (new : first ≤ s.id) :
    (l.renew now s).1 = [] ∧ (l.renew now s).2.Settled holder taken first bound now := by
  obtain ⟨rfl, free⟩ := settled.own s among new
  have unheld : ∀ id ∈ s.instances, l.table.heldByOther now s.holder id = false := fun id member =>
    (settled.held id).trans (free id member)
  have granted : l.table.acquire now s.holder s.duration s.instances = .ok _ :=
    LeaseTable.acquire_of_free unheld
  have renewed : (l.modify s.id (renewed now l.stamp)).Settled s.holder taken first bound now :=
    settled.modify (fun _ => rfl) fun _ _ => rfl
  unfold Leases.renew
  rw [granted]
  exact ⟨rfl, renewed.spared (LeaseTable.heldByOther_grant unheld _)⟩

/-- Whatever becomes of the leases of a session from before, the holder's sessions lose nothing as long
as the same instances are taken. -/
theorem renew_elsewhere (settled : l.Settled holder taken first bound now) (old : s.id < first)
    (held : ∀ id, (l.renew now s).2.table.heldByOther now holder id =
      l.table.heldByOther now holder id) :
    (∀ token ∈ (l.renew now s).1, token.id < bound) ∧
      (l.renew now s).2.Settled holder taken first bound now := by
  unfold Leases.renew at held ⊢
  cases granted : l.table.acquire now s.holder s.duration s.instances with
  | ok table =>
    rw [granted] at held
    have renewed : (l.modify s.id (renewed now l.stamp)).Settled holder taken first bound now :=
      settled.modify (fun _ => rfl) fun _ _ => rfl
    exact ⟨nofun, renewed.spared held⟩
  | error e =>
    refine ⟨List.forall_mem_map.mpr fun w among => ?_,
      settled.modify (fun _ => rfl) fun new => absurd old (Nat.not_lt.mpr new)⟩
    obtain ⟨inside, watches⟩ := List.mem_filter.mp among
    have here : w.session = s.id := by simpa using (Bool.and_eq_true_iff.mp watches).1
    exact settled.watched w inside (here ▸ old)

end Settled

end Leases

end ReadModel
