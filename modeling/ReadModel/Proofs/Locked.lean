import ReadModel.Proofs.Seclusion

/-!
A batch among its siblings, under the locks of its instances.

A batch is locked out where one of its instances is leased to someone else. Otherwise it does, with its
own token and under its locks, what it would do by itself; taking the locks, watching them and giving
them up takes nothing away from its siblings.
-/

namespace ReadModel

namespace Siblings

variable {σ : Siblings} {batch other : Nat} {part : List InstanceId} {d : StoreData} {s t : Staged}

/-- A batch has no transaction, and its instances are as in some data. -/
structure Idle (σ : Siblings) (batch : Nat) (part : List InstanceId) (d : StoreData) (s : Staged) :
    Prop where
  fine : σ.Fine s
  out : s.world.transactionOf ≠ some (number batch)
  data : s.data.Alike σ.handler.name (· ∈ part) d

theorem Idle.others (idle : σ.Idle batch part d s) (here : σ.parts[batch]? = some part)
    (rely : σ.Rely batch s t) : σ.Idle batch part d t :=
  ⟨rely.fine idle.fine, rely.foreign idle.out, (rely.view part here).trans idle.data⟩

theorem Idle.still (idle : σ.Idle batch part d s) (fine : σ.Fine t)
    (store : t.world.store = s.world.store)
    (owner : t.world.transactionOf = s.world.transactionOf) : σ.Idle batch part d t :=
  ⟨fine, owner ▸ idle.out, by rw [Staged.data, store]; exact idle.data⟩

/-- Other tokens and leases are as fine. -/
theorem Fine.quiet (fine : σ.Fine s) {l : Leases} {ts : Tokens}
    (world : t.world = { s.world with leases := l, tokens := ts })
    (outage : t.scene.outage = s.scene.outage)
    (uncancelled : ts.isCancelled σ.context.token = false)
    (handedOut : ∀ id ∈ σ.context.token.line ++ ts.cancelled, id < ts.nextId)
    (made : ∀ id batch, t.maker id = some batch → σ.start.world.tokens.nextId ≤ id ∧
      id < ts.nextId ∧ id ∉ σ.context.token.line)
    (later : σ.start.world.tokens.nextId ≤ ts.nextId)
    (leases : l.Settled σ.handler.holder σ.held σ.start.world.leases.nextSession
      σ.start.world.tokens.nextId s.world.clock) : σ.Fine t where
  running := outage.trans fine.running
  log := world ▸ fine.log
  faults := world ▸ fine.faults
  shown := world ▸ fine.shown
  owned := world ▸ fine.owned
  uncancelled := world ▸ uncancelled
  handedOut := world ▸ handedOut
  made := world ▸ made
  later := world ▸ later
  leases := world ▸ leases

/-- Leases change, and nothing else. -/
structure Leased (σ : Siblings) (s t : Staged) : Prop where
  fine : σ.Fine t
  store : t.world.store = s.world.store
  owner : t.world.transactionOf = s.world.transactionOf
  maker : t.maker = s.maker
  tokens : t.world.tokens = s.world.tokens

theorem Fine.leased (fine : σ.Fine s) {l : Leases} (world : t.world = { s.world with leases := l })
    (outage : t.scene.outage = s.scene.outage) (maker : t.maker = s.maker)
    (leases : l.Settled σ.handler.holder σ.held σ.start.world.leases.nextSession
      σ.start.world.tokens.nextId s.world.clock) : σ.Leased s t where
  fine := fine.quiet world outage fine.uncancelled fine.handedOut (maker ▸ fine.made) fine.later leases
  store := world ▸ rfl
  owner := world ▸ rfl
  maker
  tokens := world ▸ rfl

theorem Leased.rely (leased : σ.Leased s t) (other : Nat) : σ.Rely other s t :=
  .of_quiet (fun _ => leased.fine) leased.store leased.owner fun _ same =>
    ⟨leased.maker ▸ same, leased.tokens ▸ id⟩

theorem Leased.mirrors {m : σ.Member} {r : Scene} (leased : σ.Leased s t) (mirrors : m.Mirrors s r) :
    m.Mirrors t r := mirrors.others (leased.rely m.batch)

theorem Fine.acquire (fine : σ.Fine s) (some : part ≠ []) (batch : Nat) :
    let after := Staged.answer batch
      (.lock (.acquire σ.handler.holder σ.handler.config.lockDuration part)) s
    σ.Leased s after.2 ∧
      ((∃ id ∈ part, σ.held id = true) ∧ (∃ e, after.1 = .error e) ∨
        (∀ id ∈ part, σ.held id = false) ∧ ∃ session, after.1 = .ok session ∧
          σ.start.world.leases.nextSession ≤ session) := by
  have running := fine.running
  have locked := fine.leases.lock some σ.handler.config.lockDuration
  simp only [Staged.answer, Scene.answer, Scene.answerLock, running, World.answerLock]
  generalize s.world.leases.lock s.world.clock σ.handler.holder σ.handler.config.lockDuration part =
    after at locked ⊢
  rcases locked with ⟨taken, e, rfl⟩ | ⟨free, granted, settled⟩
  · exact ⟨fine.leased rfl running.symm rfl fine.leases, .inl ⟨taken, e, rfl⟩⟩
  · exact ⟨fine.leased rfl running.symm rfl settled, .inr ⟨free, _, granted, fine.leases.first⟩⟩

theorem Fine.watch (fine : σ.Fine s) {session : Nat}
    (new : σ.start.world.leases.nextSession ≤ session) (token : Token) (batch : Nat) :
    σ.Leased s (Staged.answer batch (.lock (.watch session token)) s).2 := by
  obtain ⟨none, settled⟩ := fine.leases.watch new token
  refine fine.leased ?_ rfl rfl settled
  show ({ s.world with leases := (s.world.leases.watch session token).2 } : World).cancelAll
    (s.world.leases.watch session token).1 = _
  rw [none]
  rfl

theorem Fine.stop (fine : σ.Fine s) (session batch : Nat) :
    σ.Leased s (Staged.answer batch (.lock (.stop session)) s).2 :=
  fine.leased rfl rfl rfl (fine.leases.stop session)

theorem Fine.release (fine : σ.Fine s) (instances : List InstanceId) (batch : Nat) :
    σ.Leased s (Staged.answer batch (.lock (.release σ.handler.holder instances)) s).2 := by
  have running := fine.running
  simp only [Staged.answer, Scene.answer, Scene.answerLock, running]
  exact fine.leased rfl rfl rfl (fine.leases.unlock instances)

/-- A token that is made for a batch is its own. -/
theorem Fine.childToken (fine : σ.Fine s) (batch : Nat) :
    let after := Staged.answer batch (.task (.childToken σ.context.token)) s
    after.1.ancestors = σ.context.token.line ∧ σ.Fine after.2 ∧
      after.2.maker after.1.id = some batch ∧ after.1.id ∉ after.2.world.tokens.cancelled ∧
        ∀ other, other ≠ batch → σ.Rely other s after.2 := by
  have older : ∀ {id : Nat}, id ∈ σ.context.token.line ++ s.world.tokens.cancelled →
      id ≠ s.world.tokens.nextId := fun member => Nat.ne_of_lt (fine.handedOut _ member)
  have after : σ.Fine (Staged.answer batch (.task (.childToken σ.context.token)) s).2 := by
    refine fine.quiet rfl rfl fine.uncancelled
      (fun id member => Nat.lt_succ_of_lt (fine.handedOut id member)) (fun id maker made => ?_)
      (Nat.le_succ_of_le fine.later) fine.leases
    dsimp only [Staged.answer] at made
    split at made
    next new =>
      subst new
      exact ⟨fine.later, Nat.lt_succ_self _, fun inside => older (List.mem_append_left _ inside) rfl⟩
    next =>
      obtain ⟨new, old, apart⟩ := fine.made id maker made
      exact ⟨new, Nat.lt_succ_of_lt old, apart⟩
  refine ⟨rfl, after, if_pos rfl, fun cancelled => older (List.mem_append_right _ cancelled) rfl,
    fun other apart => .of_quiet (fun _ => after) rfl rfl fun id made => ⟨?_, fun alive => alive⟩⟩
  exact (if_neg (Nat.ne_of_lt (fine.made id other made).2.1)).trans made

/-- A batch can call off its own token. -/
theorem Fine.cancel (fine : σ.Fine s) {token : Token} (own : s.maker token.id = some batch) :
    σ.Fine (Staged.answer batch (.task (.cancel token)) s).2 ∧ ∀ other, other ≠ batch →
      σ.Rely other s (Staged.answer batch (.task (.cancel token)) s).2 := by
  obtain ⟨_, old, apart⟩ := fine.made _ _ own
  have after : σ.Fine (Staged.answer batch (.task (.cancel token)) s).2 := by
    refine fine.quiet rfl rfl ?_ ?_ fine.made fine.later fine.leases
    · rw [Tokens.isCancelled_iff]
      intro id member cancelled
      rcases List.mem_cons.mp cancelled with rfl | earlier
      · exact apart member
      · exact Tokens.isCancelled_iff.mp fine.uncancelled id member earlier
    · intro id member
      rcases List.mem_append.mp member with inside | cancelled
      · exact fine.handedOut id (List.mem_append_left _ inside)
      · rcases List.mem_cons.mp cancelled with rfl | earlier
        · exact old
        · exact fine.handedOut id (List.mem_append_right _ earlier)
  refine ⟨after, fun other apart => .of_quiet (fun _ => after) rfl rfl fun id made =>
    ⟨made, fun alive cancelled => ?_⟩⟩
  rcases List.mem_cons.mp cancelled with rfl | earlier
  · exact apart (Option.some.inj (made.symm.trans own))
  · exact alive earlier

/-- A call of a batch is answered in a state that its siblings have left to it. -/
theorem upholds_ask {α : Type} {c : HandlerCall} {next : c.Answer → Task α}
    {post : α → Staged → Prop} (I : Staged → Prop) (start : I s)
    (stable : ∀ {t u}, I t → σ.Rely batch t u → I u)
    (rest : ∀ t, I t → (∀ other, other ≠ batch → σ.Rely other t (Staged.answer batch c t).2) ∧
      (σ.setting batch).Upholds post (next (Staged.answer batch c t).1) (Staged.answer batch c t).2) :
    (σ.setting batch).Upholds post (.ask c next) s :=
  fun t moved _ => rest t (stable start moved)

/-- What becomes of a batch that has its instances to itself: it is locked out, or does its work. -/
def lot (σ : Siblings) (pages : Nat) (part : List InstanceId) (r : Scene) : Bool × StoreData :=
  if part.any σ.held then (false, r.world.store.data)
  else
    let (ok, r) := (σ.handler.runUnlocked pages σ.context part).run (Scene.answer 0) r
    (ok, r.world.store.data)

/-- Under its locks a batch does what it does by itself. -/
theorem upholds_underLock {r : Scene} {session pages : Nat} (here : σ.parts[batch]? = some part)
    (nonempty : part ≠ []) (new : σ.start.world.leases.nextSession ≤ session)
    (solo : σ.Solo false r) (idle : σ.Idle batch part r.world.store.data s) :
    let ends := (σ.handler.runUnlocked pages σ.context part).run (Scene.answer 0) r
    (σ.setting batch).Upholds
      (fun ok t => ok = ends.1 ∧ σ.Idle batch part ends.2.world.store.data t)
      (σ.handler.underLock σ.context session part fun ctx => σ.handler.runUnlocked pages ctx part) s := by
  intro ends
  refine upholds_ask (σ.Idle batch part _) idle (fun idle => idle.others here) fun t idle => ?_
  obtain ⟨line, fine, own, alive, others⟩ := idle.fine.childToken batch
  refine ⟨others, ?_⟩
  have idle := idle.still fine rfl rfl
  generalize Staged.answer batch (.task (.childToken σ.context.token)) t = after at *
  obtain ⟨token, s⟩ := after
  let m : σ.Member := ⟨batch, part, token, here, line⟩
  have closed : r.world.store.transaction = none :=
    Option.not_isSome_iff_eq_none.mp (Bool.eq_false_iff.mp solo.opened)
  have mirrors : m.Mirrors s r := ⟨fine, own, alive, idle.data, .out idle.out closed⟩
  refine upholds_ask (m.Mirrors · r) mirrors Member.Mirrors.others fun t mirrors => ?_
  have watched := mirrors.fine.watch new token batch
  refine ⟨fun other _ => watched.rely other, ?_⟩
  have follows := m.follows_runUnlocked pages rfl solo nonempty
  have ended : σ.Solo false ends.2 := follows.ends
  refine Setting.Upholds.bind (d := σ.handler.runUnlocked pages (σ.context.withToken token) part)
    (Setting.Upholds.mono (follows.upholds (watched.mirrors mirrors)) ?_)
  -- the session is stopped, the token cancelled, and the locks are given up
  rintro _ s ⟨rfl, mirrors⟩
  refine upholds_ask (m.Mirrors · ends.2) mirrors Member.Mirrors.others fun t mirrors => ?_
  have stopped := mirrors.fine.stop session batch
  refine ⟨fun other _ => stopped.rely other, ?_⟩
  refine upholds_ask (m.Mirrors · ends.2) (stopped.mirrors mirrors) Member.Mirrors.others
    fun t mirrors => ?_
  obtain ⟨fine, others⟩ := mirrors.fine.cancel mirrors.maker
  refine ⟨others, ?_⟩
  have idle : σ.Idle batch part ends.2.world.store.data
      (Staged.answer batch (.task (.cancel token)) t).2 :=
    ⟨fine, mirrors.out ended, mirrors.data⟩
  refine upholds_ask (σ.Idle batch part _) idle (fun idle => idle.others here) fun t idle => ?_
  have released := idle.fine.release part batch
  exact ⟨fun other _ => released.rely other, rfl, idle.still released.fine released.store released.owner⟩

/-- Whatever its siblings do, a batch ends as it ends by itself. -/
theorem upholds_runBatch {r : Scene} {pages : Nat} (here : σ.parts[batch]? = some part)
    (nonempty : part ≠ []) (solo : σ.Solo false r) (idle : σ.Idle batch part r.world.store.data s) :
    (σ.setting batch).Upholds
      (fun ok t => ok = (σ.lot pages part r).1 ∧ σ.Idle batch part (σ.lot pages part r).2 t)
      (σ.handler.runBatch pages ⟨σ.context, part, true⟩) s := by
  unfold lot
  refine upholds_ask (σ.Idle batch part _) idle (fun idle => idle.others here) fun t idle => ?_
  obtain ⟨leased, ended⟩ := idle.fine.acquire nonempty batch
  refine ⟨fun other _ => leased.rely other, ?_⟩
  have idle := idle.still leased.fine leased.store leased.owner
  generalize Staged.answer batch
    (.lock (.acquire σ.handler.holder σ.handler.config.lockDuration part)) t = after at *
  obtain ⟨answer, s⟩ := after
  rcases ended with ⟨taken, e, refused⟩ | ⟨free, session, granted, new⟩
  · obtain rfl : answer = .error e := refused
    rw [if_pos (List.any_eq_true.mpr taken)]
    exact ⟨rfl, idle⟩
  · obtain rfl : answer = .ok session := granted
    rw [if_neg (by simpa using free)]
    exact upholds_underLock here nonempty new solo idle

end Siblings

end ReadModel
