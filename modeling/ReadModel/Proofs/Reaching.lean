import ReadModel.Proofs.Applying
import ReadModel.Proofs.Standing

/-!
What an update has reached that succeeds.

While others may do anything but disturb its transaction, an update that ends without an error has
reached every statement of its batch, and one that ends because statements have failed has reached
those up to the last one that it reports. Calls may be refused at any time.
-/

namespace ReadModel

/-- How many statements of a batch an error reports as applied. -/
def HandlerError.applied : HandlerError → Nat
  | .someStatementsFailed (some index) => index + 1
  | _ => 0

theorem MemoryStore.transaction_commit (s : MemoryStore) :
    (s.answer .commit).2.transaction = none := by
  cases isOpen : s.transaction with
  | none => simp only [answer, isOpen]
  | some tx => simp only [answer, isOpen]

theorem World.failStore_working (w : World) {call : StoreCall} (working : call.working) :
    w.failStore call = w := by
  cases call <;> first | rfl | cases working

namespace Actor

/-- A setting in which an actor is undisturbed and disturbs nobody. -/
structure Among (a : Actor) (S : Setting handlerInterface Scene) : Prop where
  answer : S.answer = Scene.answer a.number
  others : ∀ {s t}, S.others s t → a.Undisturbed s t
  self_iff : ∀ {s t}, S.self s t ↔ ∀ b, b ≠ a → b.Undisturbed s t
  ready : ∀ {call s}, S.ready call s → s.world.waits a.number call = false

/-- The actor has a transaction. -/
structure Holding (a : Actor) (s : Scene) : Prop where
  sane : s.Sane
  owner : s.world.transactionOf = some a.number

/-- In the transaction of the actor no key stands below a floor. -/
structure Inside (a : Actor) (projection : String) (floor : SequenceKey → Nat) (s : Scene) : Prop
    extends a.Holding s where
  above : s.world.store.Above projection floor

variable {a : Actor} {s t : Scene} {projection : String} {floor : SequenceKey → Nat}

theorem Holding.undisturbed (holding : a.Holding s) (moved : a.Undisturbed s t) : a.Holding t :=
  ⟨moved.sane holding.sane, (moved.kept holding.owner).1⟩

theorem Holding.others (holding : a.Holding s) (call : StoreCall) (b : Actor) (apart : b ≠ a) :
    b.Undisturbed s (Scene.answer a.number (.store call) s).2 := by
  refine .of_store holding.sane call apart ?_
  rw [holding.owner]
  exact fun same => apart (Actor.number_inj (Option.some.inj same).symm)

/-- What an actor that has a transaction can count on until its next call. -/
structure Stable (a : Actor) (I : Scene → Prop) : Prop where
  holding : ∀ {s}, I s → a.Holding s
  moved : ∀ {s t}, I s → a.Undisturbed s t → I t

theorem Inside.stable : a.Stable (a.Inside projection floor) where
  holding := Inside.toHolding
  moved inside moved := by
    refine ⟨inside.toHolding.undisturbed moved, ?_⟩
    unfold MemoryStore.Above
    rw [(moved.kept inside.owner).2]
    exact inside.above

/-- The next actor is another one. -/
theorem exists_other (a : Actor) : ∃ b : Actor, b ≠ a :=
  ⟨⟨a.process + 1, a.batch⟩, fun same => absurd (congrArg process same) (Nat.succ_ne_self _)⟩

theorem Holding.answer (holding : a.Holding s) {call : StoreCall} (working : call.working) :
    a.Holding (Scene.answer a.number (.store call) s).2 where
  sane := by
    obtain ⟨b, apart⟩ := a.exists_other
    exact (holding.others call b apart).sane holding.sane
  owner := by
    dsimp only [Scene.answer, Scene.answerStore]
    cases s.outage with
    | some message =>
      rw [World.failStore_working _ working]
      exact holding.owner
    | none =>
      dsimp only [Scene.inWorld]
      rw [World.answerStore_world]
      dsimp only
      rw [MemoryStore.isSome_answer _ working, holding.sane.owned, holding.owner]
      rfl

theorem Inside.answer (inside : a.Inside projection floor s) {call : StoreCall}
    (working : call.working) :
    a.Inside projection floor (Scene.answer a.number (.store call) s).2 where
  toHolding := inside.toHolding.answer working
  above := by
    dsimp only [Scene.answer, Scene.answerStore]
    cases s.outage with
    | some message =>
      rw [World.failStore_working _ working]
      exact inside.above
    | none =>
      dsimp only [Scene.inWorld]
      rw [World.answerStore_world]
      exact inside.above.answer call fun begins => absurd begins working.ne_begin

end Actor

/-- An action of a transaction ends as `good` says where it succeeds. Where it fails, the transaction
is still open, and nothing is reported as applied. -/
def Actor.Leads (a : Actor) (S : Setting handlerInterface Scene) {α : Type} (x : Action α)
    (s : Scene) (good : α → Scene → Prop) : Prop :=
  S.Upholds (fun result t => match result with
    | .ok value => good value t
    | .error e => e.applied = 0 ∧ a.Holding t) x.run s

/-- A call on something else than the storage disturbs nobody. -/
theorem Actor.Among.quiet {a : Actor} {S : Setting handlerInterface Scene} (among : a.Among S)
    {α : Type} {s : Scene} (sane : s.Sane) {call : HandlerCall} {next : call.Answer → Task α}
    {post : α → Scene → Prop} (quiet : ∀ c, call ≠ .store c)
    (rest : ∀ t, S.ready call t → a.Undisturbed s t →
      a.Undisturbed t (Scene.answer a.number call t).2 →
      S.Upholds post (next (Scene.answer a.number call t).1) (Scene.answer a.number call t).2) :
    S.Upholds post (.ask call next) s := by
  intro t other ready
  have moved := among.others other
  have there := moved.sane sane
  rw [among.answer]
  exact ⟨among.self_iff.mpr fun b _ => .of_quiet there _ quiet,
    rest t ready moved (.of_quiet there _ quiet)⟩

/-- While an actor does something, time goes on. -/
theorem Actor.Among.onward {a : Actor} {S : Setting handlerInterface Scene} (among : a.Among S)
    {α : Type} {d : Task α} {s : Scene} {post : α → Scene → Prop} (upholds : S.Upholds post d s) :
    S.Upholds (fun result t => post result t ∧ s.Onward t) d s := by
  obtain ⟨b, apart⟩ := a.exists_other
  exact upholds.along Scene.Onward.refl Scene.Onward.trans
    (fun other => (among.others other).toOnward)
    fun own => (among.self_iff.mp own b apart).toOnward

theorem Actor.Among.sane {a : Actor} {S : Setting handlerInterface Scene} (among : a.Among S)
    {α : Type} {d : Task α} {s : Scene} {post : α → Scene → Prop} (upholds : S.Upholds post d s)
    (sane : s.Sane) : S.Upholds (fun result t => post result t ∧ t.Sane) d s := by
  obtain ⟨b, apart⟩ := a.exists_other
  refine Setting.Upholds.mono (upholds.along (R := fun s t => s.Sane → t.Sane) id
    (fun first second => second ∘ first) (fun other => (among.others other).sane)
    fun own => (among.self_iff.mp own b apart).sane) ?_
  exact fun result t ⟨ended, kept⟩ => ⟨ended, kept sane⟩

namespace Actor.Leads

variable {a : Actor} {S : Setting handlerInterface Scene} {s : Scene} {projection : String}
  {floor : SequenceKey → Nat} {α β : Type} {x : Action α} {good : α → Scene → Prop}
  {I : Scene → Prop}

theorem mono {good' : α → Scene → Prop} (leads : a.Leads S x s good)
    (weaker : ∀ value t, good value t → good' value t) : a.Leads S x s good' := by
  refine Setting.Upholds.mono leads fun result t => ?_
  cases result with
  | ok value => exact weaker value t
  | error e => exact id

theorem seq {f : α → Action β} {good : β → Scene → Prop}
    (leads : a.Leads S x s fun value t => a.Leads S (f value) t good) :
    a.Leads S (x >>= f) s good := by
  refine upholds_seq (Setting.Upholds.mono leads fun result t => ?_)
  cases result <;> exact id

/-- A call of a transaction, whatever it is answered. -/
theorem ask (among : a.Among S) {call : StoreCall}
    {good : Except StorageError call.Value → Scene → Prop} (holding : a.Holding s)
    (rest : ∀ t, a.Undisturbed s t →
      good (Scene.answer a.number (.store call) t).1 (Scene.answer a.number (.store call) t).2) :
    a.Leads S (liftM (askStore call)) s good := by
  intro t other _
  have moved := among.others other
  rw [among.answer]
  exact ⟨among.self_iff.mpr ((holding.undisturbed moved).others call), rest t moved⟩

theorem transact (among : a.Among S) {call : StoreCall} {good : call.Value → Scene → Prop}
    (holding : a.Holding s) (working : call.working)
    (rest : ∀ t value, a.Undisturbed s t →
      (Scene.answer a.number (.store call) t).1 = .ok value →
      good value (Scene.answer a.number (.store call) t).2) :
    a.Leads S (ReadModel.transact call) s good := by
  refine seq (ask among holding fun t moved => ?_)
  have next := (holding.undisturbed moved).answer working
  cases answered : (Scene.answer a.number (.store call) t).1 with
  | ok value => exact rest t value moved answered
  | error e => exact ⟨rfl, next⟩

/-- A call that is only made for what it does to the storage. -/
theorem pass (among : a.Among S) {call : StoreCall} {good : call.Value → Scene → Prop}
    (inside : a.Inside projection floor s) (working : call.working)
    (rest : ∀ t value, a.Inside projection floor t → good value t) :
    a.Leads S (ReadModel.transact call) s good :=
  transact among inside.toHolding working fun _ value moved _ =>
    rest _ value ((Inside.stable.moved inside moved).answer working)

/-- A call on something else than the storage. -/
theorem quiet (among : a.Among S) (call : HandlerCall) {next : call.Answer → Action α}
    (quiet : ∀ c, call ≠ .store c) (stable : a.Stable I) (start : I s)
    (rest : ∀ t answer, I t → a.Leads S (next answer) t good) :
    a.Leads S (ExceptT.mk (.ask call fun answer => (next answer).run)) s good :=
  among.quiet (stable.holding start).sane quiet fun _ _ moved after =>
    rest _ _ (stable.moved (stable.moved start moved) after)

theorem filter (among : a.Among S) {q : SearchQuery} {good : List Event → Scene → Prop}
    (stable : a.Stable I) (start : I s) (rest : ∀ t events, I t → good events t) :
    a.Leads S (askSource (.filter q)) s good := by
  refine quiet among (.source (.filter q)) (by simp) stable start fun t answer there => ?_
  cases answer with
  | ok events => exact rest t events there
  | error e => exact ⟨rfl, stable.holding there⟩

theorem checkCancelled (among : a.Among S) {ctx : Context} {good : Unit → Scene → Prop}
    (stable : a.Stable I) (start : I s) (rest : ∀ t, I t → good () t) :
    a.Leads S (ReadModel.checkCancelled ctx) s good := by
  refine quiet among (.task (.isCancelled ctx.token)) (by simp) stable start
    fun t cancelled there => ?_
  cases cancelled with
  | false => exact rest t there
  | true => exact ⟨rfl, stable.holding there⟩

end Actor.Leads

/-- Steps for events that are missing in a batch. -/
def Step.Missing (steps : List Step) : Prop := ∀ step ∈ steps, ∃ st, step = .run st none

theorem Handler.fill_missing {h : Handler} {events : List Event} {steps : List Step}
    (filled : h.fill events = .ok steps) : Step.Missing steps := by
  induction events generalizing steps with
  | nil =>
    obtain rfl := Except.ok.inj filled
    rintro _ ⟨⟩
  | cons event rest ih =>
    unfold Handler.fill at filled
    split at filled
    next => cases filled
    next st reduced =>
      split at filled
      next => cases filled
      next later rest =>
        obtain rfl := Except.ok.inj filled
        intro step member
        rcases List.mem_cons.mp member with rfl | others
        · exact ⟨st, rfl⟩
        · exact ih rest step others

/-- The plans that can be made for statements from an index on, whatever the log has. -/
inductive Planned : SequenceMap → Nat → List Statement → List Step → Prop
  | nil {known index} : Planned known index [] []
  | skip {known index st batch steps} : st.sequence ≤ known.get st.key →
      Planned known (index + 1) batch steps → Planned known index (st :: batch) (.skip index :: steps)
  | run {known index st batch missing steps} : Step.Missing missing →
      Planned (known.advance st.key st.sequence) (index + 1) batch steps →
      Planned known index (st :: batch) (missing ++ .run st (some index) :: steps)

/-- The keys that stand at a floor or have advanced since. -/
def Progress.far (p : Progress) (floor : SequenceKey → Nat) (key : SequenceKey) : Nat :=
  max (floor key) (p.advanced.get key)

/-- How a plan can be carried out for statements from an index on: all of them are reached, or those up
to the last one that counts as applied. -/
structure Progress.Covers (p : Progress) (floor : SequenceKey → Nat) (index : Nat)
    (batch : List Statement) : Prop where
  reached : ∀ {k : Nat} {st : Statement}, batch[k]? = some st →
    (p.stopped = false ∨ ∃ last, p.lastApplied = some last ∧ index + k ≤ last) →
    st.sequence ≤ p.far floor st.key

theorem Progress.far_past (p : Progress) (st : Statement) (origin : Option Nat)
    (floor : SequenceKey → Nat) (key : SequenceKey) :
    (p.past st origin).far floor key =
      max (p.far floor key) (if st.key = key then st.sequence else 0) := by
  simp only [far, past, SequenceMap.get_advance]
  split
  next same =>
    subst same
    omega
  next => omega

section Far

variable {p : Progress} {floor : SequenceKey → Nat} {index : Nat} {batch : List Statement}
  {st : Statement}

theorem Progress.far_le_past (p : Progress) (st : Statement) (origin : Option Nat)
    (floor : SequenceKey → Nat) (key : SequenceKey) :
    p.far floor key ≤ (p.past st origin).far floor key := by
  rw [far_past]
  exact Nat.le_max_left ..

theorem Progress.sequence_le_past (p : Progress) (st : Statement) (origin : Option Nat)
    (floor : SequenceKey → Nat) : st.sequence ≤ (p.past st origin).far floor st.key := by
  rw [far_past, if_pos rfl]
  exact Nat.le_max_right ..

theorem Progress.advance_le_past {known : SequenceMap} (reach : ∀ key, known.get key ≤ p.far floor key)
    (st : Statement) (origin : Option Nat) (key : SequenceKey) :
    (known.advance st.key st.sequence).get key ≤ (p.past st origin).far floor key := by
  have low := reach key
  rw [far_past, SequenceMap.get_advance]
  split
  next same =>
    subst same
    omega
  next => omega

theorem Progress.Covers.cons (here : st.sequence ≤ p.far floor st.key)
    (covers : p.Covers floor (index + 1) batch) : p.Covers floor index (st :: batch) := by
  refine ⟨fun {k st'} found reached => ?_⟩
  cases k with
  | zero =>
    obtain rfl := Option.some.inj found
    exact here
  | succ k =>
    exact covers.reached found (by simpa only [Nat.add_assoc, Nat.add_comm 1] using reached)

/-- A batch that has ended before an index has applied nothing from there on. -/
theorem Progress.Covers.of_stopped (stopped : p.stopped = true)
    (before : ∀ last, p.lastApplied = some last → last < index) : p.Covers floor index batch := by
  refine ⟨fun {k st'} _ reached => ?_⟩
  rcases reached with going | ⟨last, applied, far⟩
  · rw [stopped] at going
    cases going
  · have := before last applied
    omega

end Far

namespace Actor.Leads

variable {a : Actor} {S : Setting handlerInterface Scene} {s : Scene} {projection : String}
  {floor : SequenceKey → Nat} {h : Handler}

theorem fillGap (among : a.Among S) {st : Statement} {last : Nat}
    (inside : a.Inside projection floor s) :
    a.Leads S (h.fillGap st last) s fun steps t =>
      Step.Missing steps ∧ a.Inside projection floor t := by
  unfold Handler.fillGap
  split
  next => exact ⟨fun _ none => (nomatch none), inside⟩
  next =>
    refine seq (filter among Inside.stable inside fun t events there => ?_)
    cases filled : h.fill events with
    | ok steps => exact ⟨h.fill_missing filled, there⟩
    | error e => exact ⟨rfl, there.toHolding⟩

theorem plan (among : a.Among S) {known : SequenceMap} {index : Nat} {batch : List Statement}
    (inside : a.Inside projection floor s) :
    a.Leads S (h.plan known index batch) s fun steps t =>
      Planned known index batch steps ∧ a.Inside projection floor t := by
  induction batch generalizing known index s with
  | nil => exact ⟨.nil, inside⟩
  | cons st rest ih =>
    unfold Handler.plan
    dsimp only
    split
    next low =>
      refine seq ((ih inside).mono fun steps t done => ?_)
      exact ⟨.skip low done.1, done.2⟩
    next =>
      refine seq ((fillGap among inside).mono fun missing t filled => ?_)
      refine seq ((ih filled.2).mono fun later u done => ?_)
      exact ⟨.run filled.1 done.1, done.2⟩

theorem countFailure (among : a.Among S) {st : Statement} {e : StorageError}
    (inside : a.Inside projection floor s) :
    a.Leads S (h.countFailure st e) s fun _ t => a.Inside projection floor t := by
  refine seq (pass among inside trivial fun t _ there => ?_)
  exact seq (pass among there trivial fun u _ there => there)

/-- A statement that is run is got past, or it ends the batch. -/
theorem runStep (among : a.Among S) {ctx : Context} {p : Progress} {st : Statement}
    {origin : Option Nat} {rest : List Step} {good : Progress → Scene → Prop}
    (inside : a.Inside projection floor s)
    (stop : ∀ t, a.Inside projection floor t → good { p with stopped := true } t)
    (go : ∀ t, a.Inside projection floor t →
      a.Leads S (h.carryOut ctx (p.past st origin) rest) t good) :
    a.Leads S (h.carryOut ctx p (.run st origin :: rest)) s good := by
  refine seq (checkCancelled among Inside.stable inside fun t there => ?_)
  refine seq (pass among there trivial fun t _ there => ?_)
  refine seq (ask among there.toHolding fun t moved => ?_)
  have next : a.Inside projection floor
      (Scene.answer a.number (.store (.execute st.operation)) t).2 :=
    (Inside.stable.moved there moved).answer trivial
  cases (Scene.answer a.number (.store (.execute st.operation)) t).1 with
  | ok value => exact seq (pass among next trivial fun u _ there => go u there)
  | error e =>
    refine seq ((countFailure among next).mono fun often u there => ?_)
    cases often with
    | true => exact go u there
    | false => exact stop u there

/-- Events that are missing count for no statement of the batch. -/
theorem runMissing (among : a.Among S) {ctx : Context} {missing rest : List Step} {p : Progress}
    {good : Progress → Scene → Prop} (none : Step.Missing missing)
    (inside : a.Inside projection floor s)
    (stop : ∀ t p', p'.stopped = true → p'.lastApplied = p.lastApplied →
      (∀ key, p.far floor key ≤ p'.far floor key) → a.Inside projection floor t → good p' t)
    (go : ∀ t p', p'.stopped = p.stopped → p'.lastApplied = p.lastApplied →
      (∀ key, p.far floor key ≤ p'.far floor key) → a.Inside projection floor t →
      a.Leads S (h.carryOut ctx p' rest) t good) :
    a.Leads S (h.carryOut ctx p (missing ++ rest)) s good := by
  induction missing generalizing p s with
  | nil => exact go s p rfl rfl (fun _ => Nat.le_refl _) inside
  | cons step later ih =>
    obtain ⟨st, rfl⟩ := none _ (List.mem_cons_self ..)
    have further := p.far_le_past st .none floor
    refine runStep among inside (fun t there => stop t _ rfl rfl (fun _ => Nat.le_refl _) there)
      fun t there => ?_
    refine ih (fun step member => none step (List.mem_cons_of_mem _ member)) there ?_ ?_
    · exact fun u p' stopped last more => stop u p' stopped last
        fun key => (further key).trans (more key)
    · exact fun u p' going last more => go u p' going last
        fun key => (further key).trans (more key)

/-- A plan that is carried out covers its batch. -/
theorem carryOut (among : a.Among S) {ctx : Context} {known : SequenceMap} {index : Nat}
    {batch : List Statement} {steps : List Step} {p : Progress}
    (planned : Planned known index batch steps) (inside : a.Inside projection floor s)
    (going : p.stopped = false) (before : ∀ last, p.lastApplied = some last → last < index)
    (reach : ∀ key, known.get key ≤ p.far floor key) :
    a.Leads S (h.carryOut ctx p steps) s fun p' t => a.Inside projection floor t ∧
      p'.Covers floor index batch ∧ ∀ key, p.far floor key ≤ p'.far floor key := by
  induction planned generalizing p s with
  | nil => exact ⟨inside, ⟨fun found => by simp at found⟩, fun _ => Nat.le_refl _⟩
  | @skip known index st batch steps low _ ih =>
    refine (ih inside (p := { p with lastApplied := some index }) going ?_ reach).mono ?_
    · rintro _ ⟨⟩
      exact Nat.lt_succ_self _
    · rintro p' t ⟨there, covers, more⟩
      exact ⟨there, .cons ((low.trans (reach _)).trans (more _)) covers, more⟩
  | @run known index st batch missing steps none _ ih =>
    refine runMissing among none inside (fun t p' stopped same more there =>
      ⟨there, .of_stopped stopped (same ▸ before), more⟩) fun t p₁ going₁ same more there => ?_
    refine runStep among there (fun t there =>
      ⟨there, .of_stopped rfl (same ▸ before), more⟩) fun t there => ?_
    refine (ih there (p := p₁.past st (some index)) (going₁.trans going) ?_
      (Progress.advance_le_past (fun key => (reach key).trans (more key)) _ _)).mono ?_
    · rintro _ ⟨⟩
      exact Nat.lt_succ_self _
    · rintro p' u ⟨there, covers, further⟩
      exact ⟨there, .cons ((p₁.sequence_le_past ..).trans (further _)) covers,
        fun key => ((more key).trans (p₁.far_le_past ..)).trans (further key)⟩

end Actor.Leads

/-- An upsert that writes a row raises its key. -/
theorem MemoryStore.upsert_written {s : MemoryStore} {projection : String} {key : SequenceKey}
    {n written : Nat} (answered : (s.answer (.upsertSequence projection key n)).1 = .ok written)
    (some : written ≠ 0) : ∃ tx, s.transaction = .some tx ∧
      tx.working.refuses s.faults projection key n = false ∧
      (s.answer (.upsertSequence projection key n)).2.transaction =
        .some { tx with working := tx.working.raise projection (key, n) } := by
  cases isOpen : s.transaction with
  | none =>
    simp only [answer, MemoryStore.within, isOpen] at answered
    cases answered
  | some tx =>
    refine ⟨tx, rfl, ?_⟩
    cases taken : tx.working.refuses s.faults projection key n with
    | true =>
      unfold StoreData.refuses at taken
      simp only [answer, MemoryStore.within, isOpen, taken, if_true] at answered
      exact absurd (Except.ok.inj answered).symm some
    | false =>
      refine ⟨rfl, ?_⟩
      unfold StoreData.refuses at taken
      simp only [answer, MemoryStore.within, isOpen, taken, Bool.false_eq_true, if_false,
        StoreData.raise]

/-- The data that the transaction of an actor works on passes a test. -/
structure Actor.Working (a : Actor) (test : StoreData → Prop) (s : Scene) : Prop
    extends a.Holding s where
  passes : ∀ tx, s.world.store.transaction = some tx → test tx.working

namespace Actor

variable {a : Actor} {S : Setting handlerInterface Scene} {s t : Scene} {projection : String}
  {floor : SequenceKey → Nat} {h : Handler} {test : StoreData → Prop}

theorem Inside.working (inside : a.Inside projection floor s) :
    a.Working (fun d => ∀ key, floor key ≤ d.stands projection key) s where
  toHolding := inside.toHolding
  passes tx isOpen := inside.above tx isOpen tx.working (List.mem_cons_self ..)

theorem Working.stable : a.Stable (a.Working test) where
  holding := Working.toHolding
  moved working moved := by
    refine ⟨working.toHolding.undisturbed moved, ?_⟩
    rw [(moved.kept working.owner).2]
    exact working.passes

/-- A sequence that is stored is reached, and no other key falls back. -/
theorem Working.upsert (working : a.Working test s) {key : SequenceKey} {n written : Nat}
    (answered :
      (Scene.answer a.number (.store (.upsertSequence projection key n)) s).1 = .ok written)
    (some : written ≠ 0) :
    a.Working (fun d => ∃ before, test before ∧ n ≤ d.stands projection key ∧
        ∀ other, before.stands projection other ≤ d.stands projection other)
      (Scene.answer a.number (.store (.upsertSequence projection key n)) s).2 where
  toHolding := working.toHolding.answer trivial
  passes := by
    dsimp only [Scene.answer, Scene.answerStore] at answered ⊢
    cases outage : s.outage with
    | some message =>
      rw [outage] at answered
      cases answered
    | none =>
      rw [outage] at answered
      dsimp only at answered
      rw [World.answerStore_answer (by simp)] at answered
      obtain ⟨tx, isOpen, taken, raised⟩ := MemoryStore.upsert_written answered some
      dsimp only [Scene.inWorld]
      rw [World.answerStore_world]
      dsimp only
      rw [raised]
      rintro _ ⟨⟩
      refine ⟨tx.working, working.passes tx isOpen, ?_, StoreData.stands_raise taken projection⟩
      rw [StoreData.stands, StoreData.sequence?_raise, if_pos rfl]
      exact Nat.le_refl _

/-- The actor has just begun a transaction with some data. -/
structure Begun (a : Actor) (d : StoreData) (s : Scene) : Prop extends a.Holding s where
  transaction : s.world.store.transaction = some ⟨d, []⟩

theorem Begun.inside {d : StoreData} (begun : a.Begun d s) :
    a.Inside projection (d.stands projection) s where
  toHolding := begun.toHolding
  above tx isOpen e member key := by
    obtain rfl := Option.some.inj (begun.transaction.symm.trans isOpen)
    rw [List.mem_singleton.mp member]

/-- The rows that are read under lock tell nothing that is not so. -/
theorem Begun.lockSequences {d : StoreData} (begun : a.Begun d s) {types : List AggregateType}
    {instances : List InstanceId} {rows : List CurrentSequence}
    (answered :
      (Scene.answer a.number (.store (.lockSequences projection types instances)) s).1 = .ok rows)
    (key : SequenceKey) : (SequenceMap.ofRows rows).get key ≤ d.stands projection key := by
  have told : ∀ row ∈ rows, d.sequence? projection row.key = some row.sequence := by
    dsimp only [Scene.answer, Scene.answerStore] at answered
    cases outage : s.outage with
    | some message =>
      rw [outage] at answered
      cases answered
    | none =>
      rw [outage] at answered
      simp only [World.answerStore, MemoryStore.answer, MemoryStore.within, begun.transaction,
        Except.ok.injEq] at answered
      subst answered
      exact fun row member => (StoreData.mem_currentSequences.mp (List.mem_of_mem_filter member)).1
  have agree : ∀ row ∈ rows, row.key = key → row.sequence = d.stands projection key := by
    rintro row member rfl
    exact (StoreData.stands_eq (told row member)).symm
  rw [SequenceMap.get_ofRows agree]
  split
  · exact Nat.le_refl _
  · exact Nat.zero_le _

namespace Leads

theorem storeSequences (among : a.Among S) {entries : List (SequenceKey × Nat)}
    (working : a.Working test s) :
    a.Leads S (h.storeSequences entries) s fun _ t =>
      a.Working (fun d => ∃ before, test before ∧
        (∀ entry ∈ entries, entry.2 ≤ d.stands h.name entry.1) ∧
        ∀ key, before.stands h.name key ≤ d.stands h.name key) t := by
  induction entries generalizing test s with
  | nil =>
    exact ⟨working.toHolding, fun tx isOpen =>
      ⟨tx.working, working.passes tx isOpen, by simp, fun _ => Nat.le_refl _⟩⟩
  | cons entry rest ih =>
    obtain ⟨key, n⟩ := entry
    refine seq (transact among working.toHolding trivial fun t written moved answered => ?_)
    have there := Working.stable.moved working moved
    by_cases none : written = 0
    · rw [if_pos none]
      exact ⟨rfl, there.toHolding.answer trivial⟩
    · rw [if_neg none]
      refine (ih (there.upsert answered none)).mono fun _ u ends => ⟨ends.toHolding, ?_⟩
      intro tx isOpen
      obtain ⟨middle, ⟨before, passed, reached, grown⟩, others, further⟩ := ends.passes tx isOpen
      refine ⟨before, passed, fun entry member => ?_, fun k => (grown k).trans (further k)⟩
      rcases List.mem_cons.mp member with rfl | later
      · exact reached.trans (further key)
      · exact others entry later

/-- Between its begin and its end a transaction covers its batch with the data that it works on. -/
theorem applyBatch (among : a.Among S) {ctx : Context} {batch : List Statement} {d : StoreData}
    (begun : a.Begun d s) :
    a.Leads S (h.applyBatch ctx batch) s fun p t =>
      p.Covers (d.stands h.name) 0 batch ∧
        a.Working (fun d' => ∀ key, p.far (d.stands h.name) key ≤ d'.stands h.name key) t := by
  refine seq (transact among begun.toHolding trivial fun t rows moved answered => ?_)
  have there : a.Begun d t :=
    ⟨begun.toHolding.undisturbed moved, (moved.kept begun.owner).2.trans begun.transaction⟩
  have known := there.lockSequences answered
  have inside : a.Inside h.name (d.stands h.name) (Scene.answer a.number
      (.store (.lockSequences h.name (Statement.aggregateTypes batch) (Statement.instances batch)))
      t).2 := there.inside.answer trivial
  refine seq ((plan among inside).mono fun steps t ⟨planned, there⟩ => ?_)
  refine seq ((carryOut among planned there rfl (by simp)
    fun key => (known key).trans (Nat.le_max_left ..)).mono fun p t ⟨there, covers, _⟩ => ?_)
  refine seq ((storeSequences among there.working).mono fun _ t stored => ?_)
  refine seq (checkCancelled among Working.stable stored fun t stored => ⟨covers, ?_⟩)
  refine ⟨stored.toHolding, fun tx isOpen key => ?_⟩
  obtain ⟨before, floor, entries, grown⟩ := stored.passes tx isOpen
  refine Nat.max_le.mpr ⟨(floor key).trans (grown key), ?_⟩
  unfold SequenceMap.get
  cases found : p.advanced.find? key with
  | none => exact Nat.zero_le _
  | some n => exact entries (key, n) ((p.advanced.mem_entries_iff key n).mpr found)

end Leads

/-- The actor has no transaction. -/
structure Free (a : Actor) (s : Scene) : Prop where
  sane : s.Sane
  out : s.world.transactionOf ≠ some a.number

theorem Free.undisturbed (free : a.Free s) (moved : a.Undisturbed s t) : a.Free t :=
  ⟨moved.sane free.sane, moved.foreign free.out⟩

theorem Free.of_none (sane : s.Sane) (none : s.world.transactionOf = none) : a.Free s :=
  ⟨sane, by simp [none]⟩

/-- An actor that may begin a transaction finds none open. -/
theorem Free.idle (free : a.Free s) {call : StoreCall}
    (blocks : s.world.store.blocks call = s.world.store.transaction.isSome)
    (ready : s.world.waits a.number (.store call) = false) : s.world.transactionOf = none := by
  have waits :
      (s.world.store.transaction.isSome && s.world.transactionOf != some a.number) = false :=
    blocks ▸ ready
  rw [free.sane.owned, bne_iff_ne.mpr free.out, Bool.and_true] at waits
  exact Option.not_isSome_iff_eq_none.mp (Bool.eq_false_iff.mp waits)

theorem Free.begin (free : a.Free s) (among : a.Among S)
    {post : Except HandlerError Unit → Scene → Prop}
    (refused : ∀ t e, a.Free t → e.applied = 0 → post (.error e) t)
    (begun : ∀ t d, a.Begun d t → post (.ok ()) t) : S.Upholds post (transact .begin).run s := by
  intro t other ready
  have there := free.undisturbed (among.others other)
  have idle := there.idle rfl (among.ready ready)
  have others : ∀ b, b ≠ a → b.Undisturbed t (Scene.answer a.number (.store .begin) t).2 :=
    fun b apart => .of_store there.sane .begin apart (by simp [idle])
  rw [among.answer]
  refine ⟨among.self_iff.mpr others, ?_⟩
  obtain ⟨b, apart⟩ := a.exists_other
  have sane := (others b apart).sane there.sane
  revert sane
  dsimp only [Scene.answer, Scene.answerStore]
  cases t.outage with
  | some message => exact fun sane => refused _ _ ⟨sane, there.out⟩ rfl
  | none => exact fun sane => begun _ t.world.store.data ⟨⟨sane, rfl⟩, rfl⟩

/-- The end of a transaction leaves none open, whether the call for it is refused or not. -/
theorem Holding.ended (holding : a.Holding s) {call : StoreCall}
    (ends : call = .commit ∨ call = .rollback) :
    a.Free (Scene.answer a.number (.store call) s).2 := by
  obtain ⟨b, apart⟩ := a.exists_other
  refine .of_none ((holding.others call b apart).sane holding.sane) ?_
  dsimp only [Scene.answer, Scene.answerStore]
  cases s.outage with
  | some message => rcases ends with rfl | rfl <;> rfl
  | none =>
    dsimp only [Scene.inWorld]
    rw [World.answerStore_world]
    have closed : (s.world.store.answer call).2.transaction = none := by
      rcases ends with rfl | rfl
      · exact s.world.store.transaction_commit
      · rfl
    dsimp only
    rw [closed]
    rfl

/-- A commit that succeeds puts the data of the transaction in place. -/
theorem Working.committed (working : a.Working test s)
    (answered : (Scene.answer a.number (.store .commit) s).1 = .ok ()) :
    test (Scene.answer a.number (.store .commit) s).2.world.store.data := by
  dsimp only [Scene.answer, Scene.answerStore] at answered ⊢
  cases outage : s.outage with
  | some message =>
    rw [outage] at answered
    cases answered
  | none =>
    rw [outage] at answered
    dsimp only [Scene.inWorld]
    rw [World.answerStore_world]
    cases isOpen : s.world.store.transaction with
    | none =>
      have owned := working.sane.owned
      rw [isOpen, working.owner] at owned
      cases owned
    | some tx =>
      simp only [MemoryStore.answer, isOpen]
      exact working.passes tx isOpen

end Actor

/-- Whether the answer to an update reports the statement with an index as applied. -/
def Handler.reports : Except HandlerError (Option Nat) → Nat → Prop
  | .ok _, _ => True
  | .error e, index => index < e.applied

/-- The statements that an answer reports are reached. -/
def Handler.Reported (h : Handler) (batch : List Statement)
    (result : Except HandlerError (Option Nat)) (s : Scene) : Prop :=
  ∀ {k : Nat} {st : Statement}, batch[k]? = some st → Handler.reports result k →
    st.sequence ≤ s.world.store.data.stands h.name st.key

section Update

variable {a : Actor} {S : Setting handlerInterface Scene} {s : Scene} {h : Handler} {ctx : Context}
  {batch : List Statement}

theorem Handler.reported_of_none {e : HandlerError} (none : e.applied = 0) :
    h.Reported batch (.error e) s := by
  intro k st _ reported
  rw [Handler.reports, none] at reported
  cases reported

theorem Handler.upholds_conclude_reached (among : a.Among S) {d : StoreData}
    (begun : a.Begun d s) :
    S.Upholds (fun result t => a.Free t ∧ h.Reported batch result t)
      (h.conclude ctx batch).run s := by
  refine upholds_seq (upholds_tryCatch
    (Setting.Upholds.mono (Actor.Leads.applyBatch among begun) ?_))
  rintro (e | p) t ended
  · obtain ⟨none, holding⟩ := ended
    refine upholds_seq fun u other _ => ?_
    have there := holding.undisturbed (among.others other)
    rw [among.answer]
    exact ⟨among.self_iff.mpr (there.others .rollback), there.ended (.inr rfl),
      Handler.reported_of_none none⟩
  · obtain ⟨covers, working⟩ := ended
    refine upholds_seq fun u other _ => ?_
    have there := Actor.Working.stable.moved working (among.others other)
    rw [among.answer]
    refine ⟨among.self_iff.mpr (there.toHolding.others .commit), ?_⟩
    have free := there.toHolding.ended (.inl rfl)
    cases answered : (Scene.answer a.number (.store .commit) u).1 with
    | error e => exact ⟨free, Handler.reported_of_none rfl⟩
    | ok value =>
      have reached := there.committed answered
      cases stopped : p.stopped with
      | false =>
        refine ⟨free, fun {k st} found _ => ?_⟩
        exact (covers.reached found (.inl stopped)).trans (reached st.key)
      | true =>
        refine ⟨free, fun {k st} found reported => ?_⟩
        cases last : p.lastApplied with
        | none =>
          rw [last] at reported
          exact absurd reported (Nat.not_lt_zero k)
        | some index =>
          rw [last] at reported
          have upTo : 0 + k ≤ index := by
            rw [Nat.zero_add]
            exact Nat.le_of_lt_succ reported
          exact (covers.reached found (.inr ⟨index, last, upTo⟩)).trans (reached st.key)

/-- An update reaches the statements that its answer reports. -/
theorem Handler.upholds_update_reached (among : a.Among S) (free : a.Free s) :
    S.Upholds (fun result t => a.Free t ∧ h.Reported batch result t)
      (h.update ctx batch).run s := by
  rw [Handler.update_eq]
  split
  next empty =>
    obtain rfl := List.isEmpty_iff.mp empty
    exact ⟨free, fun found => by simp at found⟩
  next =>
    refine upholds_seq (among.quiet free.sane (by simp) fun t _ moved after => ?_)
    have there := (free.undisturbed moved).undisturbed after
    cases (Scene.answer a.number (.task (.isCancelled ctx.token)) t).1 with
    | true => exact ⟨there, Handler.reported_of_none rfl⟩
    | false => exact upholds_seq (there.begin among
        (fun u e free none => ⟨free, Handler.reported_of_none none⟩)
        fun u d begun => upholds_conclude_reached among begun)

end Update

end ReadModel
