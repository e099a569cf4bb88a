import ReadModel.Proofs.Siblings

/-!
A trigger among siblings.

Whatever its siblings do, what a batch does for its instances goes call by call like the same work by
itself, under the token of the whole sweep. There is one lemma for each function of the handler, from
the parts of a transaction up to a whole trigger.
-/

namespace ReadModel

/-- A statement of an instance of some batch, which reaches the rows of that instance only. -/
def Statement.Among (part : List InstanceId) (st : Statement) : Prop :=
  st.instanceId ∈ part ∧ st.operation.Within st.instanceId

theorem Handler.trigger_of_ne_nil {h : Handler} {pages : Nat} {ctx : Context}
    {given : List InstanceId} (some : given ≠ []) :
    h.trigger pages ctx given = h.catchUp given pages ctx := by
  unfold trigger
  cases given with
  | nil => exact absurd rfl some
  | cons => rfl

namespace Siblings

variable {σ : Siblings}

theorem among_of_reduce (σ : Siblings) {part : List InstanceId} {e : Event} {st : Statement}
    (inside : e.instanceId ∈ part) (reduced : σ.handler.registry.reduce e = .ok st) :
    st.Among part := by
  have same := σ.keeps.instanceId reduced
  exact ⟨same ▸ inside, same ▸ σ.separates reduced⟩

theorem among_of_reduceAll (σ : Siblings) {part : List InstanceId} {events : List Event}
    {statements : List Statement} (inside : ∀ e ∈ events, e.instanceId ∈ part)
    (reduced : σ.handler.registry.reduceAll events = .ok statements) :
    ∀ st ∈ statements, st.Among part := by
  intro st member
  obtain ⟨e, listed, step⟩ := Registry.exists_event reduced member
  exact σ.among_of_reduce (inside e listed) step

namespace Member

variable {m : σ.Member} {r : Scene} {α β : Type} {opened : Bool}

/-- Two actions go along with each other. At their end a transaction is open or not; where they succeed
it is with something good. -/
def Goes (m : σ.Member) (opened : Bool) (x x' : Action α) (r : Scene) (good : α → Prop) : Prop :=
  m.mirror.Follows (fun result r => σ.Solo opened r ∧ ∀ value, result = .ok value → good value)
    x.run x'.run r

namespace Goes

theorem pure {value : α} {good : α → Prop} (solo : σ.Solo opened r) (fine : good value) :
    m.Goes opened (pure value) (pure value) r good :=
  .done ⟨solo, fun _ same => Except.ok.inj same ▸ fine⟩

theorem throw {e : HandlerError} {good : α → Prop} (solo : σ.Solo opened r) :
    m.Goes opened (throw e) (throw e) r good :=
  .done ⟨solo, nofun⟩

theorem seq {x x' : Action α} {f f' : α → Action β} {good : α → Prop} {good' : β → Prop}
    (first : m.Goes opened x x' r good)
    (rest : ∀ value r, σ.Solo opened r → good value →
      m.Goes opened (f value) (f' value) r good') :
    m.Goes opened (x >>= f) (x' >>= f') r good' := by
  refine Mirror.follows_seq (Mirror.Follows.mono first fun result r ended => ?_)
  cases result with
  | ok value => exact rest value r ended.1 (ended.2 value rfl)
  | error e => exact ⟨ended.1, nofun⟩

/-- A call within a transaction, whatever it is answered. -/
theorem ask {call : StoreCall} (solo : σ.Solo true r)
    (inside : call.Inside σ.handler.name (· ∈ m.part)) :
    m.Goes true (liftM (askStore call)) (liftM (askStore call)) r fun _ => True :=
  follows_inside solo inside fun _ _ there => .done ⟨there, fun _ _ => trivial⟩

theorem transact {call : StoreCall} (solo : σ.Solo true r)
    (inside : call.Inside σ.handler.name (· ∈ m.part)) :
    m.Goes true (ReadModel.transact call) (ReadModel.transact call) r fun _ => True := by
  refine seq (ask solo inside) fun answer r there _ => ?_
  cases answer with
  | ok value => exact .pure there trivial
  | error e => exact .throw there

theorem checkCancelled {ctx ctx' : Context} (solo : σ.Solo opened r) (own : ctx.token = m.token)
    (whole : ctx'.token = σ.context.token) :
    m.Goes opened (ReadModel.checkCancelled ctx) (ReadModel.checkCancelled ctx') r fun _ => True :=
  follows_isCancelled solo own whole (.done ⟨solo, fun _ _ => trivial⟩)

theorem filter {q : SearchQuery} (good : List Event → Prop) (solo : σ.Solo opened r)
    (fine : good (σ.start.world.log.filter q)) :
    m.Goes opened (askSource (.filter q)) (askSource (.filter q)) r good :=
  follows_filter solo (.done ⟨solo, fun _ same => Except.ok.inj same ▸ fine⟩)

theorem pause {ctx ctx' : Context} {ms : Nat} (solo : σ.Solo opened r) (own : ctx.token = m.token)
    (whole : ctx'.token = σ.context.token) :
    m.Goes opened (liftM (askTask (.pause ms ctx.token))) (liftM (askTask (.pause ms ctx'.token))) r
      (· = true) :=
  follows_pause solo own whole (.done ⟨solo, fun _ same => (Except.ok.inj same).symm⟩)

theorem attempt {x x' : Action α} {good : α → Prop} (goes : m.Goes opened x x' r good) :
    m.Goes opened (ReadModel.attempt x) (ReadModel.attempt x') r fun _ => True :=
  Mirror.Follows.bind (Mirror.Follows.mono goes fun _ _ ended => .done ⟨ended.1, fun _ _ => trivial⟩)

end Goes

section Transaction

variable {known : SequenceMap} {index : Nat} {statements : List Statement}

theorem among_of_gap {st : Statement} {last : Nat} (among : st.Among m.part) :
    ∀ e ∈ σ.start.world.log.filter (Handler.gapQuery st.key last st.sequence),
      e.instanceId ∈ m.part := by
  intro e member
  have matched := (List.mem_filter.mp member).2
  simp only [Handler.gapQuery, SearchQuery.or, SearchQuery.matches, QueryClause.ofInstance,
    QueryClause.matches, QueryClause.ofTypes, QueryClause.above, QueryClause.below, List.nil_append,
    List.any_cons, List.any_nil, Bool.or_false, Bool.and_eq_true, Option.all_some] at matched
  rw [← eq_of_beq matched.1.1.1.1.1.1.1.1]
  exact among.1

theorem goes_fillGap (solo : σ.Solo true r) {st : Statement} {last : Nat}
    (among : st.Among m.part) :
    m.Goes true (σ.handler.fillGap st last) (σ.handler.fillGap st last) r fun steps =>
      ∀ st ∈ Step.statements steps, st.Among m.part := by
  unfold Handler.fillGap
  split
  next => exact .pure solo (by simp)
  next =>
    refine Goes.seq (.filter (∀ e ∈ ·, e.instanceId ∈ m.part) solo (among_of_gap among))
      fun missing r there inside => ?_
    have filled := σ.handler.fill_statements missing
    cases steps : σ.handler.fill missing with
    | ok steps =>
      rw [steps] at filled
      exact .pure there (σ.among_of_reduceAll inside filled.symm)
    | error e => exact .throw there

theorem goes_plan (solo : σ.Solo true r) (among : ∀ st ∈ statements, st.Among m.part) :
    m.Goes true (σ.handler.plan known index statements) (σ.handler.plan known index statements) r
      fun steps => ∀ st ∈ Step.statements steps, st.Among m.part := by
  induction statements generalizing known index r with
  | nil => exact .pure solo (by simp)
  | cons st rest ih =>
    obtain ⟨first, later⟩ := List.forall_mem_cons.mp among
    unfold Handler.plan
    dsimp only
    split
    next =>
      refine (ih solo later).seq fun steps r there ours => .pure there ?_
      simpa using ours
    next =>
      refine (goes_fillGap solo first).seq fun missing r there gap => ?_
      refine (ih there later).seq fun steps r there ours => .pure there ?_
      simp only [Step.statements_append, Step.statements_run, List.mem_append, List.mem_cons]
      rintro st (early | rfl | late)
      · exact gap st early
      · exact first
      · exact ours st late

theorem goes_countFailure (solo : σ.Solo true r) {st : Statement} {e : StorageError}
    (among : st.Among m.part) :
    m.Goes true (σ.handler.countFailure st e) (σ.handler.countFailure st e) r fun _ => True := by
  refine Goes.seq (.transact solo trivial) fun _ r there _ => ?_
  refine Goes.seq (.transact there ⟨rfl, among.1⟩) fun _ r there _ => ?_
  exact .pure there trivial

/-- All keys that were reached are of a batch. -/
def Reaches (m : σ.Member) (p : Progress) : Prop :=
  ∀ entry ∈ p.advanced.entries, entry.1.instanceId ∈ m.part

theorem Reaches.past {p : Progress} (reaches : m.Reaches p) {st : Statement} {origin : Option Nat}
    (among : st.Among m.part) : m.Reaches (p.past st origin) := by
  rintro ⟨key, n⟩ member
  have row := (Dict.mem_entries_iff _ key n).mp member
  rw [Progress.past, SequenceMap.advance, Dict.find?_insert] at row
  split at row
  next same => exact same ▸ among.1
  next => exact reaches (key, n) ((Dict.mem_entries_iff _ key n).mpr row)

theorem goes_carryOut {ctx ctx' : Context} (own : ctx.token = m.token)
    (whole : ctx'.token = σ.context.token) {p : Progress} {steps : List Step}
    (solo : σ.Solo true r) (reaches : m.Reaches p)
    (among : ∀ st ∈ Step.statements steps, st.Among m.part) :
    m.Goes true (σ.handler.carryOut ctx p steps) (σ.handler.carryOut ctx' p steps) r m.Reaches := by
  induction steps generalizing p r with
  | nil => exact .pure solo reaches
  | cons step rest ih =>
    cases step with
    | skip index => exact ih solo reaches (by simpa using among)
    | run st origin =>
      rw [Step.statements_run] at among
      obtain ⟨first, later⟩ := List.forall_mem_cons.mp among
      have further : m.Reaches (p.past st origin) := reaches.past first
      refine Goes.seq (.checkCancelled solo own whole) fun _ r there _ => ?_
      refine Goes.seq (.transact there trivial) fun _ r there _ => ?_
      refine Goes.seq (.ask there ⟨_, first⟩) fun answer r there _ => ?_
      cases answer with
      | ok value =>
        exact Goes.seq (.transact there trivial) fun _ r there _ => ih there further later
      | error e =>
        refine (goes_countFailure there first).seq fun often r there _ => ?_
        cases often with
        | true => exact ih there further later
        | false => exact .pure there reaches

theorem goes_storeSequences (solo : σ.Solo true r) {entries : List (SequenceKey × Nat)}
    (ours : ∀ entry ∈ entries, entry.1.instanceId ∈ m.part) :
    m.Goes true (σ.handler.storeSequences entries) (σ.handler.storeSequences entries) r
      fun _ => True := by
  induction entries generalizing r with
  | nil => exact .pure solo trivial
  | cons entry rest ih =>
    obtain ⟨key, n⟩ := entry
    obtain ⟨first, later⟩ := List.forall_mem_cons.mp ours
    refine Goes.seq (.transact solo ⟨rfl, first⟩) fun written r there _ => ?_
    split
    next => exact .throw there
    next => exact ih there later

theorem goes_applyBatch {ctx ctx' : Context} (own : ctx.token = m.token)
    (whole : ctx'.token = σ.context.token) (solo : σ.Solo true r)
    (among : ∀ st ∈ statements, st.Among m.part) :
    m.Goes true (σ.handler.applyBatch ctx statements) (σ.handler.applyBatch ctx' statements) r
      fun _ => True := by
  have instances : ∀ id ∈ Statement.instances statements, id ∈ m.part := by
    intro id member
    obtain ⟨st, inBatch, rfl⟩ := List.mem_map.mp (mem_distinct.mp member)
    exact (among st inBatch).1
  refine Goes.seq (.transact solo ⟨rfl, instances⟩) fun rows r there _ => ?_
  refine (goes_plan there among).seq fun steps r there ours => ?_
  refine (goes_carryOut own whole there (by rintro _ ⟨⟩) ours).seq fun p r there reaches => ?_
  refine (goes_storeSequences there reaches).seq fun _ r there _ => ?_
  refine Goes.seq (.checkCancelled there own whole) fun _ r there _ => ?_
  exact .pure there trivial

theorem goes_conclude {ctx ctx' : Context} (own : ctx.token = m.token)
    (whole : ctx'.token = σ.context.token) (solo : σ.Solo true r)
    (among : ∀ st ∈ statements, st.Among m.part) :
    m.Goes false (σ.handler.conclude ctx statements) (σ.handler.conclude ctx' statements) r
      fun _ => True := by
  refine Mirror.follows_seq (Mirror.follows_tryCatch
    (Mirror.Follows.mono (goes_applyBatch own whole solo among) ?_))
  rintro (e | p) r ⟨there, _⟩
  · exact follows_rollback there fun r closed => .done ⟨closed, nofun⟩
  · refine Mirror.follows_seq (follows_commit there fun r closed => .done ?_)
    dsimp only
    split
    next => exact Goes.throw closed
    next => exact Goes.pure closed trivial

theorem goes_update {ctx ctx' : Context} (own : ctx.token = m.token)
    (whole : ctx'.token = σ.context.token) (solo : σ.Solo false r)
    (among : ∀ st ∈ statements, st.Among m.part) :
    m.Goes false (σ.handler.update ctx statements) (σ.handler.update ctx' statements) r
      fun _ => True := by
  rw [Handler.update_eq, Handler.update_eq]
  split
  next => exact .pure solo trivial
  next =>
    refine Goes.seq (.checkCancelled solo own whole) fun _ r there _ => ?_
    exact Mirror.follows_seq (follows_begin there fun r begun =>
      .done (goes_conclude own whole begun among))

end Transaction

section Trigger

variable {ctx ctx' : Context} {instances : List InstanceId}

theorem goes_applyWithRetries (own : ctx.token = m.token) (whole : ctx'.token = σ.context.token)
    {retries offset : Nat} {statements : List Statement} (solo : σ.Solo false r)
    (among : ∀ st ∈ statements, st.Among m.part) :
    m.Goes false (σ.handler.applyWithRetries ctx retries offset statements)
      (σ.handler.applyWithRetries ctx' retries offset statements) r fun _ => True := by
  induction retries using Nat.strongRecOn generalizing offset statements r with
  | _ retries ih =>
    rw [Handler.applyWithRetries, Handler.applyWithRetries]
    refine Goes.seq (.attempt (goes_update own whole solo among)) fun result r there _ => ?_
    cases result with
    | ok last => exact .pure there trivial
    | error e =>
      cases e with
      | someStatementsFailed last =>
        cases retries with
        | zero => exact .throw there
        | succ retries =>
          refine Goes.seq (.pause there own whole) fun going r there waited => ?_
          rw [if_pos waited, if_pos waited]
          refine ih retries (Nat.lt_succ_self _) there fun st member => ?_
          exact among st (List.mem_of_mem_drop member)
      | _ => exact .throw there

theorem goes_process (own : ctx.token = m.token) (whole : ctx'.token = σ.context.token)
    {events : List Event} (solo : σ.Solo false r) (inside : ∀ e ∈ events, e.instanceId ∈ m.part) :
    m.Goes false (σ.handler.process ctx events) (σ.handler.process ctx' events) r fun _ => True := by
  unfold Handler.process
  cases reduced : σ.handler.registry.reduceAll events with
  | error e => exact .throw solo
  | ok statements => exact goes_applyWithRetries own whole solo (σ.among_of_reduceAll inside reduced)

/-- The query of a batch is for events of its instances. -/
theorem goes_searchQuery (solo : σ.Solo false r) (ours : ∀ id ∈ instances, id ∈ m.part) :
    m.Goes false (σ.handler.searchQuery (ctx.withToken m.token) instances)
      (σ.handler.searchQuery ctx instances) r
      fun q => ∀ e ∈ σ.start.world.log.filter q, e.instanceId ∈ m.part := by
  refine follows_currentSequences solo ours fun rows r there => Goes.pure there ?_
  intro e member
  have matched := (List.mem_filter.mp (List.mem_of_mem_take member)).2
  obtain ⟨clause, listed, matched⟩ := List.any_eq_true.mp matched
  obtain ⟨id, among, inside⟩ := List.mem_flatMap.mp listed
  obtain ⟨t, _, rfl⟩ := List.mem_map.mp inside
  simp only [QueryClause.matches, Bool.and_eq_true, Option.all_some] at matched
  rw [← eq_of_beq matched.1.1.1.1.1.1.1.1]
  exact ours id among

theorem goes_catchUp {pages : Nat} (whole : ctx.token = σ.context.token) (solo : σ.Solo false r)
    (ours : ∀ id ∈ instances, id ∈ m.part) :
    m.Goes false (σ.handler.catchUp instances pages (ctx.withToken m.token))
      (σ.handler.catchUp instances pages ctx) r fun _ => True := by
  induction pages generalizing ctx r with
  | zero => exact .pure solo trivial
  | succ pages ih =>
    rw [Handler.catchUp, Handler.catchUp]
    refine Goes.seq (.checkCancelled solo rfl whole) fun _ r there _ => ?_
    refine Goes.seq (goes_searchQuery there ours) fun q r there inside => ?_
    refine Goes.seq (.filter (∀ e ∈ ·, e.instanceId ∈ m.part) there inside) fun events r there page => ?_
    split
    next => exact .pure there trivial
    next =>
      refine Goes.seq (goes_process rfl whole there page) fun _ r there _ => ?_
      split
      next => exact .pure there trivial
      next => exact ih (show ctx.readingAll.token = _ from whole) there

/-- What a batch does for its instances goes like the same work by itself. -/
theorem follows_runUnlocked (m : σ.Member) (pages : Nat) (whole : ctx.token = σ.context.token)
    (solo : σ.Solo false r) (some : m.part ≠ []) :
    m.mirror.Follows (fun _ r => σ.Solo false r)
      (σ.handler.runUnlocked pages (ctx.withToken m.token) m.part)
      (σ.handler.runUnlocked pages ctx m.part) r := by
  have triggered : m.Goes false (σ.handler.trigger pages (ctx.withToken m.token) m.part)
      (σ.handler.trigger pages ctx m.part) r fun _ => True := by
    rw [Handler.trigger_of_ne_nil some, Handler.trigger_of_ne_nil some]
    exact goes_catchUp whole solo fun _ => id
  refine Mirror.Follows.bind (Mirror.Follows.mono triggered fun result r ended => ?_)
  split <;> exact .done ended.1

end Trigger

end Member

end Siblings

end ReadModel
