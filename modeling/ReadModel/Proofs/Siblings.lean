import ReadModel.Proofs.Neighbors
import ReadModel.Proofs.Reaching
import ReadModel.Proofs.Views

/-!
Batches side by side.

The batches of a sweep share the storage, the log, the leases and the tokens, and have no instance in
common. `Siblings.Rely` tells what one of them can count on while the others work. So to each of them
the scene looks as if it were there by itself (`Siblings.Mirrors`).
-/

namespace ReadModel

/-- The batches of a sweep: whose they are, their instances, and the scene in which they begin. -/
structure Siblings where
  handler : Handler
  context : Context
  parts : List (List InstanceId)
  start : Scene
  separates : handler.registry.Separates
  keeps : handler.registry.KeepsIdentity
  disjoint : parts.Pairwise List.Disjoint

/-- A scene, and for which batch each token was made. -/
structure Staged where
  scene : Scene
  maker : Nat → Option Nat := fun _ => none

/-- The world of the scene. -/
abbrev Staged.world (s : Staged) : World := s.scene.world

/-- The data of the storage. -/
abbrev Staged.data (s : Staged) : StoreData := s.world.store.data

/-- A token and those that it was made from. -/
def Token.line (token : Token) : List Nat := token.id :: token.ancestors

theorem Tokens.isCancelled_iff {ts : Tokens} {token : Token} :
    ts.isCancelled token = false ↔ ∀ id ∈ token.line, id ∉ ts.cancelled := by
  simp [isCancelled, Token.line]

theorem Scene.answer_store {s : Scene} {number : Nat} (call : StoreCall) (running : s.outage = none)
    (shown : s.world.hidden = fun _ => false) :
    Scene.answer number (.store call) s = ((s.world.store.answer call).1,
      s.inWorld { s.world with
        store := (s.world.store.answer call).2
        transactionOf :=
          if (s.world.store.answer call).2.transaction.isSome then some number else none }) := by
  simp only [Scene.answer, Scene.answerStore, running, World.answerStore_world]
  refine congrArg (·, _) ?_
  unfold World.answerStore
  rcases s.world.store.answer call with ⟨answer, store⟩
  cases call with
  | lockSequences =>
    cases answer with
    | error e => rfl
    | ok rows => simp [shown]
  | _ => rfl

theorem StoreCall.Inside.working {projection : String} {own : InstanceId → Prop}
    {call : StoreCall} (inside : call.Inside projection own) : call.working := by
  cases call <;> trivial

/-- Answers a call of a batch. -/
def Staged.answer (batch : Nat) (call : HandlerCall) (s : Staged) : call.Answer × Staged :=
  let (answer, scene) := Scene.answer (Actor.number ⟨0, some batch⟩) call s.scene
  (answer, { scene, maker := match call with
    | .task (.childToken _) => fun id =>
      if id = s.world.tokens.nextId then some batch else s.maker id
    | _ => s.maker })

/-- The scene with another storage, in which a transaction is someone's or none is open. -/
def Staged.restore (s : Staged) (store : MemoryStore) (owner : Option Nat) : Staged :=
  { s with scene := s.scene.inWorld { s.world with store, transactionOf := owner } }

/-- The number under which a batch makes its calls. -/
abbrev Siblings.number (batch : Nat) : Nat := Actor.number ⟨0, some batch⟩

namespace Siblings

/-- Whether an instance is leased to someone else at the beginning. -/
def held (σ : Siblings) (id : InstanceId) : Bool :=
  σ.start.world.leases.table.heldByOther σ.start.world.clock σ.handler.holder id

/-- What is true of the scene at any time. Tokens that are made for batches are newer than those with
which sessions were watched before. -/
structure Fine (σ : Siblings) (s : Staged) : Prop where
  running : s.scene.outage = none
  log : s.world.log = σ.start.world.log
  faults : s.world.store.faults = σ.start.world.store.faults
  shown : s.world.hidden = fun _ => false
  owned : s.world.store.transaction.isSome = s.world.transactionOf.isSome
  uncancelled : s.world.tokens.isCancelled σ.context.token = false
  handedOut : ∀ id ∈ σ.context.token.line ++ s.world.tokens.cancelled, id < s.world.tokens.nextId
  made : ∀ id batch, s.maker id = some batch → σ.start.world.tokens.nextId ≤ id ∧
    id < s.world.tokens.nextId ∧ id ∉ σ.context.token.line
  later : σ.start.world.tokens.nextId ≤ s.world.tokens.nextId
  leases : s.world.leases.Settled σ.handler.holder σ.held σ.start.world.leases.nextSession
    σ.start.world.tokens.nextId s.world.clock

/-- What a batch can count on while others work. -/
structure Rely (σ : Siblings) (batch : Nat) (s t : Staged) : Prop where
  fine : σ.Fine s → σ.Fine t
  kept : s.world.transactionOf = some (Siblings.number batch) →
    t.world.transactionOf = some (Siblings.number batch) ∧
      t.world.store.transaction = s.world.store.transaction ∧ t.data = s.data
  foreign : s.world.transactionOf ≠ some (Siblings.number batch) →
    t.world.transactionOf ≠ some (Siblings.number batch)
  view : ∀ part, σ.parts[batch]? = some part →
    t.data.Alike σ.handler.name (· ∈ part) s.data
  made : ∀ id, s.maker id = some batch →
    t.maker id = some batch ∧ (id ∉ s.world.tokens.cancelled → id ∉ t.world.tokens.cancelled)

/-- A batch among its siblings. -/
def setting (σ : Siblings) (batch : Nat) : Setting handlerInterface Staged where
  answer := Staged.answer batch
  ready call s := s.world.waits (Siblings.number batch) call = false
  others := σ.Rely batch
  self s t := ∀ other, other ≠ batch → σ.Rely other s t

variable {σ : Siblings} {batch other : Nat} {s t u : Staged}

theorem Rely.refl : σ.Rely batch s s :=
  ⟨id, fun ours => ⟨ours, rfl, rfl⟩, id, fun _ _ => .refl, fun _ ours => ⟨ours, id⟩⟩

theorem Rely.trans (first : σ.Rely batch s t) (second : σ.Rely batch t u) : σ.Rely batch s u where
  fine := second.fine ∘ first.fine
  kept ours := by
    obtain ⟨owner, transaction, data⟩ := first.kept ours
    obtain ⟨owner', transaction', data'⟩ := second.kept owner
    exact ⟨owner', transaction'.trans transaction, data'.trans data⟩
  foreign := second.foreign ∘ first.foreign
  view part ours := (second.view part ours).trans (first.view part ours)
  made id ours := by
    obtain ⟨same, stays⟩ := first.made id ours
    obtain ⟨same', stays'⟩ := second.made id same
    exact ⟨same', stays' ∘ stays⟩

/-- What leaves the storage alone takes nothing away from the batches whose tokens stay as they are. -/
theorem Rely.of_quiet (fine : σ.Fine s → σ.Fine t) (store : t.world.store = s.world.store)
    (owner : t.world.transactionOf = s.world.transactionOf)
    (made : ∀ id, s.maker id = some batch →
      t.maker id = some batch ∧ (id ∉ s.world.tokens.cancelled → id ∉ t.world.tokens.cancelled)) :
    σ.Rely batch s t where
  fine
  kept ours :=
    ⟨owner.trans ours, congrArg MemoryStore.transaction store, congrArg MemoryStore.data store⟩
  foreign other := owner ▸ other
  view _ _ := by
    rw [Staged.data, store]
  made

theorem disjoint_of_ne (σ : Siblings) (apart : other ≠ batch) {part part' : List InstanceId}
    (there : σ.parts[other]? = some part') (here : σ.parts[batch]? = some part) {id : InstanceId}
    (one : id ∈ part') : id ∉ part := by
  obtain ⟨inside, rfl⟩ := List.getElem?_eq_some_iff.mp there
  obtain ⟨inside', rfl⟩ := List.getElem?_eq_some_iff.mp here
  rcases Nat.lt_or_gt_of_ne apart with before | after
  · exact fun two => List.pairwise_iff_getElem.mp σ.disjoint _ _ _ _ before one two
  · exact fun two => List.pairwise_iff_getElem.mp σ.disjoint _ _ _ _ after two one

theorem number_inj (apart : other ≠ batch) : number other ≠ number batch :=
  fun same => apart (Option.some.inj (congrArg Actor.batch (Actor.number_inj same)))

theorem Fine.restore (fine : σ.Fine s) {store : MemoryStore} {owner : Option Nat}
    (faults : store.faults = s.world.store.faults)
    (owned : store.transaction.isSome = owner.isSome) : σ.Fine (s.restore store owner) :=
  { fine with faults := faults.trans fine.faults, owned }

/-- What a batch does to the storage takes nothing away from another that has no transaction. -/
theorem Rely.of_store {store : MemoryStore} {owner : Option Nat}
    (out : s.world.transactionOf ≠ some (number other)) (out' : owner ≠ some (number other))
    (faults : store.faults = s.world.store.faults)
    (owned : store.transaction.isSome = owner.isSome)
    (view : ∀ part, σ.parts[other]? = some part →
      store.data.Alike σ.handler.name (· ∈ part) s.data) :
    σ.Rely other s (s.restore store owner) where
  fine fine := fine.restore faults owned
  kept ours := absurd ours out
  foreign _ := out'
  view
  made _ ours := ⟨ours, id⟩

/-- A scene that a batch can have for itself, in which a transaction is open or not. -/
structure Solo (σ : Siblings) (opened : Bool) (r : Scene) : Prop where
  running : r.outage = none
  log : r.world.log = σ.start.world.log
  faults : r.world.store.faults = σ.start.world.store.faults
  shown : r.world.hidden = fun _ => false
  uncancelled : r.world.tokens.isCancelled σ.context.token = false
  opened : r.world.store.transaction.isSome = opened

theorem Solo.restore {r : Scene} {opened opened' : Bool} (solo : σ.Solo opened r) (call : StoreCall)
    (after : (r.world.store.answer call).2.transaction.isSome = opened') :
    σ.Solo opened' (Scene.answer 0 (.store call) r).2 := by
  rw [Scene.answer_store call solo.running solo.shown]
  exact { solo with
    faults := (MemoryStore.faults_answer ..).trans solo.faults
    opened := after }

/-- A batch: its place among its siblings, its instances, and the token that was made for it. -/
structure Member (σ : Siblings) where
  batch : Nat
  part : List InstanceId
  token : Token
  here : σ.parts[batch]? = some part
  line : token.ancestors = σ.context.token.line

namespace Member

variable {m : σ.Member} {r : Scene}

/-- A batch has a transaction where it has one in the scene that it has for itself, and both are alike
as far as its instances go. What the transaction holds of others is what the storage holds. -/
inductive Tied (m : σ.Member) (s : Staged) (r : Scene) : Prop
  | out : s.world.transactionOf ≠ some (number m.batch) → r.world.store.transaction = none →
      Tied m s r
  | inside {x y} : s.world.transactionOf = some (number m.batch) →
      s.world.store.transaction = some x → r.world.store.transaction = some y →
      x.Alike σ.handler.name (· ∈ m.part) y →
      (∀ d ∈ x.working :: x.savepoints, d.Alike σ.handler.name (· ∉ m.part) s.data) →
      Tied m s r

/-- To a batch, the scene that it shares with its siblings looks like one that it has for itself. -/
structure Mirrors (m : σ.Member) (s : Staged) (r : Scene) : Prop where
  fine : σ.Fine s
  maker : s.maker m.token.id = some m.batch
  alive : m.token.id ∉ s.world.tokens.cancelled
  data : s.data.Alike σ.handler.name (· ∈ m.part) r.world.store.data
  tied : m.Tied s r

theorem Mirrors.uncancelled (mirrors : m.Mirrors s r) : s.world.tokens.isCancelled m.token = false := by
  rw [Tokens.isCancelled_iff, Token.line, m.line]
  exact List.forall_mem_cons.mpr
    ⟨mirrors.alive, Tokens.isCancelled_iff.mp mirrors.fine.uncancelled⟩

theorem Mirrors.others (mirrors : m.Mirrors s r) (rely : σ.Rely m.batch s t) :
    m.Mirrors t r where
  fine := rely.fine mirrors.fine
  maker := (rely.made _ mirrors.maker).1
  alive := (rely.made _ mirrors.maker).2 mirrors.alive
  data := (rely.view m.part m.here).trans mirrors.data
  tied := by
    cases mirrors.tied with
    | out owner none => exact .out (rely.foreign owner) none
    | inside owner opened opened' alike apart =>
      obtain ⟨owner', transaction, data⟩ := rely.kept owner
      exact .inside owner' (transaction.trans opened) opened' alike (data ▸ apart)

/-- A batch among its siblings, seen in a scene that it has for itself. -/
def mirror (m : σ.Member) : Mirror handlerInterface Staged Scene where
  setting := σ.setting m.batch
  answer := Scene.answer 0
  alike := m.Mirrors
  stable := Mirrors.others

section Calls

variable {α : Type} {opened : Bool} {post : α → Scene → Prop}

theorem Mirrors.answer_store (mirrors : m.Mirrors s r) (call : StoreCall) :
    Staged.answer m.batch (.store call) s = ((s.world.store.answer call).1,
      s.restore (s.world.store.answer call).2
        (if (s.world.store.answer call).2.transaction.isSome then some (number m.batch)
          else none)) := by
  rw [Staged.answer, Scene.answer_store call mirrors.fine.running mirrors.fine.shown]
  rfl

/-- A call that changes nothing. -/
theorem follows_still {c c' : HandlerCall} {next : c.Answer → Task α} {next' : c'.Answer → Task α}
    (v : c.Answer) (v' : c'.Answer)
    (still : ∀ s, m.Mirrors s r → Staged.answer m.batch c s = (v, s))
    (still' : Scene.answer 0 c' r = (v', r))
    (rest : m.mirror.Follows post (next v) (next' v') r) :
    m.mirror.Follows post (.ask c next) (.ask c' next') r := by
  refine .ask v (fun s mirrors _ => ?_) ?_
  · show (∀ other, other ≠ m.batch → σ.Rely other s (Staged.answer m.batch c s).2) ∧
      (Staged.answer m.batch c s).1 = v ∧
        m.Mirrors (Staged.answer m.batch c s).2 (Scene.answer 0 c' r).2
    rw [still s mirrors, still']
    exact ⟨fun _ _ => .refl, rfl, mirrors⟩
  · show Mirror.Follows _ post (next v) (next' (Scene.answer 0 c' r).1)
      (Scene.answer 0 c' r).2
    rw [still']
    exact rest

theorem follows_isCancelled {c c' : Context} (solo : σ.Solo opened r)
    (same : c.token = m.token) (same' : c'.token = σ.context.token)
    {next next' : Bool → Task α}
    (rest : m.mirror.Follows post (next false) (next' false) r) :
    m.mirror.Follows post (.ask (.task (.isCancelled c.token)) next)
      (.ask (.task (.isCancelled c'.token)) next') r := by
  refine follows_still false false (fun s mirrors => ?_) ?_ rest
  · have alive := mirrors.uncancelled
    rw [← same] at alive
    exact congrArg (·, s) alive
  · have alive := solo.uncancelled
    rw [← same'] at alive
    exact congrArg (·, r) alive

theorem follows_pause {c c' : Context} {ms : Nat} (solo : σ.Solo opened r)
    (same : c.token = m.token) (same' : c'.token = σ.context.token)
    {next next' : Bool → Task α}
    (rest : m.mirror.Follows post (next true) (next' true) r) :
    m.mirror.Follows post (.ask (.task (.pause ms c.token)) next)
      (.ask (.task (.pause ms c'.token)) next') r := by
  refine follows_still true true (fun s mirrors => ?_) ?_ rest
  · have alive := mirrors.uncancelled
    rw [← same] at alive
    exact congrArg (!·, s) alive
  · have alive := solo.uncancelled
    rw [← same'] at alive
    exact congrArg (!·, r) alive

theorem follows_filter {q : SearchQuery} (solo : σ.Solo opened r)
    {next next' : Except SourceError (List Event) → Task α}
    (rest : m.mirror.Follows post
      (next (.ok (σ.start.world.log.filter q))) (next' (.ok (σ.start.world.log.filter q))) r) :
    m.mirror.Follows post (.ask (.source (.filter q)) next)
      (.ask (.source (.filter q)) next') r := by
  refine follows_still (.ok (σ.start.world.log.filter q)) (.ok (σ.start.world.log.filter q))
    (fun s mirrors => ?_) ?_ rest
  · simp only [Staged.answer, Scene.answer, Scene.answerSource, mirrors.fine.running, ← mirrors.fine.log]
    rfl
  · simp only [Scene.answer, Scene.answerSource, solo.running, ← solo.log]
    rfl

/-- What a call of a batch on the storage does is nothing to the others, and is seen. -/
theorem Mirrors.moves (mirrors : m.Mirrors s r) {call : StoreCall} {r' : Scene}
    (mine : ∀ other, other ≠ m.batch → s.world.transactionOf ≠ some (number other))
    (spares : (s.world.store.answer call).2.data.Alike σ.handler.name (· ∉ m.part) s.data)
    (data : (s.world.store.answer call).2.data.Alike σ.handler.name (· ∈ m.part) r'.world.store.data)
    (tied : m.Tied (Staged.answer m.batch (.store call) s).2 r') :
    (∀ other, other ≠ m.batch → σ.Rely other s (Staged.answer m.batch (.store call) s).2) ∧
      m.Mirrors (Staged.answer m.batch (.store call) s).2 r' := by
  rw [mirrors.answer_store call] at tied ⊢
  have faults := s.world.store.faults_answer call
  have owned : (s.world.store.answer call).2.transaction.isSome =
      Option.isSome (if (s.world.store.answer call).2.transaction.isSome then
        some (number m.batch) else none) := by
    cases (s.world.store.answer call).2.transaction <;> rfl
  refine ⟨fun other apart => .of_store (mine other apart) ?_ faults owned fun part' there => ?_,
    { mirrors with fine := mirrors.fine.restore faults owned, data, tied }⟩
  · split
    · simpa using (number_inj apart).symm
    · simp
  · exact spares.mono fun id one => σ.disjoint_of_ne apart there m.here one

theorem foreign_of_owner (owner : s.world.transactionOf = some (number m.batch)) (other : Nat)
    (apart : other ≠ m.batch) : s.world.transactionOf ≠ some (number other) := by
  rw [owner]
  simpa using (number_inj apart).symm

theorem Mirrors.out (mirrors : m.Mirrors s r) (solo : σ.Solo false r) :
    s.world.transactionOf ≠ some (number m.batch) := by
  cases mirrors.tied with
  | out owner _ => exact owner
  | inside _ _ opened =>
    have closed := solo.opened
    rw [opened] at closed
    cases closed

/-- A call that has to wait for the transactions of others finds none open. -/
theorem Mirrors.idle (mirrors : m.Mirrors s r) (solo : σ.Solo false r)
    {call : StoreCall} (blocks : s.world.store.blocks call = s.world.store.transaction.isSome)
    (ready : s.world.waits (number m.batch) (.store call) = false) :
    s.world.transactionOf = none ∧ s.world.store.transaction = none := by
  have waits : (s.world.store.transaction.isSome &&
      s.world.transactionOf != some (number m.batch)) = false := blocks ▸ ready
  rw [bne_iff_ne.mpr (mirrors.out solo), Bool.and_true] at waits
  have owned := mirrors.fine.owned
  rw [waits] at owned
  exact ⟨Option.not_isSome_iff_eq_none.mp (Bool.eq_false_iff.mp owned.symm),
    Option.not_isSome_iff_eq_none.mp (Bool.eq_false_iff.mp waits)⟩

/-- A batch has a transaction where it has one for itself. -/
theorem Mirrors.both (mirrors : m.Mirrors s r) (solo : σ.Solo true r) :
    ∃ x y, s.world.transactionOf = some (number m.batch) ∧
      s.world.store.transaction = some x ∧ r.world.store.transaction = some y ∧
      x.Alike σ.handler.name (· ∈ m.part) y ∧
      ∀ d ∈ x.working :: x.savepoints, d.Alike σ.handler.name (· ∉ m.part) s.data := by
  cases mirrors.tied with
  | out _ none =>
    have opened := solo.opened
    rw [none] at opened
    cases opened
  | inside owner opened opened' alike apart => exact ⟨_, _, owner, opened, opened', alike, apart⟩

/-- A call on the storage, which may be answered once nobody else has a transaction. -/
theorem follows_store {call : StoreCall} {opened' : Bool} (solo : σ.Solo opened r)
    (after : (r.world.store.answer call).2.transaction.isSome = opened')
    (each : ∀ s, m.Mirrors s r →
      s.world.waits (number m.batch) (.store call) = false →
      (s.world.store.answer call).1 = (r.world.store.answer call).1 ∧
        (∀ other, other ≠ m.batch → σ.Rely other s (Staged.answer m.batch (.store call) s).2) ∧
        m.Mirrors (Staged.answer m.batch (.store call) s).2
          (Scene.answer 0 (.store call) r).2)
    {next next' : Except StorageError call.Value → Task α}
    (rest : ∀ r', σ.Solo opened' r' → m.mirror.Follows post
      (next (r.world.store.answer call).1) (next' (r.world.store.answer call).1) r') :
    m.mirror.Follows post (.ask (.store call) next)
      (.ask (.store call) next') r := by
  have answered : (Scene.answer 0 (.store call) r).1 = (r.world.store.answer call).1 := by
    rw [Scene.answer_store call solo.running solo.shown]
  refine .ask (r.world.store.answer call).1 (fun s mirrors ready => ?_) ?_
  · obtain ⟨same, own, seen⟩ := each s mirrors ready
    refine ⟨own, ?_, seen⟩
    show (Staged.answer m.batch (.store call) s).1 = _
    rw [mirrors.answer_store call]
    exact same
  · have ended := rest _ (solo.restore call after)
    rw [← answered] at ended ⊢
    exact ended

/-- A call within a transaction that is about the instances of the batch only. -/
theorem follows_inside {call : StoreCall} (solo : σ.Solo true r)
    (inside : call.Inside σ.handler.name (· ∈ m.part))
    {next next' : Except StorageError call.Value → Task α}
    (rest : ∀ answer r', σ.Solo true r' →
      m.mirror.Follows post (next answer) (next' answer) r') :
    m.mirror.Follows post (.ask (.store call) next)
      (.ask (.store call) next') r := by
  have stays := (r.world.store.isSome_answer inside.working).trans solo.opened
  refine follows_store solo stays (fun s mirrors _ => ?_) fun r' there => rest _ r' there
  obtain ⟨x, y, owner, opened, opened', alike, apart⟩ := mirrors.both solo
  have faults := mirrors.fine.faults.trans solo.faults.symm
  obtain ⟨same, x₁, y₁, after, after', alike'⟩ :=
    MemoryStore.answer_alike opened opened' faults alike inside
  have apart' := MemoryStore.answer_apart opened inside (fun _ => not_not_intro) apart x₁ after
  have data := s.world.store.answer_data_of_ne_commit inside.ne_commit
  have data' := r.world.store.answer_data_of_ne_commit inside.ne_commit
  have still : (s.world.store.answer call).2.data.Alike σ.handler.name (· ∉ m.part) s.data := data ▸ .refl
  rw [Scene.answer_store call solo.running solo.shown]
  refine ⟨same, mirrors.moves (foreign_of_owner owner) still ?_ ?_⟩
  · exact data ▸ data' ▸ mirrors.data
  · rw [mirrors.answer_store call]
    refine .inside (if_pos (congrArg Option.isSome after)) after after' alike' ?_
    exact fun d member => (apart' d member).trans still.symm

/-- A transaction is begun. -/
theorem follows_begin (solo : σ.Solo false r) {next next' : Except StorageError Unit → Task α}
    (rest : ∀ r', σ.Solo true r' →
      m.mirror.Follows post (next (.ok ())) (next' (.ok ())) r') :
    m.mirror.Follows post (.ask (.store .begin) next)
      (.ask (.store .begin) next') r := by
  refine follows_store solo rfl (fun s mirrors ready => ?_) rest
  obtain ⟨owner, none⟩ := mirrors.idle solo rfl ready
  rw [Scene.answer_store _ solo.running solo.shown]
  refine ⟨rfl, mirrors.moves (by simp [owner]) .refl mirrors.data ?_⟩
  rw [mirrors.answer_store]
  refine .inside rfl rfl rfl ⟨mirrors.data, .nil⟩ ?_
  exact List.forall_mem_singleton.mpr .refl

/-- The stored sequences of the batch are read. -/
theorem follows_currentSequences (solo : σ.Solo false r) {instances : List InstanceId}
    (ours : ∀ id ∈ instances, id ∈ m.part)
    {next next' : Except StorageError (List CurrentSequence) → Task α}
    (rest : ∀ rows r', σ.Solo false r' →
      m.mirror.Follows post (next (.ok rows)) (next' (.ok rows)) r') :
    m.mirror.Follows post
      (.ask (.store (.currentSequences σ.handler.name instances)) next)
      (.ask (.store (.currentSequences σ.handler.name instances)) next') r := by
  have opened : (r.world.store.answer (.currentSequences σ.handler.name instances)).2.transaction.isSome =
      false := solo.opened
  refine follows_store solo opened (fun s mirrors ready => ?_) fun r' there => rest _ r' there
  obtain ⟨owner, none⟩ := mirrors.idle solo rfl ready
  rw [Scene.answer_store _ solo.running solo.shown]
  refine ⟨?_, mirrors.moves (by simp [owner]) .refl mirrors.data ?_⟩
  · refine congrArg Except.ok (mirrors.data.currentSequences fun key test => ours _ ?_)
    exact of_decide_eq_true test
  · rw [mirrors.answer_store]
    refine .out ?_ (Option.not_isSome_iff_eq_none.mp (Bool.eq_false_iff.mp solo.opened))
    show (if s.world.store.transaction.isSome then _ else _) ≠ _
    simp [none]

/-- The transaction is committed. -/
theorem follows_commit (solo : σ.Solo true r) {next next' : Except StorageError Unit → Task α}
    (rest : ∀ r', σ.Solo false r' →
      m.mirror.Follows post (next (.ok ())) (next' (.ok ())) r') :
    m.mirror.Follows post (.ask (.store .commit) next)
      (.ask (.store .commit) next') r := by
  obtain ⟨y, opened⟩ := Option.isSome_iff_exists.mp solo.opened
  have answered : r.world.store.answer .commit =
      (.ok (), { r.world.store with data := y.working, transaction := none }) := by
    simp only [MemoryStore.answer, opened]
  refine follows_store solo (by rw [answered]) (fun s mirrors _ => ?_) (by rw [answered]; exact rest)
  obtain ⟨x, y', owner, opened₁, opened₂, alike, apart⟩ := mirrors.both solo
  obtain rfl := Option.some.inj (opened.symm.trans opened₂)
  have committed : s.world.store.answer .commit =
      (.ok (), { s.world.store with data := x.working, transaction := none }) := by
    simp only [MemoryStore.answer, opened₁]
  rw [Scene.answer_store _ solo.running solo.shown, answered]
  refine ⟨by rw [committed], mirrors.moves (foreign_of_owner owner) ?_ ?_ ?_⟩
  · rw [committed]
    exact apart _ (List.mem_cons_self ..)
  · rw [committed]
    exact alike.working
  · rw [mirrors.answer_store, committed]
    exact .out (by simp [Staged.restore, Scene.inWorld]) rfl

/-- The transaction is rolled back. -/
theorem follows_rollback (solo : σ.Solo true r) {next next' : Except StorageError Unit → Task α}
    (rest : ∀ r', σ.Solo false r' →
      m.mirror.Follows post (next (.ok ())) (next' (.ok ())) r') :
    m.mirror.Follows post (.ask (.store .rollback) next)
      (.ask (.store .rollback) next') r := by
  refine follows_store solo rfl (fun s mirrors _ => ?_) rest
  obtain ⟨x, y, owner, _⟩ := mirrors.both solo
  rw [Scene.answer_store _ solo.running solo.shown]
  refine ⟨rfl, mirrors.moves (foreign_of_owner owner) .refl mirrors.data ?_⟩
  rw [mirrors.answer_store]
  exact .out (by simp [Staged.restore, Scene.inWorld, MemoryStore.answer]) rfl

end Calls

end Member

end Siblings

end ReadModel
