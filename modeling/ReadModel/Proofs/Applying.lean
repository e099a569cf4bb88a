import ReadModel.Proofs.Carrying

/-!
Applying a batch.

`Handler.Concludes` lists all the ways in which the transaction of an update can end. An update that
is left alone within its transaction ends in one of them.
-/

namespace ReadModel

/-- The sequences that are read under lock for a batch. -/
def StoreData.locked (d : StoreData) (projection : String) (hidden : SequenceKey → Bool)
    (batch : List Statement) : SequenceMap :=
  SequenceMap.ofRows ((d.currentSequences projection fun key =>
    decide (key.instanceId ∈ Statement.instances batch) &&
      decide (key.aggregateType ∈ Statement.aggregateTypes batch)).filter fun row => !hidden row.key)

/-- The data with the sequences of many keys put in place of those that they had. -/
def StoreData.raiseAll (d : StoreData) (projection : String) (m : SequenceMap) : StoreData :=
  m.entries.foldl (·.raise projection) d

/-- What an update answers after its transaction was committed. -/
def Progress.result (p : Progress) : Except HandlerError (Option Nat) :=
  if p.stopped then .error (.someStatementsFailed p.lastApplied) else .ok p.lastApplied

/-- How the transaction of an update can end: its answer, the data that it leaves, and the
statements that were tried where it is committed. -/
inductive Handler.Concludes (h : Handler) (F : Frame) (log : EventLog) (token : Token)
    (batch : List Statement) : Except HandlerError (Option Nat) → StoreData → Trial → Prop
  | unreduced {o e} : F.around o →
      h.planIn log (F.base.locked h.name o.hidden batch) 0 batch = .error e →
      Concludes h F log token batch (.error (.reduce e)) F.base []
  | cancelled {o} : F.around o → o.tokens.isCancelled token = true →
      Concludes h F log token batch (.error .cancelled) F.base []
  | refused {o steps d p tried faults key sequence} : F.around o →
      h.planIn log (F.base.locked h.name o.hidden batch) 0 batch = .ok steps →
      Carried h F.allows F.base {} steps d p tried → (key, sequence) ∈ p.advanced.entries →
      F.allows faults → d.refuses faults h.name key sequence = true →
      Concludes h F log token batch (.error (.sequenceUpdate key)) F.base []
  | committed {o steps d p tried} : F.around o →
      h.planIn log (F.base.locked h.name o.hidden batch) 0 batch = .ok steps →
      Carried h F.allows F.base {} steps d p tried →
      (∀ entry ∈ p.advanced.entries, ∀ n, d.sequence? h.name entry.1 = some n → n < entry.2) →
      Concludes h F log token batch p.result (d.raiseAll h.name p.advanced) tried

/-- A plan that fails ends an action with the error of the event. -/
def planned {α : Type} : Except ReduceError α → Except HandlerError α
  | .ok a => .ok a
  | .error e => .error (.reduce e)

/-- Where the gaps of a batch are always answered from one log, the plan is the one for that log. -/
theorem Handler.upholds_plan {σ : Type} {S : Setting handlerInterface σ} {I : σ → Prop}
    {h : Handler} {log : EventLog} {batch : List Statement}
    (fetch : ∀ st ∈ batch, ∀ last post s, I s →
      (∀ t, I t → post (.ok (log.filter (gapQuery st.key last st.sequence))) t) →
      S.Upholds post (askSource (.filter (gapQuery st.key last st.sequence))).run s)
    {known : SequenceMap} {index : Nat} {post : Except HandlerError (List Step) → σ → Prop} {s : σ}
    (start : I s) (rest : ∀ t, I t → post (planned (h.planIn log known index batch)) t) :
    S.Upholds post (h.plan known index batch).run s := by
  induction batch generalizing known index s post with
  | nil => exact rest s start
  | cons st others ih =>
    have later := @ih fun st' member => fetch st' (List.mem_cons_of_mem _ member)
    unfold planIn at rest
    unfold Handler.plan
    by_cases low : st.sequence ≤ known.get st.key
    · simp only [low, if_true] at rest ⊢
      refine upholds_seq (later start fun t there => ?_)
      have ended := rest t there
      revert ended
      cases h.planIn log known (index + 1) others <;> exact id
    · simp only [low, if_false] at rest ⊢
      have gap : S.Upholds (fun result t => I t ∧ result = planned (h.gapIn log st (known.get st.key)))
          (h.fillGap st (known.get st.key)).run s := by
        unfold fillGap gapIn
        split
        next => exact ⟨start, rfl⟩
        next =>
          refine upholds_seq (fetch st (List.mem_cons_self ..) _ _ s start fun t there => ?_)
          dsimp only
          cases h.fill (log.filter (gapQuery st.key (known.get st.key) st.sequence)) <;>
            exact ⟨there, rfl⟩
      refine upholds_seq (gap.mono ?_)
      rintro result t ⟨there, rfl⟩
      cases filled : h.gapIn log st (known.get st.key) with
      | error e =>
        have ended := rest t there
        rw [filled] at ended
        exact ended
      | ok missing =>
        refine upholds_seq (later there fun t there => ?_)
        have ended := rest t there
        rw [filled] at ended
        revert ended
        cases h.planIn log (known.advance st.key st.sequence) (index + 1) others <;> exact id

theorem Dict.distinct {κ ν : Type} [KeyOrder κ] (d : Dict κ ν) :
    d.entries.Pairwise (·.1 ≠ ·.1) :=
  List.Pairwise.imp KeyOrder.ne_of_before d.ascending

@[simp]
theorem StoreData.sequence?_raise (d : StoreData) (projection : String)
    (entry : SequenceKey × Nat) (key : SequenceKey) :
    (d.raise projection entry).sequence? projection key =
      if entry.1 = key then some entry.2 else d.sequence? projection key := by
  simp only [raise, sequence?, Dict.find?_insert, Prod.mk.injEq, true_and]

/-- What an update does in its transaction before it stores the sequences. -/
def Handler.carryBatch (h : Handler) (ctx : Context) (batch : List Statement) : Action Progress := do
  let rows ← transact (.lockSequences h.name (Statement.aggregateTypes batch)
    (Statement.instances batch))
  let steps ← h.plan (SequenceMap.ofRows rows) 0 batch
  h.carryOut ctx {} steps

theorem Handler.applyBatch_eq (h : Handler) (ctx : Context) (batch : List Statement) :
    h.applyBatch ctx batch = (do
      let progress ← h.carryBatch ctx batch
      h.storeSequences progress.advanced.entries
      checkCancelled ctx
      return progress) := by
  simp only [applyBatch, carryBatch, bind_assoc]

namespace Frame

variable {F : Frame} {surroundings : Surroundings} {S : Setting handlerInterface Audit}
  {d : StoreData} {savepoints : List StoreData} {pending : List Operation} {a : Audit} {h : Handler}
  {log : EventLog}

/-- What is missing before the statements of a batch is the same in every log that may be met. -/
def Steady (F : Frame) (log : EventLog) (batch : List Statement) : Prop :=
  ∀ o, F.around o → ∀ st ∈ batch, ∀ last,
    o.log.filter (Handler.gapQuery st.key last st.sequence) =
      log.filter (Handler.gapQuery st.key last st.sequence)

theorem Sheltered.plan (safe : F.Sheltered surroundings S) {batch : List Statement}
    (steady : F.Steady log batch) {known : SequenceMap} {index : Nat}
    {post : Except HandlerError (List Step) → Audit → Prop}
    (within : F.Within d savepoints pending a)
    (rest : ∀ t, F.Within d savepoints pending t →
      post (planned (h.planIn log known index batch)) t) :
    S.Upholds post (h.plan known index batch).run a := by
  refine Handler.upholds_plan (fun st member last post s there fetched => ?_) within rest
  refine safe.filter there fun t o around there => ?_
  rw [steady o around st member last]
  exact fetched t there

/-- Sequences are stored one after the other up to the first that is refused. -/
theorem Sheltered.storeSequences (safe : F.Sheltered surroundings S)
    {entries : List (SequenceKey × Nat)} (distinct : entries.Pairwise (·.1 ≠ ·.1))
    {post : Except HandlerError Unit → Audit → Prop} (within : F.Within d [] pending a)
    (refused : ∀ t d' faults key sequence, (key, sequence) ∈ entries → F.allows faults →
      d.refuses faults h.name key sequence = true → F.Within d' [] pending t →
      post (.error (.sequenceUpdate key)) t)
    (stored : ∀ t, (∀ entry ∈ entries, ∀ n, d.sequence? h.name entry.1 = some n → n < entry.2) →
      F.Within (entries.foldl (·.raise h.name) d) [] pending t → post (.ok ()) t) :
    S.Upholds post (h.storeSequences entries).run a := by
  induction entries generalizing d a with
  | nil => exact stored a (by simp) within
  | cons entry rest ih =>
    obtain ⟨key, sequence⟩ := entry
    obtain ⟨apart, others⟩ := List.pairwise_cons.mp distinct
    refine upholds_seq (safe.transact within trivial fun t there => ?_)
    have allowed : F.allows t.world.store.faults := ⟨_, there.around, rfl⟩
    cases test : d.refuses t.world.store.faults h.name key sequence with
    | true =>
      obtain ⟨answer, next⟩ := there.upsertSequence_refused surroundings test
      rw [answer]
      exact refused _ d _ key sequence (List.mem_cons_self ..) allowed test next
    | false =>
      obtain ⟨answer, next⟩ := there.upsertSequence_raised surroundings test
      rw [answer]
      -- the rows of the other keys are as they were
      have same : ∀ entry ∈ rest, (d.raise h.name (key, sequence)).sequence? h.name entry.1 =
          d.sequence? h.name entry.1 := by
        intro entry member
        rw [StoreData.sequence?_raise, if_neg (apart entry member)]
      refine ih others next ?_ ?_
      · intro t d' faults key' sequence' member allowed' refuses there
        refine refused t d' faults key' sequence' (List.mem_cons_of_mem _ member) allowed' ?_ there
        have row := same _ member
        unfold StoreData.refuses at refuses ⊢
        rwa [row] at refuses
      · intro t below there
        refine stored t ?_ there
        intro entry member n row
        rcases List.mem_cons.mp member with rfl | later
        · simp only [StoreData.refuses, row, Bool.or_eq_false_iff, Option.any_some,
            decide_eq_false_iff_not] at test
          omega
        · exact below entry later n ((same entry later).trans row)

/-- Once it has locked its sequences, a transaction makes its plan and carries it out. -/
theorem Sheltered.carryBatch (safe : F.Sheltered surroundings S) {ctx : Context}
    {batch : List Statement} (steady : F.Steady log batch)
    {post : Except HandlerError Progress → Audit → Prop} (within : F.Within F.base [] [] a)
    (failed : ∀ t e d pending, h.Concludes F log ctx.token batch (.error e) F.base [] →
      F.Within d [] pending t → post (.error e) t)
    (carried : ∀ t o steps d p tried, F.around o →
      h.planIn log (F.base.locked h.name o.hidden batch) 0 batch = .ok steps →
      Carried h F.allows F.base {} steps d p tried →
      F.Within d [] (tried.applied.map (·.operation)) t → post (.ok p) t) :
    S.Upholds post (h.carryBatch ctx batch).run a := by
  refine upholds_seq (safe.transact within trivial fun s there => ?_)
  obtain ⟨answer, next⟩ := there.lockSequences surroundings h.name
    (Statement.aggregateTypes batch) (Statement.instances batch)
  rw [answer]
  have here := there.around
  refine upholds_seq (safe.plan steady next fun t there => ?_)
  cases plan : h.planIn log (F.base.locked h.name s.world.hidden batch) 0 batch with
  | error e =>
    have ended := failed t _ F.base [] (.unreduced here plan) there
    rw [StoreData.locked] at plan
    rw [plan]
    exact ended
  | ok steps =>
    have planning := plan
    rw [StoreData.locked] at planning
    rw [planning]
    exact safe.carryOut there
      (fun t o d pending around test there => failed t _ d pending (.cancelled around test) there)
      fun t d p tried done there => carried t _ steps d p tried here plan done there

/-- Between its begin and its end a transaction carries out its plan and stores the sequences. -/
theorem Sheltered.applyBatch (safe : F.Sheltered surroundings S) {ctx : Context}
    {batch : List Statement} (steady : F.Steady log batch)
    {post : Except HandlerError Progress → Audit → Prop} (within : F.Within F.base [] [] a)
    (failed : ∀ t e d pending, h.Concludes F log ctx.token batch (.error e) F.base [] →
      F.Within d [] pending t → post (.error e) t)
    (applied : ∀ t p d tried, h.Concludes F log ctx.token batch p.result d tried →
      F.Within d [] (tried.applied.map (·.operation)) t → post (.ok p) t) :
    S.Upholds post (h.applyBatch ctx batch).run a := by
  rw [Handler.applyBatch_eq]
  refine upholds_seq (safe.carryBatch steady within failed
    fun t o steps d p tried around plan carried there => ?_)
  refine upholds_seq (safe.storeSequences p.advanced.distinct there ?_ ?_)
  · intro t d' faults key sequence member allowed refuses there
    exact failed t _ d' _ (.refused around plan carried member allowed refuses) there
  · intro t below there
    refine upholds_seq (safe.checkCancelled there ?_ ?_)
    · exact fun t o around test there => failed t _ _ _ (.cancelled around test) there
    · exact fun t _ _ _ there => applied t p _ tried (.committed around plan carried below) there

end Frame

/-- What an update does once its transaction has begun. -/
def Handler.conclude (h : Handler) (ctx : Context) (batch : List Statement) :
    Action (Option Nat) := do
  let progress ← tryCatch (h.applyBatch ctx batch) fun e => do
    let _ ← askStore .rollback
    throw e
  transact .commit
  if progress.stopped then throw (.someStatementsFailed progress.lastApplied)
  return progress.lastApplied

theorem Handler.update_eq (h : Handler) (ctx : Context) (batch : List Statement) :
    h.update ctx batch =
      (if batch.isEmpty then pure none
      else do
        checkCancelled ctx
        transact .begin
        h.conclude ctx batch) := rfl

namespace Frame

variable {F : Frame} {surroundings : Surroundings} {S : Setting handlerInterface Audit}
  {a : Audit} {h : Handler} {log : EventLog}

theorem Sheltered.commit (safe : F.Sheltered surroundings S) {d : StoreData}
    {pending : List Operation} {post : Except HandlerError Unit → Audit → Prop}
    (within : F.Within d [] pending a)
    (own : ∀ t, F.Within d [] pending t →
      S.self t (Audit.answer surroundings F.task (.store .commit) t).2)
    (rest : ∀ t, F.Ended d (F.committed ++ pending) t → post (.ok ()) t) :
    S.Upholds post (ReadModel.transact .commit).run a := by
  intro t other _
  have there := safe.others within other
  obtain ⟨answer, committed⟩ := there.commit surroundings
  have ended := rest _ committed
  rw [safe.answer]
  refine ⟨own t there, ?_⟩
  revert ended
  simp only [Audit.answer, World.answer, answer]
  exact id

/-- A transaction ends in one of the ways of `Handler.Concludes`, with what it has left behind. -/
theorem Sheltered.conclude (safe : F.Sheltered surroundings S) {ctx : Context}
    {batch : List Statement} (steady : F.Steady log batch)
    {post : Except HandlerError (Option Nat) → Audit → Prop} (within : F.Within F.base [] [] a)
    (commits : ∀ t result d tried, h.Concludes F log ctx.token batch result d tried →
      F.Within d [] (tried.applied.map (·.operation)) t →
      S.self t (Audit.answer surroundings F.task (.store .commit) t).2)
    (ended : ∀ t result d tried, h.Concludes F log ctx.token batch result d tried →
      F.Ended d (F.committed ++ tried.applied.map (·.operation)) t → post result t) :
    S.Upholds post (h.conclude ctx batch).run a := by
  refine upholds_seq (upholds_tryCatch (safe.applyBatch steady within ?_ ?_))
  · intro t e d pending concludes there
    refine upholds_seq (safe.ask there trivial fun t there => ?_)
    refine ended _ _ F.base [] concludes ?_
    simpa [Trial.applied] using there.rollback
  · intro s p d tried concludes there
    refine upholds_seq (safe.commit there (fun t => commits t _ d tried concludes) fun t done => ?_)
    have ends := ended t _ d tried concludes done
    unfold Progress.result at ends
    cases stopped : p.stopped <;> simp only [stopped] at ends ⊢ <;> exact ends

/-- An update looks at its token, and opens a transaction where it has statements. -/
theorem upholds_update {task : Nat} (answer : S.answer = Audit.answer surroundings task)
    {ctx : Context} {batch : List Statement}
    {post : Except HandlerError (Option Nat) → Audit → Prop} {I : Audit → Prop} (start : I a)
    (stable : ∀ {s t}, I s → S.others s t → I t)
    (looks : ∀ {t}, I t → S.self t t) (empty : batch = [] → post (.ok none) a)
    (cancelled : ∀ t, I t → t.world.tokens.isCancelled ctx.token = true →
      post (.error .cancelled) t)
    (opens : ∀ t, I t → S.ready (.store .begin) t →
      S.self t (Audit.answer surroundings task (.store .begin) t).2 ∧
        S.Upholds post (h.conclude ctx batch).run
          (Audit.answer surroundings task (.store .begin) t).2) :
    S.Upholds post (h.update ctx batch).run a := by
  rw [Handler.update_eq]
  split
  next none => exact empty (List.isEmpty_iff.mp none)
  next =>
    refine upholds_seq fun t other _ => ?_
    have there := stable start other
    rw [answer]
    refine ⟨looks there, ?_⟩
    cases test : t.world.tokens.isCancelled ctx.token with
    | true =>
      have ended := cancelled t there test
      simp only [Audit.answer, World.answer, test]
      exact ended
    | false =>
      simp only [Audit.answer, World.answer, test]
      refine upholds_seq fun u other ready => ?_
      have there := stable there other
      rw [answer]
      exact opens u there ready

/-- The frame of a transaction that nothing happens around. -/
def alone (task : Nat) (a : Audit) : Frame where
  task
  base := a.world.store.data
  committed := a.ledger.committed
  around o := o = { a.world.outside with begins := a.world.store.begins + 1 }

theorem allows_alone (task : Nat) (a : Audit) :
    (alone task a).allows = (· = a.world.store.faults) := by
  funext faults
  refine propext ⟨?_, ?_⟩
  · rintro ⟨o, rfl, rfl⟩
    rfl
  · rintro rfl
    exact ⟨_, rfl, rfl⟩

theorem sheltered_alone (task : Nat) (surroundings : Surroundings) (a : Audit) :
    (alone task a).Sheltered surroundings (Setting.alone (Audit.answer surroundings task)) where
  answer := rfl
  others within same := same ▸ within
  self _ _ _ := trivial

theorem within_begin (task : Nat) (surroundings : Surroundings) (a : Audit) :
    (alone task a).Within a.world.store.data [] []
      (Audit.answer surroundings task (.store .begin) a).2 :=
  ⟨rfl, rfl, rfl, rfl, rfl, rfl⟩

end Frame

/-- An update that nothing happens around ends in one of the ways of `Handler.Concludes`, and leaves
the data and the ledger accordingly. -/
theorem Handler.update_concludes (h : Handler) (ctx : Context) (batch : List Statement) (task : Nat)
    (surroundings : Surroundings) (a : Audit) :
    ∃ d tried,
      h.Concludes (Frame.alone task a) a.world.log ctx.token batch
        ((h.update ctx batch).run.run (Audit.answer surroundings task) a).1 d tried ∧
      ((h.update ctx batch).run.run (Audit.answer surroundings task) a).2.world.store.data = d ∧
      ((h.update ctx batch).run.run (Audit.answer surroundings task) a).2.ledger.committed =
        a.ledger.committed ++ tried.applied.map (·.operation) ∧
      (batch ≠ [] → a.world.tokens.isCancelled ctx.token = false →
        (Frame.alone task a).Ended d (a.ledger.committed ++ tried.applied.map (·.operation))
          ((h.update ctx batch).run.run (Audit.answer surroundings task) a).2) := by
  have upholds : (Setting.alone (Audit.answer surroundings task)).Upholds (fun result t =>
      ∃ d tried, h.Concludes (Frame.alone task a) a.world.log ctx.token batch result d tried ∧
        t.world.store.data = d ∧
        t.ledger.committed = a.ledger.committed ++ tried.applied.map (·.operation) ∧
        (batch ≠ [] → a.world.tokens.isCancelled ctx.token = false →
          (Frame.alone task a).Ended d (a.ledger.committed ++ tried.applied.map (·.operation)) t))
      (h.update ctx batch).run a := by
    refine Frame.upholds_update rfl rfl (fun kept other => kept.trans other) (fun _ => trivial)
      ?_ ?_ ?_
    · rintro rfl
      have nothing : ∀ entry ∈ ({} : Progress).advanced.entries, ∀ n,
          a.world.store.data.sequence? h.name entry.1 = some n → n < entry.2 := by
        rintro _ ⟨⟩
      exact ⟨_, [], .committed rfl rfl .done nothing, rfl, (List.append_nil _).symm,
        fun some => absurd rfl some⟩
    · rintro t rfl test
      refine ⟨_, [], .cancelled rfl test, rfl, (List.append_nil _).symm, fun _ uncancelled => ?_⟩
      rw [uncancelled] at test
      cases test
    · rintro t rfl _
      have steady : (Frame.alone task a).Steady a.world.log batch := by
        rintro o rfl st _ last
        rfl
      refine ⟨trivial, (Frame.sheltered_alone task surroundings a).conclude steady
        (Frame.within_begin task surroundings a) (fun _ _ _ _ _ _ => trivial) ?_⟩
      exact fun t result d tried concludes ended =>
        ⟨d, tried, concludes, ended.data, ended.committed, fun _ _ => ended⟩
  exact upholds.run

end ReadModel
