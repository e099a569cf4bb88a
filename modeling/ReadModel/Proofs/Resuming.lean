import ReadModel.Proofs.Gaps

/-!
Where a batch goes on.

An update that is committed in part reports the last statement that is applied. The batch goes on behind
it, with the first statement above the sequence at which its key stands: those before may be left out.
-/

namespace ReadModel

/-- The index at which a batch goes on behind the last statement that is applied. -/
def resumption : Option Nat → Nat
  | none => 0
  | some last => last + 1

/-- The last index before one at which a batch goes on. -/
def lastBefore : Nat → Option Nat
  | 0 => none
  | index + 1 => some index

@[simp]
theorem lastBefore_resumption (last : Option Nat) : lastBefore (resumption last) = last := by
  cases last <;> rfl

@[simp]
theorem resumption_lastBefore (index : Nat) : resumption (lastBefore index) = index := by
  cases index <;> rfl

theorem HandlerError.applied_someStatementsFailed (last : Option Nat) :
    (HandlerError.someStatementsFailed last).applied = resumption last := by
  cases last <;> rfl

theorem HandlerError.eq_of_applied {e : HandlerError} {index : Nat} (applied : e.applied = index + 1) :
    e = .someStatementsFailed (some index) := by
  cases e with
  | someStatementsFailed last =>
    cases last with
    | none => cases applied
    | some last => rw [Nat.succ.inj applied]
  | _ => cases applied

/-- The statements of a batch before an index are reached, and the one there is not. -/
structure StoreData.Resumes (d : StoreData) (projection : String) (batch : List Statement)
    (index : Nat) : Prop where
  le : index ≤ batch.length
  reached : ∀ st ∈ batch.take index, st.sequence ≤ d.stands projection st.key
  next : ∀ st, batch[index]? = some st → d.stands projection st.key < st.sequence

namespace StoreData.Resumes

variable {d : StoreData} {projection : String} {batch : List Statement} {i j : Nat}

theorem unique (first : d.Resumes projection batch i) (second : d.Resumes projection batch j) :
    i = j := by
  have le : ∀ {i j}, d.Resumes projection batch i → d.Resumes projection batch j → i ≤ j := by
    intro i j first second
    by_contra before
    have inside : j < batch.length := by
      have := first.le
      omega
    have there := List.getElem?_eq_getElem inside
    have early : batch[j] ∈ batch.take i := by
      refine List.mem_of_getElem? (i := j) ?_
      rw [List.getElem?_take, if_pos (by omega), there]
    have := first.reached _ early
    have := second.next _ there
    omega
  exact Nat.le_antisymm (le first second) (le second first)

/-- Where the first statements are reached, a batch goes on where the others do. -/
theorem of_drop (first : ∀ st ∈ batch.take i, st.sequence ≤ d.stands projection st.key)
    (le : i ≤ batch.length) (rest : d.Resumes projection (batch.drop i) j) :
    d.Resumes projection batch (i + j) := by
  have inside := rest.le
  rw [List.length_drop] at inside
  refine ⟨by omega, ?_, ?_⟩
  · intro st member
    rw [List.take_add] at member
    rcases List.mem_append.mp member with early | late
    · exact first st early
    · exact rest.reached st late
  · intro st found
    refine rest.next st ?_
    rwa [List.getElem?_drop]

end StoreData.Resumes

section Carrying

variable {h : Handler} {allowed : Faults → Prop} {log : EventLog} {known : SequenceMap}
  {index : Nat} {batch : List Statement} {steps : List Step} {d d' : StoreData} {p p' : Progress}
  {tried : Trial} {floor : SequenceKey → Nat}

/-- How far a plan has got its batch: to its end, or up to a statement that is not reached because it
has failed, or one that is missing before it. -/
inductive Halted (floor : SequenceKey → Nat) (p : Progress) (tried : Trial) (index : Nat)
    (batch : List Statement) : Prop
  | done : p.stopped = false → resumption p.lastApplied = index + batch.length →
      Halted floor p tried index batch
  | held {k : Nat} {st failed : Statement} : p.stopped = true → batch[k]? = some st →
      resumption p.lastApplied = index + k → p.far floor st.key < st.sequence →
      (failed, .stopped) ∈ tried → failed.key = st.key → failed.sequence ≤ st.sequence →
      Halted floor p tried index batch

theorem Halted.cons {rest : List Statement} {later : Trial}
    (halted : Halted floor p later (index + 1) rest) (among : later ⊆ tried) (st : Statement) :
    Halted floor p tried index (st :: rest) := by
  cases halted with
  | done going all =>
    refine .done going ?_
    rw [List.length_cons]
    omega
  | @held k st' failed stopped found place low ends ours upTo =>
    have there : (st :: rest)[k + 1]? = some st' := found
    exact .held stopped there (by omega) low (among ends) ours upTo

/-- A plan is carried out to its end, or up to a statement of the batch that is not reached. -/
theorem Carried.halted (carried : Carried h allowed d p steps d' p' tried)
    (plan : h.planIn log known index batch = .ok steps)
    (ascending : log.events.Pairwise (·.sequence < ·.sequence)) (keeps : h.registry.KeepsIdentity)
    (going : p.stopped = false) (here : resumption p.lastApplied = index)
    (close : ∀ st ∈ batch, p.far floor st.key ≤ known.get st.key) :
    Halted floor p' tried index batch := by
  induction batch generalizing known index steps d p tried with
  | nil =>
    obtain rfl := Except.ok.inj plan
    cases carried
    exact .done going here
  | cons st rest ih =>
    rcases Handler.planIn_ok_cases plan with
      ⟨later, _, others, rfl⟩ | ⟨missing, later, high, gap, others, rfl⟩
    · cases carried with
      | skip carried =>
        have halted := ih carried others going rfl fun st' member =>
          close st' (List.mem_cons_of_mem _ member)
        exact halted.cons (List.Subset.refl _) st
    · obtain ⟨below, elsewhere⟩ := Handler.gapIn_reach ascending keeps gap high
      have start := close st (List.mem_cons_self ..)
      rcases carried.beyond_missing (Handler.gapIn_missing gap) floor with
        ⟨stopped, same, more, failed, member, ends⟩ |
          ⟨d₁, p₁, tried₁, carried, among, going₁, same, more⟩
      · have bound := more.within st.key
        obtain ⟨_, inside⟩ := Handler.gapIn_ordered ascending keeps gap
        obtain ⟨ours, _, before⟩ := inside failed member
        have place : resumption p'.lastApplied = index + 0 := same ▸ here
        exact .held (k := 0) stopped rfl place (by omega) ends ours (Nat.le_of_lt before)
      have bound := more.within st.key
      cases carried with
      | stop =>
        have place : resumption p₁.lastApplied = index + 0 := same ▸ here
        have low : p₁.far floor st.key < st.sequence := by omega
        exact .held (k := 0) rfl rfl place low (among (List.mem_singleton_self _)) rfl
          (Nat.le_refl _)
      | past _ _ _ goesOn =>
        have further : ∀ st' ∈ rest, (p₁.past st (some index)).far floor st'.key ≤
            (known.advance st.key st.sequence).get st'.key := by
          intro st' member
          have bound' := more.within st'.key
          have start' := close st' (List.mem_cons_of_mem _ member)
          rw [Progress.far_past, SequenceMap.get_advance]
          split
          next ours =>
            rw [← ours]
            omega
          next apart =>
            have none := elsewhere st'.key fun same => apart same.symm
            omega
        have halted := ih goesOn others (going₁.trans going) rfl further
        exact halted.cons (List.Subset.trans (List.subset_cons_self _ _) among) st

end Carrying

/-- What an update leaves that has carried out a plan for its batch. -/
structure Handler.Carries (h : Handler) (batch : List Statement) (a b : Audit) (d : StoreData)
    (p : Progress) (steps : List Step) (tried : Trial) : Prop where
  plan : h.planIn a.world.log (a.world.store.data.locked h.name (fun _ => false) batch) 0 batch =
    .ok steps
  carried : Carried h (· = a.world.store.faults) a.world.store.data {} steps d p tried
  outside : b.world.outside = { a.world.outside with begins := a.world.store.begins + 1 }
  data : b.world.store.data = d.raiseAll h.name p.advanced

/-- In a calm world an update fails before it applies events, or it carries out its plan. -/
theorem Handler.update_carries (h : Handler) (ctx : Context) {batch : List Statement} (task : Nat)
    (around : Surroundings) {a : Audit} (linked : a.world.log.Linked)
    (keeps : h.registry.KeepsIdentity) (calm : Calm ctx.token a.world.outside)
    (logged : h.registry.Logged a.world.log batch) (some : batch ≠ []) :
    let ended := (h.update ctx batch).run.run (Audit.answer around task) a
    (∃ e, h.planIn a.world.log (a.world.store.data.locked h.name (fun _ => false) batch) 0 batch =
        .error e ∧ ended.1 = .error (.reduce e) ∧ ended.2.world.store.data = a.world.store.data) ∨
      ∃ d p steps tried, h.Carries batch a ended.2 d p steps tried ∧ ended.1 = p.result := by
  intro ended
  obtain ⟨d, tried, concludes, left, _, after⟩ := h.update_concludes ctx batch task around a
  rcases concludes.of_calm calm linked keeps logged with
    ⟨e, plan, result, rfl⟩ | ⟨steps, d', p, plan, carried, rfl, result⟩
  · exact .inl ⟨e, plan, result, left⟩
  · exact .inr ⟨d', p, steps, tried, ⟨plan, carried, (after some calm.uncancelled).around, left⟩,
      result⟩

namespace Handler.Carries

variable {h : Handler} {batch : List Statement} {a b c : Audit} {d d' : StoreData}
  {p p' : Progress} {steps steps' : List Step} {tried tried' : Trial}

theorem log (carries : h.Carries batch a b d p steps tried) : b.world.log = a.world.log :=
  congrArg Outside.log carries.outside

theorem calm (carries : h.Carries batch a b d p steps tried) {token : Token}
    (calm : Calm token a.world.outside) : Calm token b.world.outside :=
  carries.outside ▸ ⟨calm.shown, calm.accepting, calm.uncancelled⟩

theorem stands (carries : h.Carries batch a b d p steps tried) (linked : a.world.log.Linked)
    (keeps : h.registry.KeepsIdentity) (logged : h.registry.Logged a.world.log batch)
    (key : SequenceKey) : b.world.store.data.stands h.name key =
      max (a.world.store.data.stands h.name key) (Statement.reach key tried.past) := by
  rw [carries.data]
  exact carries.carried.stands_max linked keeps logged carries.plan key

/-- An update reports where its batch goes on: behind its end, or with a statement that has failed or
was to come after one that has failed. -/
theorem resumes (carries : h.Carries batch a b d p steps tried) (linked : a.world.log.Linked)
    (keeps : h.registry.KeepsIdentity) (logged : h.registry.Logged a.world.log batch) :
    b.world.store.data.Resumes h.name batch (resumption p.lastApplied) ∧
      ((p.stopped = false ∧ resumption p.lastApplied = batch.length) ∨
        p.stopped = true ∧ ∃ st, batch[resumption p.lastApplied]? = some st ∧
          ∃ failed, (failed, .stopped) ∈ tried ∧ failed.key = st.key ∧
            failed.sequence ≤ st.sequence) := by
  have carried := carries.carried
  have far : ∀ key, p.far (a.world.store.data.stands h.name) key =
      b.world.store.data.stands h.name key := by
    intro key
    rw [carries.stands linked keeps logged, Progress.far, carried.advanced,
      SequenceMap.get_advanceAll]
  have start : ∀ key, ({} : Progress).far (a.world.store.data.stands h.name) key =
      a.world.store.data.stands h.name key := fun key => Nat.max_eq_left (Nat.zero_le _)
  have unstarted : ∀ last, ({} : Progress).lastApplied = some last → last < 0 := by
    intro _ none
    cases none
  obtain ⟨covers, _⟩ := carried.covers (planIn_planned carries.plan) rfl unstarted
    (fun key => (StoreData.get_locked_le ..).trans (Nat.le_of_eq (start key).symm))
  have halted := carried.halted carries.plan linked.ascending keeps rfl rfl fun st member =>
    Nat.le_of_eq ((start st.key).trans (StoreData.get_locked_shown _ _ member).symm)
  cases halted with
  | done going all =>
    rw [Nat.zero_add] at all
    refine ⟨⟨Nat.le_of_eq all, fun st member => ?_, fun st found => ?_⟩, ?_⟩
    · obtain ⟨k, found⟩ := List.getElem?_of_mem (List.mem_of_mem_take member)
      rw [← far]
      exact covers.reached found (.inl going)
    · rw [all, List.getElem?_eq_none (Nat.le_refl _)] at found
      cases found
    · exact .inl ⟨going, all⟩
  | @held k st failed stopped found place low ends ours upTo =>
    rw [Nat.zero_add] at place
    have inside := (List.getElem?_eq_some_iff.mp found).1
    refine ⟨⟨by omega, fun st' member => ?_, fun st' found' => ?_⟩, ?_⟩
    · obtain ⟨j, found'⟩ := List.getElem?_of_mem member
      rw [List.getElem?_take] at found'
      split at found'
      next before =>
        rw [← far]
        refine covers.reached found' (.inr ?_)
        cases last : p.lastApplied with
        | none =>
          rw [last] at before
          exact absurd before (Nat.not_lt_zero _)
        | some index =>
          rw [last] at before
          exact ⟨index, rfl, by rw [Nat.zero_add]; exact Nat.le_of_lt_succ before⟩
      next => cases found'
    · rw [place, found] at found'
      obtain rfl := Option.some.inj found'
      rwa [← far]
    · rw [place]
      exact .inr ⟨stopped, st, found, failed, ends, ours, upTo⟩

end Handler.Carries

namespace EventLog

variable {log : EventLog} {known known' : SequenceMap} {batch : List Statement}

/-- What a batch stands for depends on what is known of its own keys. -/
theorem awaited_congr (same : ∀ st ∈ batch, known.get st.key = known'.get st.key) :
    log.awaited known batch = log.awaited known' batch := by
  induction batch generalizing known known' with
  | nil => rfl
  | cons st rest ih =>
    have here := same st (List.mem_cons_self ..)
    have later : ∀ st' ∈ rest, known.get st'.key = known'.get st'.key :=
      fun st' member => same st' (List.mem_cons_of_mem _ member)
    have advanced : ∀ st' ∈ rest, (known.advance st.key st.sequence).get st'.key =
        (known'.advance st.key st.sequence).get st'.key := by
      intro st' member
      rw [SequenceMap.get_advance, SequenceMap.get_advance, here, later st' member]
    rw [awaited, awaited, here, ih later, ih advanced]

theorem awaited_append_of_le {first : List Statement}
    (reached : ∀ st ∈ first, st.sequence ≤ known.get st.key) :
    log.awaited known (first ++ batch) = log.awaited known batch := by
  induction first with
  | nil => rfl
  | cons st rest ih =>
    obtain ⟨here, later⟩ := List.forall_mem_cons.mp reached
    rw [List.cons_append, awaited, if_pos here, ih later]

/-- Statements that are reached may be left out of a batch. -/
theorem awaited_drop (d : StoreData) (projection : String) {n : Nat}
    (reached : ∀ st ∈ batch.take n, st.sequence ≤ d.stands projection st.key) :
    log.awaited (d.locked projection (fun _ => false) batch) batch =
      log.awaited (d.locked projection (fun _ => false) (batch.drop n)) (batch.drop n) := by
  have whole : log.awaited (d.locked projection (fun _ => false) batch) (batch.take n ++ batch.drop n) =
      log.awaited (d.locked projection (fun _ => false) batch) (batch.drop n) := by
    refine awaited_append_of_le fun st member => ?_
    rw [d.get_locked_shown projection (List.mem_of_mem_take member)]
    exact reached st member
  rw [List.take_append_drop] at whole
  rw [whole]
  refine awaited_congr fun st member => ?_
  rw [d.get_locked_shown projection (List.mem_of_mem_drop member), d.get_locked_shown projection member]

end EventLog

/-- The answer to an update, for a batch with so many more statements in front. -/
def Handler.shifted (n : Nat) :
    Except HandlerError (Option Nat) → Except HandlerError (Option Nat)
  | .ok last => .ok (lastBefore (n + resumption last))
  | .error (.someStatementsFailed last) =>
    .error (.someStatementsFailed (lastBefore (n + resumption last)))
  | .error e => .error e

theorem Handler.result_shifted {p p' : Progress} {n : Nat} (stopped : p.stopped = p'.stopped)
    (place : resumption p.lastApplied = n + resumption p'.lastApplied) :
    p.result = shifted n p'.result := by
  have last : p.lastApplied = lastBefore (n + resumption p'.lastApplied) := by
    rw [← place, lastBefore_resumption]
  unfold Progress.result
  rw [stopped, last]
  cases p'.stopped <;> rfl

section Again

variable {h : Handler} {batch : List Statement} {a : Audit}

/-- Where the first statements are reached, an update does the same with them and without. -/
theorem Handler.update_drop (h : Handler) (ctx : Context) (task : Nat) (around : Surroundings)
    (linked : a.world.log.Linked) (keeps : h.registry.KeepsIdentity)
    (calm : Calm ctx.token a.world.outside) (logged : h.registry.Logged a.world.log batch) {n : Nat}
    (inside : n < batch.length)
    (reached : ∀ st ∈ batch.take n, st.sequence ≤ a.world.store.data.stands h.name st.key) :
    let whole := (h.update ctx batch).run.run (Audit.answer around task) a
    let rest := (h.update ctx (batch.drop n)).run.run (Audit.answer around task) a
    rest.2.world.store.data = whole.2.world.store.data ∧ whole.1 = shifted n rest.1 := by
  intro whole rest
  have some : batch ≠ [] := List.ne_nil_of_length_pos (by omega)
  have someLeft : batch.drop n ≠ [] := List.ne_nil_of_length_pos (by rw [List.length_drop]; omega)
  have plans := linked.planIn_statements keeps logged
    (a.world.store.data.locked h.name (fun _ => false) batch) 0
  rw [EventLog.awaited_drop _ _ reached, ← linked.planIn_statements keeps (logged.drop n) _ 0] at plans
  rcases h.update_carries ctx task around linked keeps calm logged some with
    ⟨e, plan, result, data⟩ | ⟨d, p, steps, tried, carries, result⟩ <;>
    rcases h.update_carries ctx task around linked keeps calm (logged.drop n) someLeft with
      ⟨e', plan', result', data'⟩ | ⟨d', p', steps', tried', carries', result'⟩
  · rw [plan, plan'] at plans
    refine ⟨data'.trans data.symm, ?_⟩
    rw [show whole.1 = _ from result, show rest.1 = _ from result']
    cases plans
    rfl
  · rw [plan, carries'.plan] at plans
    cases plans
  · rw [carries.plan, plan'] at plans
    cases plans
  · rw [carries.plan, carries'.plan] at plans
    obtain ⟨rfl, rfl, advanced, stopped⟩ :=
      carries.carried.agree carries'.carried (Except.ok.inj plans)
    have data : rest.2.world.store.data = whole.2.world.store.data := by
      rw [show whole.2.world.store.data = _ from carries.data,
        show rest.2.world.store.data = _ from carries'.data, advanced]
    refine ⟨data, ?_⟩
    rw [show whole.1 = _ from result, show rest.1 = _ from result']
    refine result_shifted stopped ?_
    -- both go on at the first statement that is not reached
    obtain ⟨there, _⟩ := carries.resumes linked keeps logged
    obtain ⟨later, _⟩ := carries'.resumes linked keeps (logged.drop n)
    rw [data] at later
    refine there.unique (.of_drop (fun st member => ?_) (Nat.le_of_lt inside) later)
    have stands := carries.stands linked keeps logged st.key
    rw [stands]
    exact (reached st member).trans (Nat.le_max_left ..)

/-- An update reports exactly how far its batch is applied. If it succeeds, that is up to its end. If
statements have failed, the batch goes on behind the last one that is reported, with one that is not
reached; and to go on with the rest of the batch comes to the same as to go on with the whole of it. -/
theorem Handler.update_resumes (h : Handler) (ctx : Context) (around : Surroundings) (task : Nat)
    {w : World} (pushed : w.log.Pushed) (keeps : h.registry.KeepsIdentity)
    (calm : Calm ctx.token w.outside) (logged : h.registry.Logged w.log batch) (some : batch ≠ []) :
    let ended := (h.update ctx batch).run.run (World.answer around task) w
    let stands := fun key => ended.2.store.data.stands h.name key
    (∀ last, ended.1 = .ok last →
      last = .some (batch.length - 1) ∧ ∀ st ∈ batch, st.sequence ≤ stands st.key) ∧
    ∀ last, ended.1 = .error (.someStatementsFailed last) →
      let i := resumption last
      (∃ st, batch[i]? = .some st ∧ stands st.key < st.sequence) ∧
      (∀ st ∈ batch.take i, st.sequence ≤ stands st.key) ∧
      let whole := (h.update ctx batch).run.run (World.answer around task) ended.2
      let rest := (h.update ctx (batch.drop i)).run.run (World.answer around task) ended.2
      rest.2.store.data = whole.2.store.data ∧ whole.1 = shifted i rest.1 := by
  have linked := pushed.linked
  rw [Audit.run_world around task (h.update ctx batch).run ⟨w, {}⟩]
  rcases h.update_carries (a := ⟨w, {}⟩) ctx task around linked keeps calm logged some with
    ⟨e, _, result, _⟩ | ⟨d, p, steps, tried, carries, result⟩
  · dsimp only
    rw [result]
    constructor <;> intro _ none <;> cases none
  generalize (h.update ctx batch).run.run (Audit.answer around task) ⟨w, {}⟩ = ended at carries result
  obtain ⟨resumes, ⟨going, all⟩ | ⟨stopped, st, found, _⟩⟩ := carries.resumes linked keeps logged
  · dsimp only
    rw [result, Progress.result, going]
    refine ⟨fun last applied => ?_, fun _ none => by cases none⟩
    obtain rfl := Except.ok.inj applied
    constructor
    · have same := lastBefore_resumption p.lastApplied
      rw [all, ← Nat.sub_add_cancel (List.length_pos_iff.mpr some)] at same
      exact same.symm
    · intro st member
      refine resumes.reached st ?_
      rwa [all, List.take_length]
  · dsimp only
    rw [result, Progress.result, stopped]
    refine ⟨fun _ none => (by cases none), fun last failed => ?_⟩
    obtain rfl : p.lastApplied = last := HandlerError.someStatementsFailed.inj (Except.error.inj failed)
    have inside := (List.getElem?_eq_some_iff.mp found).1
    refine ⟨⟨st, found, resumes.next st found⟩, resumes.reached, ?_⟩
    have again := h.update_drop (a := ⟨ended.2.world, {}⟩) ctx task around (carries.log ▸ linked) keeps
      (carries.calm calm) (carries.log ▸ logged) inside resumes.reached
    rw [Audit.run_world around task (h.update ctx batch).run ⟨ended.2.world, {}⟩,
      Audit.run_world around task (h.update ctx (batch.drop _)).run ⟨ended.2.world, {}⟩]
    exact again

/-- The second of three organizations can never be stored. Its batch goes on with it, and it is of no
matter whether the first one is left out. -/
theorem Handler.update_resumes_of_second :
    let h : Handler := { orgsHandler with config := { maxFailureCount := 3 } }
    let w : World :=
      { threeOrgs with store.faults.values := [⟨"projections.orgs", "name", .text "2"⟩] }
    let batch := h.registry.firstStatements threeOrgs.log 3
    let ctx : Context := { token := ⟨0, []⟩ }
    let ended := (h.update ctx batch).run.run (World.answer .still 0) w
    let whole := (h.update ctx batch).run.run (World.answer .still 0) ended.2
    let rest := (h.update ctx (batch.drop 1)).run.run (World.answer .still 0) ended.2
    ended.1 = .error (.someStatementsFailed (some 0)) ∧
      rest.2.store.data = whole.2.store.data ∧ whole.1 = shifted 1 rest.1 := by
  intro h w batch ctx
  have logged : h.registry.Logged w.log batch := h.registry.logged_firstStatements threeOrgs.log 3
  have some : batch ≠ [] := by
    intro none
    exact absurd (congrArg List.length none) (by decide +kernel)
  obtain ⟨_, resumes⟩ := h.update_resumes ctx .still 0 (w := w) (.push _ _ .empty) Orgs.keepsIdentity
    ⟨rfl, rfl, rfl⟩ logged some
  have first : ((h.update ctx batch).run.run (World.answer .still 0) w).1.mapError
      HandlerError.applied = .error 1 := by decide +kernel
  generalize (h.update ctx batch).run.run (World.answer .still 0) w = ended at resumes first
  dsimp only
  have failed : ended.1 = .error (.someStatementsFailed (.some 0)) := by
    revert first
    cases ended.1 with
    | ok last => exact fun none => by cases none
    | error e =>
      intro first
      rw [HandlerError.eq_of_applied (Except.error.inj first)]
  exact ⟨failed, (resumes _ failed).2.2⟩

end Again

end ReadModel
