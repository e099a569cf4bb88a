import ReadModel.Proofs.Solo

/-!
Updates that overlap.

Rows that do not exist cannot be locked. Of two transactions that both find no row for a key, the
second is turned away only where it does not get beyond the first; where it does, it runs all events
of the key once more.
-/

namespace ReadModel

theorem Trial.past_of_applied {tried : Trial} {st : Statement} (member : st ∈ tried.applied) :
    st ∈ tried.past := by
  obtain ⟨⟨st, verdict⟩, inside, rfl⟩ := List.mem_map.mp member
  obtain ⟨inTried, applied⟩ := List.mem_filter.mp inside
  refine List.mem_map.mpr ⟨_, List.mem_filter.mpr ⟨inTried, ?_⟩, rfl⟩
  rw [of_decide_eq_true applied]
  rfl

namespace Carried

variable {h : Handler} {allowed : Faults → Prop} {log : EventLog} {batch : List Statement}
  {hidden : SequenceKey → Bool} {d d' : StoreData} {steps : List Step} {p : Progress}
  {tried : Trial} {st : Statement}

/-- What a plan got past was applied, or has failed too often. -/
theorem applied_of_past (carried : Carried h allowed d {} steps d' p tried)
    (distinct : (Step.statements steps).Pairwise (·.sequence ≠ ·.sequence))
    (member : st ∈ tried.past) : st ∈ tried.applied ∨
      h.config.maxFailureCount < d'.failures? h.name st.instanceId st.sequence := by
  obtain ⟨⟨st, verdict⟩, inside, rfl⟩ := List.mem_map.mp member
  obtain ⟨inTried, going⟩ := List.mem_filter.mp inside
  have counted := carried.count distinct _ inTried
  cases verdict with
  | applied => exact .inl (List.mem_map.mpr ⟨_, List.mem_filter.mpr ⟨inTried, rfl⟩, rfl⟩)
  | passedOver => exact .inr counted
  | stopped => simp at going

/-- A transaction that is committed gets past an event at or below the stored sequence of its key
exactly if the key was hidden and is moved further. -/
theorem rerun_iff (carried : Carried h allowed d {} steps d' p tried) (linked : log.Linked)
    (keeps : h.registry.KeepsIdentity) (logged : h.registry.Logged log batch)
    (plan : h.planIn log (d.locked h.name hidden batch) 0 batch = .ok steps)
    (below : ∀ entry ∈ p.advanced.entries, ∀ n,
      d'.sequence? h.name entry.1 = some n → n < entry.2)
    {e : Event} (inLog : e ∈ log.events) (reduced : h.registry.reduce e = .ok st)
    (done : st.sequence ≤ d.stands h.name st.key) :
    st ∈ tried.past ↔ hidden st.key = true ∧
      d.stands h.name st.key < (d'.raiseAll h.name p.advanced).stands h.name st.key := by
  have positive := linked.positive e inLog
  rw [← keeps.sequence reduced] at positive
  constructor
  · intro member
    obtain ⟨_, _, _, above, st', inBatch, same⟩ :=
      linked.mem_statements keeps logged plan (carried.past_prefix.subset member)
    have known := d.get_locked h.name hidden inBatch
    rw [same] at known
    have veiled : hidden st.key = true := by
      by_contra shown
      rw [if_neg shown] at known
      omega
    have touched : ∃ st' ∈ tried.past, st'.key = st.key := ⟨st, member, rfl⟩
    have entry := carried.mem_advanced.mpr ⟨touched, rfl⟩
    refine ⟨veiled, ?_⟩
    rw [carried.stands, if_pos touched]
    refine below _ entry _ ?_
    rw [carried.sequence?]
    exact StoreData.sequence?_of_stands (Nat.lt_of_lt_of_le positive done)
  · rintro ⟨veiled, further⟩
    -- a hidden key starts from zero, so that all its events up to the last one are run
    rw [carried.stands] at further
    split at further
    next touched =>
      obtain ⟨last, inPast, ours, _⟩ := Statement.exists_reach touched
      obtain ⟨_, _, _, _, st', inBatch, same⟩ :=
        linked.mem_statements keeps logged plan (carried.past_prefix.subset inPast)
      have known := d.get_locked h.name hidden inBatch
      rw [same, ours, if_pos veiled] at known
      have whole := carried.past_of_key linked keeps logged plan st.key
      rw [known, Nat.zero_max] at whole
      have inside : e ∈ log.between st.key 0 (Statement.reach st.key tried.past) := by
        rw [EventLog.mem_between, ← keeps.sequence reduced]
        exact ⟨inLog, (keeps.key reduced).symm, positive, by omega⟩
      obtain ⟨again, member, reduced'⟩ := Registry.exists_statement whole inside
      rw [reduced] at reduced'
      rw [Except.ok.inj reduced']
      exact (List.mem_filter.mp member).1
    next => exact absurd further (Nat.lt_irrefl _)

/-- What a transaction got past without anything hidden lies between the old sequence of its key and
the new one. -/
theorem stands_of_past (carried : Carried h allowed d {} steps d' p tried) (linked : log.Linked)
    (keeps : h.registry.KeepsIdentity) (logged : h.registry.Logged log batch)
    (plan : h.planIn log (d.locked h.name (fun _ => false) batch) 0 batch = .ok steps)
    (member : st ∈ tried.past) : ∃ e ∈ log.events, h.registry.reduce e = .ok st ∧
      st.sequence ≤ (d'.raiseAll h.name p.advanced).stands h.name st.key := by
  obtain ⟨e, inLog, reduced, _⟩ :=
    linked.above_stands keeps logged plan (carried.past_prefix.subset member)
  refine ⟨e, inLog, reduced, ?_⟩
  rw [carried.stands, if_pos ⟨st, member, rfl⟩]
  exact Statement.le_reach member

end Carried

theorem EventLog.Linked.of_prefix {log log' : EventLog} (linked : log'.Linked)
    (grown : log.events <+: log'.events) : log.Linked where
  ascending := linked.ascending.sublist grown.sublist
  positive e member := linked.positive e (grown.subset member)
  back e member f other := linked.back e (grown.subset member) f (grown.subset other)

/-- A key that had no row before a first transaction is moved beyond it by a second one. -/
def StoreData.Overtaken (before between after : StoreData) (projection : String)
    (key : SequenceKey) : Prop :=
  before.sequence? projection key = none ∧
    between.stands projection key < after.stands projection key

section Overlap

variable {first second : Handler} {a b c d : Audit} {surroundings surroundings' : Surroundings}
  {task task' : Nat} {ctx ctx' : Context} {batch batch' : List Statement}
  {result result' : Except HandlerError (Option Nat)}

/-- An update is committed, then another one of the same projection runs on what it has left, and
finds no rows where the first found none. The second changes nothing, or it is committed; then it
applies an operation again that the first has applied exactly if it overtakes the first at its key,
unless the event has failed too often by then. -/
theorem Handler.overlap (sameName : second.name = first.name)
    (sameRegistry : second.registry = first.registry) (keeps : first.registry.KeepsIdentity)
    (run : (first.update ctx batch).run.run (Audit.answer surroundings task) a = (result, b))
    (run' : (second.update ctx' batch').run.run (Audit.answer surroundings' task') c = (result', d))
    (pushed : c.world.log.Pushed) (grown : a.world.log.events <+: c.world.log.events)
    (logged : first.registry.Logged a.world.log batch)
    (logged' : first.registry.Logged c.world.log batch')
    (shown : a.world.hidden = fun _ => false) (done : wasCommitted result = true)
    (follows : c.world.store.data = b.world.store.data)
    (stale : c.world.hidden = fun key => (a.world.store.data.sequence? first.name key).isNone) :
    b.ledger.committed =
        a.ledger.committed ++ (first.trial a.world batch).applied.map (·.operation) ∧
      (wasCommitted result' = false → d.world.store.data = c.world.store.data ∧
        d.ledger.committed = c.ledger.committed) ∧
      (wasCommitted result' = true →
        d.ledger.committed =
          c.ledger.committed ++ (second.trial c.world batch').applied.map (·.operation) ∧
        ∀ st ∈ (first.trial a.world batch).applied,
          (st ∈ (second.trial c.world batch').applied →
            a.world.store.data.Overtaken b.world.store.data d.world.store.data first.name st.key) ∧
          (a.world.store.data.Overtaken b.world.store.data d.world.store.data first.name st.key →
            st ∈ (second.trial c.world batch').applied ∨
              second.config.maxFailureCount <
                d.world.store.data.failures? first.name st.instanceId st.sequence)) := by
  obtain ⟨name, registry, config, owner⟩ := second
  dsimp only at sameName sameRegistry
  subst sameName sameRegistry
  have linked' := pushed.linked
  have linked := linked'.of_prefix grown
  obtain ⟨data, tried, concludes, left, entered, _⟩ :=
    first.update_concludes ctx batch task surroundings a
  obtain ⟨data', tried', concludes', left', entered', _⟩ :=
    Handler.update_concludes ⟨first.name, first.registry, config, owner⟩ ctx' batch' task'
      surroundings' c
  rw [run] at concludes left entered
  rw [run'] at concludes' left' entered'
  refine ⟨?_, fun failed => ?_, fun done' => ?_⟩
  · rw [← concludes.trial_eq done]
    exact entered
  · obtain ⟨same, nothing⟩ := concludes'.unchanged failed
    rw [nothing] at entered'
    exact ⟨left'.trans same, entered'.trans (List.append_nil _)⟩
  · rw [← concludes.trial_eq done, ← concludes'.trial_eq done']
    refine ⟨entered', fun st member => ?_⟩
    obtain ⟨o, steps, d₁, p, rfl, plan, carried, _, written, _⟩ := concludes.carried done
    obtain ⟨o', steps', d₂, p', rfl, plan', carried', below, written', _⟩ :=
      concludes'.carried done'
    have plan : first.planIn a.world.log
        (a.world.store.data.locked first.name (fun _ => false) batch) 0 batch = .ok steps := by
      rw [← shown]
      exact plan
    have plan' : Handler.planIn ⟨first.name, first.registry, config, owner⟩ c.world.log
        (b.world.store.data.locked first.name
          (fun key => (a.world.store.data.sequence? first.name key).isNone) batch') 0 batch' =
        .ok steps' := by
      rw [← stale, ← follows]
      exact plan'
    have base' : (Frame.alone task' c).base = b.world.store.data := follows
    rw [base'] at carried'
    obtain ⟨e, inLog, reduced, settled⟩ :=
      carried.stands_of_past linked keeps logged plan (Trial.past_of_applied member)
    rw [← written, ← left] at settled
    have rerun := carried'.rerun_iff linked' keeps logged' plan' below (grown.subset inLog) reduced
      settled
    rw [← written', ← left', Option.isNone_iff_eq_none] at rerun
    refine ⟨fun again => rerun.mp (Trial.past_of_applied again), fun overtaken => ?_⟩
    have distinct := linked'.statements_distinct
      (h := ⟨first.name, first.registry, config, owner⟩) keeps logged' plan'
    have outcome := carried'.applied_of_past distinct (rerun.mpr overtaken)
    rw [left', written', StoreData.failures?_raiseAll]
    exact outcome

/-- Two of three organizations are added. -/
def twoAdded : Except HandlerError (Option Nat) × Audit :=
  (orgsHandler.update { token := ⟨0, []⟩ }
    (orgsHandler.registry.firstStatements threeOrgs.log 2)).run.run
      (Audit.answer .still 0) { world := threeOrgs }

/-- Where no row is found that was not there before. -/
def unseen : Audit :=
  { twoAdded.2 with
    world.hidden := fun key => (threeOrgs.store.data.sequence? orgsHandler.name key).isNone }

/-- All three organizations are added by one who has seen none of them. -/
def threeAdded : Except HandlerError (Option Nat) × Audit :=
  (orgsHandler.update { token := ⟨1, []⟩ }
    (orgsHandler.registry.firstStatements threeOrgs.log 3)).run.run
      (Audit.answer .still 1) unseen

/-- Both transactions are committed, and the first two organizations have two rows each. -/
theorem Handler.overlap_twice :
    wasCommitted twoAdded.1 = true ∧ wasCommitted threeAdded.1 = true ∧
      (∀ st ∈ (orgsHandler.trial threeOrgs
          (orgsHandler.registry.firstStatements threeOrgs.log 2)).applied,
        st ∈ (orgsHandler.trial unseen.world
          (orgsHandler.registry.firstStatements threeOrgs.log 3)).applied) ∧
      (twoAdded.2.world.store.data.tables.rows orgsTable).length = 2 ∧
      (threeAdded.2.world.store.data.tables.rows orgsTable).length = 5 := by
  have log : unseen.world.log = threeOrgs.log := rfl
  have pushed : threeOrgs.log.Pushed := .push _ _ .empty
  have done : wasCommitted twoAdded.1 = true := by decide +kernel
  have done' : wasCommitted threeAdded.1 = true := by decide +kernel
  have run : (orgsHandler.update { token := ⟨0, []⟩ }
      (orgsHandler.registry.firstStatements threeOrgs.log 2)).run.run
        (Audit.answer .still 0) { world := threeOrgs } = (twoAdded.1, twoAdded.2) := rfl
  have run' : (orgsHandler.update { token := ⟨1, []⟩ }
      (orgsHandler.registry.firstStatements threeOrgs.log 3)).run.run
        (Audit.answer .still 1) unseen = (threeAdded.1, threeAdded.2) := rfl
  obtain ⟨_, _, twice⟩ := Handler.overlap rfl rfl Orgs.keepsIdentity run run' (log ▸ pushed)
    (log ▸ List.prefix_rfl) (Registry.logged_firstStatements _ _ _)
    (log ▸ Registry.logged_firstStatements _ _ _) rfl done rfl rfl
  have key : ∀ st ∈ (orgsHandler.trial threeOrgs
      (orgsHandler.registry.firstStatements threeOrgs.log 2)).applied,
        st.key = ⟨⟨"org"⟩, ⟨"a"⟩⟩ := by decide +kernel
  have overtaken : threeOrgs.store.data.Overtaken twoAdded.2.world.store.data
      threeAdded.2.world.store.data orgsHandler.name ⟨⟨"org"⟩, ⟨"a"⟩⟩ :=
    ⟨rfl, by decide +kernel⟩
  have spotless : threeAdded.2.world.store.data.failures = ∅ := by decide +kernel
  refine ⟨done, done', fun st member => ?_, by decide +kernel, by decide +kernel⟩
  rcases ((twice done').2 st member).2 ((key st member).symm ▸ overtaken) with again | often
  · exact again
  · rw [StoreData.failures?, StoreData.failure?, spotless] at often
    exact absurd often (Nat.not_lt_zero _)

end Overlap

end ReadModel
