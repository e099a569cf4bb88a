import ReadModel.Proofs.Advancing

/-!
Gaps.

A plan fills the gaps of its batch: of each key it runs the events that are missing, in order and once,
whatever order the statements of the batch are in.
-/

namespace ReadModel

/-- The index of the statement of a batch that a step deals with. -/
def Step.index? : Step → Option Nat
  | .skip index => some index
  | .run _ origin => origin

section Indices

variable {known : SequenceMap} {index : Nat} {batch : List Statement} {steps : List Step}

theorem Step.Missing.indices (missing : Step.Missing steps) : steps.filterMap Step.index? = [] := by
  rw [List.filterMap_eq_nil_iff]
  intro step member
  obtain ⟨st, rfl⟩ := missing step member
  rfl

/-- A plan deals with the statements of its batch one after the other. -/
theorem Planned.indices (planned : Planned known index batch steps) :
    steps.filterMap Step.index? = List.range' index batch.length := by
  induction planned with
  | nil => rfl
  | skip _ _ ih => rw [List.length_cons, List.range'_succ, ← ih]; rfl
  | run missing _ ih =>
    rw [List.length_cons, List.range'_succ, ← ih, List.filterMap_append, missing.indices]
    rfl

theorem Planned.origin (planned : Planned known index batch steps) {st : Statement} {i : Nat}
    (member : Step.run st (some i) ∈ steps) : ∃ k, i = index + k ∧ batch[k]? = some st := by
  induction planned with
  | nil => cases member
  | skip _ _ ih =>
    rcases List.mem_cons.mp member with same | later
    · cases same
    · obtain ⟨k, rfl, found⟩ := ih later
      exact ⟨k + 1, by omega, found⟩
  | run missing _ ih =>
    rcases List.mem_append.mp member with before | here
    · obtain ⟨_, none⟩ := missing _ before
      cases none
    · rcases List.mem_cons.mp here with same | later
      · cases same
        exact ⟨0, rfl, rfl⟩
      · obtain ⟨k, rfl, found⟩ := ih later
        exact ⟨k + 1, by omega, found⟩

end Indices

namespace Handler

variable {h : Handler} {log : EventLog} {known : SequenceMap} {index : Nat} {batch : List Statement}
  {steps : List Step}

/-- What is fetched before a statement lies between the sequence that is known and its own. -/
theorem gapIn_ordered (ascending : log.events.Pairwise (·.sequence < ·.sequence))
    (keeps : h.registry.KeepsIdentity) {st : Statement} {last : Nat}
    (gap : h.gapIn log st last = .ok steps) :
    (Step.statements steps).Pairwise (·.sequence < ·.sequence) ∧
      ∀ st' ∈ Step.statements steps,
        st'.key = st.key ∧ last < st'.sequence ∧ st'.sequence < st.sequence := by
  unfold gapIn at gap
  split at gap
  next =>
    obtain rfl := Except.ok.inj gap
    exact ⟨.nil, by simp⟩
  next =>
    have filled := h.fill_statements (log.filter (gapQuery st.key last st.sequence))
    rw [gap, EventLog.filter_gapQuery] at filled
    have reduced : h.registry.reduceAll (log.between st.key last (st.sequence - 1)) =
      .ok (Step.statements steps) := filled.symm
    constructor
    · have order : (log.between st.key last (st.sequence - 1)).Pairwise
          (·.sequence < ·.sequence) := ascending.filter _
      rw [← List.pairwise_map (R := (· < ·))] at order ⊢
      rwa [keeps.map_sequence reduced]
    · intro st' member
      obtain ⟨e, inside, step⟩ := Registry.exists_event reduced member
      obtain ⟨_, same, above, below⟩ := EventLog.mem_between.mp inside
      rw [keeps.key step, keeps.sequence step]
      exact ⟨same, above, by omega⟩

/-- What is fetched before a statement gets its key no further than to below it, and no other key. -/
theorem gapIn_reach (ascending : log.events.Pairwise (·.sequence < ·.sequence))
    (keeps : h.registry.KeepsIdentity) {st : Statement} {last : Nat}
    (gap : h.gapIn log st last = .ok steps) (high : last < st.sequence) :
    Statement.reach st.key (Step.statements steps) < st.sequence ∧
      ∀ key, key ≠ st.key → Statement.reach key (Step.statements steps) = 0 := by
  obtain ⟨_, inside⟩ := gapIn_ordered ascending keeps gap
  constructor
  · by_cases some : ∃ st' ∈ Step.statements steps, st'.key = st.key
    · obtain ⟨st', member, _, largest⟩ := Statement.exists_reach some
      have := (inside st' member).2.2
      omega
    · rw [Statement.reach_eq_zero fun st' member ours => some ⟨st', member, ours⟩]
      omega
  · intro key apart
    exact Statement.reach_eq_zero fun st' member ours =>
      apart (ours.symm.trans (inside st' member).1)

/-- Of each key a plan runs statements above the one that is known, in ascending order. -/
theorem planIn_ordered (ascending : log.events.Pairwise (·.sequence < ·.sequence))
    (keeps : h.registry.KeepsIdentity) (plan : h.planIn log known index batch = .ok steps) :
    (Step.statements steps).Pairwise (fun st st' => st.key = st'.key → st.sequence < st'.sequence) ∧
      ∀ st ∈ Step.statements steps, known.get st.key < st.sequence := by
  induction batch generalizing known index steps with
  | nil =>
    obtain rfl := Except.ok.inj plan
    exact ⟨.nil, by simp⟩
  | cons st rest ih =>
    rcases planIn_ok_cases plan with ⟨later, _, others, rfl⟩ | ⟨missing, later, high, gap, others, rfl⟩
    · rw [Step.statements_skip]
      exact ih others
    · obtain ⟨order, inside⟩ := gapIn_ordered ascending keeps gap
      obtain ⟨orderLater, above⟩ := ih others
      -- what comes later lies above the sequence to which the key was advanced
      have beyond : ∀ st' ∈ Step.statements later, known.get st'.key < st'.sequence ∧
          (st.key = st'.key → st.sequence < st'.sequence) := by
        intro st' member
        have more := above st' member
        rw [SequenceMap.get_advance] at more
        split at more
        next same =>
          rw [← same]
          exact ⟨by omega, fun _ => by omega⟩
        next apart => exact ⟨more, fun same => absurd same apart⟩
      rw [Step.statements_append, Step.statements_run]
      constructor
      · have first : (Step.statements missing).Pairwise fun st st' =>
            st.key = st'.key → st.sequence < st'.sequence := by
          refine order.imp ?_
          exact fun less _ => less
        rw [List.pairwise_append, List.pairwise_cons]
        refine ⟨first, ⟨fun st' member => (beyond st' member).2, orderLater⟩, ?_⟩
        intro st' member st'' after same
        obtain ⟨ours, _, below⟩ := inside st' member
        rcases List.mem_cons.mp after with rfl | after
        · exact below
        · have := (beyond st'' after).2 (ours.symm.trans same)
          omega
      · intro st' member
        rcases List.mem_append.mp member with before | after
        · obtain ⟨ours, more, _⟩ := inside st' before
          rwa [ours]
        · rcases List.mem_cons.mp after with rfl | after
          · omega
          · exact (beyond st' after).1

theorem fill_unreduced {events : List Event} {e : ReduceError} (filled : h.fill events = .error e) :
    ∃ missing ∈ events, h.registry.reduce missing = .error e := by
  induction events with
  | nil => cases filled
  | cons event rest ih =>
    unfold fill at filled
    split at filled
    next cause reduced =>
      obtain rfl := Except.error.inj filled
      exact ⟨event, List.mem_cons_self .., reduced⟩
    next =>
      split at filled
      next cause later =>
        obtain rfl := Except.error.inj filled
        obtain ⟨missing, member, reduced⟩ := ih later
        exact ⟨missing, List.mem_cons_of_mem _ member, reduced⟩
      next => cases filled

/-- A plan fails at a statement before which an event is missing that is not reduced. -/
theorem planIn_unreduced {e : ReduceError} (plan : h.planIn log known index batch = .error e) :
    ∃ before st after, batch = before ++ st :: after ∧
      let last := max (known.get st.key) (Statement.reach st.key before)
      last < st.sequence ∧ st.previousSequence ≠ last ∧
        ∃ missing ∈ log.between st.key last (st.sequence - 1),
          h.registry.reduce missing = .error e := by
  induction batch generalizing known index with
  | nil => cases plan
  | cons st rest ih =>
    rcases planIn_error_cases plan with ⟨low, others⟩ | ⟨high, gap | others⟩
    · obtain ⟨before, st', after, rfl, failed⟩ := ih others
      refine ⟨st :: before, st', after, rfl, ?_⟩
      have same : max (known.get st'.key) (Statement.reach st'.key (st :: before)) =
          max (known.get st'.key) (Statement.reach st'.key before) := by
        rw [Statement.reach]
        split
        next ours =>
          rw [← ours]
          omega
        next => rfl
      rw [same]
      exact failed
    · refine ⟨[], st, rest, rfl, ?_⟩
      rw [Statement.reach, Nat.max_eq_left (Nat.zero_le _)]
      unfold gapIn at gap
      split at gap
      next => cases gap
      next apart =>
        rw [EventLog.filter_gapQuery] at gap
        exact ⟨high, apart, fill_unreduced gap⟩
    · obtain ⟨before, st', after, rfl, failed⟩ := ih others
      refine ⟨st :: before, st', after, rfl, ?_⟩
      have same : max (known.get st'.key) (Statement.reach st'.key (st :: before)) =
          max ((known.advance st.key st.sequence).get st'.key)
            (Statement.reach st'.key before) := by
        rw [Statement.reach, SequenceMap.get_advance]
        split
        next ours =>
          rw [← ours]
          omega
        next => rfl
      rw [same]
      exact failed

/-- What a plan for a batch makes of it: it deals with each statement once and in turn, and of each key
it runs statements in ascending order. Where the batch comes from the log, these are all events of its
keys above the sequences that are known, up to the last ones in the batch. -/
structure Fills (h : Handler) (log : EventLog) (known : SequenceMap) (batch : List Statement)
    (steps : List Step) : Prop where
  indices : steps.filterMap Step.index? = List.range batch.length
  origin : ∀ {st i}, Step.run st (some i) ∈ steps → batch[i]? = some st
  ascending : ∀ key, ((Step.statements steps).filter fun st => decide (st.key = key)).Pairwise
    (·.sequence < ·.sequence)
  above : ∀ st ∈ Step.statements steps, known.get st.key < st.sequence
  exact : h.registry.Logged log batch →
    (∀ st ∈ Step.statements steps, ∃ st' ∈ batch, st'.key = st.key) ∧
    ∀ key, h.registry.reduceAll
        (log.between key (known.get key) (Statement.reach key batch)) =
      .ok ((Step.statements steps).filter fun st => decide (st.key = key))

/-- A plan leaves the world as it is and fills all gaps of its batch, unless an event in one of these
gaps is not reduced. -/
theorem plan_fills_gaps (h : Handler) (surroundings : Surroundings) (task : Nat) {w : World}
    (pushed : w.log.Pushed) (keeps : h.registry.KeepsIdentity) (known : SequenceMap)
    (batch : List Statement) :
    let planned := (h.plan known 0 batch).run.run (World.answer surroundings task) w
    planned.2 = w ∧
      match planned.1 with
      | .ok steps => h.Fills w.log known batch steps
      | .error err => ∃ before st after, batch = before ++ st :: after ∧
          let last := max (known.get st.key) (Statement.reach st.key before)
          last < st.sequence ∧ st.previousSequence ≠ last ∧
            ∃ missing ∈ w.log.between st.key last (st.sequence - 1), ∃ e,
              h.registry.reduce missing = .error e ∧ err = .reduce e := by
  have linked := pushed.linked
  have upholds : (Setting.alone (World.answer surroundings task)).Upholds
      (fun result t => t = w ∧ result = planned (h.planIn w.log known 0 batch))
      (h.plan known 0 batch).run w := by
    refine upholds_plan (I := (· = w)) ?_ rfl fun t same => ⟨same, rfl⟩
    rintro st _ last post s rfl fetched
    rintro t rfl _
    exact ⟨trivial, fetched _ rfl⟩
  obtain ⟨same, result⟩ := upholds.run
  refine ⟨same, ?_⟩
  rw [result]
  cases plan : h.planIn w.log known 0 batch with
  | error e =>
    obtain ⟨before, st, after, parts, high, apart, missing, inside, reduced⟩ := planIn_unreduced plan
    exact ⟨before, st, after, parts, high, apart, missing, inside, e, reduced, rfl⟩
  | ok steps =>
    have planning := planIn_planned plan
    obtain ⟨order, above⟩ := planIn_ordered linked.ascending keeps plan
    refine ⟨?_, ?_, fun key => ?_, above, fun logged => ⟨?_, fun key => ?_⟩⟩
    · rw [planning.indices, List.range_eq_range']
    · intro st i member
      obtain ⟨k, rfl, found⟩ := planning.origin member
      rwa [Nat.zero_add]
    · refine (order.filter _).imp_of_mem fun {st st'} member member' less => less ?_
      have ours := of_decide_eq_true (List.mem_filter.mp member).2
      have ours' := of_decide_eq_true (List.mem_filter.mp member').2
      exact ours.trans ours'.symm
    · intro st member
      obtain ⟨_, _, _, _, inBatch⟩ := linked.mem_statements keeps logged plan member
      exact inBatch
    · rw [← linked.awaited_of_key known batch key]
      exact Registry.reduceAll_filter (linked.awaited_statements keeps logged plan) _ _
        fun e st reduced => by rw [keeps.key reduced]

/-- Of three organizations in reverse order the last one is planned first, behind the two that are
missing before it, and the others are passed over. -/
theorem plan_fills_gaps_of_reverse :
    let batch := (orgsHandler.registry.firstStatements threeOrgs.log 3).reverse
    let planned := (orgsHandler.plan ∅ 0 batch).run.run (World.answer .still 0) threeOrgs
    ∃ steps, planned.1 = .ok steps ∧ orgsHandler.Fills threeOrgs.log ∅ batch steps ∧
      (Step.statements steps).map (·.sequence) = [1, 2, 3] := by
  intro batch planned
  have fills := (orgsHandler.plan_fills_gaps .still 0 (w := threeOrgs) (.push _ _ .empty)
    Orgs.keepsIdentity ∅ batch).2
  have sequences : planned.1.toOption.map (fun steps => (Step.statements steps).map (·.sequence)) =
      some [1, 2, 3] := by decide +kernel
  revert fills sequences
  cases planned.1 with
  | error e =>
    intro _ none
    cases none
  | ok steps => exact fun fills sequences => ⟨steps, rfl, fills, Option.some.inj sequences⟩

end Handler

end ReadModel
