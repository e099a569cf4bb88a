import ReadModel.Proofs.ReadPoint

/-!
What a page has.

A handler asks for the next events of some instances with one clause for each key that it follows. What
it gets are the first events of one list, of all that is pending for these instances
(`Handler.IsPage`): no clause leaves a gap in its key, and none has an event twice.
-/

namespace ReadModel

/-- The events of instances that a handler has still to apply, up to a date where there is one. -/
def EventLog.pendingUntil (log : EventLog) (h : Handler) (instances : List InstanceId) (d : StoreData)
    (asOf : Option Instant) : List Event :=
  log.events.filter fun e =>
    decide (e.instanceId ∈ instances) && h.registry.handles e.aggregateType &&
      decide (d.stands h.name e.key < e.sequence) && asOf.all fun date => !date.before e.creationDate

/-- The next page of some instances: the first pending events in ascending order. Where it is not bounded
by a date, it has of each key the first events above the stored sequence. -/
structure Handler.IsPage (h : Handler) (log : EventLog) (d : StoreData) (instances : List InstanceId)
    (asOf : Option Instant) (page : List Event) : Prop where
  first : page = (log.pendingUntil h instances d asOf).take h.config.bulkLimit
  ascending : page.Pairwise (·.sequence < ·.sequence)
  gapless : asOf = none → ∀ key, ∃ k, page.filter (fun e => decide (e.key = key)) =
    (log.events.filter fun e =>
      decide (e.key = key) && decide (d.stands h.name key < e.sequence)).take k

namespace Handler

variable {h : Handler} {log : EventLog} {d : StoreData} {instances : List InstanceId}

theorem filter_queryUntil_eq (h : Handler) (log : EventLog) (d : StoreData)
    (instances : List InstanceId) (asOf : Option Instant) :
    log.filter (h.queryUntil asOf (SequenceMap.ofRows (d.currentSequences h.name fun key =>
      decide (key.instanceId ∈ instances))) instances) =
      (log.pendingUntil h instances d asOf).take h.config.bulkLimit := by
  have pending : log.pendingUntil h instances d asOf =
      (log.pending h instances d).filter fun e => asOf.all fun date => !date.before e.creationDate := by
    rw [EventLog.pending, List.filter_filter]
    refine List.filter_congr fun e _ => ?_
    rw [Bool.and_comm, Bool.and_assoc]
  rw [pending]
  cases asOf with
  | none => exact (h.filter_pageQuery log d instances).trans (by simp)
  | some date => exact h.filter_queryUntil log d date instances

/-- Of a key that the handler follows all events above the stored sequence are pending, of another key
none. -/
theorem filter_pendingUntil (key : SequenceKey) :
    (log.pendingUntil h instances d none).filter (fun e => decide (e.key = key)) = [] ∨
      (log.pendingUntil h instances d none).filter (fun e => decide (e.key = key)) =
        log.events.filter fun e =>
          decide (e.key = key) && decide (d.stands h.name key < e.sequence) := by
  rw [EventLog.pendingUntil, List.filter_filter]
  by_cases follows : h.Follows instances key
  · refine .inr (List.filter_congr fun e _ => ?_)
    rw [Bool.eq_iff_iff]
    simp only [Bool.and_eq_true, decide_eq_true_eq, Option.all_none, and_true]
    constructor
    · rintro ⟨rfl, _, above⟩
      exact ⟨rfl, above⟩
    · rintro ⟨rfl, above⟩
      exact ⟨rfl, follows, above⟩
  · refine .inl (List.filter_eq_nil_iff.mpr fun e _ wanted => follows ?_)
    simp only [Bool.and_eq_true, decide_eq_true_eq] at wanted
    obtain ⟨rfl, ⟨followed, _⟩, _⟩ := wanted
    exact followed

theorem isPage_take (ascending : log.events.Pairwise (·.sequence < ·.sequence)) (asOf : Option Instant) :
    h.IsPage log d instances asOf
      ((log.pendingUntil h instances d asOf).take h.config.bulkLimit) where
  first := rfl
  ascending := (ascending.filter _).sublist (List.take_sublist _ _)
  gapless unbounded key := by
    subst unbounded
    have start := (List.take_prefix h.config.bulkLimit (log.pendingUntil h instances d none)).filter
      fun e => decide (e.key = key)
    rcases @filter_pendingUntil h log d instances key with none | all
    · rw [none] at start
      exact ⟨0, List.prefix_nil.mp start⟩
    · rw [all] at start
      exact ⟨_, List.prefix_iff_eq_take.mp start⟩

/-- What is found with the query of a handler is the next page of the instances, and nothing is written. -/
theorem searchQuery_page (h : Handler) (ctx : Context) (instances : List InstanceId)
    (around : Surroundings) (task : Nat) {w : World} (pushed : w.log.Pushed) :
    let fetched := (do
      let query ← h.searchQuery ctx instances
      askSource (.filter query)).run.run (World.answer around task) w
    ∃ page, fetched.1 = .ok page ∧ fetched.2.log = w.log ∧ fetched.2.store = w.store ∧
      h.IsPage w.log w.store.data instances ctx.asOf page := by
  refine ⟨w.log.filter (h.queryUntil ctx.asOf (SequenceMap.ofRows
    (w.store.data.currentSequences h.name fun key => decide (key.instanceId ∈ instances))) instances),
    rfl, rfl, rfl, ?_⟩
  rw [filter_queryUntil_eq]
  exact isPage_take pushed.linked.ascending ctx.asOf

/-- Of three organizations that are pending the first two come on a page of two, though their instance is
listed twice. -/
theorem searchQuery_page_of_twice_listed :
    let h : Handler := { orgsHandler with config := { bulkLimit := 2 } }
    let fetched := (do
      let query ← h.searchQuery default [⟨"a"⟩, ⟨"a"⟩]
      askSource (.filter query)).run.run (World.answer .still 0) threeOrgs
    threeOrgs.log.Pushed ∧ ∃ page, fetched.1 = .ok page ∧ fetched.2.log = threeOrgs.log ∧
      fetched.2.store = threeOrgs.store ∧
      h.IsPage threeOrgs.log threeOrgs.store.data [⟨"a"⟩, ⟨"a"⟩] none page ∧
      page.map (·.sequence) = [1, 2] := by
  intro h fetched
  have pushed : threeOrgs.log.Pushed := .push _ _ .empty
  obtain ⟨page, result, log, store, isPage⟩ :=
    h.searchQuery_page default [⟨"a"⟩, ⟨"a"⟩] .still 0 pushed
  refine ⟨pushed, page, result, log, store, isPage, ?_⟩
  have sequences : (fetched.1.toOption.map fun page => page.map (·.sequence)) = some [1, 2] := by
    decide +kernel
  rw [result] at sequences
  exact Option.some.inj sequences

end Handler

end ReadModel
