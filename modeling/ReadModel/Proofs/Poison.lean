import Mathlib.Algebra.BigOperators.Group.List.Basic
import Mathlib.Algebra.GroupWithZero.Nat
import ReadModel.Proofs.CatchUp

/-!
Events that always fail.

An update that takes the first of the pending events runs them and nothing else. It gets past them up
to the first that fails and has not failed too often, counts its failure, and leaves the rest.
-/

namespace ReadModel

/-- Whether the operation of an event fails under some faults. -/
def Handler.poisoned (h : Handler) (faults : Faults) (e : Event) : Bool :=
  match h.registry.reduce e with
  | .ok st => (st.operation.run faults ∅).error.isSome
  | .error _ => false

/-- The operation of an event. -/
def Handler.operation? (h : Handler) (e : Event) : Option Operation :=
  match h.registry.reduce e with
  | .ok st => some st.operation
  | .error _ => none

/-- The operations of events that do not fail. -/
def Handler.soundOperations (h : Handler) (faults : Faults) (events : List Event) :
    List Operation :=
  (events.filter fun e => !h.poisoned faults e).filterMap h.operation?

/-- How often an event has failed. -/
def Handler.failures (h : Handler) (d : StoreData) (e : Event) : Nat :=
  d.failures? h.name e.instanceId e.sequence

/-- How many failures of events may still end a batch before all of them are passed over. -/
def Handler.patience (h : Handler) (faults : Faults) (d : StoreData) (events : List Event) : Nat :=
  ((events.filter (h.poisoned faults)).map fun e => h.config.maxFailureCount - h.failures d e).sum

/-- The steps that run statements one after the other. -/
def Step.each (index : Nat) : List Statement → List Step
  | [] => []
  | st :: rest => .run st (some index) :: each (index + 1) rest

@[simp]
theorem Step.statements_each (index : Nat) (batch : List Statement) :
    Step.statements (Step.each index batch) = batch := by
  induction batch generalizing index with
  | nil => rfl
  | cons st rest ih => exact congrArg (List.cons st) (ih (index + 1))

section Page

variable {h : Handler} {log : EventLog} {events : List Event} {batch : List Statement}

/-- Where no event is missing between those of a page, its plan runs nothing else. -/
theorem EventLog.planIn_page (keeps : h.registry.KeepsIdentity)
    (page : h.registry.reduceAll events = .ok batch) {known : SequenceMap} (index : Nat)
    (ascending : events.Pairwise (·.sequence < ·.sequence))
    (above : ∀ e ∈ events, known.get e.key < e.sequence)
    (closed : ∀ e ∈ events, ∀ f ∈ log.events, f.key = e.key → known.get e.key < f.sequence →
      f.sequence ≤ e.sequence → f ∈ events) :
    h.planIn log known index batch = .ok (Step.each index batch) := by
  rw [Registry.reduceAll_eq_ok_iff] at page
  induction page generalizing known index with
  | nil => rfl
  | @cons e st events batch reduced _ ih =>
    obtain ⟨first, later⟩ := List.pairwise_cons.mp ascending
    have key := keeps.key reduced
    have sequence := keeps.sequence reduced
    have here := above e (List.mem_cons_self ..)
    have gap : log.between e.key (known.get e.key) (e.sequence - 1) = [] := by
      rw [List.eq_nil_iff_forall_not_mem]
      intro f inside
      obtain ⟨inLog, same, more, below⟩ := EventLog.mem_between.mp inside
      have listed := closed e (List.mem_cons_self ..) f inLog same more (by omega)
      rcases List.mem_cons.mp listed with rfl | after
      · omega
      · have := first f after
        omega
    have none : h.gapIn log st (known.get st.key) = .ok [] := by
      unfold Handler.gapIn
      split
      next => rfl
      next => rw [EventLog.filter_gapQuery, key, sequence, gap]; rfl
    have rest : h.planIn log (known.advance st.key st.sequence) (index + 1) batch =
        .ok (Step.each (index + 1) batch) := by
      refine ih (index + 1) later ?_ ?_
      · intro f member
        have order := first f member
        have more := above f (List.mem_cons_of_mem _ member)
        rw [SequenceMap.get_advance, key, sequence]
        split
        next same =>
          rw [← same] at *
          omega
        next => exact more
      · intro f member g inLog same more below
        rw [SequenceMap.get_advance, key, sequence] at more
        have beyond : known.get f.key < g.sequence := by
          split at more
          next ours =>
            rw [← ours]
            omega
          next => exact more
        have listed := closed f (List.mem_cons_of_mem _ member) g inLog same beyond below
        rcases List.mem_cons.mp listed with rfl | after
        · rw [if_pos same] at more
          omega
        · exact after
    rw [Handler.planIn, if_neg (by rw [key, sequence]; omega), none, rest]
    rfl

/-- An update that takes the first of the pending events plans to run them and nothing else. -/
theorem EventLog.Linked.plan_page (linked : log.Linked) (keeps : h.registry.KeepsIdentity)
    {instances : List InstanceId} {d : StoreData} (first : events <+: log.pending h instances d)
    (page : h.registry.reduceAll events = .ok batch) :
    h.planIn log (d.locked h.name (fun _ => false) batch) 0 batch = .ok (Step.each 0 batch) := by
  have order : (log.pending h instances d).Pairwise (·.sequence < ·.sequence) :=
    linked.ascending.filter _
  have known : ∀ e ∈ events,
      (d.locked h.name (fun _ => false) batch).get e.key = d.stands h.name e.key := by
    intro e member
    obtain ⟨st, inBatch, reduced⟩ := Registry.exists_statement page member
    have locked := d.get_locked_shown h.name inBatch
    rwa [keeps.key reduced] at locked
  refine EventLog.planIn_page keeps page 0 (order.sublist first.sublist) ?_ ?_
  · intro e member
    rw [known e member]
    exact (EventLog.mem_pending.mp (first.subset member)).2.2
  · intro e member f inLog same above below
    rw [known e member] at above
    -- what is pending before an event of the page is in the page as well
    have listed : f ∈ log.pending h instances d := by
      rw [EventLog.mem_pending, same]
      exact ⟨inLog, (EventLog.mem_pending.mp (first.subset member)).2.1, above⟩
    obtain ⟨rest, whole⟩ := first
    rw [← whole] at listed order
    rcases List.mem_append.mp listed with here | later
    · exact here
    · have := (List.pairwise_append.mp order).2.2 e member f later
      omega

end Page

/-- What trying a statement under some faults makes of it and of the count of its failures. -/
def Handler.Tallied (h : Handler) (faults : Faults) (d d' : StoreData) (st : Statement)
    (verdict : Verdict) : Prop :=
  let before := d.failures? h.name st.instanceId st.sequence
  let after := d'.failures? h.name st.instanceId st.sequence
  match (st.operation.run faults ∅).error with
  | none => verdict = .applied ∧ after = before
  | some _ =>
    verdict = (if h.config.maxFailureCount ≤ before then .passedOver else .stopped) ∧
      after = before + 1

theorem Registry.reduceAll_drop {r : Registry} {events : List Event} {statements : List Statement}
    (reduced : r.reduceAll events = .ok statements) (n : Nat) :
    r.reduceAll (events.drop n) = .ok (statements.drop n) := by
  rw [reduceAll_eq_ok_iff] at *
  exact List.forall₂_drop n reduced

theorem Registry.reduceAll_split {r : Registry} {left right : List Statement} {st : Statement}
    {events : List Event} (reduced : r.reduceAll events = .ok (left ++ st :: right)) :
    ∃ past e rest, events = past ++ e :: rest ∧ past.length = left.length ∧
      r.reduceAll past = .ok left ∧ r.reduce e = .ok st := by
  rw [reduceAll_eq_ok_iff] at reduced
  induction left generalizing events with
  | nil =>
    obtain ⟨e, rest, here, _, rfl⟩ := List.forall₂_cons_right_iff.mp reduced
    exact ⟨[], e, rest, rfl, rfl, rfl, here⟩
  | cons first left ih =>
    obtain ⟨f, others, here, later, rfl⟩ := List.forall₂_cons_right_iff.mp reduced
    obtain ⟨past, e, rest, rfl, length, got, reduced⟩ := ih later
    refine ⟨f :: past, e, rest, rfl, congrArg (· + 1) length, ?_, reduced⟩
    rw [reduceAll_eq_ok_iff] at got ⊢
    exact .cons here got

section Attempts

variable {h : Handler} {faults : Faults} {d d' : StoreData} {p p' : Progress} {steps : List Step}
  {tried : Trial}

theorem Handler.attempted_tallied {st : Statement} {verdict : Verdict} {d₁ : StoreData}
    (attempt : h.attempted faults d st = (verdict, d₁)) : h.Tallied faults d d₁ st verdict := by
  unfold Tallied
  rw [Operation.run_error faults st.operation ∅ d.tables]
  rcases Handler.attempted_cases attempt with ⟨rfl, success, rfl⟩ | ⟨e, failure, rfl, rfl⟩
  · rw [success]
    exact ⟨rfl, rfl⟩
  · rw [failure]
    refine ⟨by simp only [Nat.lt_succ_iff], ?_⟩
    rw [StoreData.failures?, StoreData.failure?_recordFailure, if_pos ⟨rfl, rfl, rfl⟩]
    rfl

namespace Carried

/-- Each statement that was tried is tallied once. -/
theorem tallied (carried : Carried h (· = faults) d p steps d' p' tried)
    (distinct : (Step.statements steps).Pairwise (·.sequence ≠ ·.sequence)) :
    ∀ entry ∈ tried, h.Tallied faults d d' entry.1 entry.2 := by
  induction carried with
  | done => simp
  | skip _ ih => exact ih distinct
  | @past d p st origin rest f verdict d₁ d' p' tried met attempt _ carried ih =>
    obtain rfl := met
    obtain ⟨apart, others⟩ := List.pairwise_cons.mp distinct
    have elsewhere : ∀ entry ∈ tried, entry.1.sequence ≠ st.sequence := by
      intro entry member
      exact (apart _ (carried.tried_prefix.subset (List.mem_map_of_mem member))).symm
    intro entry member
    rcases List.mem_cons.mp member with rfl | later
    · have here := Handler.attempted_tallied attempt
      have kept : d'.failures? h.name st.instanceId st.sequence =
          d₁.failures? h.name st.instanceId st.sequence :=
        carried.failures fun entry member same => elsewhere entry member same.2
      unfold Handler.Tallied at here ⊢
      rwa [kept]
    · have there := ih others entry later
      have kept : d₁.failures? h.name entry.1.instanceId entry.1.sequence =
          d.failures? h.name entry.1.instanceId entry.1.sequence :=
        Handler.attempted_failures attempt fun same => elsewhere entry later same.2.symm
      unfold Handler.Tallied at there ⊢
      rwa [kept] at there
  | @stop d p st origin rest f d₁ met attempt =>
    obtain rfl := met
    intro entry member
    rw [List.mem_singleton.mp member]
    exact Handler.attempted_tallied attempt

/-- Those statements are applied whose operations do not fail. -/
theorem applied_of_faults (carried : Carried h (· = faults) d p steps d' p' tried) :
    tried.applied = tried.past.filter fun st => (st.operation.run faults ∅).error.isNone := by
  induction carried with
  | done => rfl
  | skip _ ih => exact ih
  | @past d p st origin rest f verdict d₁ d' p' tried met attempt going _ ih =>
    obtain rfl := met
    have tallied := Handler.attempted_tallied attempt
    unfold Handler.Tallied at tallied
    unfold Trial.applied Trial.past at ih ⊢
    cases run : (st.operation.run f ∅).error with
    | none =>
      rw [run] at tallied
      simp [tallied.1, run, ih]
    | some e =>
      rw [run] at tallied
      have other : verdict ≠ .applied := by
        rw [tallied.1]
        split <;> exact Verdict.noConfusion
      simp [going, other, run, ih]
  | stop => simp [Trial.applied, Trial.past]

/-- A plan is carried out to its end, or up to the statement that ends the batch. -/
theorem past_or_stop (carried : Carried h (· = faults) d p steps d' p' tried)
    (going : p.stopped = false) :
    (p'.stopped = false ∧ Step.statements steps = tried.past ∧ tried.map Prod.fst = tried.past) ∨
    ∃ st rest, p'.stopped = true ∧ Step.statements steps = tried.past ++ st :: rest ∧
      (st, .stopped) ∈ tried ∧ tried.map Prod.fst = tried.past ++ [st] := by
  induction carried with
  | done => exact .inl ⟨going, rfl, rfl⟩
  | skip _ ih => exact ih going
  | @past d p st origin rest f verdict d₁ d' p' tried _ _ goesOn _ ih =>
    have cons : Trial.past ((st, verdict) :: tried) = st :: tried.past := by
      simp [Trial.past, goesOn]
    rw [cons, Step.statements_run, List.map_cons]
    rcases ih going with ⟨on, whole, all⟩ | ⟨last, others, off, parts, member, all⟩
    · exact .inl ⟨on, congrArg _ whole, congrArg _ all⟩
    · exact .inr ⟨last, others, off, congrArg _ parts, List.mem_cons_of_mem _ member,
        congrArg _ all⟩
  | @stop d p st origin rest f d₁ met attempt =>
    exact .inr ⟨st, _, rfl, rfl, List.mem_singleton_self _, rfl⟩

/-- The last index that is applied counts the statements that were got past. -/
theorem lastApplied_each {index : Nat} {batch : List Statement}
    (carried : Carried h (· = faults) d p (Step.each index batch) d' p' tried) :
    p'.lastApplied =
      if tried.past.length = 0 then p.lastApplied else some (index + tried.past.length - 1) := by
  induction batch generalizing index d p tried with
  | nil =>
    cases carried
    rfl
  | cons st rest ih =>
    cases carried with
    | @past _ _ _ _ _ _ verdict _ _ _ tried' _ _ goesOn later =>
      have cons : Trial.past ((st, verdict) :: tried') = st :: tried'.past := by
        simp [Trial.past, goesOn]
      rw [ih later, cons, List.length_cons]
      split
      next none => simp [Progress.past, none]
      next some => rw [if_neg (by omega)]; congr 1; omega
    | stop => rfl

end Carried

end Attempts

section Update

variable {h : Handler} {instances : List InstanceId} {faults : Faults} {d d' : StoreData}
  {events : List Event} {batch : List Statement}

theorem Handler.soundOperations_append (h : Handler) (faults : Faults) (left right : List Event) :
    h.soundOperations faults (left ++ right) =
      h.soundOperations faults left ++ h.soundOperations faults right := by
  simp only [soundOperations, List.filter_append, List.filterMap_append]

theorem EventLog.Linked.pending_nodup {log : EventLog} (linked : log.Linked) (h : Handler)
    (instances : List InstanceId) (d : StoreData) :
    (log.pending h instances d).Nodup :=
  (linked.ascending.filter _).imp fun order same => by rw [same] at order; omega

theorem Handler.poisoned_eq {e : Event} {st : Statement} (reduced : h.registry.reduce e = .ok st) :
    h.poisoned faults e = (st.operation.run faults ∅).error.isSome := by
  rw [poisoned, reduced]

theorem Handler.soundOperations_eq (reduced : h.registry.reduceAll events = .ok batch) :
    h.soundOperations faults events =
      (batch.filter fun st => (st.operation.run faults ∅).error.isNone).map (·.operation) := by
  rw [Registry.reduceAll_eq_ok_iff] at reduced
  unfold soundOperations
  induction reduced with
  | nil => rfl
  | @cons e st events batch here _ ih =>
    have operation : h.operation? e = some st.operation := by rw [operation?, here]
    rw [List.filter_cons, List.filter_cons, poisoned_eq here]
    cases (st.operation.run faults ∅).error with
    | none => simp [operation, ih]
    | some e => exact ih

theorem Handler.patience_append (h : Handler) (faults : Faults) (d : StoreData)
    (left right : List Event) : h.patience faults d (left ++ right) =
      h.patience faults d left + h.patience faults d right := by
  simp only [patience, List.filter_append, List.map_append, List.sum_append]

theorem Handler.patience_cons (h : Handler) (faults : Faults) (d : StoreData) (e : Event)
    (events : List Event) : h.patience faults d (e :: events) =
      (if h.poisoned faults e then h.config.maxFailureCount - h.failures d e else 0) +
        h.patience faults d events := by
  unfold patience
  rw [List.filter_cons]
  split
  next => rw [List.map_cons, List.sum_cons]
  next => rw [Nat.zero_add]

theorem Handler.patience_congr (same : ∀ e ∈ events, h.failures d' e = h.failures d e) :
    h.patience faults d' events = h.patience faults d events := by
  unfold patience
  congr 1
  refine List.map_congr_left fun e member => ?_
  rw [same e (List.mem_of_mem_filter member)]

theorem Handler.patience_eq_zero (spent : ∀ e ∈ events, h.poisoned faults e = true →
    h.config.maxFailureCount ≤ h.failures d e) : h.patience faults d events = 0 := by
  induction events with
  | nil => rfl
  | cons e rest ih =>
    rw [patience_cons, ih fun f member => spent f (List.mem_cons_of_mem _ member)]
    split
    next poisoned =>
      have := spent e (List.mem_cons_self ..) poisoned
      omega
    next => rfl

variable {log : EventLog} {p₀ p : Progress} {tried : Trial}

namespace Carried

/-- A key stands in the end at the last statement that was got past. -/
theorem stands_max {allowed : Faults → Prop} {steps : List Step}
    (carried : Carried h allowed d {} steps d' p tried) (linked : log.Linked)
    (keeps : h.registry.KeepsIdentity) (logged : h.registry.Logged log batch)
    (plan : h.planIn log (d.locked h.name (fun _ => false) batch) 0 batch = .ok steps)
    (key : SequenceKey) : (d'.raiseAll h.name p.advanced).stands h.name key =
      max (d.stands h.name key) (Statement.reach key tried.past) := by
  rw [carried.stands]
  split
  next touched =>
    obtain ⟨st, inPast, rfl, largest⟩ := Statement.exists_reach touched
    obtain ⟨_, _, _, above, _⟩ :=
      linked.above_stands keeps logged plan (carried.past_prefix.subset inPast)
    omega
  next untouched =>
    rw [Statement.reach_eq_zero fun st inPast ours => untouched ⟨st, inPast, ours⟩, Nat.max_zero]

theorem pending_past {allowed : Faults → Prop} {steps : List Step} {past : List Event}
    (carried : Carried h allowed d {} steps d' p tried) (linked : log.Linked)
    (keeps : h.registry.KeepsIdentity) (logged : h.registry.Logged log batch)
    (plan : h.planIn log (d.locked h.name (fun _ => false) batch) 0 batch = .ok steps)
    (first : past <+: log.pending h instances d) (got : h.registry.reduceAll past = .ok tried.past) :
    log.pending h instances d =
      past ++ log.pending h instances (d'.raiseAll h.name p.advanced) := by
  rw [List.prefix_iff_eq_take.mp first] at got
  have rest := linked.pending_drop keeps got (carried.stands_max linked keeps logged plan)
  rw [rest]
  exact (List.prefix_iff_eq_append.mp first).symm

/-- The failures of events that are got past are counted, and they have failed too often by then. -/
theorem failures_past {steps : List Step} (carried : Carried h (· = faults) d p₀ steps d' p tried)
    (distinct : (Step.statements steps).Pairwise (·.sequence ≠ ·.sequence))
    (keeps : h.registry.KeepsIdentity) {e : Event} {st : Statement}
    (reduced : h.registry.reduce e = .ok st) (member : st ∈ tried.past)
    (poisoned : h.poisoned faults e = true) :
    h.config.maxFailureCount ≤ h.failures d e ∧ h.failures d' e = h.failures d e + 1 := by
  obtain ⟨⟨_, verdict⟩, inTried, rfl⟩ := List.mem_map.mp member
  obtain ⟨inTried, going⟩ := List.mem_filter.mp inTried
  have tallied := carried.tallied distinct _ inTried
  obtain ⟨cause, failure⟩ := Option.isSome_iff_exists.mp (Handler.poisoned_eq reduced ▸ poisoned)
  unfold Handler.Tallied at tallied
  dsimp only at tallied going failure
  rw [failure, keeps.instanceId reduced, keeps.sequence reduced] at tallied
  obtain ⟨said, counted⟩ : verdict =
      (if h.config.maxFailureCount ≤ h.failures d e then .passedOver else .stopped) ∧
        h.failures d' e = h.failures d e + 1 := tallied
  refine ⟨?_, counted⟩
  by_contra seldom
  rw [if_neg seldom] at said
  simp [said] at going

/-- The event that ends a batch has not failed too often. -/
theorem failures_stopped {steps : List Step} (carried : Carried h (· = faults) d p₀ steps d' p tried)
    (distinct : (Step.statements steps).Pairwise (·.sequence ≠ ·.sequence))
    (keeps : h.registry.KeepsIdentity) {e : Event} {st : Statement}
    (reduced : h.registry.reduce e = .ok st) (member : (st, .stopped) ∈ tried) :
    h.poisoned faults e = true ∧ h.failures d e < h.config.maxFailureCount ∧
      h.failures d' e = h.failures d e + 1 := by
  have tallied := carried.tallied distinct _ member
  unfold Handler.Tallied at tallied
  dsimp only at tallied
  rw [Handler.poisoned_eq reduced, keeps.instanceId reduced, keeps.sequence reduced] at *
  split at tallied
  next => cases tallied.1
  next failure =>
    obtain ⟨said, counted⟩ : .stopped =
        (if h.config.maxFailureCount ≤ h.failures d e then Verdict.passedOver else .stopped) ∧
          h.failures d' e = h.failures d e + 1 := tallied
    refine ⟨by rw [failure]; rfl, ?_, counted⟩
    by_contra often
    rw [if_pos (Nat.le_of_not_lt often)] at said
    cases said

/-- The failures of events that were not tried are left alone. -/
theorem failures_untried {steps : List Step} (carried : Carried h (· = faults) d p₀ steps d' p tried)
    (keeps : h.registry.KeepsIdentity) (linked : log.Linked) (among : ∀ f ∈ events, f ∈ log.events)
    (reduced : h.registry.reduceAll events = .ok (tried.map Prod.fst)) {e : Event}
    (inLog : e ∈ log.events) (untried : e ∉ events) : h.failures d' e = h.failures d e := by
  refine carried.failures fun entry member same => untried ?_
  obtain ⟨f, inEvents, step⟩ := Registry.exists_event reduced (List.mem_map_of_mem member)
  have equal := same.2
  rw [keeps.sequence step] at equal
  rwa [← linked.eq_of_sequence (among f inEvents) inLog equal]

theorem failures_after {steps : List Step} (carried : Carried h (· = faults) d p₀ steps d' p tried)
    (keeps : h.registry.KeepsIdentity) (linked : log.Linked) {later : List Event}
    (whole : log.pending h instances d = events ++ later)
    (reduced : h.registry.reduceAll events = .ok (tried.map Prod.fst)) :
    ∀ e ∈ later, h.failures d' e = h.failures d e := by
  intro e member
  have listed : ∀ f ∈ log.pending h instances d, f ∈ log.events :=
    fun f inPending => (EventLog.mem_pending.mp inPending).1
  have distinct := linked.pending_nodup h instances d
  rw [whole] at listed distinct
  obtain ⟨_, _, apart⟩ := List.nodup_append.mp distinct
  exact carried.failures_untried keeps linked (fun f early => listed f (List.mem_append_left _ early))
    reduced (listed e (List.mem_append_right _ member)) fun early => apart e early e member rfl

end Carried

end Update

end ReadModel
