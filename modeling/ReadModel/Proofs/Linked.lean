import Mathlib.Data.List.Induction
import ReadModel.EventLog
import ReadModel.Handler.Update

/-!
Logs that have come about by pushes.

The events of such a log are numbered in ascending order, and none of its key lies between an event
and the one that it points back to. What is missing before an event therefore stays the same while
the log grows.
-/

namespace ReadModel

/-- A log that has come about by pushes. -/
inductive EventLog.Pushed : EventLog → Prop
  | empty : Pushed {}
  | push {log : EventLog} (date : Instant) (events : List NewEvent) :
      Pushed log → Pushed (log.push date events).2

/-- Events are numbered from one on in ascending order, and each points back beyond all the others of
its key that come before it. -/
structure EventLog.Linked (log : EventLog) : Prop where
  ascending : log.events.Pairwise (·.sequence < ·.sequence)
  positive : ∀ e ∈ log.events, 0 < e.sequence
  back : ∀ e ∈ log.events, ∀ f ∈ log.events, f.key = e.key → f.sequence < e.sequence →
    f.sequence ≤ e.previousOfType

namespace EventLog

/-- The events of a key above one sequence and up to another. -/
def between (log : EventLog) (key : SequenceKey) (low high : Nat) : List Event :=
  log.events.filter fun e =>
    decide (e.key = key) && (decide (low < e.sequence) && decide (e.sequence ≤ high))

@[simp]
theorem mem_between {log : EventLog} {key : SequenceKey} {low high : Nat} {e : Event} :
    e ∈ log.between key low high ↔
      e ∈ log.events ∧ e.key = key ∧ low < e.sequence ∧ e.sequence ≤ high := by
  simp [between]

theorem lastSequence_append (events : List Event) (e : Event) (test : Event → Bool) :
    lastSequence ⟨events ++ [e]⟩ test =
      if test e then e.sequence else lastSequence ⟨events⟩ test := by
  simp only [lastSequence, List.reverse_append, List.reverse_singleton, List.singleton_append,
    List.find?_cons]
  cases test e <;> rfl

theorem le_lastSequence {events : List Event}
    (ascending : events.Pairwise (·.sequence < ·.sequence)) (test : Event → Bool) {e : Event}
    (member : e ∈ events) (passes : test e = true) :
    e.sequence ≤ lastSequence ⟨events⟩ test := by
  induction events using List.reverseRecOn with
  | nil => simp at member
  | append_singleton events last ih =>
    rw [lastSequence_append]
    obtain ⟨before, _, below⟩ := List.pairwise_append.mp ascending
    rcases List.mem_append.mp member with old | new
    · have bound := ih before old
      have order := below e old last (List.mem_singleton_self last)
      split <;> omega
    · rw [List.mem_singleton.mp new] at passes ⊢
      exact Nat.le_of_eq (if_pos passes).symm

theorem between_of_le (log : EventLog) (key : SequenceKey) {low high : Nat} (none : high ≤ low) :
    log.between key low high = [] := by
  rw [List.eq_nil_iff_forall_not_mem]
  intro e inside
  obtain ⟨_, _, above, below⟩ := mem_between.mp inside
  omega

variable {log log' : EventLog}

theorem Linked.number (linked : log.Linked) (new : NewEvent) (date : Instant) :
    Linked ⟨log.events ++ [log.number new date]⟩ := by
  have above : ∀ e ∈ log.events, e.sequence < (log.number new date).sequence := by
    intro e member
    have bound := le_lastSequence linked.ascending (fun _ => true) member rfl
    exact Nat.lt_succ_of_le bound
  refine ⟨?_, ?_, ?_⟩
  · rw [List.pairwise_append]
    refine ⟨linked.ascending, List.pairwise_singleton _ _, fun e member f single => ?_⟩
    rw [List.mem_singleton.mp single]
    exact above e member
  · intro e member
    rcases List.mem_append.mp member with old | single
    · exact linked.positive e old
    · rw [List.mem_singleton.mp single]
      exact Nat.succ_pos _
  · intro e member f other same order
    rcases List.mem_append.mp other with oldF | single
    · rcases List.mem_append.mp member with oldE | single
      · exact linked.back e oldE f oldF same order
      · -- the new event points back to the last one of its key
        rw [List.mem_singleton.mp single] at same ⊢
        have keys := SequenceKey.mk.inj same
        refine le_lastSequence linked.ascending _ oldF ?_
        simp only [Bool.and_eq_true, decide_eq_true_eq]
        exact ⟨keys.2, keys.1⟩
    · rw [List.mem_singleton.mp single] at order
      rcases List.mem_append.mp member with oldE | single
      · have bound := above e oldE
        omega
      · rw [List.mem_singleton.mp single] at order
        omega

theorem Linked.push (linked : log.Linked) (date : Instant) (events : List NewEvent) :
    (log.push date events).2.Linked := by
  induction events generalizing log with
  | nil => exact linked
  | cons new rest ih => exact ih (linked.number new date)

theorem Pushed.linked (pushed : log.Pushed) : log.Linked := by
  induction pushed with
  | empty => exact ⟨.nil, by simp, by simp⟩
  | push date events _ ih => exact ih.push date events

theorem events_push (log : EventLog) (date : Instant) (events : List NewEvent) :
    (log.push date events).2.events = log.events ++ (log.push date events).1 := by
  induction events generalizing log with
  | nil => exact (List.append_nil _).symm
  | cons new rest ih =>
    refine (ih _).trans ?_
    rw [List.append_assoc]
    rfl

theorem prefix_push (log : EventLog) (date : Instant) (events : List NewEvent) :
    log.events <+: (log.push date events).2.events :=
  log.events_push date events ▸ List.prefix_append ..

/-- The sequence tells an event of the log from all others. -/
theorem Linked.eq_of_sequence (linked : log.Linked) {e f : Event} (he : e ∈ log.events)
    (hf : f ∈ log.events) (same : e.sequence = f.sequence) : e = f := by
  obtain ⟨i, hi, rfl⟩ := List.getElem_of_mem he
  obtain ⟨j, hj, rfl⟩ := List.getElem_of_mem hf
  have order := List.pairwise_iff_getElem.mp linked.ascending
  rcases Nat.lt_trichotomy i j with before | rfl | after
  · have := order i j hi hj before
    omega
  · rfl
  · have := order j i hj hi after
    omega

/-- What a log has up to one of its events does not change when it grows. -/
theorem Linked.between_of_prefix (linked : log'.Linked) (grown : log.events <+: log'.events)
    {e : Event} (member : e ∈ log.events) (key : SequenceKey) (low : Nat) {high : Nat}
    (bound : high ≤ e.sequence) : log'.between key low high = log.between key low high := by
  obtain ⟨more, whole⟩ := grown
  have order := linked.ascending
  rw [← whole, List.pairwise_append] at order
  have later : more.filter (fun f =>
      decide (f.key = key) && (decide (low < f.sequence) && decide (f.sequence ≤ high))) = [] := by
    rw [List.filter_eq_nil_iff]
    intro f new
    have above := order.2.2 e member f new
    have beyond : ¬ f.sequence ≤ high := by omega
    simp [beyond]
  simp only [between, ← whole, List.filter_append, later, List.append_nil]

theorem Linked.split (linked : log.Linked) (n : Nat) :
    log.events.filter (fun e => decide (e.sequence ≤ n)) ++
      log.events.filter (fun e => decide (n < e.sequence)) = log.events := by
  have order := linked.ascending
  generalize log.events = events at order
  induction events with
  | nil => rfl
  | cons e rest ih =>
    obtain ⟨first, others⟩ := List.pairwise_cons.mp order
    by_cases low : e.sequence ≤ n
    · have notHigh : ¬ n < e.sequence := by omega
      simp only [List.filter_cons, low, notHigh, decide_true, decide_false, if_true,
        Bool.false_eq_true, if_false, List.cons_append, ih others]
    · have above : ∀ f ∈ e :: rest, n < f.sequence := by
        intro f member
        rcases List.mem_cons.mp member with rfl | later
        · omega
        · have := first f later
          omega
      have none : (e :: rest).filter (fun f => decide (f.sequence ≤ n)) = [] := by
        rw [List.filter_eq_nil_iff]
        intro f member
        have := above f member
        simp only [decide_eq_true_eq]
        omega
      have all : (e :: rest).filter (fun f => decide (n < f.sequence)) = e :: rest := by
        rw [List.filter_eq_self]
        intro f member
        exact decide_eq_true (above f member)
      rw [none, all, List.nil_append]

theorem Linked.between_append (linked : log.Linked) (key : SequenceKey) {low middle high : Nat}
    (lower : low ≤ middle) (upper : middle ≤ high) :
    log.between key low middle ++ log.between key middle high = log.between key low high := by
  unfold between
  conv_rhs => rw [← linked.split middle]
  rw [List.filter_append, List.filter_filter, List.filter_filter]
  congr 1 <;> refine List.filter_congr fun e _ => ?_ <;>
    (rw [Bool.eq_iff_iff]; simp only [Bool.and_eq_true, decide_eq_true_eq]; grind)

/-- The events up to one of the log are those below it, and itself. -/
theorem Linked.between_mem (linked : log.Linked) {e : Event} (member : e ∈ log.events) (low : Nat)
    (above : low < e.sequence) :
    log.between e.key low e.sequence = log.between e.key low (e.sequence - 1) ++ [e] := by
  rw [← linked.between_append e.key (by omega : low ≤ e.sequence - 1) (Nat.sub_le _ 1)]
  congr 1
  have only : ∀ f ∈ log.between e.key (e.sequence - 1) e.sequence, f = e := by
    intro f inside
    obtain ⟨inLog, _, lower, upper⟩ := mem_between.mp inside
    exact linked.eq_of_sequence inLog member (by omega)
  have ascending := linked.ascending.filter fun f => decide (f.key = e.key) &&
    (decide (e.sequence - 1 < f.sequence) && decide (f.sequence ≤ e.sequence))
  have there : e ∈ log.between e.key (e.sequence - 1) e.sequence := by
    rw [mem_between]
    exact ⟨member, rfl, by omega, Nat.le_refl _⟩
  revert only ascending there
  rw [← between]
  cases log.between e.key (e.sequence - 1) e.sequence with
  | nil => simp
  | cons f rest =>
    intro only ascending _
    cases rest with
    | nil => rw [only f (by simp)]
    | cons g rest =>
      have := (List.pairwise_cons.mp ascending).1 g (by simp)
      rw [only f (by simp), only g (by simp)] at this
      omega

/-- The query for a gap asks for the events strictly between two sequences of a key. -/
theorem filter_gapQuery (log : EventLog) (key : SequenceKey) (last next : Nat) :
    log.filter (Handler.gapQuery key last next) = log.between key last (next - 1) := by
  refine List.filter_congr fun e _ => ?_
  obtain ⟨aggregateType, instanceId⟩ := key
  rw [Bool.eq_iff_iff]
  simp only [Handler.gapQuery, SearchQuery.or, QueryClause.ofInstance, QueryClause.ofTypes,
    QueryClause.above, QueryClause.below, SearchQuery.matches, QueryClause.matches, allows,
    Event.key, List.nil_append, List.any_cons, List.any_nil, Bool.or_false, Bool.and_eq_true,
    Option.all_some, Option.all_none, List.isEmpty_nil, List.isEmpty_cons, Bool.false_or,
    beq_iff_eq, decide_eq_true_eq, List.not_mem_nil, decide_false, Bool.not_false,
    List.mem_singleton, SequenceKey.mk.injEq, and_true]
  constructor
  · rintro ⟨⟨⟨rfl, rfl⟩, above⟩, below⟩
    exact ⟨⟨rfl, rfl⟩, above, by omega⟩
  · rintro ⟨⟨rfl, rfl⟩, above, bound⟩
    exact ⟨⟨⟨rfl, rfl⟩, above⟩, by omega⟩

end EventLog

end ReadModel
