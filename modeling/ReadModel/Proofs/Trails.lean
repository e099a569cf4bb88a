import ReadModel.Proofs.Linked

/-!
Trails of back references.

A log that has come about by pushes is numbered from one on without gaps, and each event points back to
the last one before it in its group: its aggregate, or its aggregate type. So whoever follows the back
references from the newest event of a group comes past all of its events, newest first
(`EventLog.PointsBack`).
-/

namespace ReadModel

/-- The aggregate that an event belongs to. -/
def Event.aggregate (e : Event) : SequenceKey × AggregateId := (e.key, e.aggregateId)

/-- The largest sequence of some events, and zero where there are none. -/
def Event.newest (events : List Event) : Nat := (events.map (·.sequence)).foldl max 0

namespace EventLog

/-- Who follows back references from a sequence on comes past these events; zero leads nowhere. -/
inductive Trail (log : EventLog) (back : Event → Nat) : Nat → List Event → Prop
  | done : Trail log back 0 []
  | step {n : Nat} {e : Event} {events : List Event} :
      log.find? n = some e → Trail log back (back e) events → Trail log back n (e :: events)

/-- The back references of a log lead through groups of events: each goes to the newest one before it in
its group, and from the newest one of all they go once through the whole group. -/
structure PointsBack {γ : Type} [DecidableEq γ] (log : EventLog) (group : Event → γ)
    (back : Event → Nat) : Prop where
  newest : ∀ before e after, log.events = before ++ e :: after →
    back e = Event.newest (before.filter fun f => decide (group f = group e))
  trail : ∀ e ∈ log.events, (∀ f ∈ log.events, group f = group e → f.sequence ≤ e.sequence) →
    ∀ events, log.Trail back e.sequence events ↔
      events = (log.events.filter fun f => decide (group f = group e)).reverse

variable {log : EventLog}

/-- What holds of the empty log, and goes on to hold with each event that is numbered next, holds of
all logs that have come about by pushes. -/
theorem Pushed.one_by_one {P : EventLog → Prop} (pushed : log.Pushed) (empty : P {})
    (next : ∀ log new date, log.Linked → P log → P ⟨log.events ++ [log.number new date]⟩) : P log := by
  induction pushed with
  | empty => exact empty
  | push date events before ih =>
    have linked := before.linked
    clear before
    rename_i log
    induction events generalizing log with
    | nil => exact ih
    | cons new rest each => exact each (next log new date linked ih) (linked.number new date)

theorem push_append (log : EventLog) (date : Instant) (xs ys : List NewEvent) :
    log.push date (xs ++ ys) = ((log.push date xs).1 ++ ((log.push date xs).2.push date ys).1,
      ((log.push date xs).2.push date ys).2) := by
  induction xs generalizing log with
  | nil => rfl
  | cons new rest ih =>
    simp only [List.cons_append, push, ih]

theorem newest_append (events : List Event) (e : Event) :
    Event.newest (events ++ [e]) = max (Event.newest events) e.sequence := by
  simp only [Event.newest, List.map_append, List.foldl_append, List.map_cons, List.map_nil,
    List.foldl_cons, List.foldl_nil]

theorem newest_le {events : List Event} {n : Nat} (below : ∀ e ∈ events, e.sequence ≤ n) :
    Event.newest events ≤ n := by
  induction events using List.reverseRecOn with
  | nil => exact Nat.zero_le n
  | append_singleton events e ih =>
    rw [newest_append]
    refine Nat.max_le.mpr ⟨ih fun f member => below f ?_, below e ?_⟩
    · exact List.mem_append_left _ member
    · exact List.mem_append_right _ (List.mem_singleton_self e)

theorem le_newest {events : List Event} {e : Event} (member : e ∈ events) :
    e.sequence ≤ Event.newest events := by
  induction events using List.reverseRecOn with
  | nil => cases member
  | append_singleton events last ih =>
    rw [newest_append]
    rcases List.mem_append.mp member with earlier | here
    · exact Nat.le_trans (ih earlier) (Nat.le_max_left ..)
    · rw [List.mem_singleton.mp here]
      exact Nat.le_max_right ..

/-- The last event of an ascending list is its newest. -/
theorem newest_concat {events : List Event} {e : Event}
    (ascending : (events ++ [e]).Pairwise (·.sequence < ·.sequence)) :
    Event.newest (events ++ [e]) = e.sequence := by
  rw [newest_append]
  refine Nat.max_eq_right (newest_le fun f member => ?_)
  exact Nat.le_of_lt ((List.pairwise_append.mp ascending).2.2 f member e (List.mem_singleton_self e))

/-- What a log looks for from its end on is the newest event that passes the test. -/
theorem lastSequence_eq_newest {events : List Event}
    (ascending : events.Pairwise (·.sequence < ·.sequence)) (test : Event → Bool) :
    lastSequence ⟨events⟩ test = Event.newest (events.filter test) := by
  induction events using List.reverseRecOn with
  | nil => rfl
  | append_singleton events e ih =>
    have kept := ascending.filter test
    rw [List.filter_append, List.filter_cons] at kept
    rw [lastSequence_append, List.filter_append, List.filter_cons]
    split
    next passes =>
      rw [if_pos passes] at kept
      exact (newest_concat kept).symm
    next => rw [List.filter_nil, List.append_nil, ih (List.pairwise_append.mp ascending).1]

theorem foldl_max_range' (n : Nat) : (List.range' 1 n).foldl max 0 = n := by
  induction n with
  | zero => rfl
  | succ n ih =>
    rw [List.range'_concat, List.foldl_append, ih, List.foldl_cons, List.foldl_nil]
    omega

theorem Pushed.numbered (pushed : log.Pushed) :
    log.events.map (·.sequence) = List.range' 1 log.events.length := by
  refine pushed.one_by_one (P := fun log => log.events.map (·.sequence) = List.range' 1 log.events.length)
    rfl fun log new date linked numbered => ?_
  have next : (log.number new date).sequence = log.events.length + 1 := by
    simp only [number]
    rw [lastSequence_eq_newest linked.ascending, List.filter_eq_self.mpr fun _ _ => rfl,
      Event.newest, numbered, foldl_max_range']
  simp only [List.map_append, numbered, List.map_cons, List.map_nil, next, List.length_append,
    List.length_cons, List.length_nil]
  rw [List.range'_concat]
  simp only [Nat.one_mul, Nat.add_comm 1]

theorem Linked.find?_sequence (linked : log.Linked) {e : Event} (member : e ∈ log.events) :
    log.find? e.sequence = some e := by
  cases found : log.find? e.sequence with
  | none =>
    have missing := List.find?_eq_none.mp found e member
    exact absurd (beq_self_eq_true e.sequence) missing
  | some f =>
    have same := eq_of_beq (List.find?_some found :)
    rw [linked.eq_of_sequence (List.mem_of_find?_eq_some found) member same]

section Groups

variable {γ : Type} [DecidableEq γ] {group : Event → γ} {back : Event → Nat}

/-- Each event points back to the newest one before it in its group, where one that is numbered next
does. -/
theorem Pushed.back_eq_newest (pushed : log.Pushed)
    (looks : ∀ (log : EventLog) new date, back (log.number new date) =
      log.lastSequence fun f => decide (group f = group (log.number new date))) :
    ∀ before e after, log.events = before ++ e :: after →
      back e = Event.newest (before.filter fun f => decide (group f = group e)) := by
  refine pushed.one_by_one (P := fun log => ∀ before e after, log.events = before ++ e :: after →
    back e = Event.newest (before.filter fun f => decide (group f = group e))) ?_ ?_
  · intro before e after parts
    cases before <;> cases parts
  · intro log new date linked earlier before e after parts
    rcases List.eq_nil_or_concat after with rfl | ⟨later, last, rfl⟩
    · obtain ⟨rfl, same⟩ := List.append_inj' parts rfl
      obtain rfl := List.singleton_inj.mp same
      rw [looks, lastSequence_eq_newest linked.ascending]
    · rw [List.concat_eq_append, ← List.cons_append, ← List.append_assoc] at parts
      exact earlier before e later (List.append_inj' parts rfl).1

/-- A trail from an event is that event and a trail from the one it points back to. -/
theorem Linked.trail_of_mem (linked : log.Linked) {e : Event} (member : e ∈ log.events)
    (events : List Event) : log.Trail back e.sequence events ↔
      ∃ rest, log.Trail back (back e) rest ∧ events = e :: rest := by
  have found := linked.find?_sequence member
  have positive := linked.positive e member
  generalize e.sequence = n at found positive
  constructor
  · rintro (_ | ⟨here, rest⟩)
    · exact absurd positive (Nat.lt_irrefl 0)
    · obtain rfl := Option.some.inj (here.symm.trans found)
      exact ⟨_, rest, rfl⟩
  · rintro ⟨rest, trail, rfl⟩
    exact .step found trail

theorem Linked.trail_zero (linked : log.Linked) (events : List Event) :
    log.Trail back 0 events ↔ events = [] := by
  constructor
  · rintro (_ | ⟨found, _⟩)
    · rfl
    · -- no event has the sequence zero
      have positive := linked.positive _ (List.mem_of_find?_eq_some found)
      have zero := eq_of_beq (List.find?_some found :)
      exact absurd zero (Nat.ne_of_gt positive)
  · rintro rfl
    exact .done

/-- From the newest event of a group in a first part of the log, the back references go through all that
the group has in this part. -/
theorem Linked.trail_iff (linked : log.Linked)
    (newest : ∀ before e after, log.events = before ++ e :: after →
      back e = Event.newest (before.filter fun f => decide (group f = group e)))
    (g : γ) (before after : List Event) (parts : log.events = before ++ after) (events : List Event) :
    log.Trail back (Event.newest (before.filter fun f => decide (group f = g))) events ↔
      events = (before.filter fun f => decide (group f = g)).reverse := by
  induction before using List.reverseRecOn generalizing after events with
  | nil => exact linked.trail_zero events
  | append_singleton before e ih =>
    have parts' : log.events = before ++ e :: after := parts.trans (List.append_assoc ..)
    have ascending := linked.ascending
    rw [parts] at ascending
    have kept := (List.pairwise_append.mp ascending).1.filter fun f => decide (group f = g)
    rw [List.filter_append, List.filter_cons] at kept ⊢
    split
    next ours =>
      obtain rfl := of_decide_eq_true ours
      have member : e ∈ log.events := parts' ▸ List.mem_append_right _ (List.mem_cons_self ..)
      rw [if_pos ours, List.filter_nil] at kept
      rw [List.filter_nil, newest_concat kept, linked.trail_of_mem member, newest before e after parts',
        List.reverse_append, List.reverse_singleton, List.singleton_append]
      constructor
      · rintro ⟨rest, trail, rfl⟩
        rw [(ih (e :: after) parts' rest).mp trail]
      · rintro rfl
        exact ⟨_, (ih (e :: after) parts' _).mpr rfl, rfl⟩
    next =>
      rw [List.filter_nil, List.append_nil]
      exact ih (e :: after) parts' events

theorem Pushed.pointsBack (pushed : log.Pushed)
    (looks : ∀ (log : EventLog) new date, back (log.number new date) =
      log.lastSequence fun f => decide (group f = group (log.number new date))) :
    log.PointsBack group back where
  newest := pushed.back_eq_newest looks
  trail e member newest events := by
    have all := pushed.linked.trail_iff (pushed.back_eq_newest looks) (group e) log.events []
      (List.append_nil _).symm events
    have own : Event.newest (log.events.filter fun f => decide (group f = group e)) = e.sequence := by
      refine Nat.le_antisymm (newest_le fun f listed => ?_) (le_newest ?_)
      · obtain ⟨inLog, ours⟩ := List.mem_filter.mp listed
        exact newest f inLog (of_decide_eq_true ours)
      · exact List.mem_filter.mpr ⟨member, decide_eq_true rfl⟩
    rwa [own] at all

end Groups

/-- A log that has come about by pushes is numbered from one on, both kinds of back references lead through
it group by group, and it does not show how the events were spread over pushes of one date. -/
theorem pushed_well_formed (pushed : log.Pushed) :
    log.events.map (·.sequence) = List.range' 1 log.events.length ∧
      log.PointsBack Event.aggregate (·.previousOfAggregate) ∧
      log.PointsBack Event.key (·.previousOfType) ∧
      ∀ date xs ys, (log.push date (xs ++ ys)).2 = ((log.push date xs).2.push date ys).2 := by
  refine ⟨pushed.numbered, pushed.pointsBack fun log new date => ?_,
    pushed.pointsBack fun log new date => ?_, fun date xs ys => by rw [push_append]⟩
  · refine congrArg log.lastSequence (funext fun f => ?_)
    rw [Bool.eq_iff_iff]
    simp only [Bool.and_eq_true, decide_eq_true_eq, Event.aggregate, Event.key, number,
      Prod.mk.injEq, SequenceKey.mk.injEq, and_comm]
  · refine congrArg log.lastSequence (funext fun f => ?_)
    rw [Bool.eq_iff_iff]
    simp only [Bool.and_eq_true, decide_eq_true_eq, Event.key, number, SequenceKey.mk.injEq, and_comm]

/-- Events of two instances, two types and two aggregates, pushed together. -/
def mixed : EventLog :=
  (push {} default <| [("a", "x", "1"), ("b", "x", "1"), ("a", "x", "2"), ("a", "y", "1"), ("a", "x", "1")].map
    fun e => { (default : NewEvent) with
      instanceId := ⟨e.1⟩, aggregateType := ⟨e.2.1⟩, aggregateId := ⟨e.2.2⟩ }).2

/-- The last of these events points back to the first one of its aggregate, and to the third of its type. -/
theorem pushed_well_formed_of_mixed :
    mixed.Pushed ∧ mixed.events.map (·.sequence) = List.range' 1 mixed.events.length ∧
      mixed.PointsBack Event.aggregate (·.previousOfAggregate) ∧
      mixed.PointsBack Event.key (·.previousOfType) ∧
      (∀ date xs ys, (mixed.push date (xs ++ ys)).2 = ((mixed.push date xs).2.push date ys).2) ∧
      mixed.events.map (fun e => (e.sequence, e.previousOfAggregate, e.previousOfType)) =
        [(1, 0, 0), (2, 0, 0), (3, 0, 1), (4, 0, 0), (5, 1, 3)] := by
  have pushed : mixed.Pushed := .push _ _ .empty
  obtain ⟨numbered, aggregates, types, split⟩ := pushed_well_formed pushed
  exact ⟨pushed, numbered, aggregates, types, split, by decide +kernel⟩

end EventLog

end ReadModel
