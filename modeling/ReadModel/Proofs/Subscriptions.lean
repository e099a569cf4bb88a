import Mathlib.Logic.Basic
import ReadModel.Bus

/-!
What subscriptions get to hear.

Subscriptions come and go while messages are published and received, in any order (`BusMove`). Whoever
listens has received, or still has in the queue, exactly what was published since the subscription
began (`Traffic.Faithful`).
-/

namespace ReadModel

/-- What subscriptions do, and the end of the bus. -/
inductive Listening where
  | subscribe
  | drop (id : Nat)
  | receive (id : Nat)
  | receiveBatch (id : Nat)
  | close

/-- What can happen on a bus. -/
inductive BusMove (μ : Type) where
  | listen (l : Listening)
  | publish (message : μ)

/-- A subscription that was not dropped: how many messages were published before it, and what it has
received. -/
structure Listener (μ : Type) where
  id : Nat
  since : Nat
  received : List μ := []

/-- A bus, all that was published on it, and those who listen. -/
structure Traffic (μ : Type) where
  bus : Bus μ := {}
  published : List μ := []
  listeners : List (Listener μ) := []

/-- What was got, if anything was. -/
def Received.got? {α : Type} : Received α → Option α
  | .got a => some a
  | .closed | .nothing => none

/-- Notes what the subscription with a number has received. -/
def Listener.hear {μ : Type} (id : Nat) (messages : List μ) (l : Listener μ) : Listener μ :=
  if l.id = id then { l with received := l.received ++ messages } else l

namespace Bus

variable {μ : Type} {b : Bus μ} {id : Nat} {messages : List μ}

/-- Messages are taken one after the other until none is left. -/
inductive Drains (id : Nat) : Bus μ → List μ → Bus μ → Prop
  | done {b : Bus μ} : (b.receive id).1.got? = none → Drains id b [] b
  | next {b b₁ b₂ : Bus μ} {message : μ} {rest : List μ} :
      b.receive id = (.got message, b₁) → Drains id b₁ rest b₂ → Drains id b (message :: rest) b₂

/-- No two subscriptions have the same number. -/
def Unique (b : Bus μ) : Prop := b.subscribers.Pairwise (·.id ≠ ·.id)

theorem Unique.queue_eq (unique : b.Unique) {s : Subscriber μ} (among : s ∈ b.subscribers) :
    b.queue s.id = s.queue := by
  have found : b.subscribers.find? (fun other => other.id == s.id) = some s := by
    unfold Unique at unique
    generalize b.subscribers = subscribers at unique among
    induction subscribers with
    | nil => cases among
    | cons first rest ih =>
      obtain ⟨apart, others⟩ := List.pairwise_cons.mp unique
      rcases List.mem_cons.mp among with rfl | later
      · simp
      · rw [List.find?_cons_of_neg (by simpa using apart s later)]
        exact ih others later
  rw [queue, found]
  rfl

/-- The bus on which some messages are left in a queue. -/
def leave (b : Bus μ) (id : Nat) (messages : List μ) : Bus μ :=
  b.modify id fun s => { s with queue := messages }

theorem Unique.modify (unique : b.Unique) {change : Subscriber μ → Subscriber μ}
    (kept : ∀ s, (change s).id = s.id) : (b.modify id change).Unique := by
  refine List.Pairwise.map _ (fun s other apart => ?_) unique
  split <;> split <;> simpa only [kept] using apart

theorem queue_modify_of_ne (change : Subscriber μ → Subscriber μ)
    (kept : ∀ s, (change s).id = s.id) {other : Nat} (ne : other ≠ id) :
    (b.modify id change).queue other = b.queue other := by
  have same : ((fun s : Subscriber μ => s.id == other) ∘ fun s =>
      if s.id = id then change s else s) = fun s => s.id == other := by
    funext s
    rw [Function.comp_apply]
    split
    · rw [kept]
    · rfl
  rw [queue, queue, Bus.modify, List.find?_map, same]
  cases found : b.subscribers.find? fun s => s.id == other with
  | none => rfl
  | some s =>
    have named : s.id = other := by simpa using List.find?_some found
    rw [Option.map_some, if_neg (named ▸ ne)]

theorem queue_leave (some : b.queue id ≠ []) : (b.leave id messages).queue id = messages := by
  have same : ((fun s : Subscriber μ => s.id == id) ∘ fun s =>
      if s.id = id then { s with queue := messages } else s) = fun s => s.id == id := by
    funext s
    rw [Function.comp_apply]
    split <;> rfl
  rw [queue, leave, Bus.modify, List.find?_map, same]
  cases found : b.subscribers.find? fun s => s.id == id with
  | none =>
    rw [queue, found] at some
    exact absurd rfl some
  | some s =>
    have named : s.id = id := by simpa using List.find?_some found
    rw [Option.map_some, if_pos named]
    rfl

theorem leave_leave (b : Bus μ) (id : Nat) (first second : List μ) :
    (b.leave id first).leave id second = b.leave id second := by
  unfold leave Bus.modify
  rw [List.map_map]
  congr 1
  refine List.map_congr_left fun s _ => ?_
  by_cases named : s.id = id <;> simp [named]

theorem receive_of_cons {message : μ} {rest : List μ} (waiting : b.queue id = message :: rest) :
    b.receive id = (.got message, b.leave id rest) := by
  rw [receive, waiting]
  rfl

theorem receive_of_nil (empty : b.queue id = []) :
    b.receive id = (if b.closed then .closed else .nothing, b) := by
  rw [receive, empty]

theorem receiveBatch_of_ne (some : b.queue id ≠ []) :
    b.receiveBatch id = (.got (b.queue id), b.leave id []) := by
  obtain ⟨message, rest, waiting⟩ := List.exists_cons_of_ne_nil some
  rw [receiveBatch, waiting]
  rfl

theorem receiveBatch_of_nil (empty : b.queue id = []) :
    b.receiveBatch id = (if b.closed then .closed else .nothing, b) := by
  rw [receiveBatch, empty]

theorem drains_leave (b : Bus μ) (id : Nat) (messages : List μ) (waiting : b.queue id = messages) :
    Drains id b messages (if messages = [] then b else b.leave id []) := by
  induction messages generalizing b with
  | nil =>
    rw [if_pos rfl]
    refine .done ?_
    rw [receive_of_nil waiting]
    dsimp only
    split <;> rfl
  | cons message rest ih =>
    have left : (b.leave id rest).queue id = rest := queue_leave (by simp [waiting])
    have later := ih (b.leave id rest) left
    rw [leave_leave, ite_eq_iff.mpr] at later
    · rw [if_neg (List.cons_ne_nil _ _)]
      exact .next (receive_of_cons waiting) later
    · by_cases none : rest = []
      · exact .inl ⟨none, by rw [none]⟩
      · exact .inr ⟨none, rfl⟩

/-- To take a batch is to take messages one after the other until none is left. -/
theorem drains_receiveBatch (b : Bus μ) (id : Nat) :
    Drains id b (b.queue id) (b.receiveBatch id).2 := by
  have drains := drains_leave b id _ rfl
  by_cases empty : b.queue id = []
  · rw [receiveBatch_of_nil empty]
    rwa [if_pos empty] at drains
  · rw [receiveBatch_of_ne empty]
    rwa [if_neg empty] at drains

end Bus

namespace Traffic

variable {μ : Type} {t : Traffic μ} {id : Nat} {rest : List μ}

/-- What becomes of the traffic when a subscription does something. -/
def listen (t : Traffic μ) : Listening → Traffic μ
  | .subscribe =>
    let (id, bus) := t.bus.subscribe
    { t with bus, listeners := t.listeners ++ [{ id, since := t.published.length }] }
  | .drop id =>
    { t with bus := t.bus.drop id, listeners := t.listeners.filter fun l => decide (l.id ≠ id) }
  | .receive id =>
    let (answer, bus) := t.bus.receive id
    { t with bus, listeners := t.listeners.map (.hear id answer.got?.toList) }
  | .receiveBatch id =>
    let (answer, bus) := t.bus.receiveBatch id
    { t with bus, listeners := t.listeners.map (.hear id (answer.got?.getD [])) }
  | .close => { t with bus := t.bus.close }

/-- A message is published. -/
def publish (t : Traffic μ) (message : μ) : Traffic μ :=
  { t with bus := t.bus.publish message, published := t.published ++ [message] }

def move (t : Traffic μ) : BusMove μ → Traffic μ
  | .listen l => t.listen l
  | .publish message => t.publish message

def run (t : Traffic μ) (moves : List (BusMove μ)) : Traffic μ := moves.foldl move t

/-- Those who listen are the subscriptions that are alive, and they have heard, or will hear, all that
was published since. -/
structure Sound (t : Traffic μ) : Prop where
  fresh : ∀ s ∈ t.bus.subscribers, s.id < t.bus.nextId
  unique : t.bus.Unique
  alive : t.listeners.map (·.id) = (t.bus.subscribers.filter (·.live)).map (·.id)
  since : ∀ l ∈ t.listeners, l.since ≤ t.published.length
  heard : ∀ l ∈ t.listeners, l.received ++ t.bus.queue l.id = t.published.drop l.since

namespace Sound

theorem empty : Sound ({} : Traffic μ) where
  fresh _ among := nomatch among
  unique := .nil
  alive := rfl
  since _ among := nomatch among
  heard _ among := nomatch among

theorem subscriber (sound : t.Sound) {l : Listener μ} (among : l ∈ t.listeners) :
    ∃ s ∈ t.bus.subscribers, s.live = true ∧ s.id = l.id ∧ s.queue = t.bus.queue l.id := by
  have listed := List.mem_map_of_mem (f := (·.id)) among
  rw [sound.alive] at listed
  obtain ⟨s, inside, same⟩ := List.mem_map.mp listed
  obtain ⟨inside, live⟩ := List.mem_filter.mp inside
  exact ⟨s, inside, live, same, by rw [← same, sound.unique.queue_eq inside]⟩

theorem subscribe (sound : t.Sound) : (t.listen .subscribe).Sound := by
  have unique : (t.listen .subscribe).bus.Unique := by
    refine List.pairwise_append.mpr ⟨sound.unique, List.pairwise_singleton .., ?_⟩
    intro s among s' single
    rw [List.mem_singleton.mp single]
    exact Nat.ne_of_lt (sound.fresh s among)
  refine ⟨?_, unique, ?_, ?_, ?_⟩
  · intro s among
    rcases List.mem_append.mp among with old | single
    · exact Nat.lt_succ_of_lt (sound.fresh s old)
    · rw [List.mem_singleton.mp single]
      exact Nat.lt_succ_self _
  · dsimp only [listen, Bus.subscribe]
    rw [List.map_append, List.filter_append, List.map_append, sound.alive]
    rfl
  · intro l among
    rcases List.mem_append.mp among with old | single
    · exact sound.since l old
    · rw [List.mem_singleton.mp single]
      exact Nat.le_refl _
  · intro l among
    rcases List.mem_append.mp among with old | single
    · obtain ⟨s, inside, _, same, queue⟩ := sound.subscriber old
      have still := unique.queue_eq (List.mem_append_left _ inside)
      rw [← same, still, queue]
      exact sound.heard l old
    · have none := unique.queue_eq (List.mem_append_right _ (List.mem_singleton_self _))
      rw [List.mem_singleton.mp single]
      exact none.trans List.drop_length.symm

theorem drop (sound : t.Sound) (id : Nat) : (t.listen (.drop id)).Sound := by
  have others (l : Listener μ) (among : l ∈ (t.listen (.drop id)).listeners) :
      l ∈ t.listeners ∧ l.id ≠ id := by
    obtain ⟨before, other⟩ := List.mem_filter.mp among
    exact ⟨before, of_decide_eq_true other⟩
  refine ⟨?_, sound.unique.modify fun _ => rfl, ?_, ?_, ?_⟩
  · intro s among
    obtain ⟨old, inside, rfl⟩ := List.mem_map.mp among
    have fresh := sound.fresh old inside
    split <;> exact fresh
  · have alive := congrArg (List.filter fun n => decide (n ≠ id)) sound.alive
    dsimp only [listen, Bus.drop, Bus.modify]
    rw [List.filter_map, List.filter_map, List.filter_filter] at alive
    rw [List.filter_map, List.map_map]
    refine Eq.trans alive ?_
    -- a subscription that was dropped is not alive, and the others stay as they are
    have same : ∀ s : Subscriber μ, ((fun s : Subscriber μ => s.live) ∘ fun s =>
        if s.id = id then { s with queue := [], live := false } else s) s =
          (((fun n => decide (n ≠ id)) ∘ (·.id)) s && s.live) := by
      intro s
      by_cases named : s.id = id <;> simp [named]
    rw [List.filter_congr fun s _ => same s]
    refine List.map_congr_left fun s _ => ?_
    rw [Function.comp_apply]
    split <;> rfl
  · exact fun l among => sound.since l (others l among).1
  · intro l among
    obtain ⟨before, other⟩ := others l among
    have same : (t.bus.drop id).queue l.id = t.bus.queue l.id :=
      Bus.queue_modify_of_ne (fun s => { s with queue := [], live := false }) (fun _ => rfl) other
    exact same ▸ sound.heard l before

/-- A subscription takes the first messages from its queue. -/
theorem take (sound : t.Sound) (messages : List μ) (waiting : t.bus.queue id = messages ++ rest)
    (some : messages ≠ []) :
    Sound { t with bus := t.bus.leave id rest, listeners := t.listeners.map (.hear id messages) } := by
  have kept (l : Listener μ) : (l.hear id messages).id = l.id ∧ (l.hear id messages).since = l.since := by
    unfold Listener.hear
    split <;> exact ⟨rfl, rfl⟩
  refine ⟨?_, sound.unique.modify fun _ => rfl, ?_, ?_, ?_⟩
  · intro s among
    obtain ⟨old, inside, rfl⟩ := List.mem_map.mp among
    have fresh := sound.fresh old inside
    split <;> exact fresh
  · have same : ((fun s : Subscriber μ => s.live) ∘ fun s =>
        if s.id = id then { s with queue := rest } else s) = (·.live) := by
      funext s
      rw [Function.comp_apply]
      split <;> rfl
    dsimp only [Bus.leave, Bus.modify]
    rw [List.map_map, List.filter_map, same, List.map_map]
    refine (List.map_congr_left fun l _ => (kept l).1).trans (sound.alive.trans ?_)
    refine List.map_congr_left fun s _ => ?_
    rw [Function.comp_apply]
    split <;> rfl
  · intro l among
    obtain ⟨old, inside, rfl⟩ := List.mem_map.mp among
    exact (kept old).2.symm ▸ sound.since old inside
  · intro l among
    obtain ⟨old, inside, rfl⟩ := List.mem_map.mp among
    have heard := sound.heard old inside
    rw [(kept old).1, (kept old).2, ← heard]
    dsimp only
    by_cases named : old.id = id
    · subst named
      rw [Bus.queue_leave (by simp [waiting, some]), waiting, Listener.hear, if_pos rfl,
        List.append_assoc]
    · have same : (t.bus.leave id rest).queue old.id = t.bus.queue old.id :=
        Bus.queue_modify_of_ne (fun s => { s with queue := rest }) (fun _ => rfl) named
      rw [same, Listener.hear, if_neg named]

theorem hear_nil (id : Nat) (listeners : List (Listener μ)) :
    listeners.map (.hear id []) = listeners := by
  refine List.map_id'' (fun l => ?_) listeners
  unfold Listener.hear
  split
  · rw [List.append_nil]
  · rfl

theorem listen (sound : t.Sound) (l : Listening) : (t.listen l).Sound := by
  cases l with
  | subscribe => exact sound.subscribe
  | drop id => exact sound.drop id
  | receive id =>
    dsimp only [Traffic.listen]
    cases waiting : t.bus.queue id with
    | nil =>
      rw [Bus.receive_of_nil waiting]
      dsimp only
      split <;> (dsimp only [Received.got?, Option.toList_none]; rw [hear_nil]; exact sound)
    | cons message rest =>
      rw [Bus.receive_of_cons waiting]
      exact sound.take [message] waiting (List.cons_ne_nil _ _)
  | receiveBatch id =>
    dsimp only [Traffic.listen]
    by_cases empty : t.bus.queue id = []
    · rw [Bus.receiveBatch_of_nil empty]
      dsimp only
      split <;> (dsimp only [Received.got?, Option.getD_none]; rw [hear_nil]; exact sound)
    · rw [Bus.receiveBatch_of_ne empty]
      exact sound.take _ (List.append_nil _).symm empty
  | close => exact ⟨sound.fresh, sound.unique, sound.alive, sound.since, sound.heard⟩

theorem publish (sound : t.Sound) (message : μ) : (t.publish message).Sound := by
  have unique : (t.bus.publish message).Unique :=
    List.Pairwise.map _ (fun _ _ apart => apart) (sound.unique.filter _)
  refine ⟨?_, unique, ?_, ?_, ?_⟩
  · intro s among
    obtain ⟨old, inside, rfl⟩ := List.mem_map.mp among
    exact sound.fresh old (List.mem_filter.mp inside).1
  · dsimp only [Traffic.publish, Bus.publish]
    have all : ((t.bus.subscribers.filter (·.live)).map fun s =>
        { s with queue := s.queue ++ [message] }).filter (·.live) =
          (t.bus.subscribers.filter (·.live)).map fun s =>
            { s with queue := s.queue ++ [message] } := by
      rw [List.filter_map, List.filter_filter]
      simp only [Function.comp_def, Bool.and_self]
    rw [all, List.map_map]
    exact sound.alive
  · intro l among
    dsimp only [Traffic.publish]
    rw [List.length_append]
    exact Nat.le_add_right_of_le (sound.since l among)
  · intro l among
    obtain ⟨s, inside, live, same, queue⟩ := sound.subscriber among
    have more := unique.queue_eq
      (List.mem_map_of_mem (List.mem_filter.mpr ⟨inside, live⟩))
    dsimp only [Traffic.publish] at more ⊢
    rw [same] at more
    rw [more, List.drop_append_of_le_length (sound.since l among), ← sound.heard l among, queue,
      List.append_assoc]

theorem move (sound : t.Sound) (m : BusMove μ) : (t.move m).Sound := by
  cases m with
  | listen l => exact sound.listen l
  | publish message => exact sound.publish message

theorem run (sound : t.Sound) (moves : List (BusMove μ)) : (t.run moves).Sound := by
  induction moves generalizing t with
  | nil => exact sound
  | cons m rest ih => exact ih (sound.move m)

end Sound

/-- What who listens can rely on, and what is known of the number of subscriptions. -/
structure Faithful (t : Traffic μ) : Prop where
  /-- Those who listen are the subscriptions that are alive. -/
  alive : t.listeners.map (·.id) = (t.bus.subscribers.filter (·.live)).map (·.id)
  /-- What was received and what waits are all that was published since, in its order. -/
  heard : ∀ l ∈ t.listeners, l.received ++ t.bus.queue l.id = t.published.drop l.since
  /-- A batch is all that waits, as it would be received one by one. -/
  batch (id : Nat) : t.bus.queue id ≠ [] → (t.bus.receiveBatch id).1 = .got (t.bus.queue id)
  drains (id : Nat) : t.bus.Drains id (t.bus.queue id) (t.bus.receiveBatch id).2
  /-- Who asks is told of the end of the bus only when nothing waits any more. -/
  closed (id : Nat) : ((t.bus.receive id).1 = .closed ↔ t.bus.closed = true ∧ t.bus.queue id = []) ∧
    ((t.bus.receiveBatch id).1 = .closed ↔ t.bus.closed = true ∧ t.bus.queue id = [])
  /-- After a message, only those who listen are counted. -/
  count (message : μ) : (t.bus.publish message).subscriberCount = t.listeners.length

theorem Sound.faithful (sound : t.Sound) : t.Faithful where
  alive := sound.alive
  heard := sound.heard
  batch id some := congrArg Prod.fst (Bus.receiveBatch_of_ne some)
  drains := t.bus.drains_receiveBatch
  closed id := by
    cases waiting : t.bus.queue id with
    | nil =>
      rw [Bus.receive_of_nil waiting, Bus.receiveBatch_of_nil waiting]
      cases t.bus.closed <;> simp
    | cons message rest =>
      rw [Bus.receive_of_cons waiting, Bus.receiveBatch_of_ne (by simp [waiting])]
      simp
  count message := by
    have alive := congrArg List.length sound.alive
    simpa [Bus.subscriberCount, Bus.publish] using alive.symm

end Traffic

end ReadModel
