import Mathlib.Data.List.Perm.Basic
import ReadModel.Proofs.Linked
import ReadModel.Proofs.Subscriptions
import ReadModel.Simulation.World

/-!
What subscriptions hear of a log.

A source first commits what is pushed to its log, and then publishes the events one by one, so that other
pushes and subscriptions come in between (`Publishing`). What is heard, together with what is still to be
published, is what the log has got since the subscription, in the order of the log where the pushes do
not overlap (`Publishing.Mirrors`).
-/

namespace ReadModel

/-- A push that was committed: its events that were published since, and those that still have to be. -/
structure Push where
  told : List Event := []
  rest : List Event

namespace Push

/-- The events of a push. -/
def events (push : Push) : List Event := push.told ++ push.rest

/-- Whether an event is one of a push. -/
def has (push : Push) (e : Event) : Bool := push.events.any fun other => other.sequence == e.sequence

end Push

/-- A world whose source publishes the events that it has pushed, and those who listen. -/
structure Publishing where
  world : World
  published : List Event := []
  listeners : List (Listener Event) := []
  pushes : List Push := []

namespace Publishing

/-- What can happen: a subscription does something, the source commits a push on a date, it publishes the
next event of a push, or events are put into its log by someone else. -/
inductive Move where
  | listen (l : Listening)
  | commit (date : Instant) (events : List NewEvent)
  | publish (push : Nat)
  | append (date : Instant) (events : List NewEvent)

/-- Whether events are put into the log that are not published. -/
def Move.Aside : Move → Prop
  | .append .. => True
  | _ => False

instance : (m : Move) → Decidable m.Aside
  | .append .. => .isTrue trivial
  | .listen _ | .commit .. | .publish _ => .isFalse id

variable {p q : Publishing} {m : Move} {moves : List Move}

def traffic (p : Publishing) : Traffic Event := ⟨p.world.bus, p.published, p.listeners⟩

/-- The events that the source has pushed. -/
def committed (p : Publishing) : List Event := p.pushes.flatMap (·.events)

/-- The events that the source has pushed, and not published yet. -/
def pending (p : Publishing) : List Event := p.pushes.flatMap (·.rest)

/-- An event is published; gives the pushes as they are then. -/
def tell (p : Publishing) (e : Event) (pushes : List Push) : Publishing :=
  { p with
    world := { p.world with bus := p.world.bus.publish e }
    published := p.published ++ [e]
    pushes }

/-- What becomes of the world with each move. -/
def move (p : Publishing) : Move → Publishing
  | .listen l =>
    let t := p.traffic.listen l
    { p with world := { p.world with bus := t.bus }, listeners := t.listeners }
  | .commit date events =>
    let (pushed, log) := p.world.log.push date events
    { p with
      world := { p.world with log, pushDate := date }
      pushes := p.pushes ++ [{ rest := pushed }] }
  | .publish index =>
    match p.pushes[index]? with
    | some ⟨told, e :: rest⟩ => p.tell e (p.pushes.set index ⟨told ++ [e], rest⟩)
    | _ => p
  | .append date events => { p with world := { p.world with log := (p.world.log.push date events).2 } }

def run (p : Publishing) (moves : List Move) : Publishing := moves.foldl move p

theorem run_append (p : Publishing) (first second : List Move) :
    p.run (first ++ second) = (p.run first).run second := List.foldl_append

/-- A push is committed only when all that was pushed before has been published. -/
def Ready (p : Publishing) : Move → Prop
  | .commit .. => p.pending = []
  | _ => True

/-- The pushes come one after the other. -/
def Orderly : Publishing → List Move → Prop
  | _, [] => True
  | p, m :: rest => p.Ready m ∧ (p.move m).Orderly rest

instance (p : Publishing) : (m : Move) → Decidable (p.Ready m)
  | .commit .. => inferInstanceAs (Decidable (p.pending = []))
  | .listen _ | .publish _ | .append .. => .isTrue trivial

instance decidableOrderly : (p : Publishing) → (moves : List Move) → Decidable (p.Orderly moves)
  | _, [] => .isTrue trivial
  | p, m :: rest =>
    have : Decidable ((p.move m).Orderly rest) := decidableOrderly (p.move m) rest
    inferInstanceAs (Decidable (_ ∧ _))

theorem orderly_append {first second : List Move} :
    p.Orderly (first ++ second) ↔ p.Orderly first ∧ (p.run first).Orderly second := by
  induction first generalizing p with
  | nil => exact ⟨fun orderly => ⟨trivial, orderly⟩, And.right⟩
  | cons m rest ih => exact (and_congr_right fun _ => ih).trans and_assoc.symm

theorem committed_commit (p : Publishing) (date : Instant) (events : List NewEvent) :
    (p.move (.commit date events)).committed = p.committed ++ (p.world.log.push date events).1 := by
  dsimp only [move, committed]
  rw [List.flatMap_append]
  exact congrArg (_ ++ ·) (List.append_nil _)

/-- The next event of a push is published, or there is none. -/
theorem move_publish (p : Publishing) (index : Nat) :
    p.move (.publish index) = p ∨ ∃ before told e rest after,
      p.pushes = before ++ ⟨told, e :: rest⟩ :: after ∧
        p.move (.publish index) = p.tell e (before ++ ⟨told ++ [e], rest⟩ :: after) := by
  dsimp only [move]
  split
  next told e rest found =>
    obtain ⟨inside, here⟩ := List.getElem?_eq_some_iff.mp found
    obtain ⟨before, after, whole, _, changed⟩ : ∃ before after,
        p.pushes = before ++ p.pushes[index] :: after ∧ before.length = index ∧
          p.pushes.set index ⟨told ++ [e], rest⟩ = before ++ ⟨told ++ [e], rest⟩ :: after :=
      List.exists_of_set inside
    exact .inr ⟨before, told, e, rest, after, here ▸ whole, by rw [changed]⟩
  next => exact .inl rfl

theorem committed_tell {before after : List Push} {told rest : List Event} {e : Event}
    (pushes : p.pushes = before ++ ⟨told, e :: rest⟩ :: after) :
    (p.tell e (before ++ ⟨told ++ [e], rest⟩ :: after)).committed = p.committed := by
  simp [tell, committed, pushes, Push.events]

theorem run_publishes {before : List Push} {told rest : List Event}
    (last : p.pushes = before ++ [⟨told, rest⟩]) :
    (p.run (List.replicate rest.length (.publish before.length))).world =
      { p.world with bus := p.world.bus.publishAll rest } := by
  induction rest generalizing p told with
  | nil => rfl
  | cons e rest ih =>
    have here : p.pushes[before.length]? = some ⟨told, e :: rest⟩ := by
      rw [last, List.getElem?_append_right (Nat.le_refl _), Nat.sub_self, List.getElem?_cons_zero]
    have next : p.move (.publish before.length) =
        p.tell e (p.pushes.set before.length ⟨told ++ [e], rest⟩) := by
      simp only [move, here]
    have after : (p.tell e (p.pushes.set before.length ⟨told ++ [e], rest⟩)).pushes =
        before ++ [⟨told ++ [e], rest⟩] := by
      simp [tell, last]
    rw [List.length_cons, List.replicate_succ, run, List.foldl_cons, next]
    exact ih after

/-- To push and to publish all at once is one of the ways in which a push can go. -/
theorem run_push (p : Publishing) (date : Instant) (events : List NewEvent) :
    (p.run (.commit date events ::
      List.replicate (p.world.log.push date events).1.length (.publish p.pushes.length))).world =
        ({ p.world with pushDate := date }.answerSource (.push events)).2 :=
  (p.move (.commit date events)).run_publishes rfl

/-- What carries through every move. -/
structure Sound (p : Publishing) : Prop where
  pushed : p.world.log.Pushed
  logged : p.committed.Sublist p.world.log.events
  once : p.published.Perm (p.pushes.flatMap (·.told))
  told : ∀ push ∈ p.pushes, p.published.filter push.has = push.told
  traffic : p.traffic.Sound

namespace Sound

theorem ascending (sound : p.Sound) : p.committed.Pairwise (·.sequence < ·.sequence) :=
  sound.pushed.linked.ascending.sublist sound.logged

theorem known (sound : p.Sound) {e : Event} (heard : e ∈ p.published) : e ∈ p.committed := by
  obtain ⟨push, among, told⟩ := List.mem_flatMap.mp (sound.once.mem_iff.mp heard)
  exact List.mem_flatMap.mpr ⟨push, among, List.mem_append_left _ told⟩

/-- All that was pushed has been published, or is still to be. -/
theorem accounted (sound : p.Sound) : (p.published ++ p.pending).Perm p.committed :=
  (sound.once.append_right _).trans (List.flatMap_append_perm ..)

theorem distinct (sound : p.Sound) : p.published.Pairwise (·.sequence ≠ ·.sequence) := by
  have apart := sound.ascending.imp fun {_ _} below => Nat.ne_of_lt below
  have all := (sound.accounted.pairwise_iff fun apart => Ne.symm apart).mpr apart
  exact all.sublist (List.sublist_append_left ..)

theorem listen (sound : p.Sound) (l : Listening) : (p.move (.listen l)).Sound := by
  have traffic : (p.move (.listen l)).traffic = p.traffic.listen l := by cases l <;> rfl
  exact ⟨sound.pushed, sound.logged, sound.once, sound.told, traffic ▸ sound.traffic.listen l⟩

theorem append (sound : p.Sound) (date : Instant) (events : List NewEvent) :
    (p.move (.append date events)).Sound := by
  refine { sound with pushed := sound.pushed.push date events, logged := ?_ }
  exact sound.logged.trans (EventLog.prefix_push ..).sublist

theorem commit (sound : p.Sound) (date : Instant) (events : List NewEvent) :
    (p.move (.commit date events)).Sound := by
  have pushed := sound.pushed.push date events
  have grown := p.world.log.events_push date events
  have new : ∀ e ∈ p.published, ∀ other ∈ (p.world.log.push date events).1,
      e.sequence < other.sequence := by
    have apart := pushed.linked.ascending
    rw [grown, List.pairwise_append] at apart
    exact fun e heard => apart.2.2 e (sound.logged.subset (sound.known heard))
  refine ⟨pushed, ?_, ?_, ?_, sound.traffic⟩
  · rw [committed_commit]
    exact grown ▸ sound.logged.append (List.Sublist.refl _)
  · dsimp only [Publishing.move]
    rw [List.flatMap_append]
    exact sound.once.trans (.of_eq (List.append_nil _).symm)
  · intro push among
    rcases List.mem_append.mp among with old | last
    · exact sound.told push old
    · rw [List.mem_singleton.mp last]
      refine List.filter_eq_nil_iff.mpr fun e heard has => ?_
      obtain ⟨other, inside, same⟩ := List.any_eq_true.mp has
      have above := new e heard other inside
      rw [eq_of_beq same] at above
      exact Nat.lt_irrefl _ above

/-- The events of different pushes are different ones. -/
theorem has_eq_false {before after : List Push} {push other : Push} {e : Event}
    (sound : p.Sound) (pushes : p.pushes = before ++ push :: after) (inside : e ∈ push.events)
    (elsewhere : other ∈ before ++ after) : other.has e = false := by
  have ascending := sound.ascending
  rw [committed, pushes, List.flatMap_append, List.flatMap_cons, List.pairwise_append,
    List.pairwise_append] at ascending
  obtain ⟨_, ⟨_, _, later⟩, earlier⟩ := ascending
  rw [Bool.eq_false_iff]
  intro has
  obtain ⟨f, among, same⟩ := List.any_eq_true.mp has
  have same : f.sequence = e.sequence := eq_of_beq same
  rcases List.mem_append.mp elsewhere with first | last
  · have less := earlier f (List.mem_flatMap.mpr ⟨other, first, among⟩) e
      (List.mem_append_left _ inside)
    exact absurd same (Nat.ne_of_lt less)
  · have less := later e inside f (List.mem_flatMap.mpr ⟨other, last, among⟩)
    exact absurd same.symm (Nat.ne_of_lt less)

/-- What was published of the other pushes stays the same when an event of a push is published. -/
theorem told_elsewhere {before after : List Push} {push other : Push} {e : Event} (sound : p.Sound)
    (pushes : p.pushes = before ++ push :: after) (inside : e ∈ push.events)
    (elsewhere : other ∈ before ++ after) :
    (p.published ++ [e]).filter other.has = other.told := by
  have among : other ∈ p.pushes := by
    rw [pushes]
    rcases List.mem_append.mp elsewhere with first | last
    · exact List.mem_append_left _ first
    · exact List.mem_append_right _ (List.mem_cons_of_mem _ last)
  have apart := sound.has_eq_false pushes inside elsewhere
  rw [List.filter_append, sound.told other among, List.filter_cons_of_neg (by simp [apart]),
    List.filter_nil, List.append_nil]

theorem told_here {told rest : List Event} {e : Event} (sound : p.Sound)
    (among : ⟨told, e :: rest⟩ ∈ p.pushes) :
    (p.published ++ [e]).filter (⟨told ++ [e], rest⟩ : Push).has = told ++ [e] := by
  have events : (⟨told ++ [e], rest⟩ : Push).events = (⟨told, e :: rest⟩ : Push).events :=
    List.append_assoc ..
  have has : (⟨told ++ [e], rest⟩ : Push).has = (⟨told, e :: rest⟩ : Push).has := by
    funext other
    rw [Push.has, events, Push.has]
  have mine : (⟨told, e :: rest⟩ : Push).has e = true :=
    List.any_eq_true.mpr ⟨e, List.mem_append_right _ (List.mem_cons_self ..), beq_self_eq_true _⟩
  rw [has, List.filter_append, sound.told _ among, List.filter_cons_of_pos mine, List.filter_nil]

theorem publish (sound : p.Sound) (index : Nat) : (p.move (.publish index)).Sound := by
  rcases p.move_publish index with same | ⟨before, told, e, rest, after, pushes, next⟩
  · exact same.symm ▸ sound
  have inside : e ∈ (⟨told, e :: rest⟩ : Push).events :=
    List.mem_append_right _ (List.mem_cons_self ..)
  have here : ⟨told, e :: rest⟩ ∈ p.pushes :=
    pushes ▸ List.mem_append_right _ (List.mem_cons_self ..)
  rw [next]
  refine ⟨sound.pushed, committed_tell pushes ▸ sound.logged, ?_, fun push among => ?_,
    sound.traffic.publish e⟩
  · have once := sound.once.append_right [e]
    rw [pushes, List.flatMap_append, List.flatMap_cons] at once
    refine once.trans ?_
    dsimp only [tell]
    rw [List.flatMap_append, List.flatMap_cons, List.append_assoc, List.append_assoc, List.append_assoc]
    exact ((List.perm_append_comm).append_left _).append_left _
  · rcases List.mem_append.mp among with first | others
    · exact sound.told_elsewhere pushes inside (List.mem_append_left _ first)
    rcases List.mem_cons.mp others with rfl | last
    · exact sound.told_here here
    · exact sound.told_elsewhere pushes inside (List.mem_append_right _ last)

theorem move (sound : p.Sound) (m : Move) : (p.move m).Sound := by
  cases m with
  | listen l => exact sound.listen l
  | commit date events => exact sound.commit date events
  | publish index => exact sound.publish index
  | append date events => exact sound.append date events

theorem run (sound : p.Sound) (moves : List Move) : (p.run moves).Sound := by
  induction moves generalizing p with
  | nil => exact sound
  | cons m rest ih => exact ih (sound.move m)

end Sound

/-- How a world goes on: more is published and pushed, and the log grows by what is pushed where nobody
else puts events into it. -/
structure Grows (own : Prop) (p q : Publishing) : Prop where
  published : p.published <+: q.published
  committed : ∃ grown, q.committed = p.committed ++ grown ∧
    (own → q.world.log.events = p.world.log.events ++ grown)

namespace Grows

theorem still {own : Prop} (published : p.published <+: q.published)
    (committed : q.committed = p.committed) (logged : own → q.world.log.events = p.world.log.events) :
    Grows own p q :=
  ⟨published, [], committed.trans (List.append_nil _).symm, fun mine =>
    (logged mine).trans (List.append_nil _).symm⟩

theorem trans {own own' : Prop} {r : Publishing} (first : Grows own p q) (second : Grows own' q r) :
    Grows (own ∧ own') p r := by
  obtain ⟨grown, committed, logged⟩ := first.committed
  obtain ⟨grown', committed', logged'⟩ := second.committed
  refine ⟨first.published.trans second.published, grown ++ grown', ?_, fun ⟨mine, mine'⟩ => ?_⟩
  · rw [committed', committed, List.append_assoc]
  · rw [logged' mine', logged mine, List.append_assoc]

theorem mono {own own' : Prop} (grows : Grows own p q) (weaker : own' → own) : Grows own' p q := by
  obtain ⟨grown, committed, logged⟩ := grows.committed
  exact ⟨grows.published, grown, committed, logged ∘ weaker⟩

theorem move (p : Publishing) (m : Move) : Grows (¬m.Aside) p (p.move m) := by
  cases m with
  | listen l => exact .still List.prefix_rfl rfl fun _ => rfl
  | append date events => exact .still List.prefix_rfl rfl (absurd trivial)
  | commit date events =>
    exact ⟨List.prefix_rfl, _, p.committed_commit date events, fun _ =>
      p.world.log.events_push date events⟩
  | publish index =>
    rcases p.move_publish index with same | ⟨before, told, e, rest, after, pushes, next⟩
    · exact same.symm ▸ .still List.prefix_rfl rfl fun _ => rfl
    · exact next.symm ▸ .still (List.prefix_append ..) (committed_tell pushes) fun _ => rfl

theorem run (p : Publishing) (moves : List Move) :
    Grows (∀ m ∈ moves, ¬m.Aside) p (p.run moves) := by
  induction moves generalizing p with
  | nil => exact .still List.prefix_rfl rfl fun _ => rfl
  | cons m rest ih =>
    rw [List.forall_mem_cons]
    exact (move p m).trans (ih (p.move m))

end Grows

/-- Who listens has done so before, or has begun to. -/
theorem listeners_move {l : Listener Event} (among : l ∈ (p.move m).listeners) :
    (∃ l' ∈ p.listeners, l.id = l'.id ∧ l.since = l'.since) ∨
      m = .listen .subscribe ∧ l.id = p.world.bus.nextId ∧ l.since = p.published.length := by
  have heard {id : Nat} {messages : List Event}
      (among : l ∈ p.listeners.map (.hear id messages)) :
      ∃ l' ∈ p.listeners, l.id = l'.id ∧ l.since = l'.since := by
    obtain ⟨l', inside, rfl⟩ := List.mem_map.mp among
    refine ⟨l', inside, ?_⟩
    unfold Listener.hear
    split <;> exact ⟨rfl, rfl⟩
  cases m with
  | listen l =>
    cases l with
    | subscribe =>
      rcases List.mem_append.mp among with old | new
      · exact .inl ⟨_, old, rfl, rfl⟩
      · rw [List.mem_singleton.mp new]
        exact .inr ⟨rfl, rfl, rfl⟩
    | drop id => exact .inl ⟨_, List.mem_of_mem_filter among, rfl, rfl⟩
    | receive id | receiveBatch id => exact .inl (heard among)
    | close => exact .inl ⟨_, among, rfl, rfl⟩
  | commit | append => exact .inl ⟨_, among, rfl, rfl⟩
  | publish index =>
    rcases p.move_publish index with same | ⟨_, _, _, _, _, _, next⟩
    · exact .inl ⟨_, same ▸ among, rfl, rfl⟩
    · rw [next] at among
      exact .inl ⟨_, among, rfl, rfl⟩

/-- Who listens has subscribed at some time. -/
theorem exists_subscribe {w : World} {l : Listener Event}
    (among : l ∈ (run { world := w } moves).listeners) :
    ∃ before after, moves = before ++ .listen .subscribe :: after ∧
      l.id = (run { world := w } before).world.bus.nextId ∧
        l.since = (run { world := w } before).published.length := by
  induction moves using List.reverseRecOn generalizing l with
  | nil => cases among
  | append_singleton moves m ih =>
    rw [run_append] at among
    rcases listeners_move among with ⟨l', inside, number, count⟩ | ⟨rfl, number, count⟩
    · obtain ⟨before, after, rfl, number', count'⟩ := ih inside
      exact ⟨before, after ++ [m], List.append_assoc .., number.trans number', count.trans count'⟩
    · exact ⟨moves, [], rfl, number, count⟩

/-- Events are published in the order in which they were pushed, and only the last push has some left. -/
structure InOrder (p : Publishing) : Prop where
  all : p.published ++ p.pending = p.committed
  last : p.pushes.Pairwise fun push _ => push.rest = []

namespace InOrder

theorem move (inOrder : p.InOrder) (ready : p.Ready m) : (p.move m).InOrder := by
  cases m with
  | listen | append => exact ⟨inOrder.all, inOrder.last⟩
  | commit date events =>
    have none : p.pending = [] := ready
    have whole : p.published = p.committed := by simpa [none] using inOrder.all
    refine ⟨?_, List.pairwise_append.mpr ⟨inOrder.last, List.pairwise_singleton .., ?_⟩⟩
    · rw [committed_commit, ← whole]
      simp only [Publishing.move, pending, List.flatMap_append]
      rw [show p.pushes.flatMap (·.rest) = [] from none]
      simp
    · exact fun push among _ _ => List.flatMap_eq_nil_iff.mp none push among
  | publish index =>
    rcases p.move_publish index with same | ⟨before, told, e, rest, after, pushes, next⟩
    · exact same.symm ▸ inOrder
    have all := inOrder.all
    have last := inOrder.last
    rw [pushes, List.pairwise_append, List.pairwise_cons] at last
    obtain ⟨earlier, ⟨later, _⟩, ended⟩ := last
    -- the push whose event is published is the last one
    obtain rfl : after = [] := by
      cases after with
      | nil => rfl
      | cons push others => cases later push (List.mem_cons_self ..)
    have done : before.flatMap (·.rest) = [] :=
      List.flatMap_eq_nil_iff.mpr fun push among => ended push among _ (List.mem_cons_self ..)
    rw [next]
    refine ⟨?_, List.pairwise_append.mpr ⟨earlier, List.pairwise_singleton .., fun push among _ _ =>
        ended push among _ (List.mem_cons_self ..)⟩⟩
    rw [committed_tell pushes, ← all]
    simp [tell, pending, pushes, done]

theorem run (inOrder : p.InOrder) (orderly : p.Orderly moves) : (p.run moves).InOrder := by
  induction moves generalizing p with
  | nil => exact inOrder
  | cons m rest ih => exact ih (inOrder.move orderly.1) orderly.2

end InOrder

/-- What one who listens has received, and what waits to be received. -/
def heard (p : Publishing) (l : Listener Event) : List Event := l.received ++ p.world.bus.queue l.id

/-- What one who listens hears, from the world in which it subscribed to another one, and how this is what
the log has got since. Nobody else puts events into the log (`own`), or pushes come one after the other
(`orderly`), where this is said. -/
structure Mirrors (own orderly : Prop) (p q : Publishing) (l : Listener Event) : Prop where
  /-- All that is heard is in the log, and nothing is heard twice. -/
  known : ∀ e ∈ q.heard l, e ∈ q.world.log.events
  once : (q.heard l).Pairwise (·.sequence ≠ ·.sequence)
  /-- Of each push it hears the last of the events that were published, in their order. -/
  pushes : ∀ push ∈ q.pushes, (q.heard l).filter push.has <:+ push.told
  /-- It hears, or is still to hear, what was still to be published and what the log has got since. -/
  whole : own → (q.heard l ++ q.pending).Perm
    (p.pending ++ q.world.log.events.drop p.world.log.events.length)
  /-- It does so in the order of the log where the pushes come one after the other. -/
  exact : own → orderly → q.heard l ++ q.pending =
    p.pending ++ q.world.log.events.drop p.world.log.events.length
  ascending : orderly → (q.heard l).Pairwise (·.sequence < ·.sequence)

theorem Sound.mirrors {own orderly : Prop} {l : Listener Event} (began : p.Sound) (sound : q.Sound)
    (grows : Grows own p q) (inOrder : orderly → p.InOrder ∧ q.InOrder) (among : l ∈ q.listeners)
    (since : l.since = p.published.length) : Mirrors own orderly p q l := by
  have heard : q.published = p.published ++ q.heard l := by
    have later : q.heard l = q.published.drop l.since := sound.traffic.heard l among
    rw [later, since, List.prefix_iff_eq_append.mp grows.published]
  have inside : (q.heard l).Sublist q.published := heard ▸ List.sublist_append_right ..
  obtain ⟨grown, committed, logged⟩ := grows.committed
  have added (mine : own) : q.world.log.events.drop p.world.log.events.length = grown := by
    rw [logged mine, List.drop_left]
  have whole : (q.heard l ++ q.pending).Perm (p.pending ++ grown) := by
    have accounted := sound.accounted
    rw [heard, committed, List.append_assoc] at accounted
    refine (List.perm_append_left_iff p.published).mp (accounted.trans ?_)
    rw [← List.append_assoc]
    exact began.accounted.symm.append_right _
  refine ⟨fun e hears => ?_, sound.distinct.sublist inside, fun push among => ?_, fun mine => ?_,
    fun mine orderly => ?_, fun orderly => ?_⟩
  · exact sound.logged.subset (sound.known (inside.subset hears))
  · rw [← sound.told push among, heard]
    exact (List.suffix_append ..).filter _
  · rw [added mine]
    exact whole
  · obtain ⟨before, after⟩ := inOrder orderly
    have all := after.all
    rw [heard, committed, ← before.all, List.append_assoc, List.append_assoc] at all
    rw [added mine]
    exact List.append_cancel_left all
  · have prefixed : q.published.Sublist q.committed :=
      (inOrder orderly).2.all ▸ List.sublist_append_left ..
    exact sound.ascending.sublist (inside.trans prefixed)

end Publishing

/-- Whatever subscriptions do while messages are published, each one hears all of them since it began,
once and in their order. Where the messages are events that a source pushes, this is what the log has
got since, however the commits of pushes, what is published of them, and subscriptions take turns. -/
theorem Publishing.subscriptions_hear_all :
    (∀ (μ : Type) (moves : List (BusMove μ)), (Traffic.run {} moves).Faithful) ∧
    ∀ (w : World) (moves : List Publishing.Move), w.log.Pushed → w.bus.subscribers = [] →
      let q := run { world := w } moves
      q.traffic.Faithful ∧ ∀ l ∈ q.listeners, ∃ before after,
        moves = before ++ .listen .subscribe :: after ∧
          let p := run { world := w } before
          l.id = p.world.bus.nextId ∧
            Mirrors (∀ m ∈ after, ¬m.Aside) (Orderly { world := w } moves) p q l := by
  refine ⟨fun μ moves => (Traffic.Sound.empty.run moves).faithful, fun w moves pushed none => ?_⟩
  have begins : Sound { world := w } := by
    refine ⟨pushed, List.nil_sublist _, .nil, nofun, ?_, ?_, ?_, nofun, nofun⟩
    · intro s among
      exact absurd (none ▸ among) List.not_mem_nil
    · exact (congrArg (List.Pairwise _) none).mpr .nil
    · exact (congrArg (fun all => ((all.filter (·.live)).map (·.id))) none).symm
  have inOrder : InOrder { world := w } := ⟨rfl, .nil⟩
  refine ⟨(begins.run moves).traffic.faithful, fun l among => ?_⟩
  obtain ⟨before, after, rfl, number, since⟩ := exists_subscribe among
  refine ⟨before, after, rfl, number, ?_⟩
  have grows : Grows (∀ m ∈ after, ¬m.Aside) (run { world := w } before)
      ((run { world := w } before).run (.listen .subscribe :: after)) :=
    (Grows.run _ _).mono fun own => List.forall_mem_cons.mpr ⟨id, own⟩
  rw [← run_append] at grows
  refine (begins.run before).mirrors (begins.run _) grows (fun orderly => ?_) among since
  exact ⟨inOrder.run (orderly_append.mp orderly).1, inOrder.run orderly⟩

/-- A log that has an event already, and a bus. -/
def Publishing.fresh : World where
  projection := "p"
  today := default
  pushDate := default
  log := (EventLog.push {} default [default]).2

/-- One subscription is dropped while events wait for it, and another begins when one of two events of a
push has been published. The bus is gone before it has received all. -/
def Publishing.comings : List Publishing.Move :=
  [.listen .subscribe, .commit default [default, default], .publish 0, .listen .subscribe, .publish 0,
    .listen (.receive 0), .listen (.receive 1), .commit ⟨1, 0⟩ [default, default], .publish 1,
    .listen (.drop 0), .listen .close, .listen (.receiveBatch 1)]

theorem Publishing.subscriptions_hear_all_comings :
    Publishing.fresh.log.Pushed ∧ Publishing.fresh.bus.subscribers = [] ∧
      Orderly { world := fresh } comings ∧ (∀ m ∈ comings, ¬m.Aside) ∧
      ((run { world := fresh } comings).listeners.map fun l => (l.id, l.received.map (·.sequence))) =
        [(1, [3, 4])] ∧
      ∀ l ∈ (run { world := fresh } comings).listeners, ∃ before after,
        comings = before ++ .listen .subscribe :: after ∧
          l.id = (run { world := fresh } before).world.bus.nextId ∧
            Mirrors (∀ m ∈ after, ¬m.Aside) (Orderly { world := fresh } comings)
              (run { world := fresh } before) (run { world := fresh } comings) l := by
  have pushed : Publishing.fresh.log.Pushed := .push default [default] .empty
  refine ⟨pushed, rfl, by decide +kernel, by decide, by decide +kernel, ?_⟩
  exact (subscriptions_hear_all.2 fresh comings pushed rfl).2

/-- What goes past the source is not heard. One who subscribes between a commit and its publication hears
what was in the log before. Where two pushes overlap, the later one can be heard first. -/
theorem Publishing.not_mirrored :
    let heard (moves : List Publishing.Move) : List (List Nat) :=
      (run { world := fresh } moves).listeners.map fun l =>
        ((run { world := fresh } moves).heard l).map (·.sequence)
    let logged (moves : List Publishing.Move) : List Nat :=
      (run { world := fresh } moves).world.log.events.map (·.sequence)
    let past : List Publishing.Move :=
      [.listen .subscribe, .commit default [default], .publish 0, .append default [default],
        .commit default [default], .publish 1]
    let between : List Publishing.Move := [.commit default [default], .listen .subscribe, .publish 0]
    let overlapping : List Publishing.Move :=
      [.listen .subscribe, .commit default [default], .commit default [default], .publish 1, .publish 0]
    (heard past = [[2, 4]] ∧ logged past = [1, 2, 3, 4]) ∧
      (heard between = [[2]] ∧ logged (between.take 1) = [1, 2] ∧ logged between = [1, 2]) ∧
      heard overlapping = [[3, 2]] := by
  decide +kernel

end ReadModel
