import ReadModel.Proofs.Backlog
import ReadModel.Proofs.Modesty
import ReadModel.Proofs.ReadPoint
import ReadModel.Proofs.Underway

/-!
The pages of a trigger.

A page that is processed without an error takes events off what is pending, and nothing puts any back
while nobody pushes. So a trigger that is by itself never runs out of pages where it may fetch more of
them than there are events pending, whatever fails and whatever date it reads as of.
-/

namespace ReadModel

theorem Scene.log_of_modest {call : HandlerCall} (modest : call.Modest) (number : Nat) (s : Scene) :
    (Scene.answer number call s).2.world.log = s.world.log := by
  cases call with
  | store call =>
    dsimp only [answer, answerStore]
    cases s.outage with
    | none =>
      dsimp only [inWorld]
      rw [World.answerStore_world]
    | some message =>
      rcases s.world.failStore_cases call with same | same <;> simp only [same, inWorld]
  | source call =>
    dsimp only [answer, answerSource]
    cases call with
    | push => exact absurd modest id
    | filter | instanceIds => cases s.outage <;> rfl
  | lock call => cases call <;> dsimp only [answer, answerLock] <;> cases s.outage <;> rfl
  | task call =>
    cases call with
    | batches => exact absurd modest id
    | _ => rfl

/-- A program that only makes modest calls leaves the log as it is. -/
theorem Dialogue.Only.run_log {α : Type} {d : Task α} (only : d.Only HandlerCall.Modest)
    (number : Nat) (s : Scene) : (d.run (Scene.answer number) s).2.world.log = s.world.log := by
  induction d generalizing s with
  | done => rfl
  | ask call next ih => exact (ih _ (only.2 _) _).trans (Scene.log_of_modest only.1 number s)

namespace Actor

variable {a : Actor} {s : Scene}

/-- An actor with nobody else around. -/
def solitude (a : Actor) : Setting handlerInterface Scene where
  answer := Scene.answer a.number
  ready call s := s.world.waits a.number call = false
  others := Eq
  self s t := ∀ b, b ≠ a → b.Undisturbed s t

theorem among_solitude (a : Actor) : a.Among a.solitude where
  answer := rfl
  others := by
    rintro s _ rfl
    exact .refl
  self_iff := Iff.rfl
  ready := id

/-- An actor with nobody else around never waits. -/
theorem run_in_solitude {α : Type} {d : Task α} {post : α → Scene → Prop} (sane : s.Sane)
    (free : s.world.transactionOf = none ∨ s.world.transactionOf = some a.number)
    (upholds : a.solitude.Upholds post d s) :
    let ended := d.run (Scene.answer a.number) s
    post ended.1 ended.2 ∧
      (ended.2.world.transactionOf = none ∨ ended.2.world.transactionOf = some a.number) := by
  induction d generalizing s with
  | done value => exact ⟨upholds, free⟩
  | ask call next ih =>
    obtain ⟨others, rest⟩ := upholds s rfl (World.waits_of_owner sane.owned free call)
    obtain ⟨b, apart⟩ := a.exists_other
    refine ih _ ((others b apart).sane sane) ?_ rest
    rcases Scene.owner_answer a.number call s with same | none | mine
    · exact free.imp same.trans same.trans
    · exact .inl none
    · exact .inr mine

/-- Between two pieces of work of an actor that is by itself nobody has a transaction. -/
theorem upholds_in_solitude {α : Type} {d : Task α} {post : α → Scene → Prop} (sane : s.Sane)
    (idle : s.world.transactionOf = none) (modest : d.Only HandlerCall.Modest)
    (upholds : a.solitude.Upholds (fun result t => a.Free t ∧ post result t) d s) :
    (Setting.alone (Scene.answer a.number)).Upholds (fun result t =>
      t.Sane ∧ t.world.transactionOf = none ∧ t.world.log = s.world.log ∧ s.Onward t ∧
        post result t) d s := by
  obtain ⟨⟨⟨free, ended⟩, onward⟩, owner⟩ :=
    run_in_solitude sane (.inl idle) (a.among_solitude.onward upholds)
  exact .of_run ⟨free.sane, owner.resolve_right free.out, modest.run_log a.number s, onward, ended⟩

end Actor

/-- What is pending gets less where a key is brought forward past a pending event. -/
theorem EventLog.pending_lt {log : EventLog} {h : Handler} {instances : List InstanceId}
    {d d' : StoreData} {e : Event} (raised : ∀ key, d.stands h.name key ≤ d'.stands h.name key)
    (pending : e ∈ log.pending h instances d) (reached : e.sequence ≤ d'.stands h.name e.key) :
    (log.pending h instances d').length < (log.pending h instances d).length := by
  have fewer : log.pending h instances d' = (log.pending h instances d).filter fun e =>
      decide (d'.stands h.name e.key < e.sequence) := by
    rw [EventLog.pending, EventLog.pending, List.filter_filter]
    refine List.filter_congr fun e _ => ?_
    rw [Bool.eq_iff_iff]
    simp only [Bool.and_eq_true, decide_eq_true_eq]
    constructor
    · rintro ⟨listed, handled, above⟩
      exact ⟨above, listed, handled, Nat.lt_of_le_of_lt (raised _) above⟩
    · rintro ⟨above, listed, handled, _⟩
      exact ⟨listed, handled, above⟩
  rw [fewer, List.length_filter_lt_length_iff_exists]
  refine ⟨e, pending, ?_⟩
  rw [decide_eq_true_eq]
  exact Nat.not_lt.mpr reached

namespace Handler

variable {h : Handler} {ctx : Context} {instances : List InstanceId} {a : Actor} {s : Scene}

/-- A page has pending events only, whatever date it is read as of. -/
theorem pending_of_queryUntil {log : EventLog} {d : StoreData} {e : Event} (asOf : Option Instant)
    (member : e ∈ log.filter (h.queryUntil asOf (SequenceMap.ofRows (d.currentSequences h.name
      fun key => decide (key.instanceId ∈ instances))) instances)) :
    e ∈ log.pending h instances d := by
  cases asOf with
  | none => exact List.mem_of_mem_take (h.filter_pageQuery log d instances ▸ member)
  | some date =>
    rw [filter_queryUntil] at member
    exact (EventLog.mem_pendingBy.mp (List.mem_of_mem_take member)).1

/-- The next page is asked for with what is stored, so all of its events are pending. -/
theorem upholds_searchQuery_alone (sane : s.Sane) (idle : s.world.transactionOf = none)
    {post : Except HandlerError SearchQuery → Scene → Prop} (failed : ∀ e t, post (.error e) t)
    (rest : ∀ q, (∀ e ∈ s.world.log.filter q,
      e ∈ s.world.log.pending h instances s.world.store.data) → post (.ok q) s) :
    (Setting.alone (Scene.answer a.number)).Upholds post (h.searchQuery ctx instances).run s := by
  have closed : s.world.store.transaction = none := by
    have owned := sane.owned
    rw [idle] at owned
    exact Option.not_isSome_iff_eq_none.mp (Bool.eq_false_iff.mp owned)
  have world : (s.world.answerStore a.number (.currentSequences h.name instances)).2 = s.world := by
    rw [World.answerStore_world]
    simp only [MemoryStore.answer, closed, ← idle, Option.isSome_none, Bool.false_eq_true, if_false]
  rintro _ rfl _
  refine ⟨trivial, ?_⟩
  dsimp only [Setting.alone, Scene.answer, Scene.answerStore]
  cases s.outage with
  | some message => exact failed _ _
  | none =>
    dsimp only
    rw [world]
    exact rest _ fun _ => pending_of_queryUntil ctx.asOf

theorem upholds_checkCancelled_alone {post : Except HandlerError Unit → Scene → Prop}
    (failed : ∀ e, post (.error e) s) (rest : post (.ok ()) s) :
    (Setting.alone (Scene.answer a.number)).Upholds post (checkCancelled ctx).run s := by
  rintro _ rfl _
  refine ⟨trivial, ?_⟩
  have answer : Scene.answer a.number (.task (.isCancelled ctx.token)) s =
    (s.world.tokens.isCancelled ctx.token, s) := rfl
  simp only [Setting.alone, answer]
  cases s.world.tokens.isCancelled ctx.token with
  | true => exact failed _
  | false => exact rest

theorem upholds_filter_alone {q : SearchQuery} {post : Except HandlerError (List Event) → Scene → Prop}
    (failed : ∀ e, post (.error e) s) (rest : post (.ok (s.world.log.filter q)) s) :
    (Setting.alone (Scene.answer a.number)).Upholds post (askSource (.filter q)).run s := by
  rintro _ rfl _
  refine ⟨trivial, ?_⟩
  dsimp only [Setting.alone, Scene.answer, Scene.answerSource]
  cases s.outage with
  | some message => exact failed _
  | none => exact rest

/-- A trigger that has run out of pages had so many events pending. -/
theorem upholds_catchUp_pages (keeps : h.registry.KeepsIdentity) {pages : Nat} (sane : s.Sane)
    (idle : s.world.transactionOf = none) :
    (Setting.alone (Scene.answer a.number)).Upholds (fun result _ => result = .ok .outOfPages →
        pages ≤ (s.world.log.pending h instances s.world.store.data).length)
      (h.catchUp instances pages ctx).run s := by
  -- a full page takes an event off what is pending, and one off the pages
  induction pages generalizing ctx s with
  | zero => exact fun _ => Nat.zero_le _
  | succ pages ih =>
    rw [catchUp]
    refine upholds_seq (upholds_checkCancelled_alone ?_ ?_)
    · intro e ends
      cases ends
    refine upholds_seq (upholds_searchQuery_alone sane idle ?_ fun q page => ?_)
    · intro e t ends
      cases ends
    refine upholds_seq (upholds_filter_alone ?_ ?_)
    · intro e ends
      cases ends
    generalize s.world.log.filter q = events at page ⊢
    dsimp only
    split
    next =>
      intro ends
      cases ends
    next some =>
      refine upholds_seq ((Actor.upholds_in_solitude sane idle (process_modest events)
        (upholds_process_reached a.among_solitude keeps (.of_none sane idle))).mono ?_)
      rintro (e | _) t ⟨sane, idle, log, onward, reached⟩
      · intro ends
        cases ends
      · dsimp only
        split
        next =>
          intro ends
          cases ends
        next =>
          obtain ⟨e, member⟩ := List.exists_mem_of_ne_nil events (by simpa using some)
          refine (ih sane idle).mono fun result _ few ends => ?_
          refine Nat.lt_of_le_of_lt (few ends) ?_
          rw [log]
          exact EventLog.pending_lt (onward.raised h.name) (page e member) (reached rfl e member)

/-- A trigger by itself does not run out of pages where there are more than pending events. -/
theorem trigger_ne_outOfPages (keeps : h.registry.KeepsIdentity) {pages : Nat} (sane : s.Sane)
    (idle : s.world.transactionOf = none) (some : instances ≠ [])
    (enough : (s.world.log.pending h instances s.world.store.data).length < pages) :
    ((h.trigger pages ctx instances).run.run (Scene.answer 0) s).1 ≠ .ok .outOfPages := by
  intro out
  rw [trigger_of_ne_nil some] at out
  have used := (upholds_catchUp_pages (a := ⟨0, none⟩) keeps sane idle).run out
  exact absurd used (Nat.not_le.mpr enough)

end Handler

end ReadModel
