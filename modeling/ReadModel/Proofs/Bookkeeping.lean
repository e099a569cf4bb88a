import ReadModel.Proofs.Gaps
import ReadModel.Proofs.Interrupted
import ReadModel.Proofs.Modesty
import ReadModel.Proofs.Savepoints
import ReadModel.Proofs.Settling

/-!
The books of a projection.

An update stores the sequences of its keys after it has carried out its plan. Whatever its batch says, what
the plan runs lies above what is stored (`Handler.planIn_above_stands`); so the storage takes each sequence
that an update stores, and an update ends with no error of the storage.
-/

namespace ReadModel

open Dialogue (Only)

namespace Handler

variable {h : Handler} {log : EventLog} {known : SequenceMap} {index : Nat} {batch : List Statement}
  {steps : List Step} {d : StoreData}

/-- A plan runs statements for keys of its batch only. -/
theorem planIn_keys (ascending : log.events.Pairwise (·.sequence < ·.sequence))
    (keeps : h.registry.KeepsIdentity) (plan : h.planIn log known index batch = .ok steps) :
    ∀ st ∈ Step.statements steps, ∃ st' ∈ batch, st'.key = st.key := by
  induction batch generalizing known index steps with
  | nil =>
    obtain rfl := Except.ok.inj plan
    simp
  | cons first rest ih =>
    have later {known' : SequenceMap} {others : List Step}
        (planned : h.planIn log known' (index + 1) rest = .ok others) :
        ∀ st ∈ Step.statements others, ∃ st' ∈ first :: rest, st'.key = st.key := by
      intro st member
      obtain ⟨st', among, ours⟩ := ih planned st member
      exact ⟨st', List.mem_cons_of_mem _ among, ours⟩
    rcases planIn_ok_cases plan with
      ⟨others, _, planned, rfl⟩ | ⟨missing, others, _, gap, planned, rfl⟩
    · rw [Step.statements_skip]
      exact later planned
    · obtain ⟨_, inside⟩ := gapIn_ordered ascending keeps gap
      rw [Step.statements_append, Step.statements_run]
      intro st member
      rcases List.mem_append.mp member with before | after
      · exact ⟨first, List.mem_cons_self .., (inside st before).1.symm⟩
      · rcases List.mem_cons.mp after with rfl | after
        · exact ⟨st, List.mem_cons_self .., rfl⟩
        · exact later planned st after

/-- What a plan runs lies above the sequence that is stored for its key. -/
theorem planIn_above_stands (ascending : log.events.Pairwise (·.sequence < ·.sequence))
    (keeps : h.registry.KeepsIdentity)
    (plan : h.planIn log (d.locked h.name (fun _ => false) batch) index batch = .ok steps) :
    ∀ st ∈ Step.statements steps, d.stands h.name st.key < st.sequence := by
  intro st member
  obtain ⟨_, above⟩ := planIn_ordered ascending keeps plan
  obtain ⟨st', among, ours⟩ := planIn_keys ascending keeps plan st member
  have more := above st member
  rwa [← ours, d.get_locked_shown h.name among, ours] at more

end Handler

/-- The sequences that are reached lie above those that are stored. -/
theorem Carried.advanced_above {h : Handler} {allowed : Faults → Prop} {log : EventLog}
    {batch : List Statement} {d d' : StoreData} {steps : List Step} {p : Progress} {tried : Trial}
    (carried : Carried h allowed d {} steps d' p tried)
    (ascending : log.events.Pairwise (·.sequence < ·.sequence)) (keeps : h.registry.KeepsIdentity)
    (plan : h.planIn log (d.locked h.name (fun _ => false) batch) 0 batch = .ok steps) :
    ∀ entry ∈ p.advanced.entries, d.stands h.name entry.1 < entry.2 := by
  rintro ⟨key, n⟩ member
  obtain ⟨touched, rfl⟩ := carried.mem_advanced.mp member
  obtain ⟨st, inPast, rfl, largest⟩ := Statement.exists_reach touched
  have above := Handler.planIn_above_stands ascending keeps plan st
    (carried.past_prefix.subset inPast)
  rwa [largest] at above

/-- A sequence above the one that is stored is not refused, if a storage takes any. -/
theorem StoreData.refuses_of_above {d : StoreData} {faults : Faults} {projection : String}
    {key : SequenceKey} {n : Nat} (accepting : faults.rejectSequences = false)
    (above : d.stands projection key < n) : d.refuses faults projection key n = false := by
  unfold refuses
  rw [accepting, Bool.false_or, Bool.eq_false_iff]
  intro reached
  rw [Option.any_eq_true] at reached
  obtain ⟨m, row, low⟩ := reached
  have low := of_decide_eq_true low
  rw [StoreData.stands_eq row] at above
  omega

namespace Dialogue

variable {I : Interface} {α β σ : Type} {answer : (c : I.Call) → σ → I.Answer c × σ}
  {P : Exchange I → Prop}

/-- All that a program asks, and how that is answered, is of a kind. -/
def Each (answer : (c : I.Call) → σ → I.Answer c × σ) (P : Exchange I → Prop) (d : Dialogue I α)
    (s : σ) : Prop := ∀ x ∈ d.transcript answer s, P x

theorem Each.bind {d : Dialogue I α} {f : α → Dialogue I β} {s : σ} (first : d.Each answer P s)
    (rest : (f (d.run answer s).1).Each answer P (d.run answer s).2) : (d.bind f).Each answer P s := by
  unfold Each
  rw [transcript_bind]
  exact List.forall_mem_append.mpr ⟨first, rest⟩

theorem Each.ask {c : I.Call} {next : I.Answer c → Dialogue I α} {s : σ}
    (here : P ⟨c, (answer c s).1⟩) (rest : (next (answer c s).1).Each answer P (answer c s).2) :
    (Dialogue.ask c next).Each answer P s :=
  List.forall_mem_cons.mpr ⟨here, rest⟩

theorem Only.each {kind : I.Call → Prop} {d : Dialogue I α} (only : d.Only kind)
    (kinds : ∀ x : Exchange I, kind x.call → P x) (s : σ) : d.Each answer P s :=
  fun x member => kinds x (only.transcript answer s x member)

end Dialogue

section Action

variable {α β σ : Type} {answer : (c : HandlerCall) → σ → c.Answer × σ}
  {P : Exchange handlerInterface → Prop} {x : Action α} {s : σ}

theorem each_seq {f : α → Action β} (first : x.run.Each answer P s)
    (rest : ∀ a, (x.run.run answer s).1 = .ok a →
      (f a).run.Each answer P (x.run.run answer s).2) : (x >>= f).run.Each answer P s := by
  refine Dialogue.Each.bind (d := x.run) first ?_
  cases ended : (x.run.run answer s).1 with
  | ok a => exact rest a ended
  | error e => exact fun x none => nomatch none

theorem each_tryCatch {handle : HandlerError → Action α} (first : x.run.Each answer P s)
    (rest : ∀ e, (handle e).run.Each answer P (x.run.run answer s).2) :
    (tryCatch x handle).run.Each answer P s := by
  refine Dialogue.Each.bind (d := x.run) first ?_
  cases (x.run.run answer s).1 with
  | ok a => exact fun x none => nomatch none
  | error e => exact rest e

end Action

/-- An exchange that stores a sequence does so for the projection, above where the key stands, and is
granted. -/
def Raises (projection : String) (d : StoreData) : Exchange handlerInterface → Prop
  | ⟨.store (.upsertSequence name key n), answer⟩ =>
    name = projection ∧ d.stands projection key < n ∧ answer = .ok 1
  | _ => True

/-- A call that stores no sequence. -/
def HandlerCall.Bookless : HandlerCall → Prop
  | .store (.upsertSequence ..) => False
  | _ => True

theorem HandlerCall.Bookless.raises {projection : String} {d : StoreData}
    (x : Exchange handlerInterface) (bookless : x.call.Bookless) : Raises projection d x := by
  obtain ⟨call, answer⟩ := x
  cases call with
  | store c => cases c <;> trivial
  | source | lock | task => trivial

section Bookless

variable {h : Handler} {ctx : Context}

theorem bookless_transact (c : StoreCall) (kind : (HandlerCall.store c).Bookless) :
    (transact c).run.Only HandlerCall.Bookless :=
  ⟨kind, fun answer => by cases answer <;> trivial⟩

theorem bookless_checkCancelled : (checkCancelled ctx).run.Only HandlerCall.Bookless :=
  ⟨trivial, fun cancelled => by cases cancelled <;> trivial⟩

theorem bookless_plan (known : SequenceMap) (index : Nat) (batch : List Statement) :
    (h.plan known index batch).run.Only HandlerCall.Bookless := by
  induction batch generalizing known index with
  | nil => trivial
  | cons st rest ih =>
    unfold Handler.plan
    dsimp only
    split
    · exact (ih known (index + 1)).seq fun _ => trivial
    · have gap (last : Nat) : (h.fillGap st last).run.Only HandlerCall.Bookless := by
        unfold Handler.fillGap
        split
        · trivial
        · refine Only.seq ⟨trivial, fun answer => by cases answer <;> trivial⟩ fun missing => ?_
          split <;> trivial
      exact (gap _).seq fun _ => (ih _ (index + 1)).seq fun _ => trivial

theorem bookless_attempt (st : Statement) : (h.attempt st).run.Only HandlerCall.Bookless := by
  unfold Handler.attempt
  refine (bookless_transact .savepoint trivial).seq fun _ => ⟨trivial, fun answer => ?_⟩
  cases answer with
  | ok => exact (bookless_transact .releaseSavepoint trivial).seq fun _ => trivial
  | error e =>
    have counted : (h.countFailure st e).run.Only HandlerCall.Bookless :=
      (bookless_transact .rollbackToSavepoint trivial).seq fun _ =>
        (bookless_transact (.recordFailure ..) trivial).seq fun _ => trivial
    exact counted.seq fun _ => trivial

theorem bookless_carryOut (p : Progress) (steps : List Step) :
    (h.carryOut ctx p steps).run.Only HandlerCall.Bookless := by
  induction steps generalizing p with
  | nil => trivial
  | cons step rest ih =>
    cases step with
    | skip index => exact ih _
    | run st origin =>
      rw [Handler.carryOut_run]
      refine bookless_checkCancelled.seq fun _ => (bookless_attempt st).seq fun verdict => ?_
      cases verdict with
      | applied | passedOver => exact ih _
      | stopped => trivial

theorem bookless_carryBatch (batch : List Statement) :
    (h.carryBatch ctx batch).run.Only HandlerCall.Bookless :=
  (bookless_transact (.lockSequences ..) trivial).seq fun _ =>
    (bookless_plan _ 0 batch).seq fun steps => bookless_carryOut {} steps

end Bookless

section Update

variable {h : Handler} {ctx : Context} {batch : List Statement} {around : Surroundings} {task : Nat}
  {tokens : Nat → Tokens} {a : Audit}

/-- Sequences above those that are stored are granted one after the other. -/
theorem each_storeSequences {entries : List (SequenceKey × Nat)}
    (distinct : entries.Pairwise (·.1 ≠ ·.1)) {F : Frame}
    (safe : F.Sheltered around (Setting.amid around F.task))
    (accepting : ∀ o, F.around o → o.faults.rejectSequences = false)
    {d d₀ : StoreData} {pending : List Operation} {s : Course} (within : F.Within d [] pending s.audit)
    (above : ∀ entry ∈ entries, d₀.stands h.name entry.1 < entry.2)
    (same : ∀ entry ∈ entries, d.sequence? h.name entry.1 = d₀.sequence? h.name entry.1) :
    (h.storeSequences entries).run.Each (Audit.answerAmid tokens around F.task) (Raises h.name d₀) s := by
  induction entries generalizing d s with
  | nil => exact fun x none => nomatch none
  | cons entry rest ih =>
    obtain ⟨key, n⟩ := entry
    obtain ⟨apart, others⟩ := List.pairwise_cons.mp distinct
    obtain ⟨high, higher⟩ := List.forall_mem_cons.mp above
    obtain ⟨here, later⟩ := List.forall_mem_cons.mp same
    have there := safe.others within ⟨tokens s.calls, rfl⟩
    have stands : d.stands h.name key = d₀.stands h.name key := by
      unfold StoreData.stands
      rw [here]
    have accepted : d.refuses (s.audit.withTokens (tokens s.calls)).world.store.faults h.name key n =
        false :=
      StoreData.refuses_of_above (accepting _ there.around) (stands ▸ high)
    obtain ⟨granted, next⟩ := there.upsertSequence_raised around accepted
    have answered : (Audit.answerAmid tokens around F.task (.store (.upsertSequence h.name key n)) s).1 =
        .ok 1 := granted
    refine Dialogue.Each.ask ⟨rfl, high, answered⟩ ?_
    rw [answered]
    -- the rows of the other keys are as they were
    refine ih others (s := (Audit.answerAmid tokens around F.task _ s).2) next higher fun entry member => ?_
    rw [StoreData.sequence?_raise, if_neg (apart entry member)]
    exact later entry member

/-- In its transaction an update stores sequences above those that were stored when it began. -/
theorem Handler.each_conclude (ascending : a.world.log.events.Pairwise (·.sequence < ·.sequence))
    (keeps : h.registry.KeepsIdentity) (shown : a.world.hidden = fun _ => false)
    (accepting : a.world.store.faults.rejectSequences = false) {s : Course}
    (within : (Frame.amid task a).Within a.world.store.data [] [] s.audit) :
    (h.conclude ctx batch).run.Each (Audit.answerAmid tokens around task)
      (Raises h.name a.world.store.data) s := by
  have safe := Frame.sheltered_amid task around a
  have bookless {α : Type} {d : Task α} (only : d.Only HandlerCall.Bookless) (s : Course) :
      d.Each (Audit.answerAmid tokens around task) (Raises h.name a.world.store.data) s :=
    only.each HandlerCall.Bookless.raises s
  refine each_seq (each_tryCatch ?_ fun e => bookless ?_ _) fun p _ => bookless ?_ _
  · rw [applyBatch_eq]
    refine each_seq (bookless (bookless_carryBatch batch) s) fun p ended => ?_
    have steady : (Frame.amid task a).Steady a.world.log batch := by
      intro o like st _ last
      rw [like.log]
      rfl
    have carries : (Setting.amid around task).Upholds (fun result b => ∀ p, result = .ok p →
        ∃ steps d tried pending,
          h.planIn a.world.log (a.world.store.data.locked h.name (fun _ => false) batch) 0 batch =
            .ok steps ∧
          Carried h (Frame.amid task a).allows a.world.store.data {} steps d p tried ∧
          (Frame.amid task a).Within d [] pending b) (h.carryBatch ctx batch).run s.audit := by
      refine safe.carryBatch steady within (fun t e d pending _ _ p none => nomatch none) ?_
      intro t o steps d p tried like plan carried there _ same
      obtain rfl := Except.ok.inj same
      rw [like.hidden] at plan
      have plan' := plan
      rw [show a.world.outside.hidden = fun _ => false from shown] at plan'
      exact ⟨steps, d, tried, _, plan', carried, there⟩
    obtain ⟨steps, d, tried, pending, plan, carried, there⟩ :=
      Setting.Upholds.run_amid _ tokens carries p ended
    refine each_seq ?_ fun _ _ => bookless ?_ _
    rotate_left
    · exact bookless_checkCancelled.seq fun _ => trivial
    refine each_storeSequences p.advanced.distinct safe (fun o like => ?_) there
      (carried.advanced_above ascending keeps plan) fun entry _ => carried.sequence? ..
    rw [like.faults]
    exact accepting
  · exact ⟨trivial, fun _ => trivial⟩
  · refine (bookless_transact .commit trivial).seq fun _ => ?_
    split <;> trivial

theorem Handler.each_update {s : Course}
    (ascending : s.audit.world.log.events.Pairwise (·.sequence < ·.sequence))
    (keeps : h.registry.KeepsIdentity) (shown : s.audit.world.hidden = fun _ => false)
    (accepting : s.audit.world.store.faults.rejectSequences = false) :
    (h.update ctx batch).run.Each (Audit.answerAmid tokens around task)
      (Raises h.name s.audit.world.store.data) s := by
  rw [update_eq]
  split
  next => exact fun x none => nomatch none
  next =>
    have looked : ((checkCancelled ctx).run.run (Audit.answerAmid tokens around task) s).2 =
        ⟨s.calls + 1, s.audit.withTokens (tokens s.calls)⟩ := by
      refine (congrArg Prod.snd (Dialogue.run_ask ..)).trans ?_
      cases (Audit.answerAmid tokens around task (.task (.isCancelled ctx.token)) s).1 <;> rfl
    refine each_seq (bookless_checkCancelled.each HandlerCall.Bookless.raises s) fun _ _ => ?_
    rw [looked]
    refine each_seq ((bookless_transact .begin trivial).each HandlerCall.Bookless.raises _) fun _ _ => ?_
    exact each_conclude ascending keeps shown accepting ⟨rfl, rfl, rfl, rfl, rfl, rfl, rfl, rfl⟩

end Update

/-- An error with which an update ends that does not race with another. -/
def HandlerError.Unraced : HandlerError → Prop
  | .reduce _ | .someStatementsFailed _ | .cancelled => True
  | _ => False

/-- The sequences of an update are refused by nobody, so it ends with no error of the storage. -/
theorem Handler.Leaves.unraced {h : Handler} {token : Token} {task : Nat} {batch : List Statement}
    {a b : Audit} {e : HandlerError} {tried : Trial}
    (leaves : h.Leaves token task batch a (.error e) tried b) (linked : a.world.log.Linked)
    (keeps : h.registry.KeepsIdentity) (shown : a.world.hidden = fun _ => false)
    (accepting : a.world.store.faults.rejectSequences = false) : e.Unraced := by
  obtain ⟨concludes, _, _⟩ := leaves
  generalize b.world.store.data = left at concludes
  generalize ended : Except.error e = result at concludes
  cases concludes with
  | unreduced | cancelled =>
    obtain rfl := Except.error.inj ended
    trivial
  | @refused o steps d p tried faults key n like plan carried member allowed refuses =>
    rw [like.hidden, show a.world.outside.hidden = fun _ => false from shown] at plan
    rw [Frame.allows_amid] at allowed
    have above := carried.advanced_above linked.ascending keeps plan (key, n) member
    have same : d.stands h.name key = a.world.store.data.stands h.name key := by
      unfold StoreData.stands
      rw [carried.sequence?]
      rfl
    have accepted := StoreData.refuses_of_above (allowed ▸ accepting) (same ▸ above)
    exact absurd (refuses.symm.trans accepted) Bool.noConfusion
  | @committed o steps d p tried =>
    -- the one error left is that a statement has failed
    unfold Progress.result at ended
    split at ended
    · obtain rfl := Except.error.inj ended
      trivial
    · cases ended

/-- Where nobody else writes, an update ends with no error of the storage, and never finds a sequence that
it stores refused: whatever its batch says, whatever fails, and whenever it is cancelled. -/
theorem Handler.update_keeps_books (h : Handler) (ctx : Context) (batch : List Statement)
    (tokens : Nat → Tokens) (around : Surroundings) (task : Nat) {s : Course}
    (pushed : s.audit.world.log.Pushed) (keeps : h.registry.KeepsIdentity)
    (shown : s.audit.world.hidden = fun _ => false)
    (accepting : s.audit.world.store.faults.rejectSequences = false) :
    (∀ e, ((h.update ctx batch).run.run (Audit.answerAmid tokens around task) s).1 = .error e →
        e.Unraced) ∧
      ∀ x ∈ (h.update ctx batch).run.transcript (Audit.answerAmid tokens around task) s,
        Raises h.name s.audit.world.store.data x := by
  have linked := pushed.linked
  refine ⟨fun e ended => ?_, Handler.each_update linked.ascending keeps shown accepting⟩
  obtain ⟨tried, leaves⟩ := h.update_leaves ctx batch around task tokens s
  rw [ended] at leaves
  exact leaves.unraced linked keeps shown accepting

/-- A batch that no log stands behind: its key has no events, one of its statements comes twice, and one has
no sequence. -/
def Statement.unfounded : List Statement :=
  let ghost : Statement := { (default : Statement) with aggregateType := ⟨"ghost"⟩, operation := .noOp }
  [{ ghost with sequence := 7, previousSequence := 5 }, { ghost with sequence := 7 }, ghost]

/-- An update stores the sequence of a batch that no log stands behind. -/
theorem Handler.update_keeps_books_of_unfounded :
    let s : Course := { audit := { world := threeOrgs } }
    let update := (orgsHandler.update default Statement.unfounded).run
    let answer := Audit.answerAmid (fun _ => {}) .still 0
    s.audit.world.log.Pushed ∧ orgsHandler.registry.KeepsIdentity ∧
      s.audit.world.hidden = (fun _ => false) ∧
      s.audit.world.store.faults.rejectSequences = false ∧
      (∀ e, (update.run answer s).1 = .error e → e.Unraced) ∧
      (∀ x ∈ update.transcript answer s, Raises orgsHandler.name {} x) ∧
      (update.transcript answer s).filterMap Exchange.storedKey? = [⟨⟨"ghost"⟩, default⟩] := by
  intro s update answer
  have pushed : s.audit.world.log.Pushed := .push _ _ .empty
  obtain ⟨errors, raises⟩ := orgsHandler.update_keeps_books default Statement.unfounded (fun _ => {})
    .still 0 pushed Orgs.keepsIdentity rfl rfl
  exact ⟨pushed, Orgs.keepsIdentity, rfl, rfl, errors, raises, by decide +kernel⟩

end ReadModel
