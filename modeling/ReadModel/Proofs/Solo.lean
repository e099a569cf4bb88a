import ReadModel.Proofs.Identity
import ReadModel.Proofs.Settling

/-!
Updates that nothing happens around.

What such an update does is a function of the world that it begins in: `Handler.trial` tells what it
tries, and `Handler.attempts` what that makes of the data.
-/

namespace ReadModel

/-- Whether the answer to an update tells that its transaction was committed. -/
def Handler.wasCommitted : Except HandlerError (Option Nat) → Bool
  | .ok _ | .error (.someStatementsFailed _) => true
  | _ => false

/-- Tries statements one after the other, up to the first that ends the batch. -/
def Handler.attempts (h : Handler) (faults : Faults) : StoreData → List Statement → StoreData × Trial
  | d, [] => (d, [])
  | d, st :: rest =>
    match h.attempted faults d st with
    | (.stopped, d₁) => (d₁, [(st, .stopped)])
    | (verdict, d₁) =>
      ((h.attempts faults d₁ rest).1, (st, verdict) :: (h.attempts faults d₁ rest).2)

/-- What an update tries of the events that its batch stands for. -/
def Handler.trial (h : Handler) (w : World) (batch : List Statement) : Trial :=
  match h.planIn w.log (w.store.data.locked h.name w.hidden batch) 0 batch with
  | .ok steps => (h.attempts w.store.faults w.store.data (Step.statements steps)).2
  | .error _ => []

namespace Carried

variable {h : Handler} {allowed : Faults → Prop} {d d' : StoreData} {p p' : Progress}
  {steps : List Step} {tried : Trial} {faults : Faults}

/-- Where only some faults can come up, a plan is carried out in one way. -/
theorem attempts (carried : Carried h allowed d p steps d' p' tried)
    (only : ∀ f, allowed f → f = faults) :
    h.attempts faults d (Step.statements steps) = (d', tried) := by
  induction carried with
  | done => rfl
  | skip _ ih => exact ih
  | @past d p st origin rest f verdict d₁ d' p' tried met attempt going _ ih =>
    rw [only f met] at attempt
    rw [Step.statements_run, Handler.attempts, attempt]
    cases verdict with
    | stopped => exact absurd rfl going
    | applied | passedOver => simp only [ih]
  | stop met attempt =>
    rw [only _ met] at attempt
    rw [Step.statements_run, Handler.attempts, attempt]

theorem stopped_iff (carried : Carried h allowed d p steps d' p' tried) :
    p'.stopped = true ↔ p.stopped = true ∨ ∃ entry ∈ tried, entry.2 = .stopped := by
  induction carried with
  | done => simp
  | skip _ ih => exact ih
  | past _ _ going _ ih => simpa [Progress.past, going] using ih
  | stop => simp

/-- Plans that run the same statements are carried out in the same way. -/
theorem agree {d₁ d₂ : StoreData} {p₁ p₂ : Progress} {steps' : List Step} {tried' : Trial}
    (carried : Carried h (· = faults) d {} steps d₁ p₁ tried)
    (carried' : Carried h (· = faults) d {} steps' d₂ p₂ tried')
    (same : Step.statements steps = Step.statements steps') :
    d₁ = d₂ ∧ tried = tried' ∧ p₁.advanced = p₂.advanced ∧ p₁.stopped = p₂.stopped := by
  have attempts := carried.attempts fun _ same => same
  have attempts' := carried'.attempts fun _ same => same
  rw [← same, attempts] at attempts'
  obtain ⟨rfl, rfl⟩ := Prod.mk.inj attempts'
  refine ⟨rfl, rfl, carried.advanced.trans carried'.advanced.symm, ?_⟩
  exact Bool.eq_iff_iff.mpr (carried.stopped_iff.trans carried'.stopped_iff.symm)

end Carried

namespace Handler.Concludes

variable {h : Handler} {F : Frame} {log : EventLog} {token : Token} {batch : List Statement}
  {result : Except HandlerError (Option Nat)} {d : StoreData} {tried : Trial}

theorem unchanged (concludes : h.Concludes F log token batch result d tried)
    (failed : wasCommitted result = false) : d = F.base ∧ tried = [] := by
  cases concludes with
  | unreduced | cancelled | refused => exact ⟨rfl, rfl⟩
  | @committed o steps d p tried _ _ _ _ =>
    unfold Progress.result at failed
    split at failed <;> cases failed

theorem carried (concludes : h.Concludes F log token batch result d tried)
    (done : wasCommitted result = true) : ∃ o steps d' p, F.around o ∧
      h.planIn log (F.base.locked h.name o.hidden batch) 0 batch = .ok steps ∧
      Carried h F.allows F.base {} steps d' p tried ∧
      (∀ entry ∈ p.advanced.entries, ∀ n, d'.sequence? h.name entry.1 = some n → n < entry.2) ∧
      d = d'.raiseAll h.name p.advanced ∧ result = p.result := by
  cases concludes with
  | unreduced | cancelled | refused => cases done
  | committed around plan carried below =>
    exact ⟨_, _, _, _, around, plan, carried, below, rfl, rfl⟩

/-- What is tried where nothing happens around depends on the world that the update begins in. -/
theorem trial_eq {task : Nat} {a : Audit}
    (concludes : h.Concludes (Frame.alone task a) a.world.log token batch result d tried)
    (done : wasCommitted result = true) : tried = h.trial a.world batch := by
  obtain ⟨o, steps, d', p, rfl, plan, carried, _⟩ := concludes.carried done
  rw [Frame.allows_alone] at carried
  have attempts := carried.attempts fun _ same => same
  unfold Handler.trial
  rw [show h.planIn a.world.log (a.world.store.data.locked h.name a.world.hidden batch) 0 batch =
    .ok steps from plan]
  exact (congrArg Prod.snd attempts).symm

end Handler.Concludes

/-- The sequences that an update has reached lie above those that are stored, so only a storage that takes
none refuses them. -/
theorem Carried.rejects {h : Handler} {allowed : Faults → Prop} {log : EventLog}
    {batch : List Statement} {d d' : StoreData} {steps : List Step} {p : Progress} {tried : Trial}
    (carried : Carried h allowed d {} steps d' p tried) (linked : log.Linked)
    (keeps : h.registry.KeepsIdentity) (logged : h.registry.Logged log batch)
    (plan : h.planIn log (d.locked h.name (fun _ => false) batch) 0 batch = .ok steps)
    {faults : Faults} {key : SequenceKey} {sequence : Nat}
    (member : (key, sequence) ∈ p.advanced.entries)
    (refuses : d'.refuses faults h.name key sequence = true) : faults.rejectSequences = true := by
  obtain ⟨touched, rfl⟩ := carried.mem_advanced.mp member
  obtain ⟨st, inPast, rfl, largest⟩ := Statement.exists_reach touched
  obtain ⟨_, _, _, above, _⟩ :=
    linked.above_stands keeps logged plan (carried.past_prefix.subset inPast)
  rw [StoreData.refuses, carried.sequence?, Bool.or_eq_true, Option.any_eq_true] at refuses
  rcases refuses with rejects | ⟨n, row, low⟩
  · exact rejects
  · have low := of_decide_eq_true low
    have stands : d.stands h.name st.key = n := StoreData.stands_eq row
    omega

/-- Nothing keeps an update from being committed: its context is not cancelled, no rows are hidden, and
the storage takes sequences. -/
structure Calm (token : Token) (o : Outside) : Prop where
  shown : o.hidden = fun _ => false
  accepting : o.faults.rejectSequences = false
  uncancelled : o.tokens.isCancelled token = false

/-- In a calm world an update fails before it has begun to apply events, or it is committed. -/
theorem Handler.Concludes.of_calm {h : Handler} {task : Nat} {a : Audit} {token : Token}
    {batch : List Statement} {result : Except HandlerError (Option Nat)} {d : StoreData}
    {tried : Trial}
    (concludes : h.Concludes (Frame.alone task a) a.world.log token batch result d tried)
    (calm : Calm token a.world.outside) (linked : a.world.log.Linked)
    (keeps : h.registry.KeepsIdentity) (logged : h.registry.Logged a.world.log batch) :
    (∃ e, h.planIn a.world.log (a.world.store.data.locked h.name (fun _ => false) batch) 0 batch =
        .error e ∧ result = .error (.reduce e) ∧ d = a.world.store.data) ∨
      ∃ steps d' p,
        h.planIn a.world.log (a.world.store.data.locked h.name (fun _ => false) batch) 0 batch =
          .ok steps ∧
        Carried h (· = a.world.store.faults) a.world.store.data {} steps d' p tried ∧
        d = d'.raiseAll h.name p.advanced ∧ result = p.result := by
  have shown : a.world.hidden = fun _ => false := calm.shown
  rw [← shown, ← Frame.allows_alone task]
  cases concludes with
  | unreduced around plan =>
    obtain rfl := around
    exact .inl ⟨_, plan, rfl, rfl⟩
  | cancelled around test =>
    obtain rfl := around
    exact absurd (test.symm.trans calm.uncancelled) Bool.noConfusion
  | committed around plan carried =>
    obtain rfl := around
    exact .inr ⟨_, _, _, plan, carried, rfl, rfl⟩
  | @refused o steps d p tried faults key sequence around plan carried member allowed refuses =>
    obtain rfl := around
    have plan : h.planIn a.world.log (a.world.store.data.locked h.name (fun _ => false) batch) 0
        batch = .ok steps := by
      rw [← shown]
      exact plan
    rw [Frame.allows_alone] at allowed
    obtain rfl := allowed
    have rejects := carried.rejects linked keeps logged plan member refuses
    exact absurd (rejects.symm.trans calm.accepting) Bool.noConfusion

/-- A handler that keeps organizations and has no patience with failures. -/
def orgsHandler : Handler where
  name := orgsProjection.name
  registry := orgsProjection.registry
  config := { maxFailureCount := 0 }
  owner := "owner"

/-- The world in which three organizations of one instance were added that no handler has seen. -/
def threeOrgs : World where
  projection := orgsProjection.name
  today := default
  pushDate := default
  log := (EventLog.push {} default <| ["1", "2", "3"].map fun name =>
    ⟨⟨"org"⟩, ⟨name⟩, ⟨"a"⟩, ⟨"org.added"⟩, .object [("name", .text name)]⟩).2

/-- What the first events of a log ask for. -/
def Registry.firstStatements (r : Registry) (log : EventLog) (n : Nat) : List Statement :=
  match r.reduceAll (log.events.take n) with
  | .ok statements => statements
  | .error _ => []

theorem Registry.logged_firstStatements (r : Registry) (log : EventLog) (n : Nat) :
    r.Logged log (r.firstStatements log n) := by
  unfold firstStatements
  split
  next statements reduced =>
    exact logged_of_reduceAll reduced fun _ inside => List.mem_of_mem_take inside
  next => rintro _ ⟨⟩

end ReadModel
