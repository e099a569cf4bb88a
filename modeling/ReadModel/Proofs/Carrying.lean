import ReadModel.Proofs.Awaited
import ReadModel.Proofs.Transaction

/-!
Carrying out a plan.

`Carried` says what becomes of the data of a transaction when a plan is carried out, and which of its
statements were tried with which verdict. All that it leaves open are the faults that come up.
-/

namespace ReadModel

/-- What becomes of a statement: it is applied, or it fails and is passed over, or it ends the
batch. -/
inductive Verdict where
  | applied
  | passedOver
  | stopped
  deriving DecidableEq

/-- Tries a statement; where it fails nothing but the failure is left of it. -/
def Handler.attempted (h : Handler) (faults : Faults) (d : StoreData) (st : Statement) :
    Verdict × StoreData :=
  match (st.operation.run faults d.tables).error with
  | none => (.applied, { d with tables := (st.operation.run faults d.tables).tables })
  | some e =>
    let counted := d.recordFailure h.name st.instanceId st.sequence e.message
    (if h.config.maxFailureCount < counted.1 then .passedOver else .stopped, counted.2)

/-- Statements that were tried, and what has become of them. -/
abbrev Trial := List (Statement × Verdict)

/-- The statements that were applied. -/
def Trial.applied (tried : Trial) : List Statement :=
  (tried.filter fun entry => decide (entry.2 = .applied)).map Prod.fst

/-- The statements that the batch has got past. -/
def Trial.past (tried : Trial) : List Statement :=
  (tried.filter fun entry => decide (entry.2 ≠ .stopped)).map Prod.fst

/-- A plan is carried out from some data and progress on to others. -/
inductive Carried (h : Handler) (allowed : Faults → Prop) :
    StoreData → Progress → List Step → StoreData → Progress → Trial → Prop
  | done {d p} : Carried h allowed d p [] d p []
  | skip {d p index rest d' p' tried} :
      Carried h allowed d { p with lastApplied := some index } rest d' p' tried →
      Carried h allowed d p (.skip index :: rest) d' p' tried
  | past {d p st origin rest faults verdict d₁ d' p' tried} :
      allowed faults → h.attempted faults d st = (verdict, d₁) → verdict ≠ .stopped →
      Carried h allowed d₁ (p.past st origin) rest d' p' tried →
      Carried h allowed d p (.run st origin :: rest) d' p' ((st, verdict) :: tried)
  | stop {d p st origin rest faults d₁} :
      allowed faults → h.attempted faults d st = (.stopped, d₁) →
      Carried h allowed d p (.run st origin :: rest) d₁ { p with stopped := true } [(st, .stopped)]

namespace Frame

variable {F : Frame} {surroundings : Surroundings} {S : Setting handlerInterface Audit}
  {d : StoreData} {pending : List Operation} {a : Audit} {h : Handler}

theorem Sheltered.countFailure (safe : F.Sheltered surroundings S) {snapshot : StoreData}
    {st : Statement} {e : StorageError} {post : Except HandlerError Bool → Audit → Prop}
    (within : F.Within d [snapshot] pending a)
    (rest : ∀ t,
      F.Within (snapshot.recordFailure h.name st.instanceId st.sequence e.message).2 [] pending t →
      post (.ok (decide (h.config.maxFailureCount <
        (snapshot.recordFailure h.name st.instanceId st.sequence e.message).1))) t) :
    S.Upholds post (h.countFailure st e).run a := by
  refine upholds_seq (safe.rollbackToSavepoint within fun t there => ?_)
  exact upholds_seq (safe.recordFailure there rest)

/-- Carrying out a plan ends as `Carried` says unless it is cancelled. -/
theorem Sheltered.carryOut (safe : F.Sheltered surroundings S) {ctx : Context} {p : Progress}
    {steps : List Step} {post : Except HandlerError Progress → Audit → Prop}
    (within : F.Within d [] pending a)
    (cancelled : ∀ t o d pending, F.around o → o.tokens.isCancelled ctx.token = true →
      F.Within d [] pending t → post (.error .cancelled) t)
    (ended : ∀ t d' p' tried, Carried h F.allows d p steps d' p' tried →
      F.Within d' [] (pending ++ tried.applied.map (·.operation)) t → post (.ok p') t) :
    S.Upholds post (h.carryOut ctx p steps).run a := by
  induction steps generalizing d p pending a with
  | nil => exact ended a d p [] .done (by simpa [Trial.applied] using within)
  | cons step rest ih =>
    cases step with
    | skip index => exact ih within fun t d' p' tried carried => ended t d' p' tried (.skip carried)
    | run st origin =>
      refine upholds_seq (safe.checkCancelled within
        (fun t o around test there => cancelled t o d pending around test there)
        fun t o around test there => ?_)
      refine upholds_seq (safe.savepoint there fun t there => ?_)
      refine upholds_seq (safe.execute there ?_ ?_)
      · intro t faults allowed success there
        refine upholds_seq (safe.releaseSavepoint there fun t there => ?_)
        have verdict : h.attempted faults d st =
            (.applied, { d with tables := (st.operation.run faults d.tables).tables }) := by
          simp only [Handler.attempted, success]
        refine ih there fun t d' p' tried carried there => ?_
        refine ended t d' p' _ (.past allowed verdict (by simp) carried) ?_
        simpa [Trial.applied] using there
      · intro t faults e allowed failure there
        refine upholds_seq (safe.countFailure there fun t there => ?_)
        have verdict : h.attempted faults d st =
            (if h.config.maxFailureCount <
                (d.recordFailure h.name st.instanceId st.sequence e.message).1
              then .passedOver else .stopped,
              (d.recordFailure h.name st.instanceId st.sequence e.message).2) := by
          simp only [Handler.attempted, failure]
        by_cases often : h.config.maxFailureCount <
            (d.recordFailure h.name st.instanceId st.sequence e.message).1
        · rw [if_pos often] at verdict
          simp only [often, decide_true, if_true]
          refine ih there fun t d' p' tried carried there => ?_
          refine ended t d' p' _ (.past allowed verdict (by simp) carried) ?_
          simpa [Trial.applied] using there
        · rw [if_neg often] at verdict
          simp only [often, decide_false, Bool.false_eq_true, if_false]
          refine ended t _ _ _ (.stop allowed verdict) ?_
          simpa [Trial.applied] using there

end Frame

end ReadModel
