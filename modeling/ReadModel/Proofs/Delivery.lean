import ReadModel.Proofs.Solo

/-!
Delivery of events in batches.

What an update makes of a batch for one key depends on the last event of the batch only: the events
before it are the same in any order and in any number, and those that are missing are fetched from
the log.
-/

namespace ReadModel

/-- A batch for one key stands for all events of the key up to the last one. -/
theorem EventLog.Linked.awaited_of_single {log : EventLog} (linked : log.Linked)
    (known : SequenceMap) {batch : List Statement} {key : SequenceKey}
    (single : ∀ st ∈ batch, st.key = key) :
    log.awaited known batch = log.between key (known.get key) (Statement.reach key batch) := by
  rw [← linked.awaited_of_key known batch key]
  symm
  rw [List.filter_eq_self]
  intro e awaits
  obtain ⟨st, member, ours⟩ := EventLog.key_of_mem_awaited awaits
  exact decide_eq_true (ours.symm.trans (single st member))

namespace Handler

/-- Two answers of updates tell the same but for the last statement that is applied. -/
inductive SameKind :
    Except HandlerError (Option Nat) → Except HandlerError (Option Nat) → Prop
  | applied {m n} : SameKind (.ok m) (.ok n)
  | stopped {m n} : SameKind (.error (.someStatementsFailed m)) (.error (.someStatementsFailed n))
  | unreduced {e} : SameKind (.error (.reduce e)) (.error (.reduce e))

theorem SameKind.of_stopped {p p' : Progress} (same : p.stopped = p'.stopped) :
    SameKind p.result p'.result := by
  unfold Progress.result
  rw [same]
  cases p'.stopped
  · exact .applied
  · exact .stopped

variable {h : Handler} {w : World} {batch batch' : List Statement}
  {key : SequenceKey}

/-- What the plan for a batch of one key runs. -/
theorem planIn_of_single (linked : w.log.Linked) (keeps : h.registry.KeepsIdentity)
    (logged : h.registry.Logged w.log batch) (some : batch ≠ [])
    (single : ∀ st ∈ batch, st.key = key) :
    (h.planIn w.log (w.store.data.locked h.name (fun _ => false) batch) 0 batch).map
        Step.statements =
      h.registry.reduceAll (w.log.between key (w.store.data.stands h.name key)
        (Statement.reach key batch)) := by
  obtain ⟨st, member⟩ := List.exists_mem_of_ne_nil batch some
  have known := w.store.data.get_locked_shown h.name member
  rw [single st member] at known
  rw [linked.planIn_statements keeps logged, linked.awaited_of_single _ single, known]

/-- Two batches for one key with the same last event leave the same data and end alike, whatever
order their statements are in, however often, and whichever of the earlier ones they have. -/
theorem update_delivery (ctx ctx' : Context) (surroundings surroundings' : Surroundings)
    (task task' : Nat) (pushed : w.log.Pushed) (keeps : h.registry.KeepsIdentity)
    (calm : Calm ctx.token w.outside) (calm' : Calm ctx'.token w.outside)
    (logged : h.registry.Logged w.log batch) (logged' : h.registry.Logged w.log batch')
    (some : batch ≠ []) (some' : batch' ≠ [])
    (single : ∀ st ∈ batch, st.key = key) (single' : ∀ st ∈ batch', st.key = key)
    (last : Statement.reach key batch = Statement.reach key batch') :
    ((h.update ctx batch).run.run (World.answer surroundings task) w).2.store.data =
        ((h.update ctx' batch').run.run (World.answer surroundings' task') w).2.store.data ∧
      SameKind ((h.update ctx batch).run.run (World.answer surroundings task) w).1
        ((h.update ctx' batch').run.run (World.answer surroundings' task') w).1 := by
  have linked := pushed.linked
  have audited := Audit.run_world surroundings task (h.update ctx batch).run ⟨w, {}⟩
  have audited' := Audit.run_world surroundings' task' (h.update ctx' batch').run ⟨w, {}⟩
  obtain ⟨d, tried, concludes, left, _⟩ := h.update_concludes ctx batch task surroundings ⟨w, {}⟩
  obtain ⟨d', tried', concludes', left', _⟩ :=
    h.update_concludes ctx' batch' task' surroundings' ⟨w, {}⟩
  rw [audited, audited']
  dsimp only
  rw [left, left']
  have plans := planIn_of_single linked keeps logged some single
  have plans' := planIn_of_single linked keeps logged' some' single'
  rw [← last, ← plans] at plans'
  rcases concludes.of_calm calm linked keeps logged with
    ⟨e, plan, result, rfl⟩ | ⟨steps, base, p, plan, carried, rfl, result⟩ <;>
    rcases concludes'.of_calm calm' linked keeps logged' with
      ⟨e', plan', result', rfl⟩ | ⟨steps', base', p', plan', carried', rfl, result'⟩ <;>
    rw [result, result'] <;> rw [plan, plan'] at plans' <;> dsimp only [Except.map] at plans'
  case inl.inl =>
    rw [Except.error.inj plans']
    exact ⟨rfl, .unreduced⟩
  case inl.inr => cases plans'
  case inr.inl => cases plans'
  case inr.inr =>
    obtain ⟨rfl, rfl, advanced, stopped⟩ := carried.agree carried' (Except.ok.inj plans').symm
    rw [advanced]
    exact ⟨rfl, .of_stopped stopped⟩

/-- Three organizations that come in reverse order are added as they are where only the last one
comes. -/
theorem update_delivery_of_reverse :
    let batch := orgsHandler.registry.firstStatements threeOrgs.log 3
    let backwards := (orgsHandler.update { token := ⟨0, []⟩ } batch.reverse).run.run
      (World.answer .still 0) threeOrgs
    let alone := (orgsHandler.update { token := ⟨1, []⟩ } (batch.drop 2)).run.run
      (World.answer .still 1) threeOrgs
    backwards.2.store.data = alone.2.store.data ∧ SameKind backwards.1 alone.1 ∧
      (alone.2.store.data.tables.rows orgsTable).length = 3 := by
  have logged := orgsHandler.registry.logged_firstStatements threeOrgs.log 3
  have single : ∀ st ∈ orgsHandler.registry.firstStatements threeOrgs.log 3,
      st.key = ⟨⟨"org"⟩, ⟨"a"⟩⟩ := by decide +kernel
  have some : (orgsHandler.registry.firstStatements threeOrgs.log 3).drop 2 ≠ [] := by
    decide +kernel
  have last : Statement.reach ⟨⟨"org"⟩, ⟨"a"⟩⟩
      (orgsHandler.registry.firstStatements threeOrgs.log 3).reverse =
    Statement.reach ⟨⟨"org"⟩, ⟨"a"⟩⟩
      ((orgsHandler.registry.firstStatements threeOrgs.log 3).drop 2) := by decide +kernel
  obtain ⟨data, kind⟩ := update_delivery { token := ⟨0, []⟩ } { token := ⟨1, []⟩ } .still .still 0 1
    (.push _ _ .empty) Orgs.keepsIdentity ⟨rfl, rfl, rfl⟩ ⟨rfl, rfl, rfl⟩
    (fun st member => logged st (List.mem_reverse.mp member))
    (fun st member => logged st (List.mem_of_mem_drop member)) (by decide +kernel) some
    (fun st member => single st (List.mem_reverse.mp member))
    (fun st member => single st (List.mem_of_mem_drop member)) last
  exact ⟨data, kind, by decide +kernel⟩

end Handler

end ReadModel
