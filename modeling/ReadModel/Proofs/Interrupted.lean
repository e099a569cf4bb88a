import ReadModel.Proofs.Solo

/-!
Tasks whose tokens may be cancelled.

A task runs while others cancel tokens at any time (`Audit.answerAmid`), and nothing else happens around
it. An update still ends in one of the ways of `Handler.Concludes`, and meets one log and one set of
faults from its begin to its end.
-/

namespace ReadModel

/-- The same world with other tokens. -/
def Audit.withTokens (a : Audit) (tokens : Tokens) : Audit :=
  { a with world := { a.world with tokens } }

/-- How many calls a task has made, and what has come of them. -/
structure Course where
  calls : Nat := 0
  audit : Audit

/-- Answers a call of a task. Which tokens are cancelled before it depends on how many calls there were
before. -/
def Audit.answerAmid (tokens : Nat → Tokens) (around : Surroundings) (task : Nat) (call : HandlerCall)
    (s : Course) : call.Answer × Course :=
  let (answer, audit) := Audit.answer around task call (s.audit.withTokens (tokens s.calls))
  (answer, { calls := s.calls + 1, audit })

/-- A task whose tokens others may cancel. -/
def Setting.amid (around : Surroundings) (task : Nat) : Setting handlerInterface Audit where
  answer := Audit.answer around task
  ready _ _ := True
  others a b := ∃ tokens, b = a.withTokens tokens
  self _ _ := True

theorem Setting.Upholds.run_amid {around : Surroundings} {task : Nat} {α : Type} {d : Task α}
    (post : α → Audit → Prop) {s : Course} (tokens : Nat → Tokens)
    (upholds : (Setting.amid around task).Upholds post d s.audit) :
    post (d.run (Audit.answerAmid tokens around task) s).1
      (d.run (Audit.answerAmid tokens around task) s).2.audit := by
  induction d generalizing s with
  | done a => exact upholds
  | ask call next ih =>
    obtain ⟨_, rest⟩ := upholds (s.audit.withTokens (tokens s.calls)) ⟨_, rfl⟩ trivial
    exact ih _ (s := (Audit.answerAmid tokens around task call s).2) rest

/-- A transaction meets the same log, faults and hidden rows. -/
structure Outside.Like (o o' : Outside) : Prop where
  log : o'.log = o.log
  faults : o'.faults = o.faults
  hidden : o'.hidden = o.hidden

namespace Outside.Like

variable {o o' o'' : Outside}

theorem refl (o : Outside) : o.Like o := ⟨rfl, rfl, rfl⟩

theorem trans (first : o.Like o') (second : o'.Like o'') : o.Like o'' :=
  ⟨second.log.trans first.log, second.faults.trans first.faults, second.hidden.trans first.hidden⟩

end Outside.Like

/-- Nothing was done, while others may have cancelled tokens. -/
structure Audit.Unmoved (a b : Audit) : Prop where
  like : a.world.outside.Like b.world.outside
  data : b.world.store.data = a.world.store.data
  committed : b.ledger.committed = a.ledger.committed

theorem Audit.Unmoved.refl (a : Audit) : a.Unmoved a := ⟨.refl _, rfl, rfl⟩

theorem Audit.unmoved_withTokens (a : Audit) (tokens : Tokens) : a.Unmoved (a.withTokens tokens) :=
  ⟨⟨rfl, rfl, rfl⟩, rfl, rfl⟩

theorem Audit.Unmoved.trans {a b c : Audit} (first : a.Unmoved b) (second : b.Unmoved c) :
    a.Unmoved c :=
  ⟨first.like.trans second.like, second.data.trans first.data,
    second.committed.trans first.committed⟩

/-- Surroundings in which nothing but tokens changes in a pause that a handler works with. -/
structure Surroundings.Quiet (around : Surroundings) : Prop where
  outside : ∀ ms token (w : World), w.outside.Like (around (.pause ms token) w).2.outside
  data : ∀ ms token (w : World), (around (.pause ms token) w).2.store.data = w.store.data

theorem Surroundings.still_quiet : Surroundings.still.Quiet := ⟨fun _ _ _ => .refl _, fun _ _ _ => rfl⟩

namespace Frame

variable {task : Nat} {around : Surroundings} {a : Audit}

/-- The frame of a transaction whose tokens may be cancelled. -/
def amid (task : Nat) (a : Audit) : Frame where
  task
  base := a.world.store.data
  committed := a.ledger.committed
  around := a.world.outside.Like

theorem allows_amid (task : Nat) (a : Audit) :
    (amid task a).allows = (· = a.world.store.faults) := by
  funext faults
  refine propext ⟨?_, ?_⟩
  · rintro ⟨o, like, rfl⟩
    exact like.faults
  · rintro rfl
    exact ⟨_, .refl _, rfl⟩

theorem sheltered_amid (task : Nat) (around : Surroundings) (a : Audit) :
    (amid task a).Sheltered around (Setting.amid around task) where
  answer := rfl
  others within := by
    rintro ⟨tokens, rfl⟩
    exact ⟨within.owner, within.transaction, within.base, within.committed, within.pending,
      ⟨within.around.log, within.around.faults, within.around.hidden⟩⟩
  self _ _ _ := trivial

end Frame

/-- What an update leaves behind while tokens are cancelled. -/
structure Handler.Leaves (h : Handler) (token : Token) (task : Nat) (batch : List Statement)
    (a : Audit) (result : Except HandlerError (Option Nat)) (tried : Trial) (b : Audit) : Prop where
  concludes : h.Concludes (Frame.amid task a) a.world.log token batch result b.world.store.data tried
  committed : b.ledger.committed = a.ledger.committed ++ tried.applied.map (·.operation)
  like : a.world.outside.Like b.world.outside

section Update

variable {h : Handler} {ctx : Context} {batch : List Statement} {around : Surroundings} {task : Nat}
  {a : Audit}

theorem Handler.upholds_update_amid {post : Except HandlerError (Option Nat) → Audit → Prop}
    (ended : ∀ b result tried, h.Leaves ctx.token task batch a result tried b → post result b) :
    (Setting.amid around task).Upholds post (h.update ctx batch).run a := by
  refine Frame.upholds_update (I := fun t => ∃ tokens, t = a.withTokens tokens) rfl
    ⟨a.world.tokens, rfl⟩ ?_ (fun _ => trivial) ?_ ?_ ?_
  · rintro _ _ ⟨first, rfl⟩ ⟨second, rfl⟩
    exact ⟨second, rfl⟩
  · rintro rfl
    have like : a.world.outside.Like a.world.outside := .refl _
    refine ended a _ [] ⟨.committed like rfl .done ?_, (List.append_nil _).symm, like⟩
    rintro _ ⟨⟩
  · rintro _ ⟨tokens, rfl⟩ test
    exact ended _ _ [] ⟨.cancelled (o := (a.withTokens tokens).world.outside) ⟨rfl, rfl, rfl⟩ test,
      (List.append_nil _).symm, ⟨rfl, rfl, rfl⟩⟩
  · rintro _ ⟨tokens, rfl⟩ _
    have begun : (Frame.amid task a).Within a.world.store.data [] []
        (Audit.answer around task (.store .begin) (a.withTokens tokens)).2 :=
      ⟨rfl, rfl, rfl, rfl, rfl, rfl, rfl, rfl⟩
    have steady : (Frame.amid task a).Steady a.world.log batch := by
      intro o like st _ last
      rw [like.log]
      rfl
    refine ⟨trivial, (Frame.sheltered_amid task around a).conclude steady begun
      (fun _ _ _ _ _ _ => trivial) ?_⟩
    rintro t result _ tried concludes ⟨_, _, rfl, committed, like⟩
    exact ended t result tried ⟨concludes, committed, like⟩

variable (h ctx batch around task) in
/-- Whatever is cancelled meanwhile, an update ends in one of the ways of `Handler.Concludes`. -/
theorem Handler.update_leaves (tokens : Nat → Tokens) (s : Course) :
    ∃ tried, h.Leaves ctx.token task batch s.audit
      ((h.update ctx batch).run.run (Audit.answerAmid tokens around task) s).1 tried
      ((h.update ctx batch).run.run (Audit.answerAmid tokens around task) s).2.audit :=
  Setting.Upholds.run_amid
    (fun result b => ∃ tried, h.Leaves ctx.token task batch s.audit result tried b) tokens
    (Handler.upholds_update_amid fun _ _ tried leaves => ⟨tried, leaves⟩)

end Update

section Calls

variable {h : Handler} {ctx : Context} {instances : List InstanceId} {around : Surroundings}
  {task : Nat} {a : Audit}

theorem upholds_pause_amid (quiet : around.Quiet) {ms : Nat} {token : Token}
    {post : Bool → Audit → Prop} (rest : ∀ b waited, a.Unmoved b → post waited b) :
    (Setting.amid around task).Upholds post (askTask (.pause ms token)) a := by
  rintro _ ⟨tokens, rfl⟩ _
  refine ⟨trivial, rest _ _ ((a.unmoved_withTokens tokens).trans ?_)⟩
  exact ⟨quiet.outside .., quiet.data .., rfl⟩

theorem upholds_checkCancelled_amid {post : Except HandlerError Unit → Audit → Prop}
    (stop : ∀ b, a.Unmoved b → post (.error .cancelled) b)
    (rest : ∀ b, a.Unmoved b → post (.ok ()) b) :
    (Setting.amid around task).Upholds post (checkCancelled ctx).run a := by
  rintro _ ⟨tokens, rfl⟩ _
  refine ⟨trivial, ?_⟩
  have still := a.unmoved_withTokens tokens
  cases test : (a.withTokens tokens).world.tokens.isCancelled ctx.token with
  | true =>
    have ended := stop _ still
    simp only [Setting.amid, Audit.answer, World.answer, test]
    exact ended
  | false =>
    have ended := rest _ still
    simp only [Setting.amid, Audit.answer, World.answer, test]
    exact ended

theorem upholds_filter_amid {q : SearchQuery} {post : Except HandlerError (List Event) → Audit → Prop}
    (rest : ∀ b, a.Unmoved b → post (.ok (a.world.log.filter q)) b) :
    (Setting.amid around task).Upholds post (askSource (.filter q)).run a := by
  rintro _ ⟨tokens, rfl⟩ _
  exact ⟨trivial, rest _ (a.unmoved_withTokens tokens)⟩

theorem Handler.upholds_currentSequences_amid
    {post : Except StorageError (List CurrentSequence) → Audit → Prop}
    (rest : ∀ b, a.Unmoved b → post (.ok (a.world.store.data.currentSequences h.name
      fun key => decide (key.instanceId ∈ instances))) b) :
    (Setting.amid around task).Upholds post (askStore (.currentSequences h.name instances)) a := by
  rintro _ ⟨tokens, rfl⟩ _
  exact ⟨trivial, rest _ ⟨⟨rfl, rfl, rfl⟩, rfl, rfl⟩⟩

end Calls

end ReadModel
