import ReadModel.Proofs.Fleet

/-!
What the actors of a fleet promise each other.

A `Pact` says what each actor can count on while the others work. Where every sweep and every batch
keeps to the pact for itself (`Pact.Laws`), a fleet keeps to it however its actors take turns.
-/

namespace ReadModel

/-- What the actors of a fleet owe each other: an invariant of the scene, what each of them relies on
while others work, and what holds of the schedulers and their sweeps in between. -/
structure Pact where
  /-- What is true of the scene at any time. -/
  fine : Scene → Prop
  /-- The scenes and moves that are taken into account. -/
  fit : Scene → Prop
  permits : Fleet.Move → Prop
  /-- What an actor can count on while others work. -/
  rely : Actor → Scene → Scene → Prop
  /-- What is true of what a scheduler remembers, and while a sweep is under way. -/
  rest : Handler → SchedulerState → Scene → Prop
  under : Instant → Scene → Prop
  /-- What is true while a batch does not run. -/
  out : Actor → Scene → Prop
  /-- What is true once a batch or a sweep has ended. -/
  batchEnd : Handler → Instant → Batch → Bool → Scene → Prop
  sweepEnd : Handler → SchedulerState → Instant →
    Except HandlerError (SweepOutcome × SchedulerState) → Scene → Prop

namespace Pact

/-- The results in the scene are those of batches that have ended. -/
structure Answered (P : Pact) (h : Handler) (started : Instant) (batches : List Batch)
    (s : Scene) : Prop where
  length : s.results.length = batches.length
  ended : ∀ {index : Nat} {batch : Batch} {result : Bool}, batches[index]? = some batch →
    s.results[index]? = some result → P.batchEnd h started batch result s

/-- An actor of a sweep among the others. -/
def setting (P : Pact) (h : Handler) (started : Instant) (a : Actor) :
    Setting handlerInterface Scene where
  answer := Scene.answer a.number
  ready call s := P.fit s ∧ s.world.waits a.number call = false ∧
    (a.batch = none → ∀ batches, call.batches? = some batches → P.Answered h started batches s)
  others := P.rely a
  self s t := ∀ b, b ≠ a → P.rely b s t

end Pact

/-- The log is asked, which may fail. -/
theorem Setting.Upholds.source {S : Setting handlerInterface Scene} {number : Nat}
    (answers : S.answer = Scene.answer number) {β : Type} {call : SourceCall}
    {next : call.Value → Action β} {post : Except HandlerError β → Scene → Prop} {s : Scene}
    (own : ∀ t, S.others s t → S.ready (.source call) t → S.self t (t.answerSource call).2)
    (failed : ∀ t e, S.others s t → post (.error e) t)
    (rest : ∀ t, S.others s t → S.ready (.source call) t →
      S.Upholds post (next (t.world.answerSource call).1).run (t.answerSource call).2) :
    S.Upholds post (askSource call >>= next).run s := by
  refine upholds_seq fun t other ready => ?_
  rw [answers]
  refine ⟨own t other ready, ?_⟩
  have answered := rest t other ready
  revert answered
  dsimp only [Scene.answer, Scene.answerSource]
  cases t.outage with
  | some message => exact fun _ => failed t _ other
  | none => exact id

namespace Pact

/-- A batch keeps to the pact until it has ended. -/
def BatchKeeps (P : Pact) (h : Handler) (started : Instant) (a : Actor) (batch : Batch)
    (task : Task Bool) (s : Scene) : Prop :=
  (P.setting h started a).Upholds (fun result t => P.out a t ∧ P.batchEnd h started batch result t)
    task s

/-- Each sweep and each batch keeps to a pact. -/
structure Laws (P : Pact) (pages : Nat) (handlers : List Handler) : Prop where
  refl : ∀ {a s}, P.rely a s s
  trans : ∀ {a s t u}, P.rely a s t → P.rely a t u → P.rely a s u
  results : ∀ {a s results}, P.rely a s { s with results }
  fit : ∀ {s results}, P.fit s → P.fit { s with results }
  fine : ∀ {a s t}, P.rely a s t → P.fine s → P.fine t
  rest : ∀ {a s t h state}, P.rely a s t → P.rest h state s → P.rest h state t
  under : ∀ {a s t started}, P.rely a s t → P.under started s → P.under started t
  out : ∀ {a s t}, P.rely a s t → P.out a s → P.out a t
  batchEnd : ∀ {a s t h started batch result}, P.rely a s t →
    P.batchEnd h started batch result s → P.batchEnd h started batch result t
  sweepEnd : ∀ {a s t h state started result}, P.rely a s t →
    P.sweepEnd h state started result s → P.sweepEnd h state started result t
  remembered : ∀ {h state started outcome next s},
    P.sweepEnd h state started (.ok (outcome, next)) s → P.rest h next s
  moves : ∀ {a s m}, P.permits m → P.fit s → P.fine s → P.rely a s (s.after m)
  begins : ∀ {s}, P.fine s → P.under s.world.today s
  sweeps : ∀ {index h ctx state s}, handlers[index]? = some h → P.permits (.sweep index ctx) →
    P.fine s → P.rest h state s →
    (P.setting h s.world.today ⟨index, none⟩).Upholds (P.sweepEnd h state s.world.today)
      (h.sweepFrom ctx state s.world.today).run s
  launches : ∀ {index h started call next post batches batch number s},
    handlers[index]? = some h → P.fit s → P.fine s → P.under started s →
    (P.setting h started ⟨index, none⟩).Upholds
      (post : Except HandlerError (SweepOutcome × SchedulerState) → Scene → Prop)
      (.ask call next) s →
    call.batches? = some batches → batch ∈ batches → P.out ⟨index, some number⟩ s →
    P.BatchKeeps h started ⟨index, some number⟩ batch (h.runBatch pages batch) s

end Pact

/-- A batch of a process that runs. -/
def Process.running (p : Process) (index : Nat) : Option (Task Bool) :=
  p.sweep.bind fun sweep => sweep.batches.bind fun tasks => tasks[index]?

theorem results?_eq_some {tasks : List (Task Bool)} {results : List Bool}
    (ended : results? tasks = some results) :
    results.length = tasks.length ∧
      ∀ (index : Nat) (result : Bool), results[index]? = some result →
        tasks[index]? = some (Dialogue.done result) := by
  induction tasks generalizing results with
  | nil =>
    obtain rfl := Option.some.inj ended
    simp
  | cons task rest ih =>
    cases task with
    | ask call next => cases ended
    | done result =>
      obtain ⟨others, later, rfl⟩ := Option.map_eq_some_iff.mp ended
      obtain ⟨length, same⟩ := ih later
      refine ⟨by simp [length], fun index result' found => ?_⟩
      cases index with
      | zero => simpa using found
      | succ index => exact same index result' found

namespace Pact

variable {P : Pact} {pages : Nat} {handlers : List Handler}

/-- A process of a fleet keeps to the pact. -/
structure Safe (P : Pact) (index : Nat) (p : Process) (s : Scene) : Prop where
  rest : P.rest p.handler p.state s
  out : ∀ number, p.running number = none → P.out ⟨index, some number⟩ s
  sweep : ∀ {sweep}, p.sweep = some sweep → P.under sweep.started s ∧
    (P.setting p.handler sweep.started ⟨index, none⟩).Upholds
      (P.sweepEnd p.handler p.state sweep.started) sweep.program s
  batches : ∀ {sweep tasks}, p.sweep = some sweep → sweep.batches = some tasks →
    ∃ call next batches, sweep.program = .ask call next ∧ call.batches? = some batches ∧
      tasks.length = batches.length ∧ ∀ {number : Nat} {task : Task Bool} {batch : Batch},
        tasks[number]? = some task → batches[number]? = some batch →
        P.BatchKeeps p.handler sweep.started ⟨index, some number⟩ batch task s

theorem Laws.batchKeeps (laws : P.Laws pages handlers) {h : Handler} {started : Instant} {a : Actor}
    {batch : Batch} {task : Task Bool} {s t : Scene} (keeps : P.BatchKeeps h started a batch task s)
    (rely : P.rely a s t) : P.BatchKeeps h started a batch task t :=
  Setting.Upholds.others keeps rely laws.trans fun ended moved =>
    ⟨laws.out moved ended.1, laws.batchEnd moved ended.2⟩

/-- What every actor of a process can count on leaves the process safe. -/
theorem Safe.others (laws : P.Laws pages handlers) {index : Nat} {p : Process} {s t : Scene}
    (safe : P.Safe index p s) (rely : ∀ batch, P.rely ⟨index, batch⟩ s t) : P.Safe index p t where
  rest := laws.rest (rely none) safe.rest
  out number idle := laws.out (rely (some number)) (safe.out number idle)
  sweep there := by
    obtain ⟨under, upholds⟩ := safe.sweep there
    exact ⟨laws.under (rely none) under, upholds.others (rely none) laws.trans
      fun ended moved => laws.sweepEnd moved ended⟩
  batches under run := by
    obtain ⟨call, next, batches, asks, asked, length, keep⟩ := safe.batches under run
    exact ⟨call, next, batches, asks, asked, length, fun there among =>
      laws.batchKeeps (keep there among) (rely _)⟩

/-- What has become of a process and of the scene when one of its actors had its turn. -/
structure Passed (P : Pact) (index : Nat) (p : Process) (s : Scene) (next : Process × Scene) :
    Prop where
  safe : P.Safe index next.1 next.2
  fine : P.fine next.2
  others : ∀ {a : Actor}, a.process ≠ index → P.rely a s next.2
  handler : next.1.handler = p.handler

theorem Safe.passed (laws : P.Laws pages handlers) {index : Nat} {p q : Process} {s : Scene}
    (fine : P.fine s) (handler : q.handler = p.handler) (safe : P.Safe index q s) :
    P.Passed index p s (q, s) :=
  ⟨safe, fine, fun _ => laws.refl, handler⟩

theorem Safe.begin (laws : P.Laws pages handlers) {index : Nat} {p : Process} {s : Scene}
    (safe : P.Safe index p s) (fine : P.fine s) (ours : handlers[index]? = some p.handler)
    {ctx : Context} (permitted : P.permits (.sweep index ctx)) :
    P.Safe index (p.begin ctx s.world.today) s := by
  unfold Process.begin
  split
  next => exact safe
  next idle =>
    refine ⟨safe.rest, fun number _ => safe.out number (by simp [Process.running, idle]), ?_, ?_⟩
    · rintro _ ⟨⟩
      exact ⟨laws.begins fine, laws.sweeps ours permitted fine safe.rest⟩
    · rintro _ _ ⟨⟩ ⟨⟩

/-- A sweep that makes a call goes on with the answer. -/
theorem Safe.answered (laws : P.Laws pages handlers) {index : Nat} {p : Process} {s : Scene}
    {sweep : Sweep} {call : HandlerCall}
    {next : call.Answer → Task (Except HandlerError (SweepOutcome × SchedulerState))}
    {results : List Bool} (safe : P.Safe index p s) (fit : P.fit s) (fine : P.fine s)
    (under : p.sweep = some sweep) (asks : sweep.program = .ask call next)
    (free : s.world.waits (Actor.number ⟨index, none⟩) call = false)
    (out : ∀ number, P.out ⟨index, some number⟩ s)
    (ended : ∀ batches, call.batches? = some batches →
      P.Answered p.handler sweep.started batches { s with results }) :
    let answered := Scene.answer (Actor.number ⟨index, none⟩) call { s with results }
    P.Passed index p s
      ({ p with sweep := some { sweep with program := next answered.1, batches := none } },
        answered.2) := by
  intro answered
  obtain ⟨since, upholds⟩ := safe.sweep under
  rw [asks] at upholds
  obtain ⟨own, rest⟩ := upholds { s with results } laws.results ⟨laws.fit fit, free, fun _ => ended⟩
  have rely : ∀ {a : Actor}, a ≠ ⟨index, none⟩ → P.rely a s answered.2 :=
    fun apart => laws.trans laws.results (own _ apart)
  have other : (⟨index, some 0⟩ : Actor) ≠ ⟨index, none⟩ := by simp
  refine ⟨⟨laws.rest (rely other) safe.rest, ?_, ?_, ?_⟩, laws.fine (rely other) fine, ?_, rfl⟩
  · exact fun number _ => laws.out (rely (by simp)) (out number)
  · rintro _ ⟨⟩
    exact ⟨laws.under (rely other) since, rest⟩
  · rintro _ _ ⟨⟩ ⟨⟩
  · exact fun apart => rely fun same => apart (congrArg Actor.process same)

/-- Batches that have all ended have answered what they should. -/
theorem Safe.ended {index : Nat} {p : Process} {s : Scene} {sweep : Sweep}
    {tasks : List (Task Bool)} {batches : List Batch} {results : List Bool} {call : HandlerCall}
    {next : call.Answer → Task (Except HandlerError (SweepOutcome × SchedulerState))}
    (laws : P.Laws pages handlers) (safe : P.Safe index p s) (under : p.sweep = some sweep)
    (asks : sweep.program = .ask call next) (asked : call.batches? = some batches)
    (run : sweep.batches = some tasks) (all : results? tasks = some results) :
    P.Answered p.handler sweep.started batches { s with results } ∧
      ∀ number, P.out ⟨index, some number⟩ s := by
  obtain ⟨call', next', batches', asks', asked', length, keep⟩ := safe.batches under run
  rw [asks] at asks'
  obtain ⟨rfl, _⟩ := Dialogue.ask.inj asks'
  obtain rfl := Option.some.inj (asked.symm.trans asked')
  obtain ⟨count, same⟩ := results?_eq_some all
  have done : ∀ {number : Nat} {result : Bool} {batch : Batch}, results[number]? = some result →
      batches[number]? = some batch →
      P.out ⟨index, some number⟩ s ∧ P.batchEnd p.handler sweep.started batch result s := by
    intro number result batch answered asked
    exact keep (same number result answered) asked
  refine ⟨⟨count.trans length, fun asked answered => ?_⟩, fun number => ?_⟩
  · exact laws.batchEnd (a := ⟨index, none⟩) laws.results (done answered asked).2
  · by_cases inside : number < results.length
    · have within : number < batches.length := by omega
      exact (done (List.getElem?_eq_getElem inside) (List.getElem?_eq_getElem within)).1
    · refine safe.out number ?_
      simp only [Process.running, under, run, Option.bind_some]
      exact List.getElem?_eq_none (by omega)

/-- While no batches run, they are out. -/
theorem Safe.idle {index : Nat} {p : Process} {s : Scene} {sweep : Sweep} (safe : P.Safe index p s)
    (under : p.sweep = some sweep) (none : sweep.batches = none) (number : Nat) :
    P.out ⟨index, some number⟩ s :=
  safe.out number (by simp [Process.running, under, none])

theorem Safe.finish (laws : P.Laws pages handlers) {index : Nat} {p : Process} {s : Scene}
    {sweep : Sweep} {result : Except HandlerError (SweepOutcome × SchedulerState)}
    (safe : P.Safe index p s) (fine : P.fine s) (under : p.sweep = some sweep)
    (ends : sweep.program = .done result) {state : SchedulerState}
    (rest : P.rest p.handler state s) :
    P.Passed index p s ({ p with state, sweep := none }, s) := by
  have none : sweep.batches = none := by
    cases run : sweep.batches with
    | none => rfl
    | some tasks =>
      obtain ⟨call, next, batches, asks, _⟩ := safe.batches under run
      cases ends.symm.trans asks
  refine Safe.passed laws fine rfl ⟨rest, fun number _ => safe.idle under none number, ?_, ?_⟩
  · rintro _ ⟨⟩
  · rintro _ _ ⟨⟩

theorem Safe.launch (laws : P.Laws pages handlers) {index : Nat} {p : Process} {s : Scene}
    {sweep : Sweep} {batches : List Batch} {call : HandlerCall}
    {next : call.Answer → Task (Except HandlerError (SweepOutcome × SchedulerState))}
    (safe : P.Safe index p s) (fit : P.fit s) (fine : P.fine s)
    (ours : handlers[index]? = some p.handler) (under : p.sweep = some sweep)
    (asks : sweep.program = .ask call next) (asked : call.batches? = some batches)
    (none : sweep.batches = none) :
    let tasks := batches.map (p.handler.runBatch pages)
    P.Passed index p s ({ p with sweep := some { sweep with batches := some tasks } }, s) := by
  intro tasks
  obtain ⟨since, upholds⟩ := safe.sweep under
  refine Safe.passed laws fine rfl
    ⟨safe.rest, fun number _ => safe.idle under none number, ?_, ?_⟩
  · rintro _ ⟨⟩
    exact ⟨since, upholds⟩
  · rintro _ _ ⟨⟩ ⟨⟩
    refine ⟨call, next, batches, asks, asked, List.length_map .., fun run among => ?_⟩
    rw [List.getElem?_map, among] at run
    obtain rfl := Option.some.inj run
    rw [asks] at upholds
    exact laws.launches ours fit fine since upholds asked (List.mem_of_getElem? among)
      (safe.idle under none _)

theorem Safe.turn (laws : P.Laws pages handlers) {index : Nat} {p : Process} {s : Scene}
    (safe : P.Safe index p s) (fit : P.fit s) (fine : P.fine s)
    (ours : handlers[index]? = some p.handler) :
    P.Passed index p s (p.turn pages (Actor.number ⟨index, none⟩) s) := by
  unfold Process.turn
  split
  next => exact safe.passed laws fine rfl
  next sweep under =>
    obtain ⟨_, upholds⟩ := safe.sweep under
    split
    next outcome state ends =>
      rw [ends] at upholds
      exact safe.finish laws fine under ends (laws.remembered upholds)
    next e ends => exact safe.finish laws fine under ends safe.rest
    next call next asks =>
      split
      next batches asked none => exact safe.launch laws fit fine ours under asks asked none
      next others =>
        split
        next => exact safe.passed laws fine rfl
        next results all =>
          split
          next => exact safe.passed laws fine rfl
          next free =>
            have free := Bool.eq_false_iff.mpr free
            cases run : sweep.batches with
            | none =>
              refine safe.answered laws fit fine under asks free (safe.idle under run) ?_
              exact fun batches asked => absurd run (others batches asked)
            | some tasks =>
              obtain ⟨_, _, batches, asks', asked, _⟩ := safe.batches under run
              obtain ⟨rfl, _⟩ := Dialogue.ask.inj (asks.symm.trans asks')
              rw [run] at all
              obtain ⟨ended, out⟩ := safe.ended laws under asks asked run all
              refine safe.answered laws fit fine under asks free out fun batches' asked' => ?_
              obtain rfl := Option.some.inj (asked.symm.trans asked')
              exact ended

theorem Safe.batchTurn (laws : P.Laws pages handlers) {index number : Nat} {p : Process} {s : Scene}
    (safe : P.Safe index p s) (fit : P.fit s) (fine : P.fine s) :
    P.Passed index p s (p.batchTurn (Actor.number ⟨index, some number⟩) number s) := by
  unfold Process.batchTurn
  split
  next started program tasks under =>
    split
    next call next there =>
      split
      next => exact safe.passed laws fine rfl
      next free =>
        obtain ⟨call', next', batches, asks, asked, length, keep⟩ := safe.batches under rfl
        have inside : number < batches.length := by
          rw [← length]
          exact (List.getElem?_eq_some_iff.mp there).1
        have free := Bool.eq_false_iff.mpr free
        obtain ⟨own, rest⟩ := keep there (List.getElem?_eq_getElem inside) s laws.refl
          ⟨fit, free, fun process => by cases process⟩
        have parent : (⟨index, none⟩ : Actor) ≠ ⟨index, some number⟩ := by simp
        have safe' := fun (other : Nat) (apart : other ≠ number) =>
          own ⟨index, some other⟩ (by simpa using apart)
        refine ⟨⟨laws.rest (own _ parent) safe.rest, fun other idle => ?_, ?_, ?_⟩,
          laws.fine (own _ parent) fine, fun apart => own _ fun same => apart (congrArg _ same), rfl⟩
        · by_cases same : other = number
          · subst same
            simp [Process.running, List.getElem?_set_self (List.getElem?_eq_some_iff.mp there).1]
              at idle
          · refine laws.out (safe' other same) (safe.out other ?_)
            simpa [Process.running, under, List.getElem?_set_ne (Ne.symm same)] using idle
        · rintro _ ⟨⟩
          obtain ⟨since, upholds⟩ := safe.sweep under
          exact ⟨laws.under (own _ parent) since, upholds.others (own _ parent) laws.trans
            fun ended moved => laws.sweepEnd moved ended⟩
        · rintro _ _ ⟨⟩ ⟨⟩
          refine ⟨call', next', batches, asks, asked, (List.length_set ..).trans length, ?_⟩
          intro other task batch run among
          by_cases same : other = number
          · subst same
            rw [List.getElem?_set_self (List.getElem?_eq_some_iff.mp there).1] at run
            obtain rfl := Option.some.inj run
            rw [List.getElem?_eq_getElem inside] at among
            obtain rfl := Option.some.inj among
            exact rest
          · rw [List.getElem?_set_ne (Ne.symm same)] at run
            exact laws.batchKeeps (keep run among) (safe' other same)
    next => exact safe.passed laws fine rfl
  next => exact safe.passed laws fine rfl

/-- A fleet keeps to the pact. -/
structure Holds (P : Pact) (handlers : List Handler) (f : Fleet) : Prop where
  fine : P.fine f.scene
  handlers : f.processes.map (·.handler) = handlers
  safe : ∀ {index : Nat} {p : Process}, f.processes[index]? = some p → P.Safe index p f.scene

theorem Holds.handler {f : Fleet} (holds : P.Holds handlers f) {index : Nat} {p : Process}
    (there : f.processes[index]? = some p) : handlers[index]? = some p.handler := by
  rw [← holds.handlers, List.getElem?_map, there]
  rfl

theorem Holds.put (laws : P.Laws pages handlers) {f : Fleet} (holds : P.Holds handlers f)
    {index : Nat} {p : Process} (there : f.processes[index]? = some p) {next : Process × Scene}
    (passed : P.Passed index p f.scene next) : P.Holds handlers (f.put index next) where
  fine := passed.fine
  handlers := by
    rw [Fleet.put, List.map_set, passed.handler, ← holds.handlers]
    refine List.ext_getElem? fun other => ?_
    by_cases same : index = other
    · subst same
      rw [List.getElem?_set_self (by simpa using (List.getElem?_eq_some_iff.mp there).1),
        List.getElem?_map, there]
      rfl
    · rw [List.getElem?_set_ne same]
  safe {other q} found := by
    by_cases same : index = other
    · subst same
      rw [Fleet.put, List.getElem?_set_self (List.getElem?_eq_some_iff.mp there).1] at found
      obtain rfl := Option.some.inj found
      exact passed.safe
    · rw [Fleet.put, List.getElem?_set_ne same] at found
      exact (holds.safe found).others laws fun _ => passed.others (Ne.symm same)

theorem Holds.after (laws : P.Laws pages handlers) {f : Fleet} (holds : P.Holds handlers f)
    {m : Fleet.Move} (fit : P.fit f.scene) (permitted : P.permits m) :
    P.Holds handlers { f with scene := f.scene.after m } where
  fine := laws.fine (laws.moves (a := ⟨0, none⟩) permitted fit holds.fine) holds.fine
  handlers := holds.handlers
  safe there := (holds.safe there).others laws fun _ => laws.moves permitted fit holds.fine

/-- Every move of a fleet keeps to the pact. -/
theorem Holds.move (laws : P.Laws pages handlers) {f : Fleet} (holds : P.Holds handlers f)
    {m : Fleet.Move} (fit : P.fit f.scene) (permitted : P.permits m) :
    P.Holds handlers (f.move pages m) := by
  cases m with
  | sweep index ctx =>
    dsimp only [Fleet.move]
    split
    next p there =>
      have begun := (holds.safe there).begin laws holds.fine (holds.handler there) permitted
      refine holds.put laws there (Safe.passed laws holds.fine ?_ begun)
      unfold Process.begin
      split <;> rfl
    next => exact holds
  | turn actor =>
    obtain ⟨process, batch⟩ := actor
    dsimp only [Fleet.move]
    split
    next p there =>
      refine holds.put laws there ?_
      cases batch with
      | none => exact (holds.safe there).turn laws fit holds.fine (holds.handler there)
      | some number => exact (holds.safe there).batchTurn laws fit holds.fine
    next => exact holds
  | push | date | wait | renew | revoke | disturb | hide | outage | cancel =>
    exact holds.after laws fit permitted

theorem holds_run (laws : P.Laws pages handlers) {projection : String} {day : Instant}
    {moves : List Fleet.Move} (start : P.Holds handlers (Fleet.start projection day handlers))
    (fit : ∀ before, before <+: moves →
      P.fit (Fleet.run pages projection day handlers before).scene)
    (permitted : ∀ m ∈ moves, P.permits m) :
    P.Holds handlers (Fleet.run pages projection day handlers moves) := by
  induction moves using List.reverseRecOn with
  | nil => exact start
  | append_singleton moves m ih =>
    have before := List.prefix_append moves [m]
    rw [Fleet.run, List.foldl_append]
    refine (ih (fun earlier inside => fit earlier (inside.trans before)) fun m' inside =>
      permitted m' (List.mem_append_left _ inside)).move laws (fit moves before) ?_
    exact permitted m (List.mem_append_right _ (List.mem_singleton_self m))

end Pact

end ReadModel
