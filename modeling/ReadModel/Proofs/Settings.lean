import ReadModel.Config.Environment
import ReadModel.Database.Leases
import ReadModel.Proofs.Sources
import ReadModel.Proofs.Transcript
import ReadModel.Proofs.Window
import ReadModel.Proofs.WireSettings

/-!
Settings on their way into a database.

Settings are numbers of 64 bits without a sign, however they are obtained (`ProjectionsConfig.Obtained`);
a database takes numbers of 64 bits with a sign. A setting gets there as it is up to `greatestSigned`;
beyond that it arrives as a negative number, which the database refuses as a limit.
-/

namespace ReadModel

theorem Option.exists_of_mem_mapM {α β : Type} {f : α → Option β} {items : List α}
    {results : List β} (all : items.mapM f = some results) {b : β} (here : b ∈ results) :
    ∃ a ∈ items, f a = some b := by
  induction items generalizing results with
  | nil => cases all; cases here
  | cons a items ih =>
    rw [List.mapM_cons] at all
    obtain ⟨first, ok, all⟩ := Option.bind_eq_some_iff.mp all
    obtain ⟨rest, others, same⟩ := Option.bind_eq_some_iff.mp all
    cases same
    rcases List.mem_cons.mp here with rfl | later
    · exact ⟨a, List.mem_cons_self .., ok⟩
    · obtain ⟨a', member, ok'⟩ := ih others later
      exact ⟨a', List.mem_cons_of_mem _ member, ok'⟩

/-- A number of 64 bits, if there is one. -/
def Fits (n : Option Nat) : Prop := ∀ m ∈ n, m < wordCount

/-- The numbers among settings that a database is sent fit into 64 bits. -/
structure ProjectionConfig.Fitting (c : ProjectionConfig) : Prop where
  bulkLimit : c.bulkLimit < wordCount
  requeueEvery : c.requeueEvery < wordCount
  lockDuration? : Fits c.lockDuration?

/-- The same of what a projection has instead. -/
structure ProjectionOverride.Fitting (o : ProjectionOverride) : Prop where
  bulkLimit : Fits o.bulkLimit
  requeueEvery : Fits o.requeueEvery
  lockDuration : Fits o.lockDuration

/-- The settings that all projections share fit into 64 bits, and so do those of single ones. -/
structure ProjectionsConfig.Fitting (c : ProjectionsConfig) : Prop where
  defaults : c.defaults.Fitting
  customizations : ∀ name o, c.customizations.find? name = some o → o.Fitting

theorem ProjectionConfig.Writable.fitting {c : ProjectionConfig} (writable : c.Writable) : c.Fitting :=
  ⟨writable.bulkLimit, writable.requeueEvery, writable.lockDuration?⟩

theorem ProjectionOverride.Writable.fitting {o : ProjectionOverride} (writable : o.Writable) :
    o.Fitting :=
  ⟨writable.bulkLimit, writable.requeueEvery, writable.lockDuration⟩

theorem ProjectionsConfig.Writable.fitting {c : ProjectionsConfig} (writable : c.Writable) :
    c.Fitting :=
  ⟨writable.defaults.fitting, fun name o found => (writable.customizations name o found).fitting⟩

theorem ProjectionConfig.fitting_default : ProjectionConfig.Fitting {} := writable_default.fitting

theorem lt_of_readBounded {bound n : Nat} {text : String} (read : readBounded bound text = some n) :
    n < bound := by
  simp only [readBounded, Option.ite_none_left_eq_some, Option.ite_none_right_eq_some,
    Option.some.injEq] at read
  obtain ⟨-, below, rfl⟩ := read
  exact below

/-- What one projection has instead, applied to settings that fit. -/
theorem ProjectionOverride.Fitting.apply {o : ProjectionOverride} {c : ProjectionConfig}
    (own : o.Fitting) (shared : c.Fitting) : (o.apply c).Fitting := by
  refine ⟨getD_of_each own.bulkLimit shared.bulkLimit,
    getD_of_each own.requeueEvery shared.requeueEvery, ?_⟩
  intro m here
  cases set : o.lockDuration with
  | none => exact shared.lockDuration? m (by simpa [ProjectionOverride.apply, set] using here)
  | some n => exact own.lockDuration m (by simpa [ProjectionOverride.apply, set] using here)

theorem fitting_of_readOverride? {document : JsonDocument} {o : ProjectionOverride}
    (read : readOverride? document = some o) : o.Fitting := by
  have decoded {json : Json} (result : (Decoder.projectionOverride json).toOption = some o) :
      o.Fitting := by
    cases decoded : Decoder.projectionOverride json with
    | error e => rw [decoded] at result; cases result
    | ok o' =>
      rw [decoded] at result
      exact Option.some.inj result ▸ (Decoder.gives_projectionOverride json o' decoded).fitting
  unfold readOverride? at read
  dsimp only at read
  split at read
  all_goals
    obtain ⟨json, -, result⟩ := Option.bind_eq_some_iff.mp read
    exact decoded result

theorem fitting_of_readCustomizations? {text : String} {d : Dict String ProjectionOverride}
    (read : readCustomizations? text = some d) :
    ∀ name o, d.find? name = some o → o.Fitting := by
  obtain ⟨document, -, entriesRead⟩ := Option.bind_eq_some_iff.mp read
  split at entriesRead
  case h_1 fields =>
    obtain ⟨entries, all, same⟩ := Option.bind_eq_some_iff.mp entriesRead
    obtain rfl := Option.some.inj same
    intro name o found
    obtain ⟨field, -, entry⟩ := Option.exists_of_mem_mapM all (Dict.mem_of_find?_ofList found)
    obtain ⟨key, -, entry⟩ := Option.bind_eq_some_iff.mp entry
    obtain ⟨o', overrideRead, entry⟩ := Option.bind_eq_some_iff.mp entry
    cases entry
    exact fitting_of_readOverride? overrideRead
  case h_2 => cases entriesRead

theorem ProjectionsConfig.fitting_ofEnvironment (lookup : String → Option String) :
    (ProjectionsConfig.ofEnvironment lookup).Fitting := by
  have word (key : String) :
      Fits ((lookup key).bind fun raw => readBounded wordCount (trimmed raw)) := by
    intro n here
    obtain ⟨raw, -, read⟩ := Option.bind_eq_some_iff.mp here
    exact lt_of_readBounded read
  refine ⟨ProjectionOverride.Fitting.apply ⟨word _, word _, word _⟩
    ProjectionConfig.fitting_default, ?_⟩
  have overrides : ∀ d ∈ (lookup (variableStem ++ "CUSTOMIZATIONS")).bind readCustomizations?,
      ∀ name o, d.find? name = some o → o.Fitting := by
    intro d here
    obtain ⟨text, -, read⟩ := Option.bind_eq_some_iff.mp here
    exact fitting_of_readCustomizations? read
  exact getD_of_each overrides (fun _ _ found => nomatch found)

/-- Settings that can be had: out of a JSON value, or out of the environment. -/
inductive ProjectionsConfig.Obtained : ProjectionsConfig → Prop where
  | decoded {j : Json} {c : ProjectionsConfig} (read : Decoder.projectionsConfig j = .ok c) : Obtained c
  | lookedUp (lookup : String → Option String) : Obtained (.ofEnvironment lookup)

namespace ProjectionsConfig

theorem Obtained.fitting {c : ProjectionsConfig} (obtained : c.Obtained) : c.Fitting := by
  cases obtained with
  | decoded read => exact (Decoder.gives_projectionsConfig _ c read).fitting
  | lookedUp lookup => exact fitting_ofEnvironment lookup

theorem Fitting.of {c : ProjectionsConfig} (fitting : c.Fitting) (name : String) :
    (c.of name).Fitting := by
  unfold ProjectionsConfig.of
  split
  next o found => exact (fitting.customizations name o found).apply fitting.defaults
  next => exact fitting.defaults

end ProjectionsConfig

theorem ProjectionConfig.Fitting.lockDuration {c : ProjectionConfig} (fitting : c.Fitting) :
    c.lockDuration < wordCount :=
  getD_of_each fitting.lockDuration? fitting.requeueEvery

/-- How a number of 64 bits without a sign arrives where it is taken with one: as it is up to
`greatestSigned`, and beyond that as a negative number. -/
structure ArrivesAs (n : Nat) (v : Int) : Prop where
  exact : v = n ↔ (n : Int) ≤ greatestSigned
  wrapped : greatestSigned < n → v = n - wordCount ∧ v < 0

theorem arrivesAs_signedWord {n : Nat} (fits : n < wordCount) : ArrivesAs n (signedWord n) := by
  have value : signedWord n = if (n : Int) ≤ greatestSigned then (n : Int) else n - wordCount := by
    rw [signedWord, Int.bmod_def]
    unfold wordCount at fits ⊢
    unfold greatestSigned
    omega
  unfold wordCount at fits value
  unfold greatestSigned at value
  refine ⟨?_, fun beyond => ?_⟩ <;> unfold greatestSigned at *
  · omega
  · unfold wordCount
    omega

/-- A query for pending events asks for no more than a handler takes at once. -/
theorem Handler.limit_of_searchQuery {h : Handler} {ctx : Context} {instances : List InstanceId}
    {σ : Type} {answer : (c : HandlerCall) → σ → c.Answer × σ} {s : σ} {q : SearchQuery}
    (asked : (Dialogue.run answer (h.searchQuery ctx instances).run s).1 = .ok q) :
    q.limit = some h.config.bulkLimit := by
  have obeys : Dialogue.Obeys (fun _ _ => some ())
      (fun result _ => ∀ q, result = .ok q → q.limit = some h.config.bulkLimit)
      (h.searchQuery ctx instances).run () := by
    intro rows
    refine ⟨(), rfl, ?_⟩
    cases rows with
    | error e => exact fun q failed => nomatch failed
    | ok rows => exact fun q same => Except.ok.inj same ▸ rfl
  obtain ⟨_, -, limited⟩ := obeys.transcript answer s
  exact limited q asked

/-- A database refuses a query whose limit arrives as a negative number. -/
theorem filterEvents_of_negative {q : SearchQuery} {limit : Nat} (inhabited : q.clauses ≠ [])
    (limited : q.limit = some limit) (negative : signedWord limit < 0) (table : List Event) :
    ((filterEvents q).run (eventTable table) []).1 =
      .error (.storage "database error in filter: LIMIT must not be negative") := by
  cases asked : q.toSelect? with
  | none => exact absurd (toSelect?_eq_none.mp asked) inhabited
  | some select =>
    obtain ⟨s, asks, read⟩ := exists_asks asked
    have rows : s.rows table = .error (.server "2201W" "LIMIT must not be negative") := by
      rw [SqlSelect.rows, asks.limit, limited]
      exact if_pos negative
    have answer : answerSelect table (Fragment.call select.fragments eventColumns) =
        .error (.server "2201W" "LIMIT must not be negative") := by
      rw [answerSelect, read]
      simp only
      rw [if_pos ⟨asks.table, asks.columns⟩, rows]
      rfl
    rw [filterEvents, asked]
    simp only [sendSql, Dialogue.call, bind, Dialogue.bind, Dialogue.run_ask, eventTable]
    rw [answer]
    rfl

/-- A transaction ends without any values. -/
theorem endTransaction_only {kind : SqlCall → Prop} (text : String)
    (kinds : ∀ call : SqlCall, call.params = [] → kind call) : (endTransaction text).Only kind := by
  refine ⟨kinds _ rfl, fun ended => ?_⟩
  cases ended with
  | ok value => trivial
  | error e => exact ⟨kinds _ rfl, fun _ => trivial⟩

/-- Leases are taken by one statement, in a transaction. -/
theorem acquireLeases_only (holder : LockHolder) (duration : Nat) (instances : List InstanceId) :
    (acquireLeases holder duration instances).Only fun call : SqlCall =>
      call.params = [] ∨ call = insertLeases holder duration instances := by
  unfold acquireLeases
  split
  next => trivial
  next =>
    refine ⟨.inl rfl, fun begun => ?_⟩
    cases begun with
    | error e => trivial
    | ok value =>
      refine ⟨.inr rfl, fun inserted => ?_⟩
      cases inserted with
      | error e => exact ⟨.inl rfl, fun _ => trivial⟩
      | ok reply =>
        change Dialogue.Only _ (if reply.affected = instances.length then _ else _)
        split
        next => exact .bind (endTransaction_only "COMMIT" fun _ => .inl) fun _ => trivial
        next =>
          refine .bind (endTransaction_only "ROLLBACK" fun _ => .inl) fun ended => ?_
          cases ended <;> trivial

/-- How a projection with these settings reaches a database. -/
structure ProjectionConfig.Arrives (config : ProjectionConfig) : Prop where
  /-- The statement of a query for pending events is read as a selection with this limit. -/
  limit : ∀ (h : Handler) (ctx : Context) (instances : List InstanceId) (σ : Type)
    (answer : (c : HandlerCall) → σ → c.Answer × σ) (s : σ) (q : SearchQuery),
    h.config = config → (Dialogue.run answer (h.searchQuery ctx instances).run s).1 = .ok q →
    ∀ select, q.toSelect? = some select → ∃ statement v,
      (Fragment.call select.fragments eventColumns).items?.bind readSelect? = some statement ∧
        statement.limit = some (.int8 v) ∧ ArrivesAs config.bulkLimit v
  /-- Where the limit arrives as a negative number, no pending events are found. -/
  refused : ∀ (h : Handler) (ctx : Context) (instances : List InstanceId) (σ : Type)
    (answer : (c : HandlerCall) → σ → c.Answer × σ) (s : σ) (q : SearchQuery),
    h.config = config → (Dialogue.run answer (h.searchQuery ctx instances).run s).1 = .ok q →
    q.clauses ≠ [] → greatestSigned < config.bulkLimit → ∀ table,
      ((filterEvents q).run (eventTable table) []).1 =
        .error (.storage "database error in filter: LIMIT must not be negative")
  /-- Leases are taken by one statement, with this length. -/
  lease : ∀ (holder : LockHolder) (instances : List InstanceId),
    (acquireLeases holder config.lockDuration instances).Only (fun call : SqlCall =>
      call.params = [] ∨ call = insertLeases holder config.lockDuration instances) ∧
    ∃ v, (insertLeases holder config.lockDuration instances).params[2]? = some (.int8 v) ∧
      ArrivesAs config.lockDuration v

/-- Settings that a projection can run with arrive as they are up to `greatestSigned`. -/
theorem ProjectionsConfig.arrives_of_validate {c : ProjectionsConfig} (obtained : c.Obtained)
    {name : String} (valid : (c.of name).validate = .ok ()) :
    0 < (c.of name).bulkLimit ∧ (c.of name).bulkLimit < wordCount ∧
      (c.of name).lockDuration < wordCount ∧ (c.of name).Arrives := by
  have fitting := obtained.fitting.of name
  have arrives := arrivesAs_signedWord fitting.bulkLimit
  refine ⟨ProjectionConfig.bulkLimit_pos valid, fitting.bulkLimit, fitting.lockDuration, ?_, ?_, ?_⟩
  · intro h ctx instances σ answer s q same asked select selected
    obtain ⟨statement, asks, read⟩ := exists_asks selected
    refine ⟨statement, _, read, ?_, arrives⟩
    rw [asks.limit, Handler.limit_of_searchQuery asked, same]
    rfl
  · intro h ctx instances σ answer s q same asked inhabited beyond table
    have limited := Handler.limit_of_searchQuery asked
    rw [same] at limited
    exact filterEvents_of_negative inhabited limited (arrives.wrapped beyond).2 table
  · intro holder instances
    exact ⟨acquireLeases_only holder _ instances, _, rfl, arrivesAs_signedWord fitting.lockDuration⟩

/-- The greatest settings that a JSON value can have. -/
def boundlessSettings : Json := .ofFields
  [("defaults", .ofFields
    [("bulk_limit", .ofNat (wordCount - 1)), ("lock_duration", .ofNat (wordCount - 1))])]

theorem arrives_of_validate_boundlessSettings :
    ∃ c : ProjectionsConfig, Decoder.projectionsConfig boundlessSettings = .ok c ∧
      (c.of "p").validate = .ok () ∧ (c.of "p").Arrives ∧ signedWord (c.of "p").bulkLimit = -1 ∧
      signedWord (c.of "p").lockDuration = -1 := by
  let c : ProjectionsConfig :=
    { defaults := { bulkLimit := wordCount - 1, lockDuration? := some (wordCount - 1) } }
  have read : Decoder.projectionsConfig boundlessSettings = .ok c := by
    rfl
  have valid : (c.of "p").validate = .ok () := rfl
  have ⟨_, _, _, arrives⟩ := ProjectionsConfig.arrives_of_validate (.decoded read) valid
  exact ⟨c, read, valid, arrives, by decide, by decide⟩

end ReadModel
