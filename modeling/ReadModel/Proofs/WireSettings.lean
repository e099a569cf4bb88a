import ReadModel.Proofs.Decoding

/-!
Settings that are written and read again.

Settings are numbers of 64 or of 32 bits without a sign, and policies. What is read is of these
widths, whichever fields it leaves out, and what is of these widths is read back as it was written.
-/

namespace ReadModel

/-- The numbers of the policy have the widths of their fields. -/
def RestartPolicy.Writable : RestartPolicy → Prop
  | .never => True
  | .onFailure maxRestarts backoff => maxRestarts < halfWordCount ∧ backoff < wordCount

/-- The numbers among the settings have the widths of their fields. -/
structure ProjectionConfig.Writable (c : ProjectionConfig) : Prop where
  requeueEvery : c.requeueEvery < wordCount
  retryFailedAfter : c.retryFailedAfter < wordCount
  maxRetries : c.maxRetries < halfWordCount
  maxFailureCount : c.maxFailureCount < halfWordCount
  concurrentInstances : c.concurrentInstances < wordCount
  batchConcurrency : c.batchConcurrency < wordCount
  bulkLimit : c.bulkLimit < wordCount
  activeInstanceWindow? : ∀ n ∈ c.activeInstanceWindow?, n < wordCount
  lockDuration? : ∀ n ∈ c.lockDuration?, n < wordCount
  restart : c.restart.Writable

/-- The same of what a projection has instead. -/
structure ProjectionOverride.Writable (o : ProjectionOverride) : Prop where
  requeueEvery : ∀ n ∈ o.requeueEvery, n < wordCount
  retryFailedAfter : ∀ n ∈ o.retryFailedAfter, n < wordCount
  maxRetries : ∀ n ∈ o.maxRetries, n < halfWordCount
  maxFailureCount : ∀ n ∈ o.maxFailureCount, n < halfWordCount
  concurrentInstances : ∀ n ∈ o.concurrentInstances, n < wordCount
  batchConcurrency : ∀ n ∈ o.batchConcurrency, n < wordCount
  bulkLimit : ∀ n ∈ o.bulkLimit, n < wordCount
  activeInstanceWindow : ∀ n ∈ o.activeInstanceWindow, n < wordCount
  lockDuration : ∀ n ∈ o.lockDuration, n < wordCount

/-- The same of the settings of all projections. -/
structure ProjectionsConfig.Writable (c : ProjectionsConfig) : Prop where
  defaults : c.defaults.Writable
  customizations : ∀ name o, c.customizations.find? name = some o → o.Writable

theorem ProjectionConfig.writable_default : ProjectionConfig.Writable {} where
  requeueEvery := by decide
  retryFailedAfter := by decide
  maxRetries := by decide
  maxFailureCount := by decide
  concurrentInstances := by decide
  batchConcurrency := by decide
  bulkLimit := by decide
  activeInstanceWindow? := nofun
  lockDuration? := nofun
  restart := ⟨by decide, by decide⟩

namespace Decoder

theorem gives_restartPolicy : restartPolicy.Gives RestartPolicy.Writable := by
  intro j policy result
  unfold restartPolicy at result
  split at result
  case h_1 fields =>
    obtain ⟨name, -, result⟩ := Except.bind_eq_ok_iff.mp result
    split at result
    case h_1 => cases result
    case h_2 => cases result; trivial
    case h_3 =>
      simp only [Except.bind_eq_ok_iff] at result
      obtain ⟨_, readBackoff, _, readRestarts, maxRestarts, hasRestarts, backoff, hasBackoff,
        result⟩ := result
      cases result
      exact ⟨gives_unsigned32.required readRestarts hasRestarts,
        gives_unsigned64.required readBackoff hasBackoff⟩
  case h_2 => cases result
  case h_3 name items =>
    obtain ⟨name, -, result⟩ := Except.bind_eq_ok_iff.mp result
    split at result
    next =>
      obtain ⟨_, -, result⟩ := Except.bind_eq_ok_iff.mp result
      cases result
      trivial
    next =>
      simp only [Except.bind_eq_ok_iff, Prod.exists] at result
      obtain ⟨maxRestarts, _, readRestarts, backoff, _, readBackoff, _, -, result⟩ := result
      cases result
      exact ⟨gives_unsigned32.next readRestarts, gives_unsigned64.next readBackoff⟩
  case h_4 => cases result

theorem restores_restartPolicy :
    restartPolicy.Restores RestartPolicy.encode RestartPolicy.Writable := by
  intro policy writable
  cases policy with
  | never => rfl
  | onFailure maxRestarts backoff =>
    have distinct : ["kind", "max_restarts", "backoff"].Nodup := by decide
    simp (disch := simp) only [RestartPolicy.encode, Json.ofFields, restartPolicy,
      present_ofList distinct]
    simp (disch := decide) only [present_cons_self, present_cons_of_ne, Except.bind_ok, Except.ok_map,
      restores_unsigned32 _ writable.1, restores_unsigned64 _ writable.2]
    rfl

theorem gives_projectionConfig : projectionConfig.Gives ProjectionConfig.Writable := by
  have word := gives_unsigned64
  have half := gives_unsigned32
  have wordOrNull := word.optional
  have default := ProjectionConfig.writable_default
  intro j c result
  unfold projectionConfig at result
  split at result
  case h_1 fields =>
    simp only [Except.bind_eq_ok_iff] at result
    obtain ⟨_, readWindow, _, readBatches, _, readLimit, _, readInstances, _, readDuration,
      _, readFailures, _, readRetries, _, readRequeue, _, readRestart, _, readPause, _, -,
      result⟩ := result
    cases result
    exact {
      requeueEvery := getD_of_each (word.present readRequeue) default.requeueEvery
      retryFailedAfter := getD_of_each (word.present readPause) default.retryFailedAfter
      maxRetries := getD_of_each (half.present readRetries) default.maxRetries
      maxFailureCount := getD_of_each (half.present readFailures) default.maxFailureCount
      concurrentInstances := getD_of_each (gives_size.present readInstances) default.concurrentInstances
      batchConcurrency := getD_of_each (gives_size.present readBatches) default.batchConcurrency
      bulkLimit := getD_of_each (word.present readLimit) default.bulkLimit
      activeInstanceWindow? := join_of_each (wordOrNull.present readWindow)
      lockDuration? := join_of_each (wordOrNull.present readDuration)
      restart := getD_of_each (gives_restartPolicy.present readRestart) default.restart }
  case h_2 items =>
    simp only [Except.bind_eq_ok_iff, Prod.exists] at result
    obtain ⟨_, _, readRequeue, _, _, readPause, _, _, readRetries, _, _, readFailures,
      _, _, readInstances, _, _, readBatches, _, _, readLimit, _, _, readWindow, _, _, -,
      _, _, readDuration, _, _, readRestart, _, -, result⟩ := result
    cases result
    exact {
      requeueEvery := word.nextOr default.requeueEvery readRequeue
      retryFailedAfter := word.nextOr default.retryFailedAfter readPause
      maxRetries := half.nextOr default.maxRetries readRetries
      maxFailureCount := half.nextOr default.maxFailureCount readFailures
      concurrentInstances := gives_size.nextOr default.concurrentInstances readInstances
      batchConcurrency := gives_size.nextOr default.batchConcurrency readBatches
      bulkLimit := word.nextOr default.bulkLimit readLimit
      activeInstanceWindow? := wordOrNull.nextOr default.activeInstanceWindow? readWindow
      lockDuration? := wordOrNull.nextOr default.lockDuration? readDuration
      restart := gives_restartPolicy.nextOr default.restart readRestart }
  case h_3 => cases result

theorem restores_projectionConfig :
    projectionConfig.Restores ProjectionConfig.encode ProjectionConfig.Writable := by
  intro c writable
  have wordOrNull := restores_unsigned64.optional ofNat_ne_null
  have distinct : ["requeue_every", "retry_failed_after", "max_retries", "max_failure_count",
    "concurrent_instances", "batch_concurrency", "bulk_limit", "active_instance_window", "subscribe",
    "lock_duration", "restart"].Nodup := by decide
  simp (disch := simp) only [ProjectionConfig.encode, Json.ofFields, projectionConfig,
    present_ofList distinct]
  simp (disch := decide) only [present_cons_self, present_cons_of_ne, Except.bind_ok, Except.ok_map,
    restores_unsigned64 _ writable.requeueEvery, restores_unsigned64 _ writable.retryFailedAfter,
    restores_unsigned32 _ writable.maxRetries, restores_unsigned32 _ writable.maxFailureCount,
    restores_size _ writable.concurrentInstances, restores_size _ writable.batchConcurrency,
    restores_unsigned64 _ writable.bulkLimit, wordOrNull _ writable.activeInstanceWindow?,
    wordOrNull _ writable.lockDuration?, restores_restartPolicy _ writable.restart, bool]
  rfl

theorem gives_projectionOverride : projectionOverride.Gives ProjectionOverride.Writable := by
  have word := gives_unsigned64.optional
  have half := gives_unsigned32.optional
  have size := gives_size.optional
  have unset {count : Nat} : ∀ n ∈ (none : Option Nat), n < count := nofun
  intro j o result
  unfold projectionOverride at result
  split at result
  case h_1 fields =>
    simp only [Except.bind_eq_ok_iff] at result
    obtain ⟨_, readWindow, _, readBatches, _, readLimit, _, readInstances, _, readDuration,
      _, readFailures, _, readRetries, _, readRequeue, _, readPause, _, -, result⟩ := result
    cases result
    exact {
      requeueEvery := join_of_each (word.present readRequeue)
      retryFailedAfter := join_of_each (word.present readPause)
      maxRetries := join_of_each (half.present readRetries)
      maxFailureCount := join_of_each (half.present readFailures)
      concurrentInstances := join_of_each (size.present readInstances)
      batchConcurrency := join_of_each (size.present readBatches)
      bulkLimit := join_of_each (word.present readLimit)
      activeInstanceWindow := join_of_each (word.present readWindow)
      lockDuration := join_of_each (word.present readDuration) }
  case h_2 items =>
    simp only [Except.bind_eq_ok_iff, Prod.exists] at result
    obtain ⟨_, _, readRequeue, _, _, readPause, _, _, readRetries, _, _, readFailures,
      _, _, readInstances, _, _, readBatches, _, _, readLimit, _, _, readWindow, _, _, -,
      _, _, readDuration, _, -, result⟩ := result
    cases result
    exact {
      requeueEvery := word.nextOr unset readRequeue
      retryFailedAfter := word.nextOr unset readPause
      maxRetries := half.nextOr unset readRetries
      maxFailureCount := half.nextOr unset readFailures
      concurrentInstances := size.nextOr unset readInstances
      batchConcurrency := size.nextOr unset readBatches
      bulkLimit := word.nextOr unset readLimit
      activeInstanceWindow := word.nextOr unset readWindow
      lockDuration := word.nextOr unset readDuration }
  case h_3 => cases result

theorem restores_projectionOverride :
    projectionOverride.Restores ProjectionOverride.encode ProjectionOverride.Writable := by
  intro o writable
  have word := restores_unsigned64.optional ofNat_ne_null
  have half := restores_unsigned32.optional ofNat_ne_null
  have size := restores_size.optional ofNat_ne_null
  have subscribe := restores_bool.optional (fun _ => Json.noConfusion) o.subscribe fun _ _ => trivial
  have distinct : ["requeue_every", "retry_failed_after", "max_retries", "max_failure_count",
    "concurrent_instances", "batch_concurrency", "bulk_limit", "active_instance_window", "subscribe",
    "lock_duration"].Nodup := by decide
  simp (disch := simp) only [ProjectionOverride.encode, Json.ofFields, projectionOverride,
    present_ofList distinct]
  simp (disch := decide) only [present_cons_self, present_cons_of_ne, Except.bind_ok, Except.ok_map,
    word _ writable.requeueEvery, word _ writable.retryFailedAfter, half _ writable.maxRetries,
    half _ writable.maxFailureCount, size _ writable.concurrentInstances,
    size _ writable.batchConcurrency, word _ writable.bulkLimit, word _ writable.activeInstanceWindow,
    subscribe, word _ writable.lockDuration]
  rfl

theorem gives_projectionsConfig : projectionsConfig.Gives ProjectionsConfig.Writable := by
  have configs := gives_projectionConfig
  have overrides := gives_projectionOverride.dict
  have default := ProjectionConfig.writable_default
  have noOverrides : ∀ name o, (∅ : Dict String ProjectionOverride).find? name = some o →
      o.Writable := by
    intro name o found
    rw [Dict.find?_empty] at found
    cases found
  intro j c result
  unfold projectionsConfig at result
  split at result
  case h_1 fields =>
    simp only [Except.bind_eq_ok_iff] at result
    obtain ⟨customizations, readOverrides, defaults, readDefaults, result⟩ := result
    cases result
    exact ⟨getD_of_each (configs.present readDefaults) default,
      getD_of_each (overrides.present readOverrides) noOverrides⟩
  case h_2 items =>
    simp only [Except.bind_eq_ok_iff, Prod.exists] at result
    obtain ⟨defaults, _, readDefaults, customizations, _, readOverrides, _, -, result⟩ := result
    cases result
    exact ⟨configs.nextOr default readDefaults, overrides.nextOr noOverrides readOverrides⟩
  case h_3 => cases result

theorem restores_projectionsConfig :
    projectionsConfig.Restores ProjectionsConfig.encode ProjectionsConfig.Writable := by
  intro c writable
  have overrides := restores_projectionOverride.dict c.customizations writable.customizations
  have distinct : ["defaults", "customizations"].Nodup := by decide
  rw [ProjectionsConfig.encode, Json.ofFields, projectionsConfig]
  simp (disch := simp) only [present_ofList distinct]
  simp (disch := decide) only [present_cons_self, present_cons_of_ne, Except.bind_ok, Except.ok_map,
    restores_projectionConfig _ writable.defaults, overrides]
  rfl

end Decoder

end ReadModel
