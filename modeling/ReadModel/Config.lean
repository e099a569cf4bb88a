import ReadModel.Dict
import ReadModel.Supervision.Policy
import ReadModel.Text.Quoted

/-!
Configuration of projections.

`ProjectionsConfig` holds the settings that all projections share and what single projections have
instead; `ProjectionsConfig.of` puts the two together. Durations are in milliseconds.
-/

namespace ReadModel

/-- The settings of a projection. -/
structure ProjectionConfig where
  /-- How often all instances are swept. -/
  requeueEvery : Nat := 60000
  /-- How long a partly failed batch waits before it is tried again. -/
  retryFailedAfter : Nat := 1000
  /-- How often a partly failed batch is tried again. -/
  maxRetries : Nat := 5
  /-- How often an event may fail before it is skipped. -/
  maxFailureCount : Nat := 5
  /-- How many instances a batch of a sweep has. -/
  concurrentInstances : Nat := 1
  /-- How many batches of a sweep run at the same time. -/
  batchConcurrency : Nat := 4
  /-- How many events a trigger fetches at once. -/
  bulkLimit : Nat := 200
  /-- How far back a sweep looks for active instances. -/
  activeInstanceWindow? : Option Nat := none
  /-- Whether events are taken from the bus. -/
  subscribe : Bool := true
  /-- How long a lock is held without being renewed. -/
  lockDuration? : Option Nat := none
  /-- What is done when the intake from the bus ends abnormally. -/
  restart : RestartPolicy := .onFailure 10 1000
  deriving DecidableEq, Inhabited

/-- A setting that a projection cannot run with. -/
structure ConfigError where
  key : String
  value : String
  reason : String
  deriving DecidableEq

/-- The text of the error. -/
def ConfigError.message (e : ConfigError) : String :=
  "invalid value " ++ quoted e.value ++ " for " ++ e.key ++ ": " ++ e.reason

namespace ProjectionConfig

/-- How far back a sweep looks: twice the time between sweeps where nothing else is set. -/
def activeInstanceWindow (c : ProjectionConfig) : Nat :=
  c.activeInstanceWindow?.getD (c.requeueEvery * 2)

/-- How long a lock is held: the time between sweeps where nothing else is set. -/
def lockDuration (c : ProjectionConfig) : Nat := c.lockDuration?.getD c.requeueEvery

/-- Refuses a zero. -/
def positive (key : String) (n : Nat) : Except ConfigError Unit :=
  if n = 0 then .error ⟨key, "0", "must be positive"⟩ else .ok ()

/-- Refuses settings that a projection cannot run with. -/
def validate (c : ProjectionConfig) : Except ConfigError Unit := do
  positive "bulk_limit" c.bulkLimit
  positive "concurrent_instances" c.concurrentInstances
  positive "batch_concurrency" c.batchConcurrency
  positive "requeue_every" c.requeueEvery

end ProjectionConfig

/-- What one projection has instead of the shared settings. -/
structure ProjectionOverride where
  requeueEvery : Option Nat := none
  retryFailedAfter : Option Nat := none
  maxRetries : Option Nat := none
  maxFailureCount : Option Nat := none
  concurrentInstances : Option Nat := none
  batchConcurrency : Option Nat := none
  bulkLimit : Option Nat := none
  activeInstanceWindow : Option Nat := none
  subscribe : Option Bool := none
  lockDuration : Option Nat := none
  deriving DecidableEq, Inhabited

/-- The settings with those of one projection in place of the shared ones. -/
def ProjectionOverride.apply (o : ProjectionOverride) (c : ProjectionConfig) : ProjectionConfig where
  requeueEvery := o.requeueEvery.getD c.requeueEvery
  retryFailedAfter := o.retryFailedAfter.getD c.retryFailedAfter
  maxRetries := o.maxRetries.getD c.maxRetries
  maxFailureCount := o.maxFailureCount.getD c.maxFailureCount
  concurrentInstances := o.concurrentInstances.getD c.concurrentInstances
  batchConcurrency := o.batchConcurrency.getD c.batchConcurrency
  bulkLimit := o.bulkLimit.getD c.bulkLimit
  activeInstanceWindow? := o.activeInstanceWindow.or c.activeInstanceWindow?
  subscribe := o.subscribe.getD c.subscribe
  lockDuration? := o.lockDuration.or c.lockDuration?
  restart := c.restart

/-- The settings of all projections. -/
structure ProjectionsConfig where
  defaults : ProjectionConfig := {}
  customizations : Dict String ProjectionOverride := ∅
  deriving DecidableEq, Inhabited

/-- The settings of the projection with a name. -/
def ProjectionsConfig.of (c : ProjectionsConfig) (name : String) : ProjectionConfig :=
  match c.customizations.find? name with
  | some o => o.apply c.defaults
  | none => c.defaults

end ReadModel
