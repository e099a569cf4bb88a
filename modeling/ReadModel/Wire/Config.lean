import ReadModel.Config
import ReadModel.Wire.Decoding

/-!
Settings as JSON values. Each setting may be left out; as a list, only from the end on.
-/

namespace ReadModel

open Decoder

/-- The policy as a JSON value. -/
def RestartPolicy.encode : RestartPolicy → Json
  | .never => .ofFields [("kind", .text "never")]
  | .onFailure maxRestarts backoff => .ofFields
    [("kind", .text "on_failure"), ("max_restarts", .ofNat maxRestarts), ("backoff", .ofNat backoff)]

namespace Decoder

/-- Reads a name of a policy; only a text is one. -/
def policyName : Decoder String
  | .text s =>
    if s ∈ ["never", "on_failure"] then .ok s else .error (.unknownVariant s ["never", "on_failure"])
  | j => .error (.wrongType j "variant identifier")

/-- Reads a restart policy. -/
def restartPolicy : Decoder RestartPolicy
  | .object fields => do
    match ← present "kind" policyName fields with
    | none => .error (.missingField "kind")
    | some "never" => .ok .never
    | some _ =>
      let backoff ← present "backoff" unsigned64 fields
      let maxRestarts ← present "max_restarts" unsigned32 fields
      let maxRestarts ← require "max_restarts" maxRestarts
      let backoff ← require "backoff" backoff
      .ok (.onFailure maxRestarts backoff)
  | .list [] => .error (.missingField "kind")
  | .list (name :: items) => do
    let name ← policyName name
    if name = "never" then
      finish .setAside 0 items
      .ok .never
    else
      let record := elements "struct variant RestartPolicy::OnFailure" 2
      let (maxRestarts, items) ← next record 0 unsigned32 items
      let (backoff, items) ← next record 1 unsigned64 items
      finish .setAside 2 items
      .ok (.onFailure maxRestarts backoff)
  | j => .error (.wrongType j "internally tagged enum RestartPolicy")

/-- Reads the next field of a record that stands as a list, if it goes on. -/
def nextOr {α : Type} (fallback : α) (read : Decoder α) :
    List Json → Except DecodeError (α × List Json)
  | j :: rest => do
    let a ← read j
    .ok (a, rest)
  | [] => .ok (fallback, [])

end Decoder

/-- The settings as a JSON value. -/
def ProjectionConfig.encode (c : ProjectionConfig) : Json := .ofFields
  [("requeue_every", .ofNat c.requeueEvery), ("retry_failed_after", .ofNat c.retryFailedAfter),
    ("max_retries", .ofNat c.maxRetries), ("max_failure_count", .ofNat c.maxFailureCount),
    ("concurrent_instances", .ofNat c.concurrentInstances),
    ("batch_concurrency", .ofNat c.batchConcurrency), ("bulk_limit", .ofNat c.bulkLimit),
    ("active_instance_window", .ofOption Json.ofNat c.activeInstanceWindow?),
    ("subscribe", .bool c.subscribe), ("lock_duration", .ofOption Json.ofNat c.lockDuration?),
    ("restart", c.restart.encode)]

/-- Reads the settings of a projection. -/
def Decoder.projectionConfig : Decoder ProjectionConfig
  | .object fields => do
    let defaults : ProjectionConfig := {}
    let activeInstanceWindow? ← present "active_instance_window" (optional unsigned64) fields
    let batchConcurrency ← present "batch_concurrency" size fields
    let bulkLimit ← present "bulk_limit" unsigned64 fields
    let concurrentInstances ← present "concurrent_instances" size fields
    let lockDuration? ← present "lock_duration" (optional unsigned64) fields
    let maxFailureCount ← present "max_failure_count" unsigned32 fields
    let maxRetries ← present "max_retries" unsigned32 fields
    let requeueEvery ← present "requeue_every" unsigned64 fields
    let restart ← present "restart" restartPolicy fields
    let retryFailedAfter ← present "retry_failed_after" unsigned64 fields
    let subscribe ← present "subscribe" bool fields
    .ok { requeueEvery := requeueEvery.getD defaults.requeueEvery
          retryFailedAfter := retryFailedAfter.getD defaults.retryFailedAfter
          maxRetries := maxRetries.getD defaults.maxRetries
          maxFailureCount := maxFailureCount.getD defaults.maxFailureCount
          concurrentInstances := concurrentInstances.getD defaults.concurrentInstances
          batchConcurrency := batchConcurrency.getD defaults.batchConcurrency
          bulkLimit := bulkLimit.getD defaults.bulkLimit
          activeInstanceWindow? := activeInstanceWindow?.join
          subscribe := subscribe.getD defaults.subscribe
          lockDuration? := lockDuration?.join
          restart := restart.getD defaults.restart }
  | .list items => do
    let defaults : ProjectionConfig := {}
    let (requeueEvery, items) ← nextOr defaults.requeueEvery unsigned64 items
    let (retryFailedAfter, items) ← nextOr defaults.retryFailedAfter unsigned64 items
    let (maxRetries, items) ← nextOr defaults.maxRetries unsigned32 items
    let (maxFailureCount, items) ← nextOr defaults.maxFailureCount unsigned32 items
    let (concurrentInstances, items) ← nextOr defaults.concurrentInstances size items
    let (batchConcurrency, items) ← nextOr defaults.batchConcurrency size items
    let (bulkLimit, items) ← nextOr defaults.bulkLimit unsigned64 items
    let (activeInstanceWindow?, items) ← nextOr none (optional unsigned64) items
    let (subscribe, items) ← nextOr defaults.subscribe bool items
    let (lockDuration?, items) ← nextOr none (optional unsigned64) items
    let (restart, items) ← nextOr defaults.restart restartPolicy items
    finish .whole 11 items
    .ok { requeueEvery, retryFailedAfter, maxRetries, maxFailureCount, concurrentInstances,
          batchConcurrency, bulkLimit, activeInstanceWindow?, subscribe, lockDuration?, restart }
  | j => .error (.wrongType j "struct ProjectionConfig")

/-- The override as a JSON value. -/
def ProjectionOverride.encode (o : ProjectionOverride) : Json := .ofFields
  [("requeue_every", .ofOption Json.ofNat o.requeueEvery),
    ("retry_failed_after", .ofOption Json.ofNat o.retryFailedAfter),
    ("max_retries", .ofOption Json.ofNat o.maxRetries),
    ("max_failure_count", .ofOption Json.ofNat o.maxFailureCount),
    ("concurrent_instances", .ofOption Json.ofNat o.concurrentInstances),
    ("batch_concurrency", .ofOption Json.ofNat o.batchConcurrency),
    ("bulk_limit", .ofOption Json.ofNat o.bulkLimit),
    ("active_instance_window", .ofOption Json.ofNat o.activeInstanceWindow),
    ("subscribe", .ofOption Json.bool o.subscribe),
    ("lock_duration", .ofOption Json.ofNat o.lockDuration)]

/-- The names of the settings that an override can have. -/
def ProjectionOverride.fieldNames : List String :=
  ["requeue_every", "retry_failed_after", "max_retries", "max_failure_count",
    "concurrent_instances", "batch_concurrency", "bulk_limit", "active_instance_window",
    "subscribe", "lock_duration"]

/-- Reads what one projection has instead of the shared settings. -/
def Decoder.projectionOverride : Decoder ProjectionOverride
  | .object fields => do
    let activeInstanceWindow ← present "active_instance_window" (optional unsigned64) fields
    let batchConcurrency ← present "batch_concurrency" (optional size) fields
    let bulkLimit ← present "bulk_limit" (optional unsigned64) fields
    let concurrentInstances ← present "concurrent_instances" (optional size) fields
    let lockDuration ← present "lock_duration" (optional unsigned64) fields
    let maxFailureCount ← present "max_failure_count" (optional unsigned32) fields
    let maxRetries ← present "max_retries" (optional unsigned32) fields
    let requeueEvery ← present "requeue_every" (optional unsigned64) fields
    let retryFailedAfter ← present "retry_failed_after" (optional unsigned64) fields
    let subscribe ← present "subscribe" (optional bool) fields
    .ok { requeueEvery := requeueEvery.join
          retryFailedAfter := retryFailedAfter.join
          maxRetries := maxRetries.join
          maxFailureCount := maxFailureCount.join
          concurrentInstances := concurrentInstances.join
          batchConcurrency := batchConcurrency.join
          bulkLimit := bulkLimit.join
          activeInstanceWindow := activeInstanceWindow.join
          subscribe := subscribe.join
          lockDuration := lockDuration.join }
  | .list items => do
    let (requeueEvery, items) ← nextOr none (optional unsigned64) items
    let (retryFailedAfter, items) ← nextOr none (optional unsigned64) items
    let (maxRetries, items) ← nextOr none (optional unsigned32) items
    let (maxFailureCount, items) ← nextOr none (optional unsigned32) items
    let (concurrentInstances, items) ← nextOr none (optional size) items
    let (batchConcurrency, items) ← nextOr none (optional size) items
    let (bulkLimit, items) ← nextOr none (optional unsigned64) items
    let (activeInstanceWindow, items) ← nextOr none (optional unsigned64) items
    let (subscribe, items) ← nextOr none (optional bool) items
    let (lockDuration, items) ← nextOr none (optional unsigned64) items
    finish .whole 10 items
    .ok { requeueEvery, retryFailedAfter, maxRetries, maxFailureCount, concurrentInstances,
          batchConcurrency, bulkLimit, activeInstanceWindow, subscribe, lockDuration }
  | j => .error (.wrongType j "struct ProjectionOverride")

/-- Reads an object whose fields have arbitrary names and values of one sort. -/
def Decoder.dict {ν : Type} (read : Decoder ν) : Decoder (Dict String ν)
  | .object fields => do
    let values ← fields.mapM fun field => do
      let value ← read field.2
      return (field.1, value)
    .ok (Dict.ofList values)
  | j => .error (.wrongType j "a map")

/-- The settings of all projections as a JSON value. -/
def ProjectionsConfig.encode (c : ProjectionsConfig) : Json := .ofFields
  [("defaults", c.defaults.encode),
    ("customizations", .ofFields (c.customizations.entries.map fun e => (e.1, e.2.encode)))]

/-- Reads the settings of all projections. -/
def Decoder.projectionsConfig : Decoder ProjectionsConfig
  | .object fields => do
    let customizations ← present "customizations" (dict projectionOverride) fields
    let defaults ← present "defaults" projectionConfig fields
    .ok { defaults := defaults.getD {}, customizations := customizations.getD ∅ }
  | .list items => do
    let (defaults, items) ← nextOr {} projectionConfig items
    let (customizations, items) ← nextOr ∅ (dict projectionOverride) items
    finish .whole 2 items
    .ok { defaults, customizations }
  | j => .error (.wrongType j "struct ProjectionsConfig")

end ReadModel
