import ReadModel.Config
import ReadModel.Json.Document
import ReadModel.Text.Blank
import ReadModel.Wire.Config
import ReadModel.Word

/-!
Configuration from environment variables.

Each setting has a variable of its own; one more holds what single projections have instead, as a
JSON text. A value that cannot be read is ignored.
-/

namespace ReadModel

/-- What the names of all variables begin with. -/
def variableStem : String := "FORGEIAM_PROJECTIONS_"

/-- The number that decimal digits with an optional plus sign denote, where it is below a bound. -/
def readBounded (bound : Nat) (text : String) : Option Nat :=
  let digits := match text.toList with
    | '+' :: rest => rest
    | all => all
  if digits.isEmpty ∨ ¬ digits.all Char.isDigit then none
  else
    let n := digits.foldl (fun n c => n * 10 + (c.toNat - 48)) 0
    if n < bound then some n else none

/-- The truth value that a text names. -/
def readTruth : String → Option Bool
  | "true" => some true
  | "false" => some false
  | _ => none

/-- The fields of an object that have known names, none of which comes twice. -/
def knownFields? (known : List String) (fields : List (Option String × JsonDocument)) :
    Option (List (String × Json)) := do
  let named ← fields.mapM fun field => field.1.map fun name => (name, field.2)
  let relevant := named.filter fun field => decide (field.1 ∈ known)
  let names := relevant.map Prod.fst
  if (distinctNames names).length < names.length then none
  else relevant.mapM fun field => field.2.toJson?.map fun j => (field.1, j)
where
  distinctNames (names : List String) : List String := sortedKeys names

/-- What a document says a projection has instead of the shared settings. -/
def readOverride? (document : JsonDocument) : Option ProjectionOverride := do
  let json ← match document with
    | .object fields => (knownFields? ProjectionOverride.fieldNames fields).map Json.ofFields
    | document => document.toJson?
  (Decoder.projectionOverride json).toOption

/-- What a text says that single projections have instead of the shared settings; of two entries for
one projection the later counts. -/
def readCustomizations? (text : String) : Option (Dict String ProjectionOverride) := do
  match ← JsonDocument.parse? text with
  | .object fields =>
    let entries ← fields.mapM fun field => do return (← field.1, ← readOverride? field.2)
    some (Dict.ofList entries)
  | _ => none

/-- The settings that variables give; `lookup` has their values. -/
def ProjectionsConfig.ofEnvironment (lookup : String → Option String) : ProjectionsConfig :=
  let value {α : Type} (read : String → Option α) (key : String) : Option α :=
    (lookup (variableStem ++ key)).bind fun raw => read (trimmed raw)
  let word := value (readBounded wordCount)
  let halfWord := value (readBounded halfWordCount)
  let settings : ProjectionOverride :=
    { requeueEvery := word "REQUEUE_EVERY_MS"
      retryFailedAfter := word "RETRY_FAILED_AFTER_MS"
      maxRetries := halfWord "MAX_RETRIES"
      maxFailureCount := halfWord "MAX_FAILURE_COUNT"
      concurrentInstances := word "CONCURRENT_INSTANCES"
      batchConcurrency := word "BATCH_CONCURRENCY"
      bulkLimit := word "BULK_LIMIT"
      activeInstanceWindow := word "ACTIVE_INSTANCE_WINDOW_MS"
      subscribe := value readTruth "SUBSCRIBE"
      lockDuration := word "LOCK_DURATION_MS" }
  { defaults := settings.apply {}
    customizations :=
      ((lookup (variableStem ++ "CUSTOMIZATIONS")).bind readCustomizations?).getD ∅ }

end ReadModel
