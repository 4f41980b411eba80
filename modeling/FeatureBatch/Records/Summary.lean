import FeatureBatch.Records.Results

/-!
The summary of a run: its totals, and a row for each feature that ran.
-/

namespace FeatureBatch

/-- A feature that ran. -/
structure FeatureRow where
  name : String
  path : String
  scenarios : Nat
  passed : Nat
  failed : Nat
  durationMs : UInt64
  deriving DecidableEq, Repr

namespace FeatureRow

def ofRecord (r : FeatureRecord) : FeatureRow where
  name := r.qualifiedName
  path := r.path
  scenarios := r.scenarioCount
  passed := r.passedCount
  failed := r.failedCount
  durationMs := r.durationMs

def toJson (r : FeatureRow) : Json :=
  .record [
    ("name", .text r.name),
    ("path", .text r.path),
    ("scenarios", .nat r.scenarios),
    ("passed", .nat r.passed),
    ("failed", .nat r.failed),
    ("duration_ms", .word r.durationMs)]

def ofJson? (v : Json) : Option FeatureRow := do
  match ← v.fieldValues? ["name", "path", "scenarios", "passed", "failed", "duration_ms"] with
  | [name, path, scenarios, passed, failed, durationMs] => do
    some { name := ← Json.required? Json.asText? name
           path := ← Json.required? Json.asText? path
           scenarios := ← Json.required? Json.asCount? scenarios
           passed := ← Json.required? Json.asCount? passed
           failed := ← Json.required? Json.asCount? failed
           durationMs := ← Json.required? Json.asWord? durationMs }
  | _ => none

end FeatureRow

structure Summary where
  version : String
  threads : UInt64
  featuresPassed : Nat
  featuresFailed : Nat
  featuresSkipped : Nat
  scenariosPassed : Nat
  scenariosFailed : Nat
  elapsedMs : Nat
  totalTimeMs : UInt64
  efficiency : Binary64
  startedAt : Instant
  endedAt : Option Instant
  failed : List FailedFeature
  failureReason : Option String
  features : List FeatureRow
  deriving DecidableEq, Repr

namespace Summary

/-- The version of the program that summaries name. -/
def currentVersion : String := "0.1.4"

def ofResults (r : Results) (store : RecordStore) : Summary where
  version := currentVersion
  threads := r.threads
  featuresPassed := r.totals.features - r.totals.failed.length
  featuresFailed := r.totals.failed.length
  featuresSkipped := r.totals.skipped
  scenariosPassed := r.passedCount
  scenariosFailed := r.totals.failures
  elapsedMs := r.elapsedMillis
  totalTimeMs := r.totals.timeMs
  efficiency := r.efficiency
  startedAt := r.startedAt
  endedAt := r.endedAt
  failed := r.totals.failed
  failureReason := r.failureReason.map SuiteError.message
  features := (r.executed store).map FeatureRow.ofRecord

def toJson (s : Summary) : Json :=
  .record [
    ("version", .text s.version),
    ("threads", .word s.threads),
    ("features_passed", .nat s.featuresPassed),
    ("features_failed", .nat s.featuresFailed),
    ("features_skipped", .nat s.featuresSkipped),
    ("scenarios_passed", .nat s.scenariosPassed),
    ("scenarios_failed", .nat s.scenariosFailed),
    ("elapsed_ms", .nat s.elapsedMs),
    ("total_time_ms", .word s.totalTimeMs),
    ("efficiency", .float s.efficiency),
    ("started_at", .instant s.startedAt),
    ("ended_at", Json.orNull Json.instant s.endedAt),
    ("failed", .array (s.failed.map FailedFeature.toJson)),
    ("failure_reason", Json.orNull Json.text s.failureReason),
    ("features", .array (s.features.map FeatureRow.toJson))]

def ofJson? (v : Json) : Option Summary := do
  match ← v.fieldValues? ["version", "threads", "features_passed", "features_failed",
      "features_skipped", "scenarios_passed", "scenarios_failed", "elapsed_ms", "total_time_ms",
      "efficiency", "started_at", "ended_at", "failed", "failure_reason", "features"] with
  | [version, threads, featuresPassed, featuresFailed, featuresSkipped, scenariosPassed,
      scenariosFailed, elapsedMs, totalTimeMs, efficiency, startedAt, endedAt, failed,
      failureReason, features] => do
    some { version := ← Json.required? Json.asText? version
           threads := ← Json.required? Json.asWord? threads
           featuresPassed := ← Json.required? Json.asCount? featuresPassed
           featuresFailed := ← Json.required? Json.asCount? featuresFailed
           featuresSkipped := ← Json.required? Json.asCount? featuresSkipped
           scenariosPassed := ← Json.required? Json.asCount? scenariosPassed
           scenariosFailed := ← Json.required? Json.asCount? scenariosFailed
           elapsedMs := ← Json.required? Json.asCount? elapsedMs
           totalTimeMs := ← Json.required? Json.asWord? totalTimeMs
           efficiency := ← Json.required? Json.asFloat? efficiency
           startedAt := ← Json.required? Json.asInstant? startedAt
           endedAt := ← Json.optional? Json.asInstant? endedAt
           failed := ← Json.required? (Json.asList? FailedFeature.ofJson?) failed
           failureReason := ← Json.optional? Json.asText? failureReason
           features := ← Json.required? (Json.asList? FeatureRow.ofJson?) features }
  | _ => none

end Summary

end FeatureBatch
