import FeatureBatch.Feature
import FeatureBatch.Log
import FeatureBatch.Records.Scenario

/-!
The record of one feature: made before the feature starts, filled scenario by scenario. Its start
is that of its earliest scenario, and every count is derived from the list of scenarios.
-/

namespace FeatureBatch

structure FeatureRecord where
  name : String
  qualifiedName : String
  path : String
  scenarios : List Scenario
  startedAt : Option Instant
  durationMs : UInt64
  deriving DecidableEq, Repr

/-- A count of milliseconds in seconds. -/
def secondsOfMillis (ms : UInt64) : Binary64 :=
  ((Binary64.ofWord ms).div (Binary64.ofWord 1000)).getD .zero

namespace FeatureRecord

/-- The record of a feature that has not begun. -/
def ofFeature (f : Feature) : FeatureRecord where
  name := f.name
  qualifiedName := f.qualifiedName
  path := f.path.display
  scenarios := []
  startedAt := none
  durationMs := 0

def addScenario (r : FeatureRecord) (s : Scenario) : FeatureRecord :=
  { r with
    scenarios := r.scenarios ++ [s]
    startedAt := match r.startedAt with
      | none => some s.startedAt
      | some t => some (t.earlier s.startedAt) }

def setDuration (r : FeatureRecord) (ms : UInt64) : FeatureRecord := { r with durationMs := ms }

def addScenarios (r : FeatureRecord) (ss : List Scenario) : FeatureRecord := ss.foldl addScenario r

def scenarioCount (r : FeatureRecord) : Nat := r.scenarios.length

def failedCount (r : FeatureRecord) : Nat := r.scenarios.countP (·.failed)

def passedCount (r : FeatureRecord) : Nat := r.scenarioCount - r.failedCount

def isFailed (r : FeatureRecord) : Bool := 0 < r.failedCount

/-- No scenario has run: the feature was skipped. -/
def isEmpty (r : FeatureRecord) : Bool := r.scenarios.isEmpty

/-- What is said of the failed scenarios, in their order. -/
def errorMessages (r : FeatureRecord) : List String :=
  (r.scenarios.filter (·.failed)).map Scenario.failureMessage

/-- The record over several lines. -/
def display (r : FeatureRecord) : String :=
  let scenarios := String.join (r.scenarios.map fun s => "  " ++ s.display ++ "\n")
  let ms := r.durationMs.toNat
  s!"Feature: {r.name} ({r.path})\n" ++ scenarios ++
    s!"Scenarios: {r.scenarioCount} | Pass: {r.passedCount} | Fail: {r.failedCount} | Duration: {ms}ms"

/-- The event that reports the record's counts. -/
def statsEvent (r : FeatureRecord) : LogEvent :=
  let time := String.ofList ((secondsOfMillis r.durationMs).fixed 4)
  ⟨.info, s!"feature: {r.path} scenarios: {r.scenarioCount} | passed: {r.passedCount} | " ++
    s!"failed: {r.failedCount} | time: {time}s"⟩

def toJson (r : FeatureRecord) : Json :=
  .record [
    ("name", .text r.name),
    ("qualified_name", .text r.qualifiedName),
    ("path", .text r.path),
    ("scenarios", .array (r.scenarios.map Scenario.toJson)),
    ("started_at", Json.orNull Json.instant r.startedAt),
    ("duration_ms", .word r.durationMs)]

def ofJson? (v : Json) : Option FeatureRecord := do
  match ← v.fieldValues? ["name", "qualified_name", "path", "scenarios", "started_at", "duration_ms"] with
  | [name, qualifiedName, path, scenarios, startedAt, durationMs] => do
    some { name := ← Json.required? Json.asText? name
           qualifiedName := ← Json.required? Json.asText? qualifiedName
           path := ← Json.required? Json.asText? path
           scenarios := ← Json.required? (Json.asList? Scenario.ofJson?) scenarios
           startedAt := ← Json.optional? Json.asInstant? startedAt
           durationMs := ← Json.required? Json.asWord? durationMs }
  | _ => none

end FeatureRecord

end FeatureBatch
