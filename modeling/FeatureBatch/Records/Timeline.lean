import FeatureBatch.Records.Results

/-!
The timeline of a run: when each scenario began and ended, in the order of the beginnings.
-/

namespace FeatureBatch

structure TimelineEntry where
  feature : String
  scenario : String
  thread : Option String
  startedAt : Instant
  endedAt : Instant
  failed : Bool
  deriving DecidableEq, Repr

namespace TimelineEntry

/-- The entry of a scenario. Its end is the start and the duration, read as a signed word. -/
def ofScenario (feature : String) (s : Scenario) : Except Instant.AddError TimelineEntry := do
  let endedAt ← s.startedAt.addMillis s.durationMs.toInt64
  .ok { feature, scenario := s.name, thread := s.thread, startedAt := s.startedAt, endedAt
        failed := s.failed }

def toJson (e : TimelineEntry) : Json :=
  .record [
    ("feature", .text e.feature),
    ("scenario", .text e.scenario),
    ("thread", Json.orNull Json.text e.thread),
    ("started_at", .instant e.startedAt),
    ("ended_at", .instant e.endedAt),
    ("failed", .bool e.failed)]

def ofJson? (v : Json) : Option TimelineEntry := do
  match ← v.fieldValues? ["feature", "scenario", "thread", "started_at", "ended_at", "failed"] with
  | [feature, scenario, thread, startedAt, endedAt, failed] => do
    some { feature := ← Json.required? Json.asText? feature
           scenario := ← Json.required? Json.asText? scenario
           thread := ← Json.optional? Json.asText? thread
           startedAt := ← Json.required? Json.asInstant? startedAt
           endedAt := ← Json.required? Json.asInstant? endedAt
           failed := ← Json.required? Json.asBool? failed }
  | _ => none

end TimelineEntry

/-- The entries of the features in their order, and of each feature in the order of its scenarios. -/
def timelineEntries (records : List FeatureRecord) : Except Instant.AddError (List TimelineEntry) := do
  let rows ← records.mapM fun r => r.scenarios.mapM (TimelineEntry.ofScenario r.qualifiedName)
  .ok rows.flatten

/-- The timeline of the features that ran. Entries that begin at the same time keep their order. -/
def Results.timeline (r : Results) (store : RecordStore) : Except Instant.AddError (List TimelineEntry) := do
  let entries ← timelineEntries (r.executed store)
  .ok (entries.mergeSort fun a b => !b.startedAt.before a.startedAt)

def timelineJson (entries : List TimelineEntry) : Json := .array (entries.map TimelineEntry.toJson)

end FeatureBatch
