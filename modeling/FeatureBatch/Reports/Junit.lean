import FeatureBatch.Records.FeatureRecord
import FeatureBatch.Reports.Markup

/-!
The record of a feature as a JUnit document: one suite, and in it a case for each scenario. A case
has a failure where the scenario failed and has an error.
-/

namespace FeatureBatch.Junit

/-- A time in seconds with three places. -/
def seconds (ms : UInt64) : String := String.ofList ((secondsOfMillis ms).fixed 3)

def caseAttributes (r : FeatureRecord) (s : Scenario) : List Attribute :=
  [⟨"classname", r.qualifiedName⟩, ⟨"name", s.name⟩, ⟨"time", seconds s.durationMs⟩]

/-- The error of a scenario that failed. -/
def failure? (s : Scenario) : Option String := if s.failed then s.error else none

def caseTokens (r : FeatureRecord) (s : Scenario) : List MarkupToken :=
  let attributes := caseAttributes r s
  match failure? s with
  | none => [.text "  ", .empty "testcase" attributes, .text "\n"]
  | some error => [
      .text "  ", .opening "testcase" attributes, .text "\n    ",
      .empty "failure" [⟨"message", error⟩], .text "\n  ",
      .closing "testcase", .text "\n"]

def suiteAttributes (r : FeatureRecord) : List Attribute :=
  [⟨"name", r.qualifiedName⟩, ⟨"tests", toString r.scenarioCount⟩,
    ⟨"failures", toString r.failedCount⟩, ⟨"skipped", "0"⟩, ⟨"time", seconds r.durationMs⟩]

def tokens (r : FeatureRecord) : List MarkupToken :=
  [.declaration "?xml version=\"1.0\" encoding=\"UTF-8\"?", .text "\n",
    .opening "testsuite" (suiteAttributes r), .text "\n"] ++
  r.scenarios.flatMap (caseTokens r) ++
  [.closing "testsuite", .text "\n"]

def document (r : FeatureRecord) : String := String.ofList (Markup.render (tokens r))

end FeatureBatch.Junit
