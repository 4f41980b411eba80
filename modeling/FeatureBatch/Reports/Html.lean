import FeatureBatch.Records.Summary
import FeatureBatch.Reports.Markup

/-!
Pages for people: one for each feature that ran, with a row for each scenario, and one for the whole
run, with a row for each feature that ran and a link to its page.
-/

namespace FeatureBatch.Html

def style : String :=
  "body \x7b font-family: sans-serif; margin: 40px; \x7d " ++
  "table \x7b border-collapse: collapse; width: 100%; \x7d " ++
  "th, td \x7b padding: 8px; text-align: left; border-bottom: 1px solid #ddd; \x7d " ++
  ".pass \x7b color: #28a745; font-weight: bold; \x7d " ++
  ".fail \x7b color: #dc3545; font-weight: bold; \x7d"

/-- An element that holds text alone. -/
def element (name : String) (attributes : List Attribute) (text : String) : List MarkupToken :=
  [.opening name attributes, .text text, .closing name]

def page (title : String) (body : List MarkupToken) : List MarkupToken :=
  [.declaration "!DOCTYPE html", .text "\n", .opening "html" [], .opening "head" [],
    .opening "meta" [⟨"charset", "UTF-8"⟩]] ++
  element "title" [] title ++ element "style" [] style ++
  [.closing "head", .opening "body" [], .text "\n"] ++ body ++
  [.closing "body", .closing "html", .text "\n"]

/-- A heading, a paragraph and a table with a line of captions. -/
def report (heading summary : String) (captions : List String) (rows : List (List MarkupToken)) :
    List MarkupToken :=
  element "h1" [] heading ++ [.text "\n"] ++ element "p" [] summary ++ [.text "\n"] ++
  [.opening "table" [], .opening "tr" []] ++ captions.flatMap (element "th" []) ++
  [.closing "tr", .text "\n"] ++
  rows.flatMap (fun cells => .opening "tr" [] :: cells ++ [.closing "tr", .text "\n"]) ++
  [.closing "table"]

def cell (text : String) : List MarkupToken := element "td" [] text

/-- A cell that is shown as passed or as failed. -/
def outcomeCell (failed : Bool) (text : String) : List MarkupToken :=
  element "td" [⟨"class", if failed then "fail" else "pass"⟩] text

def millis (ms : UInt64) : String :=
  let n := ms.toNat
  s!"{n}ms"

def scenarioRow (s : Scenario) : List MarkupToken :=
  cell (toString s.line.toNat) ++ cell s.name ++
  outcomeCell s.failed (if s.failed then "FAIL" else "PASS") ++
  cell (millis s.durationMs) ++ cell (s.error.getD "")

def featureTokens (r : FeatureRecord) : List MarkupToken :=
  page r.qualifiedName <|
    report r.path
      (s!"Scenarios: {r.scenarioCount} | Passed: {r.passedCount} | Failed: {r.failedCount} | " ++
        "Duration: " ++ millis r.durationMs)
      ["Line", "Scenario", "Status", "Duration", "Error"]
      (r.scenarios.map scenarioRow)

def featureRow (r : FeatureRow) : List MarkupToken :=
  [.opening "td" []] ++ element "a" [⟨"href", r.name ++ ".html"⟩] r.name ++ [.closing "td"] ++
  cell (toString r.scenarios) ++ outcomeCell false (toString r.passed) ++
  outcomeCell (0 < r.failed) (toString r.failed) ++ cell (millis r.durationMs)

def summaryTokens (s : Summary) : List MarkupToken :=
  let threads := s.threads.toNat
  page "Suite Summary" <|
    report "Suite Summary"
      (s!"Features: {s.featuresPassed} passed, {s.featuresFailed} failed, {s.featuresSkipped} skipped | " ++
        s!"Scenarios: {s.scenariosPassed} passed, {s.scenariosFailed} failed | " ++
        s!"Elapsed: {s.elapsedMs}ms | Threads: {threads}")
      ["Feature", "Scenarios", "Passed", "Failed", "Duration"]
      (s.features.map featureRow)

def featurePage (r : FeatureRecord) : String := String.ofList (Markup.render (featureTokens r))

def summaryPage (s : Summary) : String := String.ofList (Markup.render (summaryTokens s))

end FeatureBatch.Html
