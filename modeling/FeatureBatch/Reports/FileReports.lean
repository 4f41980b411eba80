import FeatureBatch.Json.Printer
import FeatureBatch.Records.Timeline
import FeatureBatch.Reports.Html
import FeatureBatch.Reports.Junit

/-!
Reports as files. Each is written into the report directory, which is made if it is missing; a
feature's reports are named by its qualified name.
-/

namespace FeatureBatch

/-- Which reports are wanted. -/
structure OutputFormats where
  /-- A page for each feature, and the summary, the statistics and the timeline of the run. -/
  html : Bool
  /-- JSON for each feature, written when it completes. -/
  cucumberJson : Bool
  /-- JUnit XML for each feature, written when it completes. -/
  junitXml : Bool
  deriving DecidableEq, Repr

namespace OutputFormats

def all : OutputFormats := ⟨true, true, true⟩

def none : OutputFormats := ⟨false, false, false⟩

def toJson (o : OutputFormats) : Json :=
  .record [("html", .bool o.html), ("cucumber_json", .bool o.cucumberJson),
    ("junit_xml", .bool o.junitXml)]

def ofFields? : List (Option Json) → Option OutputFormats
  | [html, cucumberJson, junitXml] => do
    some { html := ← Json.required? Json.asBool? html
           cucumberJson := ← Json.required? Json.asBool? cucumberJson
           junitXml := ← Json.required? Json.asBool? junitXml }
  | _ => Option.none

def ofJson? (v : Json) : Option OutputFormats := do
  ofFields? (← v.fieldValues? ["html", "cucumber_json", "junit_xml"])

end OutputFormats

namespace FileReports

def summaryFile : String := "index.html"

def statsFile : String := "suite-stats.json"

def timelineFile : String := "timeline.json"

/-- The file of a feature's report with an extension. -/
def featureFile (dir : Path) (qualifiedName extension : String) : Path :=
  dir.join (.ofText (qualifiedName ++ "." ++ extension))

/-- Makes the directory that a report goes into. -/
def prepare (fs : FileSystem) (path : Path) : Except ReportError Unit × FileSystem :=
  match path.parent with
  | none => (.ok (), fs)
  | some dir =>
    match fs.makeDirectories dir with
    | (.ok (), fs) => (.ok (), fs)
    | (.error e, fs) => (.error (.io dir e), fs)

/-- Writes a report, into a directory that is made first where it is missing. -/
def writeReport (fs : FileSystem) (path : Path) (content : String) :
    Except ReportError Path × FileSystem :=
  match prepare fs path with
  | (.error e, fs) => (.error e, fs)
  | (.ok (), fs) =>
    match fs.write path (Text.utf8 content.toList) with
    | .ok fs => (.ok path, fs)
    | .error e => (.error (.io path e), fs)

def featureJson (fs : FileSystem) (dir : Path) (r : FeatureRecord) :
    Except ReportError Path × FileSystem :=
  writeReport fs (featureFile dir r.qualifiedName "json") r.toJson.prettyText

def featureXml (fs : FileSystem) (dir : Path) (r : FeatureRecord) :
    Except ReportError Path × FileSystem :=
  writeReport fs (featureFile dir r.qualifiedName "xml") (Junit.document r)

def featureHtml (fs : FileSystem) (dir : Path) (r : FeatureRecord) :
    Except ReportError Path × FileSystem :=
  writeReport fs (featureFile dir r.qualifiedName "html") (Html.featurePage r)

def summary (fs : FileSystem) (dir : Path) (s : Summary) : Except ReportError Path × FileSystem :=
  writeReport fs (dir.join (.ofText summaryFile)) (Html.summaryPage s)

def stats (fs : FileSystem) (dir : Path) (s : Summary) : Except ReportError Path × FileSystem :=
  writeReport fs (dir.join (.ofText statsFile)) s.toJson.prettyText

def timeline (fs : FileSystem) (dir : Path) (entries : List TimelineEntry) :
    Except ReportError Path × FileSystem :=
  writeReport fs (dir.join (.ofText timelineFile)) (timelineJson entries).prettyText

end FileReports

end FeatureBatch
