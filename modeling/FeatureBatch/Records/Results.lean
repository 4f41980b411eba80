import FeatureBatch.Errors
import FeatureBatch.Records.RecordStore

/-!
The results of a run. Records are registered in the order of submission before their features
start; the totals are computed from the registered records in one pass and change nowhere else. A
feature without scenarios counts as skipped and adds nothing else. Times are summed up with a check:
a sum that is no word makes the code that computes the totals give up.
-/

namespace FeatureBatch

/-- A failed feature and what is said of its failed scenarios. -/
structure FailedFeature where
  name : String
  messages : List String
  deriving DecidableEq, Repr

namespace FailedFeature

def toJson (f : FailedFeature) : Json :=
  .record [("name", .text f.name), ("messages", .texts f.messages)]

def ofJson? (v : Json) : Option FailedFeature := do
  match ← v.fieldValues? ["name", "messages"] with
  | [name, messages] => do
    some { name := ← Json.required? Json.asText? name
           messages := ← Json.required? (Json.asList? Json.asText?) messages }
  | _ => none

end FailedFeature

/-- What is summed up over records. -/
structure Totals where
  features : Nat
  scenarios : Nat
  failures : Nat
  skipped : Nat
  timeMs : UInt64
  failed : List FailedFeature
  deriving DecidableEq, Repr

namespace Totals

def zero : Totals := ⟨0, 0, 0, 0, 0, []⟩

/-- What is said where a sum is no word. -/
def overflow : PanicPayload := .text "attempt to add with overflow"

/-- The sum of two times, if it is a word. -/
def addTimes (a b : UInt64) : Except PanicPayload UInt64 :=
  if a.toNat + b.toNat < UInt64.size then .ok (a + b) else .error overflow

def add (t : Totals) (r : FeatureRecord) : Except PanicPayload Totals :=
  if r.isEmpty then .ok { t with skipped := t.skipped + 1 }
  else do
    let timeMs ← addTimes t.timeMs r.durationMs
    .ok { t with
      features := t.features + 1
      scenarios := t.scenarios + r.scenarioCount
      failures := t.failures + r.failedCount
      timeMs
      failed := if r.isFailed then t.failed ++ [⟨r.qualifiedName, r.errorMessages⟩] else t.failed }

def ofRecords (records : List FeatureRecord) : Except PanicPayload Totals := records.foldlM add zero

end Totals

structure Results where
  startedAt : Instant
  endedAt : Option Instant
  threads : UInt64
  /-- The registered records, in the order of submission. -/
  registered : List RecordId
  totals : Totals
  failureReason : Option SuiteError
  deriving DecidableEq, Repr

namespace Results

def start (startedAt : Instant) (threads : UInt64) : Results :=
  { startedAt, endedAt := none, threads, registered := [], totals := .zero, failureReason := none }

def register (r : Results) (id : RecordId) : Results := { r with registered := r.registered ++ [id] }

/-- Computes the totals from what the registered records are now. -/
def finalize (r : Results) (store : RecordStore) : Except PanicPayload Results := do
  let totals ← Totals.ofRecords (store.select r.registered)
  .ok { r with totals }

/-- Records why the run failed, unless a reason is there; says whether it did. -/
def recordFailure (r : Results) (reason : SuiteError) : Bool × Results :=
  match r.failureReason with
  | some _ => (false, r)
  | none => (true, { r with failureReason := some reason })

def finish (r : Results) (endedAt : Instant) : Results := { r with endedAt := some endedAt }

def isFinished (r : Results) : Bool := r.endedAt.isSome

def passedCount (r : Results) : Nat := r.totals.scenarios - r.totals.failures

def isFailed (r : Results) : Bool := 0 < r.totals.failures || r.failureReason.isSome

/-- The nanoseconds from the start to the end stamp; none if there is no end, or it is earlier. -/
def elapsedNanos (r : Results) : Nat :=
  match r.endedAt with
  | none => 0
  | some t => (t.since r.startedAt).toNat

def elapsedMillis (r : Results) : Nat := r.elapsedNanos / 1000000

/-- The elapsed time in seconds: whole seconds and the rest are rounded apart and then added. -/
def elapsedSeconds (r : Results) : Binary64 :=
  let whole := (Binary64.ofNat? (r.elapsedNanos / Instant.billion)).getD .zero
  let part := (Binary64.ofRatio false (r.elapsedNanos % Instant.billion) Instant.billion).getD .zero
  (whole.addAbs part).getD .zero

/-- The share of the time of all threads that was spent inside features. -/
def efficiency (r : Results) : Binary64 :=
  let elapsed := (Binary64.ofNat? r.elapsedMillis).getD .zero
  let wall := (elapsed.mul (Binary64.ofWord (max r.threads 1))).getD .zero
  if wall.isZero then .zero else ((Binary64.ofWord r.totals.timeMs).div wall).getD .zero

/-- The registered records that have a scenario. -/
def executed (r : Results) (store : RecordStore) : List FeatureRecord :=
  (store.select r.registered).filter fun record => !record.isEmpty

/-- Every message of a failed feature behind its name, and the failure reason last. -/
def errorLines (r : Results) : List String :=
  (r.totals.failed.flatMap fun f => f.messages.map fun m => s!"{f.name}: {m}") ++
    r.failureReason.toList.map SuiteError.message

def errorMessages (r : Results) : String := "\n".intercalate r.errorLines

def rule : String := String.ofList (List.replicate 40 '━')

/-- A text with blanks before it up to a width. -/
def column (w : Nat) (cs : List Char) : String := String.ofList (Decimal.padLeft w ' ' cs)

def countColumn (w n : Nat) : String := column w (Decimal.digits n)

/-- The block of statistics, a line break after every line. -/
def display (r : Results) : String :=
  let t := r.totals
  let elapsed := column 8 (r.elapsedSeconds.fixed 2)
  let threadTime := String.ofList ((secondsOfMillis t.timeMs).fixed 2)
  let efficiency := String.ofList (r.efficiency.fixed 2)
  let lines := [
    rule,
    s!"elapsed: {elapsed}s | threads: {countColumn 4 r.threads.toNat} | thread time: {threadTime}s",
    s!"features: {countColumn 5 t.features} | skipped: {countColumn 4 t.skipped} | efficiency: {efficiency}",
    s!"scenarios: {countColumn 4 t.scenarios} | passed: {countColumn 5 r.passedCount} | failed: {t.failures}",
    rule]
  let failed := t.failed.flatMap fun f => ("✗ " ++ f.name) :: f.messages.map fun m => "    " ++ m
  let reason := r.failureReason.toList.map fun e => "! suite failed: " ++ e.message
  String.join ((lines ++ failed ++ reason).map fun line => line ++ "\n")

/-- The events that report the statistics, one for each line. -/
def statsLog (r : Results) : Log :=
  (Text.lines r.display.toList).map fun line => ⟨.info, String.ofList line⟩

end Results

end FeatureBatch
