import FeatureBatch.Json.Decode

/-!
The outcome of one scenario.
-/

namespace FeatureBatch

structure Scenario where
  name : String
  line : UInt64
  failed : Bool
  error : Option String
  startedAt : Instant
  durationMs : UInt64
  thread : Option String
  deriving DecidableEq, Repr

namespace Scenario

def pass (name : String) (line durationMs : UInt64) (startedAt : Instant) : Scenario :=
  { name, line, failed := false, error := none, startedAt, durationMs, thread := none }

def fail (name : String) (line durationMs : UInt64) (error : String) (startedAt : Instant) : Scenario :=
  { name, line, failed := true, error := some error, startedAt, durationMs, thread := none }

def onThread (s : Scenario) (thread : String) : Scenario := { s with thread := some thread }

def symbol (s : Scenario) : String := if s.failed then "✗" else "✓"

/-- The scenario on one line, with its error after a dash. -/
def display (s : Scenario) : String :=
  let line := s.line.toNat
  let ms := s.durationMs.toNat
  let tail := match s.error with
    | none => ""
    | some e => " - " ++ e
  s!"{s.symbol} [line {line}] {s.name} [{ms}ms]" ++ tail

/-- What is said of a failed scenario: its error, or that it failed. -/
def failureMessage (s : Scenario) : String := s.error.getD (s.name ++ " failed")

def toJson (s : Scenario) : Json :=
  .record [
    ("name", .text s.name),
    ("line", .word s.line),
    ("failed", .bool s.failed),
    ("error", Json.orNull Json.text s.error),
    ("started_at", .instant s.startedAt),
    ("duration_ms", .word s.durationMs),
    ("thread", Json.orNull Json.text s.thread)]

def ofJson? (v : Json) : Option Scenario := do
  match ← v.fieldValues? ["name", "line", "failed", "error", "started_at", "duration_ms", "thread"] with
  | [name, line, failed, error, startedAt, durationMs, thread] => do
    some { name := ← Json.required? Json.asText? name
           line := ← Json.required? Json.asWord? line
           failed := ← Json.required? Json.asBool? failed
           error := ← Json.optional? Json.asText? error
           startedAt := ← Json.required? Json.asInstant? startedAt
           durationMs := ← Json.required? Json.asWord? durationMs
           thread := ← Json.optional? Json.asText? thread }
  | _ => none

end Scenario

end FeatureBatch
