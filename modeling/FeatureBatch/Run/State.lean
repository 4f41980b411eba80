import FeatureBatch.Config.RunConfig
import FeatureBatch.Exec.Barrier
import FeatureBatch.Exec.Lane
import FeatureBatch.Exec.Limiter
import FeatureBatch.Run.Hook
import FeatureBatch.Run.Runtime

/-!
The state of a run. The caller of the run makes the runtimes and submits them, waits for the
features, has the suite's reports written, calls the hooks and takes everything down. With one
thread a feature runs where it is submitted; with more, a lane starts the features and they run side
by side. A feature has the same number as its record's registration and as its signal.
-/

namespace FeatureBatch

/-- A batch that is to be run. -/
structure Suite (σ : Type) where
  config : RunConfig Hook
  runtimes : RuntimeFactory
  emitter : Emitter σ
  /-- When the run begins. -/
  startedAt : Instant
  /-- When its end is stamped. -/
  endedAt : Instant

/-- What has become of a feature's completion. -/
inductive CompletionState where
  | armed
  /-- It was invoked; a report call for the record as it was then has begun, others are to follow. -/
  | reporting (snapshot : FeatureRecord) (call : ReportCall) (rest : List ReportCall)
  /-- It was invoked and has signalled. -/
  | used
  | dropped

inductive FeaturePhase where
  /-- The lane has it. -/
  | queued
  | running
  | ended
  /-- It was let go unstarted. -/
  | discarded
  deriving DecidableEq, Repr

/-- A feature whose runtime was made and registered. -/
structure FeatureRun where
  feature : Feature
  record : RecordId
  startPanics : Option PanicPayload
  /-- The acts still to come. -/
  acts : List Act
  completion : CompletionState
  phase : FeaturePhase
  /-- The permits that it has. -/
  permits : List Nat
  /-- The number under which it waits for a permit. -/
  waiter : Option Nat

/-- A report about the whole suite. -/
inductive SuiteReport where
  /-- The page of a feature, with the record as it was after the last feature finished. -/
  | page (record : FeatureRecord)
  | summary
  | stats
  | timeline

/-- How far the caller is. -/
inductive CallerStage where
  | dispatching
  /-- In the submission of a feature that runs there. -/
  | executing (feature : Nat)
  /-- Waits for all signals. Dispatching has ended, with an error if it stopped early. -/
  | awaiting (error : Option SuiteError)
  /-- Has reports written; `page` is where the summary went. -/
  | reporting (rest : List SuiteReport) (page : Option Path)
  | hooks (rest : List Hook)
  | failing (error : SuiteError)
  | closing
  /-- Takes everything down, on request of the run or of the guard that watches over its scope. -/
  | tearingDown (guard : Bool)
  | done
  /-- The run gives up: it returns nothing, and the guard takes everything down. -/
  | unwinding (payload : PanicPayload)
  | panicked (payload : PanicPayload)

/-- There is nothing left to do. -/
def CallerStage.isOver : CallerStage → Bool
  | .done => true
  | .panicked _ => true
  | _ => false

/-- What has happened that others can see. -/
inductive RunEvent where
  | started (feature : Nat)
  | obtained (feature : Nat) (value : Json)
  /-- A completion was invoked, with the record as it was then. -/
  | invoked (feature : Nat) (snapshot : FeatureRecord)
  | callBegan (feature : Nat) (call : ReportCall)
  | callEnded (feature : Nat) (call : ReportCall) (outcome : CallOutcome)
  | signalled (feature : Nat)
  | abandoned (feature : Nat)
  | released (arrivals : Arrivals)
  | suiteCall (call : ReportCall) (outcome : CallOutcome) (seen : Results)
  | hookCall (name : String) (view : HookView) (outcome : HookOutcome)
  | laneStopped
  | poolStopped
  | limiterClosed

structure RunState (σ : Type) where
  /-- The features whose runtimes are to be made, each with what the making comes to. -/
  pending : List (Feature × Creation)
  stage : CallerStage
  features : List FeatureRun
  records : RecordStore
  results : Results
  barrier : CompletionBarrier
  /-- The lane of features by number, if features run side by side. -/
  lane : Option (Lane Nat)
  poolStopped : Bool
  limiter : AdmissionLimiter
  cache : SuiteCache Json
  files : σ
  /-- What was reported on the caller's thread. -/
  log : Log
  trace : List RunEvent

namespace RunState

variable {σ : Type}

def isParallel (s : RunState σ) : Bool := s.lane.isSome

/-- The run has returned its results. -/
def isDone (s : RunState σ) : Bool :=
  match s.stage with
  | .done => true
  | _ => false

/-- The run has returned its results, or it has given up. -/
def isOver (s : RunState σ) : Bool := s.stage.isOver

/-- The results with the records as they are now. -/
def book (s : RunState σ) : ResultsBook := ⟨s.results, s.records⟩

/-- The report calls of completions that have begun, in order. -/
def featureCalls (s : RunState σ) : List ReportCall :=
  s.trace.filterMap fun
    | .callBegan _ call => some call
    | _ => none

/-- The report calls about the suite, in order. -/
def suiteCalls (s : RunState σ) : List ReportCall :=
  s.trace.filterMap fun
    | .suiteCall call _ _ => some call
    | _ => none

/-- The hooks that were called, in order, each with what it saw. -/
def hookCalls (s : RunState σ) : List (String × HookView) :=
  s.trace.filterMap fun
    | .hookCall name view _ => some (name, view)
    | _ => none

/-- The values that features got from the cache, in order. -/
def obtained (s : RunState σ) : List (Nat × Json) :=
  s.trace.filterMap fun
    | .obtained i value => some (i, value)
    | _ => none

def note (s : RunState σ) (event : RunEvent) : RunState σ := { s with trace := s.trace ++ [event] }

def report (s : RunState σ) (level : LogLevel) (message : String) : RunState σ :=
  { s with log := s.log ++ [⟨level, message⟩] }

/-- Reports what happens in a feature, which the caller's thread sees if the feature runs there. -/
def reportInside (s : RunState σ) (events : Log) : RunState σ :=
  if s.isParallel then s else { s with log := s.log ++ events }

def updateFeature (s : RunState σ) (i : Nat) (f : FeatureRun → FeatureRun) : RunState σ :=
  { s with features := s.features.modify i f }

/-- A feature's completion is dropped, if it is still there to be dropped. -/
def dropCompletion (s : RunState σ) (i : Nat) : RunState σ :=
  match (s.features[i]?).map FeatureRun.completion with
  | some .armed =>
    ({ s with barrier := s.barrier.drop i }.updateFeature i
      ({ · with completion := .dropped })).note (.abandoned i)
  | _ => s

/-- A feature is let go unstarted. -/
def discard (s : RunState σ) (i : Nat) : RunState σ :=
  (s.updateFeature i ({ · with phase := .discarded })).dropCompletion i

/-- A feature begins to run. -/
def begin (s : RunState σ) (i : Nat) : RunState σ :=
  (s.updateFeature i ({ · with phase := .running })).note (.started i)

/-- A feature runs no more: its permits go back, and it waits for none. -/
def finishFeature (s : RunState σ) (i : Nat) : RunState σ :=
  match s.features[i]? with
  | none => s
  | some f =>
    let limiter := match f.waiter with
      | some w => s.limiter.cancel w
      | none => s.limiter
    ({ s with limiter := limiter.releaseAll f.permits }.updateFeature i
      ({ · with phase := .ended, acts := [], permits := [], waiter := none })).dropCompletion i

end RunState

end FeatureBatch
