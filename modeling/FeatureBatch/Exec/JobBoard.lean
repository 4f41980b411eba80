import FeatureBatch.Errors
import FeatureBatch.Exec.Lane
import FeatureBatch.Log

/-!
Jobs that are handed to a dispatcher: each adds scenarios to its count and then ends or gives up.
Without a lane, a job runs to its end where it is submitted. With one, jobs are started in the order
of submission and run side by side; a job with a gate adds nothing before its gate is opened.
-/

namespace FeatureBatch

structure Job where
  /-- The name of the job's feature. -/
  feature : String
  scenarios : Nat
  /-- The job gives up instead of ending. -/
  panics : Bool
  /-- The job waits for its gate, where jobs run side by side. -/
  gated : Bool
  deriving DecidableEq, Repr

structure JobState where
  job : Job
  /-- The gate is still shut. -/
  gateShut : Bool
  started : Bool
  /-- Whether the job has ended in good order, once it has ended. -/
  outcome : Option Bool
  /-- The scenarios that it has added. -/
  count : Nat
  deriving DecidableEq, Repr

namespace JobState

/-- Lets a started job run up to its gate or to its end. -/
def advance (s : JobState) : JobState :=
  if s.started && !s.gateShut && s.outcome.isNone then
    { s with outcome := some (!s.job.panics), count := s.job.scenarios }
  else s

end JobState

/-- Jobs by number, with the lane that starts them if there is one. -/
structure JobBoard where
  lane : Option (Lane Nat)
  jobs : List JobState
  deriving DecidableEq, Repr

namespace JobBoard

/-- With more than one worker there is a lane. -/
def create (workers : Nat) : JobBoard := ⟨if 1 < workers then some .fresh else none, []⟩

def isParallel (b : JobBoard) : Bool := b.lane.isSome

def isShutDown (b : JobBoard) : Bool := (b.lane.map Lane.isStopped).getD false

/-- Starting one of these jobs never brings the lane down. -/
def neverCrashes (_ : Nat) : Bool := false

/-- Lets the lane start what it can, and the started jobs run. -/
def settle (b : JobBoard) : JobBoard :=
  match b.lane with
  | none => b
  | some lane =>
    let lane := lane.settle neverCrashes
    { lane := some lane
      jobs := b.jobs.zipIdx.map fun (s, i) => { s with started := lane.started.contains i }.advance }

/-- Submits a job, which has the next number; a lane that is stopped refuses it. -/
def submit (b : JobBoard) (job : Job) : Except SuiteError (Nat × Log) × JobBoard :=
  let number := b.jobs.length
  match b.lane with
  | none =>
    let state : JobState := ⟨job, false, true, some (!job.panics), job.scenarios⟩
    let log : Log :=
      if job.panics then [⟨.warn, s!"feature {job.feature} panicked before completing"⟩] else []
    (.ok (number, log), { b with jobs := b.jobs ++ [state] })
  | some lane =>
    let (accepted, lane) := lane.submit number
    if accepted then
      let state : JobState := ⟨job, job.gated, false, none, 0⟩
      (.ok (number, []), settle ⟨some lane, b.jobs ++ [state]⟩)
    else (.error (.dispatcherStopped job.feature), ⟨some lane, b.jobs⟩)

/-- Opens a job's gate; says whether there was one to open. -/
def openGate (b : JobBoard) (number : Nat) : Bool × JobBoard :=
  let shut := (b.jobs[number]?.map (·.gateShut)).getD false
  (shut, settle { b with jobs := b.jobs.modify number fun s => { s with gateShut := false } })

/-- Stops the lane. Jobs that it has not started are let go; without a lane nothing changes. -/
def shutdown (b : JobBoard) : JobBoard :=
  { b with lane := b.lane.map (Lane.shutdown neverCrashes) }

def outcome? (b : JobBoard) (number : Nat) : Option Bool := b.jobs[number]?.bind (·.outcome)

def count? (b : JobBoard) (number : Nat) : Option Nat := b.jobs[number]?.map (·.count)

end JobBoard

end FeatureBatch
