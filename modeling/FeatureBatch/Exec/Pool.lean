/-!
A pool of workers. With more than one worker, tasks run on the workers as soon as they are spawned;
with one, they are queued until the pool's caller waits for something that is not there yet, and
then run on the caller's own thread. A pool that is shut down runs no task any more.
-/

namespace FeatureBatch

inductive TaskOutcome (α : Type) where
  | value (v : α)
  | panicked
  /-- The pool was shut down before the task ran. -/
  | cancelled
  deriving DecidableEq, Repr

/-- What a task does, given the name of the thread it runs on: its value, or none if it gives up. -/
abbrev PoolTask (α : Type) := String → Option α

def PoolTask.runOn {α : Type} (task : PoolTask α) (thread : String) : TaskOutcome α :=
  match task thread with
  | some v => .value v
  | none => .panicked

inductive TaskState (α : Type) where
  | queued (task : PoolTask α)
  | ended (outcome : TaskOutcome α)
  /-- Its outcome has been taken. -/
  | joined

structure ExecutionPool (α : Type) where
  workers : Nat
  stopped : Bool
  /-- The tasks, in the order of spawning. -/
  tasks : List (TaskState α)

namespace ExecutionPool

variable {α : Type}

/-- A pool of so many workers, or of one if there would be none. -/
def create (workers : Nat) : ExecutionPool α := ⟨max workers 1, false, []⟩

def isParallel (p : ExecutionPool α) : Bool := 1 < p.workers

/-- The name of the pool's own threads. -/
def workerName : String := "feature-suite-worker"

/-- Spawns a task, which has the next number. -/
def spawn (p : ExecutionPool α) (task : PoolTask α) : Nat × ExecutionPool α :=
  let state : TaskState α :=
    if p.stopped then .ended .cancelled
    else if p.isParallel then .ended (task.runOn workerName)
    else .queued task
  (p.tasks.length, { p with tasks := p.tasks ++ [state] })

/-- How many queued tasks run before the caller looks again at what it waits for. -/
def batch : Nat := 61

/-- Runs the first queued tasks on a thread, up to a number of them. -/
def runQueued (thread : String) : Nat → List (TaskState α) → List (TaskState α)
  | 0, tasks => tasks
  | _, [] => []
  | n + 1, .queued task :: tasks => .ended (task.runOn thread) :: runQueued thread n tasks
  | n + 1, state :: tasks => state :: runQueued thread (n + 1) tasks

/-- Runs queued tasks, batch by batch, until a task has ended. -/
def runUntil (thread : String) (target : Nat) : Nat → List (TaskState α) → List (TaskState α)
  | 0, tasks => tasks
  | fuel + 1, tasks =>
    match tasks[target]? with
    | some (.queued _) => runUntil thread target fuel (runQueued thread batch tasks)
    | _ => tasks

/-- Waits on a thread for a task's outcome and takes it. None if there is no such task, or its
outcome was taken before. -/
def join? (p : ExecutionPool α) (thread : String) (target : Nat) :
    Option (TaskOutcome α × ExecutionPool α) :=
  let tasks := runUntil thread target p.tasks.length p.tasks
  match tasks[target]? with
  | some (.ended outcome) => some (outcome, { p with tasks := tasks.set target .joined })
  | _ => none

/-- Runs something on the calling thread that never has to wait. A stopped pool does that too. -/
def blockOn (_ : ExecutionPool α) (thread : String) (task : PoolTask α) : TaskOutcome α :=
  task.runOn thread

def cancelQueued : TaskState α → TaskState α
  | .queued _ => .ended .cancelled
  | state => state

/-- Stops the pool. Tasks that have not run are cancelled. -/
def shutdown (p : ExecutionPool α) : ExecutionPool α :=
  { p with stopped := true, tasks := p.tasks.map cancelQueued }

end ExecutionPool

end FeatureBatch
