/-!
The lane: a queue of jobs with one thread that takes them out, in order, and starts each. The owner
puts jobs in; to stop the lane it raises a flag, closes the queue and waits for the thread to end.
The thread looks at the flag after taking a job, so a job that was taken before the flag went up can
still be left unstarted. Owner and thread each proceed step by step, in any order.
-/

namespace FeatureBatch

inductive LaneStatus where
  | serving
  /-- The thread has ended in good order. -/
  | finished
  /-- The thread died in starting a job. -/
  | died
  deriving DecidableEq, Repr

/-- How far the owner is with stopping. -/
inductive LaneOwner where
  | serving
  | flagged
  | closed
  | joined
  deriving DecidableEq, Repr

/-- A lane and all jobs that were ever given to it. -/
structure Lane (ρ : Type) where
  owner : LaneOwner
  status : LaneStatus
  /-- The jobs in the queue, the oldest first. -/
  queue : List ρ
  /-- The job that the thread has taken out and not yet acted on. -/
  inHand : Option ρ
  /-- The jobs that were started, in the order of starting. -/
  started : List ρ
  /-- The jobs whose start brought the thread down. -/
  crashed : List ρ
  /-- Accepted jobs that were let go unstarted. -/
  dropped : List ρ
  /-- Jobs that were not accepted. -/
  rejected : List ρ
  deriving DecidableEq, Repr

/-- What one step of the thread does. -/
inductive LaneMove (ρ : Type) where
  | take (job : ρ)
  | start (job : ρ)
  /-- Starting the job brings the thread down, and the queue with it. -/
  | crash (job : ρ) (unstarted : List ρ)
  /-- The thread ends and lets these jobs go. -/
  | leave (unstarted : List ρ)
  deriving DecidableEq, Repr

namespace Lane

variable {ρ : Type}

def fresh : Lane ρ :=
  { owner := .serving, status := .serving, queue := [], inHand := none, started := [], crashed := []
    dropped := [], rejected := [] }

def flagRaised (l : Lane ρ) : Bool := l.owner ≠ .serving

def queueClosed (l : Lane ρ) : Bool := l.owner = .closed || l.owner = .joined

/-- The lane takes jobs: nobody is stopping it, and the thread is there to receive them. -/
def accepts (l : Lane ρ) : Bool := l.owner = .serving && l.status = .serving

/-- Gives a job to the lane; says whether it was accepted. -/
def submit (l : Lane ρ) (job : ρ) : Bool × Lane ρ :=
  if l.accepts then (true, { l with queue := l.queue ++ [job] })
  else (false, { l with rejected := l.rejected ++ [job] })

/-- The accepted jobs that are neither started nor let go. -/
def queued (l : Lane ρ) : List ρ := l.inHand.toList ++ l.queue

/-- What the thread does next; `crashes` tells the jobs whose start brings it down. None if it waits
for a job or has ended. -/
def move? (crashes : ρ → Bool) (l : Lane ρ) : Option (LaneMove ρ) :=
  match l.status, l.inHand, l.queue with
  | .serving, some job, queue =>
    if l.flagRaised then some (.leave (job :: queue))
    else if crashes job then some (.crash job queue)
    else some (.start job)
  | .serving, none, job :: _ => some (.take job)
  | .serving, none, [] => if l.queueClosed then some (.leave []) else none
  | _, _, _ => none

/-- The lane after a move of the thread. -/
def after (l : Lane ρ) : LaneMove ρ → Lane ρ
  | .take job => { l with queue := l.queue.tail, inHand := some job }
  | .start job => { l with inHand := none, started := l.started ++ [job] }
  | .crash job unstarted =>
    { l with status := .died, queue := [], inHand := none, crashed := l.crashed ++ [job]
             dropped := l.dropped ++ unstarted }
  | .leave unstarted =>
    { l with status := .finished, queue := [], inHand := none, dropped := l.dropped ++ unstarted }

def threadStep? (crashes : ρ → Bool) (l : Lane ρ) : Option (Lane ρ) := (l.move? crashes).map l.after

/-- The owner's next step in stopping the lane: the flag, the queue, and the wait for the thread,
which is over once the thread has ended. None while it waits, and when all is done. -/
def stopStep? (l : Lane ρ) : Option (Lane ρ) :=
  match l.owner with
  | .serving => some { l with owner := .flagged }
  | .flagged => some { l with owner := .closed }
  | .closed => if l.status = .serving then none else some { l with owner := .joined }
  | .joined => none

def isStopped (l : Lane ρ) : Bool := l.owner = .joined

/-- What can happen to a lane. -/
inductive Event (ρ : Type) where
  | submit (job : ρ)
  | stop
  | thread
  deriving DecidableEq, Repr

/-- The lane after an event; what cannot happen changes nothing. -/
def step (crashes : ρ → Bool) (l : Lane ρ) : Event ρ → Lane ρ
  | .submit job => (l.submit job).2
  | .stop => l.stopStep?.getD l
  | .thread => (l.threadStep? crashes).getD l

def run (crashes : ρ → Bool) (l : Lane ρ) (events : List (Event ρ)) : Lane ρ :=
  events.foldl (step crashes) l

@[simp] theorem run_nil (crashes : ρ → Bool) (l : Lane ρ) : l.run crashes [] = l := rfl

@[simp] theorem run_cons (crashes : ρ → Bool) (l : Lane ρ) (e : Event ρ) (es : List (Event ρ)) :
    l.run crashes (e :: es) = (l.step crashes e).run crashes es := rfl

/-- Lets the thread go on until it waits or has ended: two steps a job, and one to end. -/
def settle (crashes : ρ → Bool) (l : Lane ρ) : Lane ρ :=
  l.run crashes (List.replicate (2 * (l.queued.length + 1)) .thread)

/-- Stops the lane, the thread going on whenever the owner waits for it. -/
def shutdown (crashes : ρ → Bool) (l : Lane ρ) : Lane ρ :=
  ((l.run crashes [.stop, .stop]).settle crashes).run crashes [.stop]

end Lane

end FeatureBatch
