/-!
A limiter of admissions: a fixed number of permits, handed out first come, first served. A permit
that is given back goes to the oldest waiter at once, even before that waiter looks, so that nobody
overtakes a waiter. A closed limiter gives nothing more, and still takes permits back.
-/

namespace FeatureBatch

/-- The permits and those who hold or await them. Permits and waiters are known by numbers, each
counted from zero in the order of handing out and of queueing. -/
structure AdmissionLimiter where
  capacity : Nat
  available : Nat
  /-- The permits in use. -/
  held : List Nat
  /-- Waiters that have been handed a permit and have not looked since. -/
  granted : List Nat
  /-- Waiters without a permit, the oldest first. -/
  queue : List Nat
  closed : Bool
  nextPermit : Nat
  nextWaiter : Nat
  deriving DecidableEq, Repr

/-- What somebody who asks for a permit learns. -/
inductive Admission where
  | permit (number : Nat)
  | waiting (waiter : Nat)
  | closed
  deriving DecidableEq, Repr

namespace AdmissionLimiter

/-- The most permits that a limiter can keep count of. -/
def maxCapacity : Nat := Nat.pow 2 61 - 1

/-- A limiter of that capacity, or of one permit if the capacity is zero; none if it is too large. -/
def create? (capacity : Nat) : Option AdmissionLimiter :=
  let capacity := max capacity 1
  if capacity ≤ maxCapacity then
    some { capacity, available := capacity, held := [], granted := [], queue := [], closed := false
           nextPermit := 0, nextWaiter := 0 }
  else none

/-- Hands out a permit that nobody else has. -/
def handOut (l : AdmissionLimiter) : Nat × AdmissionLimiter :=
  (l.nextPermit, { l with held := l.held ++ [l.nextPermit], nextPermit := l.nextPermit + 1 })

/-- Takes a permit if one is free. -/
def tryAcquire (l : AdmissionLimiter) : Option Nat × AdmissionLimiter :=
  if l.closed || l.available = 0 then (none, l)
  else
    let (permit, l) := { l with available := l.available - 1 }.handOut
    (some permit, l)

/-- Takes a permit if one is free, and else queues up for one. -/
def acquire (l : AdmissionLimiter) : Admission × AdmissionLimiter :=
  if l.closed then (.closed, l)
  else if l.available = 0 then
    (.waiting l.nextWaiter,
      { l with queue := l.queue ++ [l.nextWaiter], nextWaiter := l.nextWaiter + 1 })
  else
    let (permit, l) := { l with available := l.available - 1 }.handOut
    (.permit permit, l)

/-- Passes on a permit that nobody holds: to the oldest waiter, and back to the free ones if there
is none or the limiter is closed. -/
def giveBack (l : AdmissionLimiter) : AdmissionLimiter :=
  match l.closed, l.queue with
  | false, w :: ws => { l with queue := ws, granted := l.granted ++ [w] }
  | _, _ => { l with available := l.available + 1 }

/-- The waiter is still waiting, with a permit or without. -/
def isWaiting (l : AdmissionLimiter) (waiter : Nat) : Bool :=
  l.granted.contains waiter || l.queue.contains waiter

/-- A waiter leaves. A permit that it was handed and has not taken is passed on. -/
def cancel (l : AdmissionLimiter) (waiter : Nat) : AdmissionLimiter :=
  if l.granted.contains waiter then { l with granted := l.granted.erase waiter }.giveBack
  else { l with queue := l.queue.erase waiter }

/-- A waiter looks. Once it has an answer it waits no more; after the closing it gets no permit,
also none that it had been handed before. None if there is no such waiter. -/
def poll? (l : AdmissionLimiter) (waiter : Nat) : Option (Admission × AdmissionLimiter) :=
  if !l.isWaiting waiter then none
  else if l.closed then some (.closed, l.cancel waiter)
  else if l.granted.contains waiter then
    let (permit, l) := { l with granted := l.granted.erase waiter }.handOut
    some (.permit permit, l)
  else some (.waiting waiter, l)

/-- A waiter would get its answer if it looked. -/
def isReady (l : AdmissionLimiter) (waiter : Nat) : Bool :=
  l.isWaiting waiter && (l.closed || l.granted.contains waiter)

/-- Gives a permit back; says whether it was in use. -/
def release (l : AdmissionLimiter) (permit : Nat) : Bool × AdmissionLimiter :=
  if l.held.contains permit then (true, { l with held := l.held.erase permit }.giveBack)
  else (false, l)

def releaseAll (l : AdmissionLimiter) (permits : List Nat) : AdmissionLimiter :=
  permits.foldl (fun l p => (l.release p).2) l

def close (l : AdmissionLimiter) : AdmissionLimiter := { l with closed := true }

/-- What can happen to a limiter. -/
inductive Event where
  | tryAcquire
  | acquire
  | poll (waiter : Nat)
  | cancel (waiter : Nat)
  | release (permit : Nat)
  | close
  deriving DecidableEq, Repr

/-- The limiter after an event. -/
def after (l : AdmissionLimiter) : Event → AdmissionLimiter
  | .tryAcquire => l.tryAcquire.2
  | .acquire => l.acquire.2
  | .poll waiter => ((l.poll? waiter).map Prod.snd).getD l
  | .cancel waiter => l.cancel waiter
  | .release permit => (l.release permit).2
  | .close => l.close

/-- The limiter after a sequence of events. -/
def afterAll (l : AdmissionLimiter) (events : List Event) : AdmissionLimiter := events.foldl after l

@[simp] theorem afterAll_nil (l : AdmissionLimiter) : l.afterAll [] = l := rfl

@[simp] theorem afterAll_cons (l : AdmissionLimiter) (e : Event) (es : List Event) :
    l.afterAll (e :: es) = (l.after e).afterAll es := rfl

end AdmissionLimiter

end FeatureBatch
