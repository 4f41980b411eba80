import FeatureBatch.Exec.Barrier

/-!
The wait of a barrier in detail. The waiting task asks its signals one by one. A signal that is
still outstanding when it is asked is left with word to wake the task; one that has come answers, and
is not asked again. The task sleeps until it is woken, and then asks again. Signals may come between
any two of its steps. Which signals it asks, how often, and in what order, is left open.
-/

namespace FeatureBatch

/-- A signal as the waiting task knows it. -/
structure AwaitedSignal where
  state : SignalState
  /-- It wakes the task when it comes. -/
  watched : Bool
  /-- Its answer; none while it has not been asked since it came. -/
  answer : Option SignalState
  deriving DecidableEq, Repr

namespace AwaitedSignal

def fresh : AwaitedSignal := ⟨.outstanding, false, none⟩

/-- The signal comes. Whom it wakes, it wakes once. -/
def settle (s : AwaitedSignal) (how : SignalState) : AwaitedSignal :=
  { s with state := how, watched := false }

/-- The task asks the signal. -/
def ask (s : AwaitedSignal) : AwaitedSignal :=
  match s.state with
  | .outstanding => { s with watched := true }
  | how => { s with answer := some how }

/-- The receiving end is let go; there is nobody to wake any more. -/
def forget (s : AwaitedSignal) : AwaitedSignal := { s with watched := false }

end AwaitedSignal

/-- How far the wait is. -/
inductive WaitStage where
  | registering
  /-- The task is running; it has asked a signal since it got up, or not yet. -/
  | awake (asked : Bool)
  | asleep
  | released (arrivals : Arrivals)
  /-- The barrier was let go before its release. -/
  | forgotten
  deriving DecidableEq, Repr

structure BarrierWait where
  stage : WaitStage
  /-- Somebody has woken the task since it last got up. -/
  woken : Bool
  /-- The signals, in the order of registration. -/
  signals : List AwaitedSignal
  deriving DecidableEq, Repr

namespace BarrierWait

def fresh : BarrierWait := ⟨.registering, false, []⟩

/-- The wait as its barrier. -/
def barrier (w : BarrierWait) : CompletionBarrier where
  stage :=
    match w.stage with
    | .registering => .registering
    | .awake _ | .asleep => .waiting
    | .released _ | .forgotten => .gone
  signals := w.signals.map (·.state)

def register (w : BarrierWait) : BarrierWait := { w with signals := w.signals ++ [.fresh] }

def settle (w : BarrierWait) (signal : Nat) (how : SignalState) : BarrierWait :=
  { w with
    woken := w.woken || w.signals[signal]?.any (·.watched)
    signals := w.signals.modify signal (·.settle how) }

def await (w : BarrierWait) : BarrierWait := { w with stage := .awake false }

def forget (w : BarrierWait) : BarrierWait :=
  { w with stage := .forgotten, signals := w.signals.map (·.forget) }

/-- Somebody wakes the task for reasons of their own. -/
def stir (w : BarrierWait) : BarrierWait := { w with woken := true }

/-- The task can ask this signal. -/
def canAsk (w : BarrierWait) (signal : Nat) : Bool :=
  match w.stage with
  | .awake _ => w.signals[signal]?.any (·.answer.isNone)
  | _ => false

def ask (w : BarrierWait) (signal : Nat) : BarrierWait :=
  { w with stage := .awake true, signals := w.signals.modify signal (·.ask) }

/-- All signals have answered. -/
def isAnswered (w : BarrierWait) : Bool := w.signals.all (·.answer.isSome)

/-- Each signal that has not answered will wake the task. -/
def isWatching (w : BarrierWait) : Bool := w.signals.all fun s => s.answer.isSome || s.watched

/-- The task lies down, to be woken by the signals. It can break off before it has asked them all,
and then sees to it that it gets up again. -/
def sleep? (w : BarrierWait) : Option BarrierWait :=
  match w.stage with
  | .awake asked =>
    if w.isAnswered then none
    else if w.isWatching then some { w with stage := .asleep }
    else if asked then some { w with stage := .asleep, woken := true }
    else none
  | _ => none

/-- The task gets up. -/
def wake? (w : BarrierWait) : Option BarrierWait :=
  if w.stage = .asleep ∧ w.woken then some { w with stage := .awake false, woken := false } else none

/-- The answers that say that the signal was fired, and the rest of them. -/
def arrivals (w : BarrierWait) : Arrivals :=
  let signalled := w.signals.countP (·.answer = some .fired)
  ⟨signalled, w.signals.length - signalled⟩

/-- The task has all answers, and the wait ends. -/
def release? (w : BarrierWait) : Option BarrierWait :=
  match w.stage with
  | .awake _ => if w.isAnswered then some { w with stage := .released w.arrivals } else none
  | _ => none

/-- What can happen: something that the barrier shows, of which the look is the one that ends the
wait, or a step that it does not show. -/
inductive Event where
  | shown (event : CompletionBarrier.Event)
  | stir
  | ask (signal : Nat)
  | sleep
  | wake
  deriving DecidableEq, Repr

/-- The wait after an event; none if that cannot happen. -/
def after? (w : BarrierWait) : Event → Option BarrierWait
  | .shown .register => if w.stage = .registering then some w.register else none
  | .shown (.fire signal) =>
    if w.barrier.isOutstanding signal then some (w.settle signal .fired) else none
  | .shown (.drop signal) =>
    if w.barrier.isOutstanding signal then some (w.settle signal .dropped) else none
  | .shown .await => if w.stage = .registering then some w.await else none
  | .shown .look => w.release?
  | .shown .forget => if w.barrier.stage = .gone then none else some w.forget
  | .stir => if w.barrier.stage = .waiting then some w.stir else none
  | .ask signal => if w.canAsk signal then some (w.ask signal) else none
  | .sleep => w.sleep?
  | .wake => w.wake?

/-- Lets the events happen one after the other. -/
def run? (w : BarrierWait) (events : List Event) : Option BarrierWait := events.foldlM after? w

end BarrierWait

end FeatureBatch
