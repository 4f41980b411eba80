/-!
A barrier over signals of which each comes once: it is fired, or it is dropped unfired. Waiting
ends when nothing is outstanding any more, and tells how many came each way.
-/

namespace FeatureBatch

inductive SignalState where
  | outstanding
  | fired
  | dropped
  deriving DecidableEq, Repr

/-- How the signals of a barrier came. -/
structure Arrivals where
  signalled : Nat
  abandoned : Nat
  deriving DecidableEq, Repr

/-- What the owner of a barrier is doing with it. -/
inductive BarrierStage where
  | registering
  | waiting
  /-- The wait has ended, or the barrier was let go. -/
  | gone
  deriving DecidableEq, Repr

structure CompletionBarrier where
  stage : BarrierStage
  /-- The signals, in the order of registration. -/
  signals : List SignalState
  deriving DecidableEq, Repr

/-- What somebody who looks at a waiting barrier sees. -/
inductive BarrierView where
  | waiting
  | released (arrivals : Arrivals)
  | over
  deriving DecidableEq, Repr

namespace CompletionBarrier

def fresh : CompletionBarrier := ⟨.registering, []⟩

def size (b : CompletionBarrier) : Nat := b.signals.length

/-- Registers one more signal, which has the next number. -/
def register (b : CompletionBarrier) : CompletionBarrier :=
  { b with signals := b.signals ++ [.outstanding] }

def registerMany (b : CompletionBarrier) (n : Nat) : CompletionBarrier :=
  { b with signals := b.signals ++ List.replicate n .outstanding }

def isOutstanding (b : CompletionBarrier) (signal : Nat) : Bool :=
  b.signals[signal]? = some .outstanding

/-- Settles a signal that is outstanding. One that has come already stays as it is. -/
def settle (b : CompletionBarrier) (signal : Nat) (how : SignalState) : CompletionBarrier :=
  { b with signals := b.signals.modify signal fun s => if s = .outstanding then how else s }

def fire (b : CompletionBarrier) (signal : Nat) : CompletionBarrier := b.settle signal .fired

def drop (b : CompletionBarrier) (signal : Nat) : CompletionBarrier := b.settle signal .dropped

/-- Starts the wait. -/
def await (b : CompletionBarrier) : CompletionBarrier :=
  match b.stage with
  | .registering => { b with stage := .waiting }
  | _ => b

/-- Lets the barrier go, with or without a wait. -/
def forget (b : CompletionBarrier) : CompletionBarrier := { b with stage := .gone }

/-- No signal is outstanding. -/
def isComplete (b : CompletionBarrier) : Bool := !b.signals.contains .outstanding

/-- How many signals were fired, and how many came otherwise. -/
def arrivals (b : CompletionBarrier) : Arrivals :=
  ⟨b.signals.count .fired, b.signals.length - b.signals.count .fired⟩

/-- Looks at a wait that has started; seeing the arrivals ends it. -/
def look (b : CompletionBarrier) : BarrierView × CompletionBarrier :=
  match b.stage with
  | .gone => (.over, b)
  | _ => if b.isComplete then (.released b.arrivals, b.forget) else (.waiting, b)

/-- What can happen to a barrier: its owner does something, or a signal comes. -/
inductive Event where
  | register
  | fire (signal : Nat)
  | drop (signal : Nat)
  | await
  | look
  | forget
  deriving DecidableEq, Repr

/-- The barrier after an event; none if that cannot happen. A signal comes once, and signals come
whatever has become of the barrier. -/
def after? (b : CompletionBarrier) : Event → Option CompletionBarrier
  | .register => if b.stage = .registering then some b.register else none
  | .fire signal => if b.isOutstanding signal then some (b.fire signal) else none
  | .drop signal => if b.isOutstanding signal then some (b.drop signal) else none
  | .await => if b.stage = .registering then some b.await else none
  | .look => if b.stage = .waiting then some b.look.2 else none
  | .forget => if b.stage = .gone then none else some b.forget

/-- Lets the events happen one after the other. -/
def run? (b : CompletionBarrier) (events : List Event) : Option CompletionBarrier :=
  events.foldlM after? b

end CompletionBarrier

end FeatureBatch
