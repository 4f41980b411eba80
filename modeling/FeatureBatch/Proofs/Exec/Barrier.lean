import Mathlib.Data.List.Count
import Mathlib.Tactic.Common
import FeatureBatch.Exec.Barrier

/-!
The course of a barrier. Its signals can be counted from what has happened so far: as many are there
as were registered, and as many have come each way as came in the course of events, in whatever
order. A look shows the arrivals exactly if all have come, and shows nothing more once the barrier
is gone, whatever comes after that.
-/

namespace FeatureBatch

lemma exists_modify_eq {α : Type} {xs : List α} {i : Nat} {x : α} (here : xs[i]? = some x) :
    ∃ before after, xs = before ++ x :: after ∧ ∀ f, xs.modify i f = before ++ f x :: after := by
  obtain ⟨there, rfl⟩ := List.getElem?_eq_some_iff.mp here
  refine ⟨xs.take i, xs.drop (i + 1), ?_, fun f => List.modify_eq_take_cons_drop there⟩
  rw [← List.drop_eq_getElem_cons there, List.take_append_drop]

namespace CompletionBarrier

variable {b b' : CompletionBarrier} {e : Event} {events past : List Event}

/-! ### What has happened -/

def Event.isFire : Event → Bool
  | .fire _ => true
  | _ => false

def Event.isDrop : Event → Bool
  | .drop _ => true
  | _ => false

def registrations (events : List Event) : Nat := events.count .register

def firings (events : List Event) : Nat := events.countP Event.isFire

def drops (events : List Event) : Nat := events.countP Event.isDrop

@[simp] lemma run?_nil (b : CompletionBarrier) : b.run? [] = some b := rfl

lemma run?_cons (b : CompletionBarrier) (e : Event) (events : List Event) :
    b.run? (e :: events) = (b.after? e).bind (·.run? events) := List.foldlM_cons

lemma run?_append (b : CompletionBarrier) (events later : List Event) :
    b.run? (events ++ later) = (b.run? events).bind (·.run? later) := List.foldlM_append

lemma registrations_snoc (past : List Event) (e : Event) :
    registrations (past ++ [e]) = registrations past + if e = .register then 1 else 0 := by
  simp [registrations, List.count_singleton]

lemma firings_snoc (past : List Event) (e : Event) :
    firings (past ++ [e]) = firings past + if e.isFire then 1 else 0 := by
  simp [firings, List.countP_singleton]

lemma drops_snoc (past : List Event) (e : Event) :
    drops (past ++ [e]) = drops past + if e.isDrop then 1 else 0 := by
  simp [drops, List.countP_singleton]

/-- The signals are those that the course of events has brought. -/
structure Tallies (b : CompletionBarrier) (past : List Event) : Prop where
  size : b.size = registrations past
  fired : b.signals.count .fired = firings past
  dropped : b.signals.count .dropped = drops past

lemma tallies_fresh : fresh.Tallies [] := ⟨rfl, rfl, rfl⟩

lemma isOutstanding_eq_true {signal : Nat} :
    b.isOutstanding signal = true ↔ b.signals[signal]? = some .outstanding := decide_eq_true_iff

@[simp] lemma await_signals : b.await.signals = b.signals := by
  unfold await
  split <;> rfl

@[simp] lemma look_signals : b.look.2.signals = b.signals := by
  unfold look
  split
  · rfl
  · split <;> rfl

lemma count_settle {signal : Nat} (outstanding : b.isOutstanding signal = true)
    (how other : SignalState) :
    (b.settle signal how).signals.count other + (if other = .outstanding then 1 else 0) =
      b.signals.count other + if other = how then 1 else 0 := by
  obtain ⟨before, after, split, changed⟩ := exists_modify_eq (isOutstanding_eq_true.mp outstanding)
  rw [settle, changed, split]
  simp only [if_pos, List.count_append, List.count_cons, beq_iff_eq, eq_comm (b := other)]
  omega

lemma settle_size (b : CompletionBarrier) (signal : Nat) (how : SignalState) :
    (b.settle signal how).size = b.size := List.length_modify _ _ _

lemma counts_after? (step : b.after? e = some b') :
    b'.size = b.size + (if e = .register then 1 else 0) ∧
      b'.signals.count .fired = b.signals.count .fired + (if e.isFire then 1 else 0) ∧
      b'.signals.count .dropped = b.signals.count .dropped + if e.isDrop then 1 else 0 := by
  cases e <;> simp only [after?, Option.ite_none_right_eq_some, Option.ite_none_left_eq_some,
    Option.some.injEq] at step <;> obtain ⟨can, rfl⟩ := step
  case register => simp [size, register, Event.isFire, Event.isDrop]
  case fire signal =>
    have fired := count_settle can .fired .fired
    have dropped := count_settle can .fired .dropped
    simpa [fire, settle_size, Event.isFire, Event.isDrop] using ⟨fired, dropped⟩
  case drop signal =>
    have fired := count_settle can .dropped .fired
    have dropped := count_settle can .dropped .dropped
    simpa [drop, settle_size, Event.isFire, Event.isDrop] using ⟨fired, dropped⟩
  all_goals simp [size, forget, Event.isFire, Event.isDrop]

lemma Tallies.after? (h : b.Tallies past) (step : b.after? e = some b') :
    b'.Tallies (past ++ [e]) := by
  obtain ⟨size, fired, dropped⟩ := counts_after? step
  constructor
  · rw [registrations_snoc, size, h.size]
  · rw [firings_snoc, fired, h.fired]
  · rw [drops_snoc, dropped, h.dropped]

lemma Tallies.run? (h : b.Tallies past) (run : b.run? events = some b') :
    b'.Tallies (past ++ events) := by
  induction events generalizing b past with
  | nil =>
    rw [run?_nil, Option.some.injEq] at run
    rw [List.append_nil, ← run]
    exact h
  | cons e events ih =>
    rw [run?_cons, Option.bind_eq_some_iff] at run
    obtain ⟨next, step, rest⟩ := run
    rw [List.append_cons]
    exact ih (h.after? step) rest

/-! ### Looks -/

lemma count_states (signals : List SignalState) :
    signals.count .outstanding + signals.count .fired + signals.count .dropped =
      signals.length := by
  induction signals with
  | nil => rfl
  | cons s signals ih => cases s <;> simp <;> omega

lemma isComplete_eq_true : b.isComplete = true ↔ .outstanding ∉ b.signals := by
  simp [isComplete]

lemma isOutstanding_of_isComplete (complete : b.isComplete = true) (signal : Nat) :
    b.isOutstanding signal = false := by
  rw [← Bool.not_eq_true, isOutstanding_eq_true]
  intro here
  exact isComplete_eq_true.mp complete (List.mem_of_getElem? here)

lemma Tallies.isComplete (h : b.Tallies past) :
    b.isComplete = true ↔ firings past + drops past = registrations past := by
  have split := count_states b.signals
  rw [isComplete_eq_true, ← List.count_eq_zero, ← h.size, ← h.fired, ← h.dropped,
    CompletionBarrier.size]
  omega

lemma Tallies.le (h : b.Tallies past) : firings past + drops past ≤ registrations past := by
  have split := count_states b.signals
  rw [← h.size, ← h.fired, ← h.dropped, CompletionBarrier.size]
  omega

lemma Tallies.arrivals (h : b.Tallies past) (complete : b.isComplete = true) :
    b.arrivals = ⟨firings past, drops past⟩ := by
  have all := h.isComplete.mp complete
  rw [CompletionBarrier.arrivals, h.fired, ← CompletionBarrier.size, h.size, Arrivals.mk.injEq]
  omega

lemma look_of_waiting (waiting : b.stage = .waiting) :
    b.look = if b.isComplete then (.released b.arrivals, b.forget) else (.waiting, b) := by
  rw [look, waiting]

lemma look_of_gone (gone : b.stage = .gone) : b.look = (.over, b) := by
  rw [look, gone]

lemma after?_of_gone (gone : b.stage = .gone) (step : b.after? e = some b') : b'.stage = .gone := by
  cases e <;> simp_all [after?, fire, drop, settle] <;> simp [← step]

lemma run?_of_gone (gone : b.stage = .gone) (run : b.run? events = some b') :
    b'.stage = .gone := by
  induction events generalizing b with
  | nil =>
    rw [run?_nil, Option.some.injEq] at run
    rw [← run, gone]
  | cons e events ih =>
    rw [run?_cons, Option.bind_eq_some_iff] at run
    obtain ⟨next, step, rest⟩ := run
    exact ih (after?_of_gone gone step) rest

lemma after?_of_complete (complete : b.isComplete = true) (started : b.stage ≠ .registering)
    (step : b.after? e = some b') : b'.isComplete = true ∧ b'.stage ≠ .registering := by
  cases e <;> simp only [after?, Option.ite_none_right_eq_some, Option.ite_none_left_eq_some,
    Option.some.injEq] at step <;> obtain ⟨can, rfl⟩ := step
  case register => exact absurd can started
  case await => exact absurd can started
  case fire => simp [isOutstanding_of_isComplete complete] at can
  case drop => simp [isOutstanding_of_isComplete complete] at can
  case look =>
    rw [look_of_waiting can, if_pos complete]
    exact ⟨complete, nofun⟩
  case forget => exact ⟨complete, nofun⟩

lemma run?_of_complete (complete : b.isComplete = true) (started : b.stage ≠ .registering)
    (run : b.run? events = some b') : b'.isComplete = true ∧ b'.stage ≠ .registering := by
  induction events generalizing b with
  | nil =>
    rw [run?_nil, Option.some.injEq] at run
    rw [← run]
    exact ⟨complete, started⟩
  | cons e events ih =>
    rw [run?_cons, Option.bind_eq_some_iff] at run
    obtain ⟨next, step, rest⟩ := run
    obtain ⟨complete, started⟩ := after?_of_complete complete started step
    exact ih complete started rest

/-- What a barrier shows, told by what has happened to it. -/
structure AnswersFor (b : CompletionBarrier) (past : List Event) : Prop where
  size : b.size = registrations past
  come : firings past + drops past ≤ registrations past
  waits : b.stage = .waiting → firings past + drops past < registrations past →
    b.look = (.waiting, b)
  releases : b.stage = .waiting → firings past + drops past = registrations past →
    b.look = (.released ⟨firings past, drops past⟩, b.forget)
  /-- Whatever comes when the barrier is gone, nothing more is seen of it. -/
  gone : b.stage = .gone → ∀ later b', b.run? later = some b' → b'.look = (.over, b')
  /-- The same events in another order show the same. -/
  order : ∀ other b', other.Perm past → fresh.run? other = some b' →
    b.stage = .waiting → b'.stage = .waiting → b'.look.1 = b.look.1

lemma Tallies.look (h : b.Tallies past) (waiting : b.stage = .waiting) :
    b.look = if firings past + drops past = registrations past then
      (.released ⟨firings past, drops past⟩, b.forget) else (.waiting, b) := by
  rw [look_of_waiting waiting]
  by_cases complete : b.isComplete = true
  · rw [if_pos complete, if_pos (h.isComplete.mp complete), h.arrivals complete]
  · rw [if_neg complete, if_neg fun all => complete (h.isComplete.mpr all)]

lemma answersFor_of_run? (run : fresh.run? past = some b) : b.AnswersFor past := by
  have h : b.Tallies past := tallies_fresh.run? run
  constructor
  case size => exact h.size
  case come => exact h.le
  case waits =>
    intro waiting some_missing
    rw [h.look waiting, if_neg (Nat.ne_of_lt some_missing)]
  case releases =>
    intro waiting all
    rw [h.look waiting, if_pos all]
  case gone =>
    intro gone later b' rest
    exact look_of_gone (run?_of_gone gone rest)
  case order =>
    intro other b' perm run' waiting waiting'
    have h' : b'.Tallies other := tallies_fresh.run? run'
    rw [h.look waiting, h'.look waiting', registrations, firings, drops, perm.count_eq,
      perm.countP_eq, perm.countP_eq]
    split <;> simp_all [registrations, firings, drops]

end CompletionBarrier

end FeatureBatch
