import Mathlib.Data.List.Count
import Mathlib.Tactic.Common
import FeatureBatch.Exec.BarrierWait
import FeatureBatch.Proofs.Exec.Barrier

/-!
The wait of a barrier, step by step. What shows of it is a course of the barrier. A sleeping task has
been woken, or each signal that has not answered it will wake it; so once all signals have come it
always has a step to take, and after a bounded number of them the wait is over.
-/

namespace FeatureBatch

/-! ### Lists that are changed in one place -/

lemma forall_mem_modify {α : Type} {P : α → Prop} {f : α → α} {xs : List α} {i : Nat}
    (all : ∀ x ∈ xs, P x) (changed : ∀ x, xs[i]? = some x → P (f x)) :
    ∀ y ∈ xs.modify i f, P y := by
  intro y mem
  obtain ⟨j, there⟩ := List.getElem?_of_mem mem
  rw [List.getElem?_modify, Option.map_eq_map, Option.map_eq_some_iff] at there
  obtain ⟨x, here, rfl⟩ := there
  split
  · rename_i same
    exact changed x (same ▸ here)
  · exact all x (List.mem_of_getElem? here)

lemma map_modify {α β : Type} {f : α → α} {g : α → β} {h : β → β} {xs : List α} {i : Nat}
    (commute : ∀ x, xs[i]? = some x → g (f x) = h (g x)) :
    (xs.modify i f).map g = (xs.map g).modify i h := by
  refine List.ext_getElem? fun j => ?_
  rw [List.getElem?_map, List.getElem?_modify, List.getElem?_modify, List.getElem?_map]
  cases here : xs[j]? with
  | none => rfl
  | some x =>
    by_cases same : i = j
    · subst same
      simp [commute x here]
    · simp [same]

/-! ### One signal -/

namespace AwaitedSignal

variable {s : AwaitedSignal}

/-- A signal answers how it came, and has nobody to wake once it has come. -/
structure Sound (s : AwaitedSignal) : Prop where
  answer : ∀ how, s.answer = some how → how = s.state ∧ how ≠ .outstanding
  watched : s.watched = true → s.state = .outstanding

lemma sound_fresh : fresh.Sound := ⟨nofun, nofun⟩

lemma Sound.answer_eq_none (h : s.Sound) (outstanding : s.state = .outstanding) :
    s.answer = none := by
  rw [Option.eq_none_iff_forall_ne_some]
  intro how given
  obtain ⟨same, settled⟩ := h.answer how given
  exact settled (same.trans outstanding)

lemma Sound.settle (h : s.Sound) (outstanding : s.state = .outstanding) (how : SignalState) :
    (s.settle how).Sound where
  answer a given := by
    have silent : s.answer = some a := given
    simp [h.answer_eq_none outstanding] at silent
  watched := nofun

lemma Sound.ask (h : s.Sound) : s.ask.Sound := by
  obtain ⟨state, watched, answer⟩ := s
  cases state with
  | outstanding => exact ⟨h.answer, fun _ => rfl⟩
  | fired => exact ⟨fun _ given => by cases given; simp [AwaitedSignal.ask], h.watched⟩
  | dropped => exact ⟨fun _ given => by cases given; simp [AwaitedSignal.ask], h.watched⟩

lemma Sound.forget (h : s.Sound) : s.forget.Sound := ⟨h.answer, nofun⟩

@[simp] lemma ask_state : s.ask.state = s.state := by
  unfold ask
  split <;> rfl

lemma ask_answer (settled : s.state ≠ .outstanding) : s.ask.answer = some s.state := by
  unfold ask
  split
  · contradiction
  · rfl

end AwaitedSignal

namespace BarrierWait

variable {w w' : BarrierWait} {e : Event} {events : List Event}

@[simp] lemma run?_nil (w : BarrierWait) : w.run? [] = some w := rfl

lemma run?_cons (w : BarrierWait) (e : Event) (events : List Event) :
    w.run? (e :: events) = (w.after? e).bind (·.run? events) := List.foldlM_cons

/-! ### What shows on the barrier -/

def Event.shown? : Event → Option CompletionBarrier.Event
  | .shown e => some e
  | _ => none

/-- The part of a course of events that shows on the barrier. -/
def shown (events : List Event) : List CompletionBarrier.Event := events.filterMap Event.shown?

lemma shown_cons (e : Event) (events : List Event) :
    shown (e :: events) = e.shown?.toList ++ shown events := by
  cases h : e.shown? <;> simp [shown, h]

lemma barrier_registering : w.barrier.stage = .registering ↔ w.stage = .registering := by
  cases h : w.stage <;> simp [barrier, h]

lemma barrier_waiting :
    w.barrier.stage = .waiting ↔ (∃ asked, w.stage = .awake asked) ∨ w.stage = .asleep := by
  cases h : w.stage <;> simp [barrier, h]

lemma exists_outstanding {signal : Nat} (h : w.barrier.isOutstanding signal = true) :
    ∃ s, w.signals[signal]? = some s ∧ s.state = .outstanding := by
  simpa [CompletionBarrier.isOutstanding_eq_true, barrier] using h

lemma isComplete_barrier :
    w.barrier.isComplete = true ↔ ∀ s ∈ w.signals, s.state ≠ .outstanding := by
  simp [CompletionBarrier.isComplete_eq_true, barrier]

lemma isAnswered_eq_true : w.isAnswered = true ↔ ∀ s ∈ w.signals, s.answer ≠ none := by
  simp [isAnswered, Option.isSome_iff_ne_none]

lemma isAnswered_eq_false : w.isAnswered = false ↔ ∃ s ∈ w.signals, s.answer = none := by
  simp [isAnswered]

lemma isWatching_eq_true :
    w.isWatching = true ↔ ∀ s ∈ w.signals, s.answer = none → s.watched = true := by
  simp only [isWatching, List.all_eq_true, Bool.or_eq_true, or_iff_not_imp_left,
    Option.not_isSome_iff_eq_none]

lemma canAsk_eq_true {signal : Nat} :
    w.canAsk signal = true ↔ (∃ asked, w.stage = .awake asked) ∧
      ∃ s, w.signals[signal]? = some s ∧ s.answer = none := by
  unfold canAsk
  split <;> simp_all [Option.any_eq_true]

lemma register_barrier : w.register.barrier = w.barrier.register := by
  simp [register, barrier, CompletionBarrier.register, AwaitedSignal.fresh]

lemma settle_barrier {signal : Nat} (how : SignalState)
    (outstanding : w.barrier.isOutstanding signal = true) :
    (w.settle signal how).barrier = w.barrier.settle signal how := by
  obtain ⟨s, here, state⟩ := exists_outstanding outstanding
  rw [CompletionBarrier.mk.injEq]
  refine ⟨rfl, map_modify fun t there => ?_⟩
  obtain rfl : s = t := by rwa [here, Option.some.injEq] at there
  simp [AwaitedSignal.settle, state]

lemma await_barrier (registering : w.stage = .registering) :
    w.await.barrier = w.barrier.await := by
  simp [await, barrier, CompletionBarrier.await, registering]

lemma forget_barrier : w.forget.barrier = w.barrier.forget := by
  simp [forget, barrier, CompletionBarrier.forget, AwaitedSignal.forget]

lemma ask_barrier {signal : Nat} (can : w.canAsk signal = true) :
    (w.ask signal).barrier = w.barrier := by
  obtain ⟨⟨asked, awake⟩, -⟩ := canAsk_eq_true.mp can
  rw [barrier, barrier, awake, CompletionBarrier.mk.injEq]
  refine ⟨rfl, ?_⟩
  rw [ask, map_modify (h := id) fun s _ => AwaitedSignal.ask_state, List.modify_id]

/-- The task lies down with an answer missing: each silent signal will wake it, or it has seen to
that itself. -/
lemma of_sleep? (step : w.sleep? = some w') :
    ∃ asked, w.stage = .awake asked ∧ w.isAnswered = false ∧
      (w.isWatching = true ∧ w' = { w with stage := .asleep } ∨
        asked = true ∧ w' = { w with stage := .asleep, woken := true }) := by
  unfold sleep? at step
  split at step
  · rename_i asked awake
    split_ifs at step with answered watching asked
    · cases step
      exact ⟨_, awake, Bool.eq_false_iff.mpr answered, .inl ⟨watching, rfl⟩⟩
    · cases step
      exact ⟨_, awake, Bool.eq_false_iff.mpr answered, .inr ⟨asked, rfl⟩⟩
  · cases step

lemma of_wake? (step : w.wake? = some w') :
    w.stage = .asleep ∧ w' = { w with stage := .awake false, woken := false } := by
  unfold wake? at step
  split_ifs at step with ready
  cases step
  exact ⟨ready.1, rfl⟩

lemma of_release? (step : w.release? = some w') :
    ∃ asked, w.stage = .awake asked ∧ w.isAnswered = true ∧
      w' = { w with stage := .released w.arrivals } := by
  unfold release? at step
  split at step
  · rename_i asked awake
    split_ifs at step with answered
    cases step
    exact ⟨asked, awake, answered, rfl⟩
  · cases step

/-! ### The invariant -/

structure Sound (w : BarrierWait) : Prop where
  signals : ∀ s ∈ w.signals, s.Sound
  /-- Nobody sleeps who has all answers or would not be woken. -/
  asleep : w.stage = .asleep → w.isAnswered = false ∧ (w.woken = true ∨ w.isWatching = true)
  released : ∀ a, w.stage = .released a → w.barrier.isComplete = true ∧ a = w.barrier.arrivals
  /-- Once it is gone there is nobody to wake. -/
  gone : w.barrier.stage = .gone → ∀ s ∈ w.signals, s.watched = false

lemma sound_fresh : fresh.Sound := ⟨nofun, nofun, nofun, nofun⟩

lemma Sound.register (h : w.Sound) (registering : w.stage = .registering) : w.register.Sound where
  signals s mem := by
    rcases List.mem_append.mp mem with old | new
    · exact h.signals s old
    · rw [List.mem_singleton.mp new]
      exact AwaitedSignal.sound_fresh
  asleep asleep := by
    have stage : w.stage = .asleep := asleep
    simp [registering] at stage
  released a released := by
    have stage : w.stage = .released a := released
    simp [registering] at stage
  gone gone := by
    have stage : w.barrier.stage = .gone := gone
    simp [barrier, registering] at stage

lemma Sound.settle {signal : Nat} (h : w.Sound) (how : SignalState)
    (outstanding : w.barrier.isOutstanding signal = true) : (w.settle signal how).Sound := by
  obtain ⟨s, here, state⟩ := exists_outstanding outstanding
  have mem := List.mem_of_getElem? here
  have silent := (h.signals s mem).answer_eq_none state
  constructor
  case signals =>
    refine forall_mem_modify h.signals fun t there => ?_
    obtain rfl : s = t := by rwa [here, Option.some.injEq] at there
    exact (h.signals s mem).settle state how
  case asleep =>
    intro asleep
    have there : s.settle how ∈ (w.settle signal how).signals :=
      List.mem_of_getElem? (i := signal) (by simp [BarrierWait.settle, here])
    refine ⟨isAnswered_eq_false.mpr ⟨_, there, silent⟩, .inl ?_⟩
    rw [BarrierWait.settle, here, Option.any_some, Bool.or_eq_true]
    obtain ⟨-, woken | watching⟩ := h.asleep asleep
    · exact .inl woken
    · exact .inr (isWatching_eq_true.mp watching s mem silent)
  case released =>
    intro a released
    obtain ⟨complete, -⟩ := h.released a released
    simp [CompletionBarrier.isOutstanding_of_isComplete complete] at outstanding
  case gone =>
    intro gone
    exact forall_mem_modify (h.gone gone) fun _ _ => rfl

lemma Sound.await (h : w.Sound) : w.await.Sound := ⟨h.signals, nofun, nofun, nofun⟩

lemma Sound.forget (h : w.Sound) : w.forget.Sound where
  signals := List.forall_mem_map.mpr fun s mem => (h.signals s mem).forget
  asleep := nofun
  released := nofun
  gone _ := List.forall_mem_map.mpr fun _ _ => rfl

lemma Sound.stir (h : w.Sound) : w.stir.Sound where
  signals := h.signals
  asleep asleep := ⟨(h.asleep asleep).1, .inl rfl⟩
  released := h.released
  gone := h.gone

lemma Sound.ask {signal : Nat} (h : w.Sound) : (w.ask signal).Sound where
  signals := forall_mem_modify h.signals fun s there =>
    (h.signals s (List.mem_of_getElem? there)).ask
  asleep := nofun
  released := nofun
  gone := nofun

lemma Sound.sleep? (h : w.Sound) (step : w.sleep? = some w') : w'.Sound := by
  obtain ⟨asked, awake, unanswered, ⟨watching, rfl⟩ | ⟨-, rfl⟩⟩ := of_sleep? step
  · exact ⟨h.signals, fun _ => ⟨unanswered, .inr watching⟩, nofun, nofun⟩
  · exact ⟨h.signals, fun _ => ⟨unanswered, .inl rfl⟩, nofun, nofun⟩

lemma Sound.wake? (h : w.Sound) (step : w.wake? = some w') : w'.Sound := by
  obtain ⟨-, rfl⟩ := of_wake? step
  exact ⟨h.signals, nofun, nofun, nofun⟩

lemma Sound.answered (h : w.Sound) (answered : w.isAnswered = true) :
    w.barrier.isComplete = true ∧ w.arrivals = w.barrier.arrivals := by
  have answer : ∀ s ∈ w.signals, s.answer = some s.state ∧ s.state ≠ .outstanding := by
    intro s mem
    obtain ⟨how, given⟩ := Option.ne_none_iff_exists'.mp (isAnswered_eq_true.mp answered s mem)
    obtain ⟨rfl, settled⟩ := (h.signals s mem).answer how given
    exact ⟨given, settled⟩
  refine ⟨isComplete_barrier.mpr fun s mem => (answer s mem).2, ?_⟩
  have same : w.signals.countP (·.answer = some .fired) = w.barrier.signals.count .fired := by
    rw [barrier, List.count, List.countP_map]
    refine List.countP_congr fun s mem => ?_
    simp [(answer s mem).1]
  simp only [arrivals, CompletionBarrier.arrivals, same]
  simp [barrier]

lemma Sound.release? (h : w.Sound) (step : w.release? = some w') : w'.Sound := by
  obtain ⟨asked, awake, answered, rfl⟩ := of_release? step
  obtain ⟨complete, same⟩ := h.answered answered
  refine ⟨h.signals, nofun, ?_, fun _ s mem => ?_⟩
  · intro a released
    cases released
    exact ⟨complete, same⟩
  · rw [← Bool.not_eq_true]
    intro watched
    exact isComplete_barrier.mp complete s mem ((h.signals s mem).watched watched)

lemma Sound.after? (h : w.Sound) (step : w.after? e = some w') : w'.Sound := by
  cases e with
  | shown e =>
    cases e <;> simp only [BarrierWait.after?, Option.ite_none_right_eq_some,
      Option.ite_none_left_eq_some, Option.some.injEq] at step
    case register => exact step.2 ▸ h.register step.1
    case fire => exact step.2 ▸ h.settle .fired step.1
    case drop => exact step.2 ▸ h.settle .dropped step.1
    case await => exact step.2 ▸ h.await
    case look => exact h.release? step
    case forget => exact step.2 ▸ h.forget
  | stir =>
    simp only [BarrierWait.after?, Option.ite_none_right_eq_some, Option.some.injEq] at step
    exact step.2 ▸ h.stir
  | ask signal =>
    simp only [BarrierWait.after?, Option.ite_none_right_eq_some, Option.some.injEq] at step
    exact step.2 ▸ h.ask
  | sleep => exact h.sleep? step
  | wake => exact h.wake? step

lemma Sound.barrier_after? (h : w.Sound) (step : w.after? e = some w') :
    w.barrier.run? e.shown?.toList = some w'.barrier := by
  cases e with
  | shown e =>
    rw [Event.shown?, Option.toList_some, CompletionBarrier.run?_cons, Option.bind_eq_some_iff]
    refine ⟨w'.barrier, ?_, rfl⟩
    cases e <;> simp only [BarrierWait.after?, Option.ite_none_right_eq_some,
      Option.ite_none_left_eq_some, Option.some.injEq] at step
    case register =>
      obtain ⟨registering, rfl⟩ := step
      rw [CompletionBarrier.after?, if_pos (barrier_registering.mpr registering), register_barrier]
    case fire =>
      obtain ⟨outstanding, rfl⟩ := step
      rw [CompletionBarrier.after?, if_pos outstanding, settle_barrier _ outstanding,
        CompletionBarrier.fire]
    case drop =>
      obtain ⟨outstanding, rfl⟩ := step
      rw [CompletionBarrier.after?, if_pos outstanding, settle_barrier _ outstanding,
        CompletionBarrier.drop]
    case await =>
      obtain ⟨registering, rfl⟩ := step
      rw [CompletionBarrier.after?, if_pos (barrier_registering.mpr registering),
        await_barrier registering]
    case look =>
      obtain ⟨asked, awake, answered, rfl⟩ := of_release? step
      have waiting := barrier_waiting.mpr (.inl ⟨asked, awake⟩)
      rw [CompletionBarrier.after?, if_pos waiting, CompletionBarrier.look_of_waiting waiting,
        if_pos (h.answered answered).1]
      rfl
    case forget =>
      obtain ⟨present, rfl⟩ := step
      rw [CompletionBarrier.after?, if_neg present, forget_barrier]
  | stir =>
    simp only [BarrierWait.after?, Option.ite_none_right_eq_some, Option.some.injEq] at step
    obtain ⟨-, rfl⟩ := step
    rfl
  | ask signal =>
    simp only [BarrierWait.after?, Option.ite_none_right_eq_some, Option.some.injEq] at step
    obtain ⟨can, rfl⟩ := step
    exact congrArg some (ask_barrier can).symm
  | sleep =>
    obtain ⟨asked, awake, -, ⟨-, rfl⟩ | ⟨-, rfl⟩⟩ := of_sleep? step
    · simp [Event.shown?, barrier, awake]
    · simp [Event.shown?, barrier, awake]
  | wake =>
    obtain ⟨asleep, rfl⟩ := of_wake? step
    simp [Event.shown?, barrier, asleep]

lemma Sound.run? (h : w.Sound) (run : w.run? events = some w') :
    w'.Sound ∧ w.barrier.run? (shown events) = some w'.barrier := by
  induction events generalizing w with
  | nil =>
    rw [run?_nil, Option.some.injEq] at run
    exact ⟨run ▸ h, run ▸ rfl⟩
  | cons e events ih =>
    rw [run?_cons, Option.bind_eq_some_iff] at run
    obtain ⟨next, step, rest⟩ := run
    obtain ⟨sound, shows⟩ := ih (h.after? step) rest
    refine ⟨sound, ?_⟩
    rw [shown_cons, CompletionBarrier.run?_append, h.barrier_after? step]
    exact shows

/-! ### The task's steps -/

/-- The event is a step of the waiting task. -/
def Event.isTask : Event → Bool
  | .ask _ | .sleep | .wake | .shown .look => true
  | _ => false

/-- The signals that have not answered. -/
def silent (w : BarrierWait) : Nat := w.signals.countP (·.answer.isNone)

/-- A bound on the steps of the task once all signals have come: for each silent one it gets up, asks
and lies down again. -/
def effort (w : BarrierWait) : Nat :=
  match w.stage with
  | .awake asked => 4 * w.silent + if asked then 3 else 1
  | .asleep => 4 * w.silent + 2
  | _ => 0

lemma effort_le : w.effort ≤ 4 * w.barrier.size + 3 := by
  have most : w.silent ≤ w.barrier.size := by
    rw [silent, CompletionBarrier.size, barrier, List.length_map]
    exact List.countP_le_length
  unfold effort
  split
  · split <;> omega
  · omega
  · omega

lemma Sound.isWatching_eq_false (h : w.Sound) (complete : w.barrier.isComplete = true)
    (unanswered : w.isAnswered = false) : w.isWatching = false := by
  obtain ⟨s, mem, silent⟩ := isAnswered_eq_false.mp unanswered
  rw [← Bool.not_eq_true]
  intro watching
  have watched := isWatching_eq_true.mp watching s mem silent
  exact isComplete_barrier.mp complete s mem ((h.signals s mem).watched watched)

lemma Sound.progress (h : w.Sound) (waiting : w.barrier.stage = .waiting)
    (complete : w.barrier.isComplete = true) : ∃ e, e.isTask = true ∧ (w.after? e).isSome = true := by
  rcases barrier_waiting.mp waiting with ⟨asked, awake⟩ | asleep
  · cases answered : w.isAnswered with
    | true =>
      have release : w.release?.isSome = true := by simp [BarrierWait.release?, awake, answered]
      exact ⟨.shown .look, rfl, release⟩
    | false =>
      obtain ⟨s, mem, silent⟩ := isAnswered_eq_false.mp answered
      obtain ⟨signal, here⟩ := List.getElem?_of_mem mem
      have can : w.canAsk signal = true := canAsk_eq_true.mpr ⟨⟨asked, awake⟩, s, here, silent⟩
      exact ⟨.ask signal, rfl, by simp [BarrierWait.after?, can]⟩
  · obtain ⟨unanswered, woken | watching⟩ := h.asleep asleep
    · have wake : w.wake?.isSome = true := by simp [BarrierWait.wake?, asleep, woken]
      exact ⟨.wake, rfl, wake⟩
    · simp [h.isWatching_eq_false complete unanswered] at watching

lemma silent_ask {signal : Nat} (complete : w.barrier.isComplete = true)
    (can : w.canAsk signal = true) : (w.ask signal).silent + 1 = w.silent := by
  obtain ⟨-, s, here, silent⟩ := canAsk_eq_true.mp can
  have settled := isComplete_barrier.mp complete s (List.mem_of_getElem? here)
  obtain ⟨before, after, split, changed⟩ := exists_modify_eq here
  rw [BarrierWait.silent, BarrierWait.silent, ask, changed, split]
  simp [AwaitedSignal.ask_answer settled, silent]
  omega

/-- Once all signals have come, each step of the task brings the end closer, and nothing else puts
it off. -/
lemma Sound.effort_after? (h : w.Sound) (complete : w.barrier.isComplete = true)
    (started : w.stage ≠ .registering) (step : w.after? e = some w') :
    (if e.isTask then 1 else 0) + w'.effort ≤ w.effort := by
  cases e with
  | shown e =>
    cases e <;> simp only [BarrierWait.after?, Option.ite_none_right_eq_some,
      Option.ite_none_left_eq_some, Option.some.injEq] at step
    case register => exact absurd step.1 started
    case await => exact absurd step.1 started
    case fire => simp [CompletionBarrier.isOutstanding_of_isComplete complete] at step
    case drop => simp [CompletionBarrier.isOutstanding_of_isComplete complete] at step
    case look =>
      obtain ⟨asked, awake, -, rfl⟩ := of_release? step
      cases asked <;> simp [effort, awake, Event.isTask]
    case forget =>
      rw [← step.2]
      exact Nat.zero_le _
  | stir =>
    simp only [BarrierWait.after?, Option.ite_none_right_eq_some, Option.some.injEq] at step
    rw [← step.2]
    exact Nat.le_of_eq (Nat.zero_add _)
  | ask signal =>
    simp only [BarrierWait.after?, Option.ite_none_right_eq_some, Option.some.injEq] at step
    obtain ⟨can, rfl⟩ := step
    obtain ⟨⟨asked, awake⟩, -⟩ := canAsk_eq_true.mp can
    have fewer := silent_ask complete can
    have now : (w.ask signal).effort = 4 * (w.ask signal).silent + 3 := rfl
    have was : w.effort = 4 * w.silent + if asked then 3 else 1 := by rw [effort, awake]
    rw [now, was, Event.isTask, if_pos rfl]
    split <;> omega
  | sleep =>
    obtain ⟨asked, awake, unanswered, ⟨watching, -⟩ | ⟨rfl, rfl⟩⟩ := of_sleep? step
    · simp [h.isWatching_eq_false complete unanswered] at watching
    · simp [effort, awake, Event.isTask, silent]
      omega
  | wake =>
    obtain ⟨asleep, rfl⟩ := of_wake? step
    simp [effort, asleep, Event.isTask, silent]
    omega

lemma Sound.effort_run? (h : w.Sound) (complete : w.barrier.isComplete = true)
    (started : w.barrier.stage ≠ .registering) (run : w.run? events = some w') :
    events.countP Event.isTask + w'.effort ≤ w.effort := by
  induction events generalizing w with
  | nil =>
    rw [run?_nil, Option.some.injEq] at run
    simp [run]
  | cons e events ih =>
    rw [run?_cons, Option.bind_eq_some_iff] at run
    obtain ⟨next, step, rest⟩ := run
    have closer := h.effort_after? complete (mt barrier_registering.mpr started) step
    obtain ⟨complete, started⟩ :=
      CompletionBarrier.run?_of_complete complete started (h.barrier_after? step)
    have later := ih (h.after? step) complete started rest
    rw [List.countP_cons]
    omega

lemma Sound.fire_of_gone {signal : Nat} (h : w.Sound) (gone : w.barrier.stage = .gone)
    (step : w.after? (.shown (.fire signal)) = some w') :
    w'.stage = w.stage ∧ w'.woken = w.woken := by
  simp only [BarrierWait.after?, Option.ite_none_right_eq_some, Option.some.injEq] at step
  obtain ⟨outstanding, rfl⟩ := step
  obtain ⟨s, here, -⟩ := exists_outstanding outstanding
  have unwatched := h.gone gone s (List.mem_of_getElem? here)
  refine ⟨rfl, ?_⟩
  simp [BarrierWait.settle, here, unwatched]

open CompletionBarrier (registrations firings drops)

/-- How a wait goes, told by what has happened. -/
structure AnswersFor (w : BarrierWait) (past : List Event) : Prop where
  shows : CompletionBarrier.fresh.run? (shown past) = some w.barrier
  /-- It is not released before all have come, and then tells how. -/
  released : ∀ arrivals, w.stage = .released arrivals →
    firings (shown past) + drops (shown past) = registrations (shown past) ∧
      arrivals = ⟨firings (shown past), drops (shown past)⟩
  /-- Once all have come, the task has a step to take until the wait is over, and it is so after
  a bounded number of them. -/
  ends : w.barrier.stage = .waiting →
    firings (shown past) + drops (shown past) = registrations (shown past) →
      ∀ later w', w.run? later = some w' →
        later.countP Event.isTask ≤ 4 * registrations (shown past) + 3 ∧
          (w'.barrier.stage = .waiting → ∃ e, e.isTask = true ∧ (w'.after? e).isSome = true)
  /-- A signal that is fired when the wait is over wakes nobody. -/
  unmoved : w.barrier.stage = .gone → ∀ signal w',
    w.after? (.shown (.fire signal)) = some w' → w'.stage = w.stage ∧ w'.woken = w.woken

lemma answersFor_of_run? {past : List Event} (run : fresh.run? past = some w) :
    w.AnswersFor past := by
  obtain ⟨sound, shows⟩ := sound_fresh.run? run
  have tallies : w.barrier.Tallies (shown past) := CompletionBarrier.tallies_fresh.run? shows
  constructor
  case shows => exact shows
  case released =>
    intro arrivals released
    obtain ⟨complete, rfl⟩ := sound.released arrivals released
    exact ⟨tallies.isComplete.mp complete, tallies.arrivals complete⟩
  case ends =>
    intro waiting all later w' rest
    have complete := tallies.isComplete.mpr all
    have started : w.barrier.stage ≠ .registering := by simp [waiting]
    obtain ⟨sound', shows'⟩ := sound.run? rest
    constructor
    · have steps := sound.effort_run? complete started rest
      have most := effort_le (w := w)
      rw [tallies.size] at most
      omega
    · intro waiting'
      exact sound'.progress waiting'
        (CompletionBarrier.run?_of_complete complete started shows').1
  case unmoved =>
    intro gone signal w' step
    exact sound.fire_of_gone gone step

/-! ### Released once all have come -/

/-- Whatever the order in which signals are registered, are fired and are dropped, and the wait
starts: it is not released while one is outstanding, and it is released once all have come, with the
numbers of those that came each way. -/
theorem released_once_all_came :
    (∀ past b, CompletionBarrier.fresh.run? past = some b → b.AnswersFor past) ∧
      ∀ past w, BarrierWait.fresh.run? past = some w → w.AnswersFor past :=
  ⟨fun _ _ run => CompletionBarrier.answersFor_of_run? run, fun _ _ run => answersFor_of_run? run⟩

/-- One signal is fired before the wait starts, the other is dropped while the task sleeps. -/
def crossing : List Event :=
  [.shown .register, .shown .register, .shown (.fire 1), .shown .await, .ask 0, .ask 1, .sleep,
    .shown (.drop 0)]

theorem crossing_released :
    ∃ b w, CompletionBarrier.fresh.run? (shown crossing) = some b ∧ fresh.run? crossing = some w ∧
      b.look.1 = .released ⟨1, 1⟩ ∧ w.stage = .asleep ∧
      (∃ e, e.isTask = true ∧ (w.after? e).isSome = true) ∧
      (w.run? [.wake, .ask 0, .shown .look]).map (·.stage) = some (.released ⟨1, 1⟩) := by
  obtain ⟨looks, waits⟩ := released_once_all_came
  refine ⟨_, _, rfl, rfl, ?_, rfl, ?_, rfl⟩
  · rw [(looks (shown crossing) _ rfl).releases rfl rfl]
    rfl
  · exact ((waits crossing _ rfl).ends rfl rfl [] _ rfl).2 rfl

end BarrierWait

end FeatureBatch
