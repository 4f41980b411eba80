import Mathlib.Data.List.Basic
import Mathlib.Tactic.Common
import FeatureBatch.Exec.Limiter

/-!
A limiter that is closed. Nothing but the closing changes whether it is closed, so it stays so
whatever its holders do, and nobody gets a permit from it any more.
-/

namespace FeatureBatch

namespace AdmissionLimiter

@[simp] lemma giveBack_closed (l : AdmissionLimiter) : l.giveBack.closed = l.closed := by
  unfold giveBack
  split <;> rename_i h <;> simp_all

@[simp] lemma tryAcquire_closed (l : AdmissionLimiter) : l.tryAcquire.2.closed = l.closed := by
  unfold tryAcquire
  split <;> rfl

@[simp] lemma acquire_closed (l : AdmissionLimiter) : l.acquire.2.closed = l.closed := by
  unfold acquire
  split
  · rfl
  · split <;> rfl

@[simp] lemma cancel_closed (l : AdmissionLimiter) (waiter : Nat) :
    (l.cancel waiter).closed = l.closed := by
  unfold cancel
  split
  · rw [giveBack_closed]
  · rfl

@[simp] lemma release_closed (l : AdmissionLimiter) (permit : Nat) :
    (l.release permit).2.closed = l.closed := by
  unfold release
  split
  · exact giveBack_closed _
  · rfl

@[simp] lemma releaseAll_closed (l : AdmissionLimiter) (permits : List Nat) :
    (l.releaseAll permits).closed = l.closed := by
  induction permits generalizing l with
  | nil => rfl
  | cons p ps ih => exact (ih (l.release p).2).trans (release_closed l p)

lemma poll?_closed {l l' : AdmissionLimiter} {waiter : Nat} {admission : Admission}
    (h : l.poll? waiter = some (admission, l')) : l'.closed = l.closed := by
  unfold poll? at h
  split at h
  · cases h
  · split at h
    · cases h
      exact cancel_closed l waiter
    · split at h <;> cases h <;> rfl

lemma poll?_of_isReady {l l' : AdmissionLimiter} {waiter : Nat} {admission : Admission}
    (ready : l.isReady waiter = true) (h : l.poll? waiter = some (admission, l')) :
    ∀ w, admission ≠ .waiting w := by
  simp only [isReady, Bool.and_eq_true, Bool.or_eq_true] at ready
  unfold poll? at h
  split at h
  · cases h
  · split at h
    · cases h
      simp
    · rename_i open_
      split at h
      · cases h
        simp
      · rename_i not_granted
        rcases ready.2 with closed | granted
        · exact absurd closed open_
        · exact absurd granted not_granted

lemma exists_poll?_of_isReady {l : AdmissionLimiter} {waiter : Nat}
    (ready : l.isReady waiter = true) : ∃ answer, l.poll? waiter = some answer := by
  simp only [isReady, Bool.and_eq_true] at ready
  unfold poll?
  rw [ready.1]
  dsimp only [Bool.not_true]
  split
  · rename_i h
    cases h
  · split
    · exact ⟨_, rfl⟩
    · split <;> exact ⟨_, rfl⟩

/-! ### After the closing -/

/-- The limiter gives nothing to anybody. -/
structure GivesNothing (l : AdmissionLimiter) : Prop where
  closed : l.closed = true
  tryAcquire : l.tryAcquire = (none, l)
  acquire : l.acquire = (.closed, l)
  /-- Whoever waits is told, also who has been handed a permit before. -/
  poll : ∀ waiter, l.isWaiting waiter = true → l.poll? waiter = some (.closed, l.cancel waiter)

lemma givesNothing_of_closed {l : AdmissionLimiter} (closed : l.closed = true) :
    l.GivesNothing where
  closed := closed
  tryAcquire := by simp [AdmissionLimiter.tryAcquire, closed]
  acquire := by simp [AdmissionLimiter.acquire, closed]
  poll waiter waits := by simp [AdmissionLimiter.poll?, waits, closed]

lemma after_closed {l : AdmissionLimiter} (e : Event) (closed : l.closed = true) :
    (l.after e).closed = true := by
  cases e with
  | tryAcquire => exact (tryAcquire_closed l).trans closed
  | acquire => exact (acquire_closed l).trans closed
  | poll waiter =>
    show (((l.poll? waiter).map Prod.snd).getD l).closed = true
    cases h : l.poll? waiter with
    | none => exact closed
    | some answer => exact (poll?_closed h).trans closed
  | cancel waiter => exact (cancel_closed l waiter).trans closed
  | release permit => exact (release_closed l permit).trans closed
  | close => rfl

/-- **A closed limiter stays closed**, whatever is done with it and through whichever of its
clones. -/
theorem GivesNothing.afterAll {l : AdmissionLimiter} (h : l.GivesNothing) (events : List Event) :
    (l.afterAll events).GivesNothing := by
  induction events generalizing l with
  | nil => exact h
  | cons e es ih => exact ih (givesNothing_of_closed (after_closed e h.closed))

end AdmissionLimiter

end FeatureBatch
