import FeatureBatch.Proofs.Run.Reach

/-!
The course of a feature: its completion and its signal tell the same, a feature that waits in the
lane still has its completion, and one that is over has signalled or dropped it. What has been
settled stays settled.
-/

namespace FeatureBatch

/-- What has come of the signal of a completion. -/
def CompletionState.signal : CompletionState → SignalState
  | .armed => .outstanding
  | .reporting _ _ _ => .outstanding
  | .used => .fired
  | .dropped => .dropped

namespace Cell

structure Consistent (c : Cell) : Prop where
  signal : c.signal = c.run.completion.signal
  queued : c.run.phase = .queued → c.run.completion = .armed
  ended : c.run.phase = .ended ∨ c.run.phase = .discarded → c.IsSettled

variable {σ : Type} {s t : RunState σ} {i : Nat} {c d : Cell}

lemma isSettled_of_completion (h : c.signal = c.run.completion.signal)
    (armed : c.run.completion ≠ .armed) (idle : c.run.completion.isReporting = false) :
    c.IsSettled := by
  unfold IsSettled
  rw [h]
  cases hk : c.run.completion with
  | armed => exact absurd hk armed
  | reporting snapshot call rest =>
    rw [hk] at idle
    cases idle
  | used => simp [CompletionState.signal]
  | dropped => simp [CompletionState.signal]

lemma drop_of_armed (armed : c.run.completion = .armed) :
    c.drop = { c with run := { c.run with completion := .dropped }
                      signal := settle c.signal .dropped } := by
  unfold drop
  rw [armed]

lemma drop_of_gone (gone : c.run.completion ≠ .armed) : c.drop = c := by
  unfold drop
  split
  · rename_i armed
    exact absurd armed gone
  · rfl

@[simp] lemma drop_phase (c : Cell) : c.drop.run.phase = c.run.phase := by
  unfold drop
  split <;> rfl

lemma drop_spec (h : c.signal = c.run.completion.signal) :
    c.drop.signal = c.drop.run.completion.signal ∧
      (c.run.completion.isReporting = false → c.drop.IsSettled) := by
  unfold drop
  split
  · rename_i armed
    rw [armed] at h
    refine ⟨?_, fun _ => ?_⟩ <;> simp [h, Cell.settle, CompletionState.signal, IsSettled]
  · rename_i gone
    exact ⟨h, isSettled_of_completion h fun armed => gone armed⟩

lemma Consistent.not_armed (h : c.Consistent) (settled : c.IsSettled) :
    c.run.completion ≠ .armed := fun armed =>
  settled (by rw [h.signal, armed]; rfl)

lemma Consistent.discard (h : c.Consistent) (queued : c.run.phase = .queued) :
    c.discard.Consistent := by
  have armed := h.queued queued
  have spec := drop_spec (c := { c with run := { c.run with phase := .discarded } }) h.signal
  have idle : c.run.completion.isReporting = false := by rw [armed]; rfl
  exact ⟨spec.1, fun q => absurd q (by simp [Cell.discard]), fun _ => spec.2 idle⟩

lemma consistent_fresh (i : Nat) (r : Runtime) : (fresh i r).Consistent :=
  ⟨rfl, fun _ => rfl, by simp [fresh]⟩

lemma consistent_fire (running : c.run.phase = .running)
    (outstanding : c.signal = .outstanding) : c.fire.Consistent := by
  refine ⟨?_, fun q => ?_, fun o => ?_⟩
  · simp [fire, settle, outstanding, CompletionState.signal]
  · rw [show c.fire.run.phase = c.run.phase from rfl, running] at q
    cases q
  · rw [show c.fire.run.phase = c.run.phase from rfl, running] at o
    simp at o

lemma consistent_of_running (running : d.run.phase = .running)
    (h : d.signal = d.run.completion.signal) : d.Consistent :=
  ⟨h, by simp [running], by simp [running]⟩

lemma outstanding_of_isReporting (h : c.Consistent)
    (reports : c.run.completion.isReporting = true) : c.signal = .outstanding := by
  rw [h.signal]
  cases hk : c.run.completion with
  | reporting snapshot call rest => rfl
  | _ => rw [hk] at reports; cases reports

lemma Consistent.move (h : c.Consistent) (m : Move s i c d) : d.Consistent := by
  cases m with
  | start queued => exact consistent_of_running rfl h.signal
  | discard queued why => exact h.discard queued
  | pass here passes permits waiter => exact consistent_of_running here.running h.signal
  | look running permits waiter => exact consistent_of_running running h.signal
  | write here writes => exact consistent_of_running here.running h.signal
  | complete here armed =>
    exact consistent_fire here.running (by rw [withActs, h.signal, armed]; rfl)
  | report here armed call calls =>
    refine consistent_of_running here.running ?_
    exact h.signal.trans (by rw [armed]; rfl)
  | reportNext running reports =>
    have outstanding := outstanding_of_isReporting h reports
    exact consistent_of_running running outstanding
  | signal running reports => exact consistent_fire running (outstanding_of_isReporting h reports)
  | abandon here =>
    rename_i rest
    have spec := drop_spec (c := c.withActs rest c.run.permits c.run.waiter) h.signal
    exact consistent_of_running ((drop_phase _).trans here.running) spec.1
  | finish running idle why =>
    have spec := drop_spec (c := c.ended) h.signal
    exact ⟨spec.1, fun q => absurd q (by simp [Cell.finish, Cell.ended]), fun _ => spec.2 idle⟩

lemma Move.signal_eq (m : Move s i c d) (h : c.Consistent) (settled : c.IsSettled) :
    d.signal = c.signal := by
  have not_reporting : c.run.completion.isReporting ≠ true := fun reports =>
    settled (outstanding_of_isReporting h reports)
  have not_armed := h.not_armed settled
  cases m with
  | start queued => rfl
  | discard queued why => exact absurd (h.queued queued) not_armed
  | pass here passes permits waiter => rfl
  | look running permits waiter => rfl
  | write here writes => rfl
  | complete here armed => exact absurd armed not_armed
  | report here armed call calls => exact absurd armed not_armed
  | reportNext running reports => exact absurd reports not_reporting
  | signal running reports => exact absurd reports not_reporting
  | @abandon rest here =>
    rw [drop_of_gone (c := c.withActs rest c.run.permits c.run.waiter) not_armed]
    rfl
  | finish running idle why =>
    rw [Cell.finish, drop_of_gone (c := c.ended) not_armed]
    rfl

end Cell

namespace RunState

variable {σ : Type} {w : Suite σ} {a s t : RunState σ}

lemma signal_of_settled {c : Cell} (settled : c.IsSettled) :
    (if decide (c.signal = .fired) then SignalState.fired else .dropped) = c.signal := by
  cases h : c.signal with
  | outstanding => exact absurd h settled
  | fired => rfl
  | dropped => rfl

lemma Submits.consistent {r : Runtime} {d : Cell} (h : Submits s t r d) : d.Consistent := by
  cases h with
  | inline serial calm stage lane => exact Cell.consistent_of_running rfl rfl
  | queued parallel accepts stage put => exact Cell.consistent_fresh _ r
  | rejected parallel rejects stage put => exact (Cell.consistent_fresh _ r).discard rfl
  | gaveUp why stage lane => exact (Cell.consistent_fresh _ r).discard rfl

theorem Reaches.consistent {limiter : AdmissionLimiter} {files : σ}
    (h : Reaches w (w.start limiter files) s) {i : Nat} {c : Cell} (hc : s.cells[i]? = some c) :
    c.Consistent := by
  obtain ⟨r, hr, -⟩ := (h.sound (sound_start w limiter files)).made i c hc
  refine h.cells_induction (P := fun _ _ c => c.Consistent) (sound_start w limiter files)
    ?_ ?_ ?_ hc hr
  · intro i r c hc
    cases hc
  · exact fun _ _ _ _ _ submits => submits.consistent
  · exact fun _ _ _ _ m consistent => consistent.move m

end RunState

end FeatureBatch
