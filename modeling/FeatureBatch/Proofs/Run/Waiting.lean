import FeatureBatch.Proofs.Run.Course

/-!
The wait. A run that waits does not go on before every signal has come, and in a serial run every
feature but the one that runs has settled anyway. Only a parallel run whose dispatching gives up
goes on with signals outstanding.
-/

namespace FeatureBatch

namespace RunState

variable {σ : Type} {w : Suite σ} {a s t : RunState σ} {limiter : AdmissionLimiter} {files : σ}

/-- Every feature that was registered has signalled or has dropped its completion. -/
def AllSettled (s : RunState σ) : Prop :=
  ∀ (i : Nat) (c : Cell), s.cells[i]? = some c → c.IsSettled

/-- The caller has waited on the way from `a` to `s`: dispatching ended, with an error or without,
and did not give up. -/
def Awaited (w : Suite σ) (a s : RunState σ) : Prop :=
  ∃ t error, Reaches w a t ∧ t.stage = .awaiting error ∧ Reaches w t s

/-- Dispatching has given up on the way from `a` to `s`. -/
inductive Unwound (w : Suite σ) (a s : RunState σ) : Prop where
  | mk {t u : RunState σ} {payload : PanicPayload} (reach : Reaches w a t)
      (dispatching : t.stage = .dispatching) (why : Unwinds t payload)
      (next : t.step? w .caller = some u) (failing : u.stage = .failing (.panic payload.message))
      (reaches : Reaches w u s)

lemma isComplete_iff (al : s.Aligned) : s.barrier.isComplete = true ↔ s.AllSettled := by
  unfold CompletionBarrier.isComplete AllSettled
  rw [Bool.not_eq_true', List.contains_eq_mem, decide_eq_false_iff_not, ← al.map_signal]
  constructor
  · intro complete i c hc outstanding
    exact complete (List.mem_map.mpr ⟨c, List.mem_of_getElem? hc, outstanding⟩)
  · intro settled mem
    obtain ⟨c, hc, outstanding⟩ := List.mem_map.mp mem
    obtain ⟨i, hi⟩ := List.getElem?_of_mem hc
    exact settled i c hi outstanding

lemma step_settled {p : Party} (reach : Reaches w (w.start limiter files) s)
    (h : s.step? w p = some t) {i : Nat} {c : Cell} (hc : s.cells[i]? = some c)
    (settled : c.IsSettled) : ∃ d, t.cells[i]? = some d ∧ d.signal = c.signal := by
  obtain ⟨d, hd, same | move⟩ := ((reach.sound (sound_start w limiter files)).step h).2.kept i c hc
  · exact ⟨d, hd, by rw [same]⟩
  · exact ⟨d, hd, move.signal_eq (reach.consistent hc) settled⟩

lemma step_cells {p : Party} (sound : Sound w s) (h : s.step? w p = some t)
    (later : s.stage ≠ .dispatching) {i : Nat} {d : Cell} (hd : t.cells[i]? = some d) :
    ∃ c, s.cells[i]? = some c ∧ (d = c ∨ Cell.Move s i c d) := by
  obtain ⟨-, advances⟩ := sound.step h
  cases hc : s.cells[i]? with
  | none => exact absurd (advances.new i d hc hd).2.1 later
  | some c =>
    obtain ⟨d', hd', same⟩ := advances.kept i c hc
    rw [hd, Option.some.injEq] at hd'
    exact ⟨c, rfl, hd' ▸ same⟩

lemma AllSettled.step {p : Party} (settled : s.AllSettled)
    (reach : Reaches w (w.start limiter files) s) (later : s.stage ≠ .dispatching)
    (h : s.step? w p = some t) : t.AllSettled := by
  intro i d hd
  have sound := reach.sound (sound_start w limiter files)
  obtain ⟨c, hc, -⟩ := step_cells sound h later hd
  obtain ⟨d', hd', same⟩ := step_settled reach h hc (settled i c hc)
  rw [hd, Option.some.injEq] at hd'
  rw [Cell.IsSettled, hd', same]
  exact settled i c hc

/-! ### Waiting -/

lemma Reaches.waits {error : Option SuiteError} (reach : Reaches w (w.start limiter files) t)
    (waiting : t.stage = .awaiting error) (h : Reaches w t s) :
    s.stage = .awaiting error ∨ s.stage.isEarly = false ∧ s.AllSettled := by
  induction h with
  | refl => exact .inl waiting
  | @step s u p reaches next ih =>
    have reach_s := reach.trans reaches
    have sound := reach_s.sound (sound_start w limiter files)
    rcases ih with awaiting | ⟨late, settled⟩
    · by_cases hp : p = .caller
      · subst hp
        obtain ⟨complete, rfl⟩ := callerStep_awaiting next awaiting
        have settled := (isComplete_iff sound.aligned).mp complete
        refine .inr ⟨leaveWaiting_stage w s error, ?_⟩
        unfold AllSettled
        rw [(leaveWaiting_rests w s error).cells]
        exact settled
      · exact .inl ((step_keeps sound next hp).stage.trans awaiting)
    · exact .inr ⟨step_isEarly sound next late,
        settled.step reach_s (CallerStage.ne_dispatching late) next⟩

/-- **A run gets late by its wait** or, if dispatching gives up, without one. -/
theorem Reaches.awaited_or_unwound (h : Reaches w a s) (sound : Sound w a)
    (early : a.stage.isEarly = true) (late : s.stage.isEarly = false) :
    Awaited w a s ∨ Unwound w a s := by
  induction h with
  | refl => rw [early] at late; cases late
  | @step s t p reach next ih =>
    by_cases early_s : s.stage.isEarly = true
    · obtain ⟨rfl, ⟨error, waiting, -, -⟩ | ⟨dispatching, payload, why, failing⟩⟩ :=
        step_turns (reach.sound sound) next early_s late
      · exact .inl ⟨s, error, reach, waiting, .step _ (.refl s) next⟩
      · exact .inr ⟨reach, dispatching, why, next, failing, .refl t⟩
    · rcases ih (by simpa using early_s) with waits | unwound
      · obtain ⟨u, error, hu, waiting, reaches⟩ := waits
        exact .inl ⟨u, error, hu, waiting, .step p reaches next⟩
      · obtain ⟨hu, dispatching, why, gaveUp, failing, reaches⟩ := unwound
        exact .inr ⟨hu, dispatching, why, gaveUp, failing, .step p reaches next⟩

/-! ### Serial runs -/

lemma step_lane {p : Party} (sound : Sound w s) (h : s.step? w p = some t) :
    t.lane = none ↔ s.lane = none := by
  cases p with
  | caller =>
    by_cases dispatching : s.stage = .dispatching
    · obtain ⟨dispatches, -⟩ := callerStep_dispatches sound.aligned h dispatching
      cases dispatches with
      | ended why stage lane rests => rw [lane]
      | gaveUp why stage lane rests => rw [lane]
      | took next asked submits pending aligned length cells =>
        cases submits with
        | inline serial calm stage lane => rw [lane, serial]
        | queued parallel accepts stage put => simp [put, parallel]
        | rejected parallel rejects stage put => simp [put, parallel]
        | gaveUp why stage lane => rw [lane]
    · rcases callerStep_lane h dispatching with same | ⟨-, lane, owner, hl, -, set⟩
      · rw [same]
      · simp [set, hl]
  | lane =>
    obtain ⟨lane, move, hl, -, -, hl', -⟩ := laneStep_inv h
    simp [hl', hl]
  | feature i task =>
    obtain ⟨_, _, _, touches, _⟩ := featureStep_moves sound.aligned h
    rw [touches.lane]
  | pool i =>
    obtain ⟨_, _, _, touches, _⟩ := poolStep_moves sound.aligned h
    rw [touches.lane]

lemma Reaches.lane_eq_none (h : Reaches w a s) (sound : Sound w a) :
    s.lane = none ↔ a.lane = none := by
  induction h with
  | refl => exact Iff.rfl
  | step p reaches next ih => exact (step_lane (reaches.sound sound) next).trans ih

lemma Reaches.serial (h : Reaches w (w.start limiter files) s) (no_lane : s.lane = none) :
    ∀ i c, s.cells[i]? = some c → c.IsSettled ∨ s.stage = .executing i := by
  induction h with
  | refl =>
    intro i c hc
    cases hc
  | @step s t p reach next ih =>
    intro i d hd
    have sound := reach.sound (sound_start w limiter files)
    have serial := ih ((step_lane sound next).mp no_lane)
    obtain ⟨-, advances⟩ := sound.step next
    cases hc : s.cells[i]? with
    | none =>
      obtain ⟨rfl, -, r, -, -, submits⟩ := advances.new i d hc hd
      cases submits with
      | inline _ calm stage lane => exact .inr stage
      | queued parallel accepts stage put => simp [put] at no_lane
      | rejected parallel rejects stage put => simp [put] at no_lane
      | gaveUp why stage lane =>
        exact .inl (((Cell.consistent_fresh _ r).discard rfl).ended (.inr rfl))
    | some c =>
      by_cases settled : c.IsSettled
      · obtain ⟨d', hd', same⟩ := step_settled reach next hc settled
        rw [hd, Option.some.injEq] at hd'
        left
        rw [Cell.IsSettled, hd', same]
        exact settled
      · -- Only the feature that is executed is left, and the caller waits for it to end.
        have executing := (serial i c hc).resolve_left settled
        by_cases hp : p = .caller
        · subst hp
          left
          obtain ⟨ended, rfl⟩ := callerStep_executing next executing
          have same : s.cells[i]? = some d := hd
          rw [hc, Option.some.injEq] at same
          subst same
          refine (reach.consistent hc).ended (.inl ?_)
          rw [hasEnded, (cells_eq_some hc).1] at ended
          simpa using ended
        · exact .inr ((step_keeps sound next hp).stage.trans executing)

/-- **What is waited for.** Unless a parallel run's dispatching gives up, every signal has come
before the run goes on. -/
theorem allSettled_of_late (h : Reaches w (w.start limiter files) s)
    (waits : Awaited w (w.start limiter files) s ∨ s.lane = none)
    (late : s.stage.isEarly = false) : s.AllSettled := by
  rcases waits with ⟨t, error, reach, waiting, reaches⟩ | no_lane
  · rcases reach.waits waiting reaches with awaiting | ⟨-, settled⟩
    · rw [awaiting] at late
      cases late
    · exact settled
  · intro i c hc
    refine (h.serial no_lane i c hc).resolve_right fun executing => ?_
    rw [executing] at late
    cases late

end RunState

end FeatureBatch
