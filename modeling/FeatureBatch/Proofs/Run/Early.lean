import FeatureBatch.Proofs.Run.Course

/-!
Runs before the wait is over. As long as a run is early it has no failure, and nothing is taken
down; and if no runtime gives up in being started, the lane takes every job and starts it, so that
dispatching goes on to the first runtime that is refused.
-/

namespace FeatureBatch

/-- No runtime gives up in being started. -/
def Suite.StartsAll {σ : Type} (w : Suite σ) : Prop :=
  ∀ i r, w.runtime? i = some r → r.startPanics = none

namespace RunState

variable {σ : Type} {w : Suite σ} {s t : RunState σ} {limiter : AdmissionLimiter} {files : σ}

/-- Nothing has been taken down and nothing has failed. -/
structure Undisturbed (s : RunState σ) : Prop where
  poolStopped : s.poolStopped = false
  callerTrace : s.callerTrace = []
  failureReason : s.results.failureReason = none

/-- The lane, if there is one, is there to take jobs and to start them. -/
def LaneServes (s : RunState σ) : Prop :=
  ∀ lane, s.lane = some lane → lane.owner = .serving ∧ lane.status = .serving

lemma Undisturbed.keeps (h : s.Undisturbed) (keeps : Keeps s t) : t.Undisturbed where
  poolStopped := keeps.poolStopped.trans h.poolStopped
  callerTrace := keeps.callerTrace.trans h.callerTrace
  failureReason := by rw [keeps.results, h.failureReason]

lemma Undisturbed.dispatches (h : s.Undisturbed) (still : StillDispatching s t) :
    t.Undisturbed where
  poolStopped := still.poolStopped.trans h.poolStopped
  callerTrace := still.callerTrace.trans h.callerTrace
  failureReason := still.failureReason.trans h.failureReason

lemma Reaches.undisturbed (h : Reaches w (w.start limiter files) s)
    (early : s.stage.isEarly = true) : s.Undisturbed := by
  induction h with
  | refl => exact ⟨rfl, rfl, rfl⟩
  | @step s t p reach next ih =>
    have sound := reach.sound (sound_start w limiter files)
    have early_s := Reaches.isEarly_before (.step p (.refl s) next) sound early
    have undisturbed := ih early_s
    by_cases hp : p = .caller
    · subst hp
      by_cases dispatching : s.stage = .dispatching
      · exact undisturbed.dispatches (callerStep_dispatches sound.aligned next dispatching).2
      · obtain ⟨i, -, -, rfl⟩ := callerStep_early next early dispatching
        exact ⟨undisturbed.1, undisturbed.2, undisturbed.3⟩
    · exact undisturbed.keeps (step_keeps sound next hp)

lemma crashesLane_eq_false (starts : w.StartsAll) (sound : Sound w s) (i : Nat) :
    s.crashesLane i = false := by
  unfold crashesLane
  split
  · rename_i f hf
    obtain ⟨c, hc, rfl⟩ := sound.aligned.exists_cell hf
    obtain ⟨r, hr, -, same⟩ := sound.made i c hc
    rw [same, starts i r hr]
    rfl
  · rfl

lemma LaneServes.after (serves : s.LaneServes) (starts : w.StartsAll) (sound : Sound w s)
    {lane : Lane Nat} {move : LaneMove Nat} (hl : s.lane = some lane)
    (hm : lane.move? s.crashesLane = some move) :
    (lane.after move).owner = .serving ∧ (lane.after move).status = .serving := by
  obtain ⟨owner, -⟩ := serves lane hl
  obtain ⟨-, same, serving | ⟨-, stopping⟩ | ⟨-, i, -, crashes⟩⟩ := Lane.status_after hm
  · exact ⟨same.trans owner, serving⟩
  · exact absurd owner stopping
  · rw [crashesLane_eq_false starts sound] at crashes
    cases crashes

lemma LaneServes.not_laneEnds (serves : s.LaneServes) (starts : w.StartsAll) (sound : Sound w s) :
    ¬ s.LaneEnds := by
  rintro ⟨lane, move, hl, hm, ends⟩
  exact ends (serves.after starts sound hl hm).2

lemma Reaches.laneServes (h : Reaches w (w.start limiter files) s) (starts : w.StartsAll)
    (early : s.stage.isEarly = true) : s.LaneServes := by
  induction h with
  | refl =>
    intro lane hl
    unfold Suite.start at hl
    dsimp only at hl
    split at hl <;> cases hl
    exact ⟨rfl, rfl⟩
  | @step s t p reach next ih =>
    have sound := reach.sound (sound_start w limiter files)
    have serves := ih (Reaches.isEarly_before (.step p (.refl s) next) sound early)
    intro lane' hl'
    cases p with
    | caller =>
      by_cases dispatching : s.stage = .dispatching
      · obtain ⟨dispatches, -⟩ := callerStep_dispatches sound.aligned next dispatching
        cases dispatches with
        | ended why stage lane rests => exact serves lane' (lane ▸ hl')
        | gaveUp why stage lane rests => exact serves lane' (lane ▸ hl')
        | took asked next submits pending aligned length cells =>
          cases submits with
          | inline serial calm stage lane => rw [lane] at hl'; cases hl'
          | @queued lane parallel accepts stage put =>
            rw [put, Option.some.injEq] at hl'
            subst hl'
            exact serves lane parallel
          | @rejected lane parallel rejects stage put =>
            rw [put, Option.some.injEq] at hl'
            subst hl'
            exact serves lane parallel
          | gaveUp why stage lane => exact serves lane' (lane ▸ hl')
      · obtain ⟨i, -, -, rfl⟩ := callerStep_early next early dispatching
        exact serves lane' hl'
    | lane =>
      obtain ⟨lane, move, hl, hm, -, put, -⟩ := laneStep_inv next
      rw [put, Option.some.injEq] at hl'
      subst hl'
      exact serves.after starts sound hl hm
    | feature i task =>
      obtain ⟨_, _, _, touches, _⟩ := featureStep_moves sound.aligned next
      exact serves lane' (touches.lane ▸ hl')
    | pool i =>
      obtain ⟨_, _, _, touches, _⟩ := poolStep_moves sound.aligned next
      exact serves lane' (touches.lane ▸ hl')

lemma LaneServes.accepts (serves : s.LaneServes) {lane : Lane Nat} (hl : s.lane = some lane) :
    lane.accepts = true := by
  obtain ⟨owner, status⟩ := serves lane hl
  simp [Lane.accepts, owner, status]

/-- **Nothing is let go unstarted** while a run is early, if no runtime gives up in being
started. -/
lemma Reaches.not_discarded (h : Reaches w (w.start limiter files) s) (starts : w.StartsAll)
    (early : s.stage.isEarly = true) {i : Nat} {c : Cell} (hc : s.cells[i]? = some c) :
    c.run.phase ≠ .discarded := by
  have sound := sound_start w limiter files
  obtain ⟨r, hr, -⟩ := (h.sound sound).made i c hc
  refine h.cells_induction (P := fun _ _ c => c.run.phase ≠ .discarded) sound ?_ ?_ ?_ hc hr
  · intro i r c hc
    cases hc
  · intro t u r d reach dispatching hu hus _ submits
    have early_t : t.stage.isEarly = true := by rw [dispatching]; rfl
    have early_u := hus.isEarly_before (hu.sound sound) early
    cases submits with
    | inline serial calm stage lane => simp [Cell.start]
    | queued parallel accepts stage put => simp [Cell.fresh]
    | rejected parallel rejects stage put =>
      rw [(reach.laneServes starts early_t).accepts parallel] at rejects
      cases rejects
    | gaveUp why stage lane => rw [stage] at early_u; cases early_u
  · intro t i r c d reach hts hc hr m kept
    have early_t := hts.isEarly_before (reach.sound sound) early
    cases m with
    | start queued => simp [Cell.start]
    | discard queued why =>
      -- Jobs are dropped from a lane only when its thread ends, and this one serves.
      exact absurd why ((reach.laneServes starts early_t).not_laneEnds starts (reach.sound sound))
    | finish running idle why => simp [Cell.finish, Cell.ended]
    | abandon here => simpa [Cell.withActs] using kept
    | _ => exact kept

/-! ### Where dispatching ends -/

lemma features_length_le (sound : Sound w s) : s.features.length ≤ w.creations.length := by
  by_contra more
  have hi : w.creations.length < s.cells.length := by rw [sound.aligned.length_cells]; omega
  obtain ⟨r, hr, -⟩ := sound.made _ _ (List.getElem?_eq_getElem hi)
  simp [Suite.runtime?] at hr

/-- How far dispatching goes: to the end, or to the first runtime that is refused. -/
inductive DispatchEnd (w : Suite σ) (n : Nat) : Option SuiteError → Prop where
  | all (length : n = w.creations.length) : DispatchEnd w n none
  | refused {feature : Feature} {reason : String}
      (here : w.creations[n]? = some (feature, .refused reason)) :
      DispatchEnd w n (some (.runtime feature.display reason))

lemma Stops.dispatchEnd {error : Option SuiteError} (why : Stops s error) (sound : Sound w s)
    (dispatching : s.stage = .dispatching) : DispatchEnd w s.features.length error := by
  cases why with
  | all none_left =>
    have pending := sound.pending (.inl dispatching)
    rw [none_left, eq_comm, List.drop_eq_nil_iff] at pending
    exact .all (Nat.le_antisymm (features_length_le sound) pending)
  | refused next => exact .refused (sound.next dispatching next).1

/-- **Dispatching stops for nothing but a refusal**, if no runtime gives up in being started and the
dispatching does not give up. -/
lemma Reaches.dispatchEnd (h : Reaches w (w.start limiter files) s) (starts : w.StartsAll)
    {error : Option SuiteError} (waiting : s.stage = .awaiting error) :
    DispatchEnd w s.features.length error := by
  induction h with
  | refl => cases waiting
  | @step s t p reach next ih =>
    have sound := reach.sound (sound_start w limiter files)
    by_cases hp : p = .caller
    · subst hp
      by_cases dispatching : s.stage = .dispatching
      · obtain ⟨dispatches, -⟩ := callerStep_dispatches sound.aligned next dispatching
        cases dispatches with
        | ended why stage lane rests =>
          rw [stage, CallerStage.awaiting.injEq] at waiting
          rw [rests.features, ← waiting]
          exact why.dispatchEnd sound dispatching
        | gaveUp why stage lane rests => rw [stage] at waiting; cases waiting
        | took asked next submits pending aligned length cells =>
          cases submits with
          | inline serial calm stage lane => rw [stage] at waiting; cases waiting
          | queued parallel accepts stage put => rw [stage] at waiting; cases waiting
          | rejected parallel rejects stage put =>
            have early : s.stage.isEarly = true := by rw [dispatching]; rfl
            rw [(reach.laneServes starts early).accepts parallel] at rejects
            cases rejects
          | gaveUp why stage lane => rw [stage] at waiting; cases waiting
      · obtain ⟨i, -, -, rfl⟩ := callerStep_early next (by rw [waiting]; rfl) dispatching
        cases waiting
    · have keeps := step_keeps sound next hp
      rw [keeps.features]
      exact ih (keeps.stage.symm.trans waiting)

end RunState

end FeatureBatch
