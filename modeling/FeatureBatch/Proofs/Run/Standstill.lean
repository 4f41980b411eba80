import FeatureBatch.Proofs.Run.Effort

/-!
Where a run can stand still. A feature that is queued has a lane that serves it, and the feature that
the caller executes is there to go on; so as long as a run is not over somebody can step, but for a
feature that runs and waits for a permit which nobody hands to it.
-/

namespace FeatureBatch

namespace Lane

variable {crashes : Nat → Bool} {lane : Lane Nat} {move : LaneMove Nat}

lemma exists_move (crashes : Nat → Bool) (serving : lane.status = .serving)
    (some_left : lane.queued ≠ [] ∨ lane.owner = .closed) :
    ∃ move, lane.move? crashes = some move := by
  unfold move?
  rw [serving]
  cases hand : lane.inHand with
  | some job =>
    dsimp only
    split
    · exact ⟨_, rfl⟩
    · split <;> exact ⟨_, rfl⟩
  | none =>
    cases hq : lane.queue with
    | cons job rest => exact ⟨_, rfl⟩
    | nil =>
      rcases some_left with jobs | closed
      · simp [queued, hand, hq] at jobs
      · simp [queueClosed, closed]

lemma queued_after (h : lane.move? crashes = some move)
    (ends : (lane.after move).status ≠ .serving) : (lane.after move).queued = [] := by
  obtain ⟨serving, -⟩ := status_after h
  cases move with
  | take job => exact absurd serving ends
  | start job => exact absurd serving ends
  | crash job unstarted => rfl
  | leave unstarted => rfl

end Lane

lemma Cell.Move.phase {σ : Type} {s : RunState σ} {i : Nat} {c d : Cell} (m : Cell.Move s i c d) :
    (c.run.phase = .queued ∧ (d.run.phase = .running ∨ d.run.phase = .discarded)) ∨
      (c.run.phase = .running ∧ (d.run.phase = .running ∨ d.run.phase = .ended)) := by
  cases m with
  | start queued => exact .inl ⟨queued, .inl rfl⟩
  | discard queued why => exact .inl ⟨queued, .inr (Cell.drop_phase _)⟩
  | pass here passes permits waiter => exact .inr ⟨here.running, .inl here.running⟩
  | look running permits waiter => exact .inr ⟨running, .inl running⟩
  | write here writes => exact .inr ⟨here.running, .inl here.running⟩
  | complete here armed => exact .inr ⟨here.running, .inl here.running⟩
  | report here armed call calls => exact .inr ⟨here.running, .inl here.running⟩
  | reportNext running reports => exact .inr ⟨running, .inl running⟩
  | signal running reports => exact .inr ⟨running, .inl running⟩
  | abandon here => exact .inr ⟨here.running, .inl ((Cell.drop_phase _).trans here.running)⟩
  | finish running idle why => exact .inr ⟨running, .inr (Cell.drop_phase _)⟩

namespace RunState

variable {σ : Type} {w : Suite σ} {a s t : RunState σ} {limiter : AdmissionLimiter} {files : σ}

/-- Whoever has not ended has somebody who sees to it. -/
structure Lodged (s : RunState σ) : Prop where
  queued : ∀ i c, s.cells[i]? = some c → c.run.phase = .queued →
    ∃ lane, s.lane = some lane ∧ lane.status = .serving ∧ i ∈ lane.queued
  executing : ∀ i, s.stage = .executing i →
    ∃ c, s.cells[i]? = some c ∧ (c.run.phase = .running ∨ c.run.phase = .ended)

lemma Submits.lodged {r : Runtime} {d : Cell} (h : Submits s t r d) :
    (d.run.phase = .queued → ∃ lane, t.lane = some lane ∧ lane.status = .serving ∧
      s.features.length ∈ lane.queued) ∧
    (∀ lane, s.lane = some lane → ∃ lane', t.lane = some lane' ∧ lane'.status = lane.status ∧
      ∀ i ∈ lane.queued, i ∈ lane'.queued) ∧
    ∀ i, t.stage = .executing i → i = s.features.length ∧ d.run.phase = .running := by
  have gone : (Cell.fresh s.features.length r).discard.run.phase ≠ .queued := by
    simp [Cell.discard]
  cases h with
  | inline serial calm stage lane =>
    refine ⟨(fun queued => by cases queued), fun lane hl => ?_, fun i executing => ?_⟩
    · rw [serial] at hl
      cases hl
    · rw [stage, CallerStage.executing.injEq] at executing
      exact ⟨executing.symm, rfl⟩
  | @queued lane parallel accepts stage put =>
    simp only [Lane.accepts, Bool.and_eq_true, decide_eq_true_eq] at accepts
    refine ⟨fun _ => ⟨_, put, accepts.2, by simp [Lane.queued]⟩, fun lane' hl => ?_, ?_⟩
    · rw [parallel, Option.some.injEq] at hl
      subst hl
      exact ⟨_, put, rfl, fun i hi => by
        simp only [Lane.queued, ← List.append_assoc]
        exact List.mem_append_left _ hi⟩
    · intro i executing
      rw [stage] at executing
      cases executing
  | rejected parallel rejects stage put =>
    refine ⟨fun queued => absurd queued gone, fun lane' hl => ?_, fun i executing => ?_⟩
    · rw [parallel, Option.some.injEq] at hl
      subst hl
      exact ⟨_, put, rfl, fun i hi => hi⟩
    · rw [stage] at executing
      cases executing
  | gaveUp why stage lane =>
    refine ⟨fun queued => absurd queued gone, fun lane' hl => ?_, fun i executing => ?_⟩
    · exact ⟨lane', lane.trans hl, rfl, fun i hi => hi⟩
    · rw [stage] at executing
      cases executing

lemma dispatches_lodged (lodged : s.Lodged) (sound : Sound w s) (h : Dispatches s t) :
    t.Lodged := by
  have rested : Rests s t → t.lane = s.lane → (∀ i, t.stage ≠ .executing i) → t.Lodged :=
    fun rests lane elsewhere =>
      ⟨by rw [rests.cells, lane]; exact lodged.queued,
        fun i executing => absurd executing (elsewhere i)⟩
  cases h with
  | ended why stage lane rests => exact rested rests lane (by simp [stage])
  | gaveUp why stage lane rests => exact rested rests lane (by simp [stage])
  | took next asked submits pending aligned length cells =>
    obtain ⟨new, old, executing⟩ := submits.lodged
    refine ⟨fun i c hc queued => ?_, fun i here => ?_⟩
    · rw [cells, List.getElem?_append, sound.aligned.length_cells] at hc
      split at hc
      · obtain ⟨lane, hl, serving, hi⟩ := lodged.queued i c hc queued
        obtain ⟨lane', hl', same, kept⟩ := old lane hl
        exact ⟨lane', hl', same.trans serving, kept i hi⟩
      · rw [List.getElem?_singleton] at hc
        split at hc <;> cases hc
        have last : i = s.features.length := by omega
        exact last ▸ new queued
    · obtain ⟨rfl, running⟩ := executing i here
      refine ⟨_, ?_, .inl running⟩
      rw [cells, ← sound.aligned.length_cells]
      exact List.getElem?_concat_length

lemma MovesOne.lodged {i : Nat} {c : Cell} (lodged : s.Lodged) (hc : s.cells[i]? = some c)
    (h : MovesOne s t i c) : t.Lodged := by
  obtain ⟨φ, touches, running, move⟩ := h
  have hset := touches.set hc
  have hi : i < s.cells.length := (List.getElem?_eq_some_iff.mp hc).1
  have moved : (φ c).run.phase = .running ∨ (φ c).run.phase = .ended := by
    rcases move.phase with ⟨queued, -⟩ | ⟨-, moved⟩
    · rw [running] at queued
      cases queued
    · exact moved
  refine ⟨fun j d hd queued => ?_, fun j executing => ?_⟩
  · rw [touches.lane]
    by_cases hj : j = i
    · subst hj
      rw [hset, List.getElem?_set_self hi, Option.some.injEq] at hd
      subst hd
      rcases moved with moved | moved <;> rw [moved] at queued <;> cases queued
    · rw [hset, List.getElem?_set_ne (Ne.symm hj)] at hd
      exact lodged.queued j d hd queued
  · rw [touches.keeps.stage] at executing
    by_cases hj : j = i
    · subst hj
      exact ⟨φ c, by rw [hset, List.getElem?_set_self hi], moved⟩
    · obtain ⟨d, hd, phase⟩ := lodged.executing j executing
      exact ⟨d, by rw [hset, List.getElem?_set_ne (Ne.symm hj), hd], phase⟩

lemma laneStep_lodged (lodged : s.Lodged) (sound : Sound w s) (h : s.laneStep? = some t) :
    t.Lodged := by
  obtain ⟨lane, move, hl, hm, keeps, hl', fates⟩ := laneStep_inv h
  have hcells := fates (sound.nodup lane hl)
  have left := Lane.queued_eq_leaving hm
  refine ⟨fun i d hd queued => ?_, fun i executing => ?_⟩
  · rw [hcells, Option.map_eq_some_iff] at hd
    obtain ⟨c, hc, rfl⟩ := hd
    have stays : i ∉ move.leaving := by
      intro leaves
      simp only [LaneMove.fate, leaves, if_true] at queued
      cases move <;> simp [Cell.start, Cell.discard] at queued
    simp only [LaneMove.fate, stays, if_false] at queued
    obtain ⟨lane', h', serving, hi⟩ := lodged.queued i c hc queued
    rw [hl, Option.some.injEq] at h'
    subst h'
    rw [left, List.mem_append] at hi
    have hi := hi.resolve_left stays
    refine ⟨_, hl', ?_, hi⟩
    by_contra ends
    rw [Lane.queued_after hm ends] at hi
    cases hi
  · rw [keeps.stage] at executing
    obtain ⟨c, hc, phase⟩ := lodged.executing i executing
    refine ⟨c, ?_, phase⟩
    have stays : i ∉ move.leaving := by
      intro leaves
      obtain ⟨c', hc', queued⟩ :=
        sound.queued lane hl i (by rw [left]; exact List.mem_append_left _ leaves)
      rw [hc, Option.some.injEq] at hc'
      subst hc'
      rcases phase with phase | phase <;> rw [queued] at phase <;> cases phase
    rw [hcells, hc]
    simp [LaneMove.fate, stays]

lemma callerStep_lodged (lodged : s.Lodged) (sound : Sound w s) (h : s.callerStep? w = some t) :
    t.Lodged := by
  by_cases dispatching : s.stage = .dispatching
  · exact dispatches_lodged lodged sound (callerStep_dispatches sound.aligned h dispatching).1
  · have rests := callerStep_rests h dispatching
    refine ⟨fun i c hc queued => ?_, fun i executing => ?_⟩
    · rw [rests.cells] at hc
      obtain ⟨lane, hl, serving, hi⟩ := lodged.queued i c hc queued
      rcases callerStep_lane h dispatching with same | ⟨-, lane', owner, hl', -, set⟩
      · exact ⟨lane, same.trans hl, serving, hi⟩
      · rw [hl, Option.some.injEq] at hl'
        subst hl'
        exact ⟨_, set, serving, hi⟩
    · obtain ⟨j, -, -, rfl⟩ := callerStep_early h (by rw [executing]; rfl) dispatching
      cases executing

lemma lodged_start (w : Suite σ) (limiter : AdmissionLimiter) (files : σ) :
    (w.start limiter files).Lodged :=
  ⟨(fun i c hc => by cases hc), (fun i executing => by cases executing)⟩

theorem Reaches.lodged (h : Reaches w a s) (sound : Sound w a) (first : a.Lodged) : s.Lodged := by
  induction h with
  | refl => exact first
  | @step s t p reach next ih =>
    have sound_s := reach.sound sound
    cases p with
    | caller => exact callerStep_lodged ih sound_s next
    | lane => exact laneStep_lodged ih sound_s next
    | feature i task =>
      obtain ⟨c, hc, moves⟩ := featureStep_moves sound_s.aligned next
      exact moves.lodged ih hc
    | pool i =>
      obtain ⟨c, hc, moves⟩ := poolStep_moves sound_s.aligned next
      exact moves.lodged ih hc

/-! ### Nobody can step -/

/-- Nobody can step. -/
def Halted (w : Suite σ) (s : RunState σ) : Prop := ∀ p, s.step? w p = none

/-- The feature runs, but waits for a permit that has not been handed to it. -/
structure Starves (s : RunState σ) (f : FeatureRun) : Prop where
  running : f.phase = .running
  idle : f.completion.isReporting = false
  waits : ∃ n, f.waiter = some n ∧ s.limiter.isReady n = false

lemma act_isSome {i : Nat} {f : FeatureRun} {next : Act} {rest : List Act} :
    ∃ t, s.act w i 0 f next rest = some t := by
  unfold act
  cases next with
  | work tasks =>
    cases tasks with
    | nil => exact ⟨_, rfl⟩
    | cons t ts => exact ⟨_, rfl⟩
  | obtain key init =>
    dsimp only
    split <;> exact ⟨_, rfl⟩
  | acquire => exact ⟨_, rfl⟩
  | release =>
    dsimp only
    split <;> exact ⟨_, rfl⟩
  | complete =>
    dsimp only
    split <;> exact ⟨_, rfl⟩
  | abandon => exact ⟨_, rfl⟩
  | panic payload => exact ⟨_, rfl⟩

lemma featureStep_or_starves {i : Nat} {f : FeatureRun} (hf : s.features[i]? = some f)
    (running : f.phase = .running) : (∃ t, s.featureStep? w i 0 = some t) ∨ s.Starves f := by
  unfold featureStep?
  rw [hf]
  simp only [running, ne_eq, not_true_eq_false, if_false]
  split
  · exact .inl ⟨_, rfl⟩
  · rename_i waiter waits idle
    by_cases ready : s.limiter.isReady waiter = true
    · obtain ⟨answer, poll⟩ := AdmissionLimiter.exists_poll?_of_isReady ready
      left
      rw [if_pos ready, poll]
      exact ⟨_, rfl⟩
    · right
      exact ⟨running, CompletionState.isReporting_eq_false idle, waiter, waits, by simpa using ready⟩
  · exact .inl act_isSome
  · exact .inl ⟨_, rfl⟩

lemma Halted.starves (halted : Halted w s) {i : Nat} {f : FeatureRun}
    (hf : s.features[i]? = some f) (running : f.phase = .running) : s.Starves f := by
  rcases featureStep_or_starves hf running with ⟨t, next⟩ | starves
  · have none_next := halted (.feature i 0)
    rw [step?, next] at none_next
    cases none_next
  · exact starves

lemma Halted.lane_rests (halted : Halted w s) {lane : Lane Nat} (hl : s.lane = some lane)
    (serving : lane.status = .serving) : lane.queued = [] ∧ lane.owner ≠ .closed := by
  have rests : ∀ move, lane.move? s.crashesLane ≠ some move := by
    intro move hm
    have none_next := halted .lane
    simp [step?, laneStep?, hl, hm] at none_next
  constructor
  · by_contra jobs
    obtain ⟨move, hm⟩ := Lane.exists_move s.crashesLane serving (.inl jobs)
    exact rests move hm
  · intro closed
    obtain ⟨move, hm⟩ := Lane.exists_move s.crashesLane serving (.inr closed)
    exact rests move hm

lemma Halted.exists_tearDownStep (halted : Halted w s) (next : CallerStage) :
    s.tearDownStep? next ≠ none := by
  intro none_next
  unfold tearDownStep? at none_next
  split at none_next
  · cases none_next
  · split at none_next
    · rename_i lane hl
      split at none_next
      · cases none_next
      · rename_i not_stopped
        rw [Option.map_eq_none_iff] at none_next
        unfold Lane.stopStep? at none_next
        split at none_next
        · cases none_next
        · cases none_next
        · rename_i closed
          split at none_next
          · rename_i serving
            exact (halted.lane_rests hl serving).2 closed
          · cases none_next
        · rename_i joined
          exact not_stopped (by simp [Lane.isStopped, joined])
    · cases none_next

lemma Halted.takesDown (halted : Halted w s) : s.stage.takesDown = false := by
  have none_next := halted .caller
  simp only [step?, callerStep?] at none_next
  cases hs : s.stage with
  | tearingDown guard =>
    rw [hs] at none_next
    exact absurd none_next (halted.exists_tearDownStep _)
  | unwinding payload =>
    rw [hs] at none_next
    exact absurd none_next (halted.exists_tearDownStep _)
  | _ => rfl

lemma isOver_iff : s.isOver = true ↔ s.isDone = true ∨ ∃ payload, s.stage = .panicked payload := by
  rw [isOver, isDone]
  cases s.stage <;> simp [CallerStage.isOver]

/-- **A run that stands still is over**, or has a feature that waits for a permit for ever. -/
theorem Halted.isOver_or_starves (halted : Halted w s)
    (reach : Reaches w (w.start limiter files) s) :
    s.isOver = true ∨ ∃ (i : Nat) (f : FeatureRun), s.features[i]? = some f ∧ s.Starves f := by
  have going := halted.takesDown
  have sound := reach.sound (sound_start w limiter files)
  have lodged := reach.lodged (sound_start w limiter files) (lodged_start w limiter files)
  have none_next := halted .caller
  simp only [step?, callerStep?] at none_next
  cases hs : s.stage with
  | done | panicked => exact .inl (by rw [isOver, hs]; rfl)
  | tearingDown guard => rw [hs] at going; cases going
  | unwinding payload => rw [hs] at going; cases going
  | executing i =>
    right
    obtain ⟨c, hc, phase⟩ := lodged.executing i hs
    have hf := (cells_eq_some hc).1
    rw [hs] at none_next
    dsimp only at none_next
    refine ⟨i, c.run, hf, halted.starves hf (phase.resolve_right fun ended => ?_)⟩
    rw [hasEnded, hf] at none_next
    simp [ended] at none_next
  | awaiting error =>
    right
    rw [hs] at none_next
    dsimp only at none_next
    have outstanding : ¬ s.AllSettled := by
      intro settled
      rw [(isComplete_iff sound.aligned).mpr settled] at none_next
      cases none_next
    simp only [AllSettled, not_forall] at outstanding
    obtain ⟨i, c, hc, unsettled⟩ := outstanding
    have consistent := reach.consistent hc
    have hf := (cells_eq_some hc).1
    -- The feature has not ended; it is not queued either, for the lane would go on with it.
    cases hp : c.run.phase with
    | running => exact ⟨i, c.run, hf, halted.starves hf hp⟩
    | queued =>
      obtain ⟨lane, hl, serving, hi⟩ := lodged.queued i c hc hp
      rw [(halted.lane_rests hl serving).1] at hi
      cases hi
    | ended => exact absurd (consistent.ended (.inl hp)) unsettled
    | discarded => exact absurd (consistent.ended (.inr hp)) unsettled
  | reporting rest page =>
    rw [hs] at none_next
    cases rest <;> cases none_next
  | hooks rest =>
    rw [hs] at none_next
    cases rest <;> cases none_next
  | _ =>
    rw [hs] at none_next
    cases none_next

end RunState

end FeatureBatch
