import FeatureBatch.Proofs.Exec.Limiter
import FeatureBatch.Proofs.Run.Samples
import FeatureBatch.Proofs.Run.Standstill
import FeatureBatch.Proofs.Run.Stories

/-!
Taking down. However a run has come to its end, and also if the suite is dropped without being run,
the lane is stopped before the pool, the pool is stopped together with the limiter's closing, and
each of it happens once, whoever asks for it; no feature is started after that.
-/

namespace FeatureBatch

/-- A suite is run, or it is dropped without being run. -/
inductive Suite.Begins {σ : Type} (w : Suite σ) (limiter : AdmissionLimiter) (files : σ) :
    RunState σ → Prop where
  | run : w.Begins limiter files (w.start limiter files)
  | drop : w.Begins limiter files (Suite.drop (w.start limiter files))

namespace RunState

variable {σ : Type} {w : Suite σ} {a s t : RunState σ} {limiter : AdmissionLimiter} {files : σ}

/-- What the trace tells of taking down. -/
def takenDown (s : RunState σ) : List RunEvent := s.trace.filter RunEvent.isTeardown

/-- The features that were started, in the order of starting. -/
def startedFeatures (s : RunState σ) : List Nat :=
  s.trace.filterMap fun
    | .started i => some i
    | _ => none

/-- The owner of the lane has stopped it. -/
def laneStopped (s : RunState σ) : Bool := s.lane.any Lane.isStopped

/-- The trace tells what is taken down, and the pool is never stopped with the lane or the limiter
left. -/
structure Dismantles (s : RunState σ) : Prop where
  told : s.takenDown = (if s.laneStopped then [.laneStopped] else []) ++
    if s.poolStopped then [.poolStopped, .limiterClosed] else []
  joined : ∀ lane, s.lane = some lane → lane.isStopped = true → lane.status ≠ .serving
  left : ∀ lane, s.lane = some lane → lane.status ≠ .serving → lane.queued = []
  lane : s.poolStopped = true → ∀ lane, s.lane = some lane → lane.isStopped = true
  limiter : s.poolStopped = true → s.limiter.closed = true
  stage : s.poolStopped = true → s.isOver = true ∨ s.stage.takesDown = true
  finished : s.isOver = true → s.poolStopped = true

lemma takenDown_eq (s : RunState σ) : s.takenDown = s.callerTrace.filter RunEvent.isTeardown := by
  unfold takenDown callerTrace
  rw [List.filter_filter]
  congr 1
  funext e
  cases e <;> rfl

lemma takenDown_append {events : List RunEvent} (h : t.trace = s.trace ++ events) :
    t.takenDown = s.takenDown ++ events.filter RunEvent.isTeardown := by
  unfold takenDown
  rw [h, List.filter_append]

/-! ### Features and the lane -/

lemma Dismantles.keeps (h : s.Dismantles) (keeps : Keeps s t) (lane : t.lane = s.lane)
    (closed : t.limiter.closed = s.limiter.closed) : t.Dismantles where
  told := by
    rw [takenDown_eq, keeps.callerTrace, ← takenDown_eq, laneStopped, lane, keeps.poolStopped]
    exact h.told
  joined := by rw [lane]; exact h.joined
  left := by rw [lane]; exact h.left
  lane := by rw [lane, keeps.poolStopped]; exact h.lane
  limiter := by rw [closed, keeps.poolStopped]; exact h.limiter
  stage := by rw [isOver, keeps.stage, keeps.poolStopped]; exact h.stage
  finished := by rw [isOver, keeps.stage, keeps.poolStopped]; exact h.finished

lemma discardAll_limiter (s : RunState σ) (is : List Nat) :
    (s.discardAll is).limiter = s.limiter := by
  induction is generalizing s with
  | nil => rfl
  | cons i is ih =>
    have one : (s.discard i).limiter = s.limiter := by
      unfold RunState.discard dropCompletion
      split <;> rfl
    exact (ih (s.discard i)).trans one

lemma laneStep_dismantles (h : s.Dismantles) (next : s.laneStep? = some t) : t.Dismantles := by
  obtain ⟨-, -, -, -, keeps, -⟩ := laneStep_inv next
  obtain ⟨lane, move, hl, hm, does⟩ := laneStep_does next
  obtain ⟨serving, owner, -⟩ := Lane.status_after hm
  have not_stopped : lane.isStopped = false := by
    by_contra stopped
    exact h.joined lane hl (by simpa using stopped) serving
  have not_stopped' : (lane.after move).isStopped = false := by
    rw [Lane.isStopped, owner]
    exact not_stopped
  have pool_serves : s.poolStopped = false := by
    by_contra stopped
    rw [h.lane (by simpa using stopped) lane hl] at not_stopped
    cases not_stopped
  have put : ∀ u : RunState σ, Keeps s u → u.lane = some (lane.after move) →
      u.limiter = s.limiter → u.Dismantles := by
    intro u keeps hl' same
    have pool : u.poolStopped = false := keeps.poolStopped.trans pool_serves
    refine ⟨?_, fun lane' h' stopped => ?_, fun lane' h' ends => ?_, ?_, ?_, ?_, fun finished => ?_⟩
    · rw [takenDown_eq, keeps.callerTrace, ← takenDown_eq, h.told, laneStopped, laneStopped, hl, hl',
        pool, pool_serves]
      simp [not_stopped, not_stopped']
    · rw [hl', Option.some.injEq] at h'
      subst h'
      rw [not_stopped'] at stopped
      cases stopped
    · rw [hl', Option.some.injEq] at h'
      subst h'
      exact Lane.queued_after hm ends
    · simp [pool]
    · simp [pool]
    · simp [pool]
    · rw [isOver, keeps.stage] at finished
      rw [h.finished finished] at pool_serves
      cases pool_serves
  cases does with
  | takes job take => exact put _ keeps rfl rfl
  | starts i start => exact put _ keeps rfl rfl
  | letsGo ends =>
    exact put _ keeps (discardAll_keeps _ move.leaving).2 (discardAll_limiter _ move.leaving)

/-! ### The caller -/

lemma Dismantles.serves (h : s.Dismantles) (goes_on : s.isOver = false)
    (going : s.stage.takesDown = false) (same : t.takenDown = s.takenDown)
    (pool : t.poolStopped = s.poolStopped) (unfinished : t.isOver = false)
    (lane : ∀ lane', t.lane = some lane' → ∃ lane, s.lane = some lane ∧
      lane'.owner = lane.owner ∧ lane'.status = lane.status ∧
      (lane.status ≠ .serving → lane'.queued = lane.queued))
    (none_lane : t.lane = none → s.lane = none) : t.Dismantles := by
  have serves : s.poolStopped = false := by
    by_contra stopped
    rcases h.stage (by simpa using stopped) with finished | taking
    · rw [goes_on] at finished
      cases finished
    · rw [going] at taking
      cases taking
  have stopped_eq : t.laneStopped = s.laneStopped := by
    unfold laneStopped
    cases hl' : t.lane with
    | none => rw [none_lane hl']
    | some lane' =>
      obtain ⟨lane, hl, owner, -⟩ := lane lane' hl'
      simp [hl, Lane.isStopped, owner]
  rw [serves] at pool
  refine ⟨?_, fun lane' hl' stopped => ?_, fun lane' hl' ends => ?_, ?_, ?_, ?_, ?_⟩
  · rw [same, h.told, stopped_eq, pool, serves]
  · obtain ⟨lane, hl, owner, status, -⟩ := lane lane' hl'
    rw [status]
    refine h.joined lane hl ?_
    rw [Lane.isStopped, ← owner]
    exact stopped
  · obtain ⟨lane, hl, -, status, queued⟩ := lane lane' hl'
    rw [status] at ends
    rw [queued ends]
    exact h.left lane hl ends
  · simp [pool]
  · simp [pool]
  · simp [pool]
  · simp [unfinished]

lemma dispatches_dismantles (h : s.Dismantles) (dispatching : s.stage = .dispatching)
    (dispatches : Dispatches s t) (still : StillDispatching s t) : t.Dismantles := by
  have same : t.takenDown = s.takenDown := by
    rw [takenDown_eq, still.callerTrace, ← takenDown_eq]
  have as_before : t.lane = s.lane → ∀ lane', t.lane = some lane' → ∃ lane, s.lane = some lane ∧
      lane'.owner = lane.owner ∧ lane'.status = lane.status ∧
      (lane.status ≠ .serving → lane'.queued = lane.queued) := fun lane lane' hl' =>
    ⟨lane', lane ▸ hl', rfl, rfl, fun _ => rfl⟩
  have here : s.isOver = false ∧ s.stage.takesDown = false := by
    rw [isOver, dispatching]
    exact ⟨rfl, rfl⟩
  cases dispatches with
  | ended why stage lane rests =>
    exact h.serves here.1 here.2 same still.poolStopped (by rw [isOver, stage]; rfl) (as_before lane)
      (by rw [lane]; exact id)
  | gaveUp why stage lane rests =>
    exact h.serves here.1 here.2 same still.poolStopped (by rw [isOver, stage]; rfl) (as_before lane)
      (by rw [lane]; exact id)
  | took next asked submits pending aligned length cells =>
    cases submits with
    | inline serial calm stage lane =>
      exact h.serves here.1 here.2 same still.poolStopped (by rw [isOver, stage]; rfl)
        (as_before (lane.trans serial.symm)) fun _ => serial
    | @queued lane parallel accepts stage put =>
      simp only [Lane.accepts, Bool.and_eq_true, decide_eq_true_eq] at accepts
      refine h.serves here.1 here.2 same still.poolStopped (by rw [isOver, stage]; rfl) ?_
        (by simp [put])
      intro lane' hl'
      rw [put, Option.some.injEq] at hl'
      subst hl'
      exact ⟨lane, parallel, rfl, rfl, fun ends => absurd accepts.2 ends⟩
    | @rejected lane parallel rejects stage put =>
      refine h.serves here.1 here.2 same still.poolStopped (by rw [isOver, stage]; rfl) ?_
        (by simp [put])
      intro lane' hl'
      rw [put, Option.some.injEq] at hl'
      subst hl'
      exact ⟨lane, parallel, rfl, rfl, fun _ => rfl⟩
    | gaveUp why stage lane =>
      exact h.serves here.1 here.2 same still.poolStopped (by rw [isOver, stage]; rfl) (as_before lane)
        (by rw [lane]; exact id)

lemma Lane.stopStep?_isStopped {lane lane' : Lane Nat} (h : lane.stopStep? = some lane') :
    lane.isStopped = false ∧ lane'.status = lane.status ∧ lane'.queued = lane.queued ∧
      (lane'.isStopped = true → lane.status ≠ .serving) := by
  unfold Lane.stopStep? at h
  split at h
  · rename_i owner
    cases h
    exact ⟨by simp [Lane.isStopped, owner], rfl, rfl, by simp [Lane.isStopped]⟩
  · rename_i owner
    cases h
    exact ⟨by simp [Lane.isStopped, owner], rfl, rfl, by simp [Lane.isStopped]⟩
  · rename_i owner
    split at h
    · cases h
    · rename_i ended
      cases h
      exact ⟨by simp [Lane.isStopped, owner], rfl, rfl, fun _ => ended⟩
  · cases h

/-- **Taking down goes on in its order**, and each of its steps is told once. -/
lemma tearDownStep_dismantles (h : s.Dismantles) (taking : s.stage.takesDown = true)
    {after : CallerStage} (through : after.isOver = true ∨ after.takesDown = true)
    (next : s.tearDownStep? after = some t) : t.Dismantles := by
  have stop_pool : s.poolStopped = false →
      (∀ lane, s.lane = some lane → lane.isStopped = true) → s.stopPool.Dismantles := by
    intro serves lane
    have trace : s.stopPool.trace = s.trace ++ [.poolStopped, .limiterClosed] :=
      List.append_assoc s.trace [.poolStopped] [.limiterClosed]
    refine ⟨?_, h.joined, h.left, fun _ => lane, fun _ => rfl, fun _ => .inr taking, fun _ => rfl⟩
    rw [takenDown_append trace, h.told, serves, if_neg Bool.false_ne_true, List.append_nil]
    rfl
  unfold tearDownStep? at next
  split at next
  · rename_i stopped
    cases next
    exact ⟨h.told, h.joined, h.left, h.lane, h.limiter, fun _ => through, fun _ => stopped⟩
  · rename_i serves
    have serves : s.poolStopped = false := by simpa using serves
    split at next
    · rename_i lane hl
      split at next
      · rename_i stopped
        cases next
        refine stop_pool serves fun lane' hl' => ?_
        rw [hl, Option.some.injEq] at hl'
        exact hl' ▸ stopped
      · rw [Option.map_eq_some_iff] at next
        obtain ⟨lane', stopping, rfl⟩ := next
        obtain ⟨before, status, queued, ended⟩ := Lane.stopStep?_isStopped stopping
        have put : ∀ u : RunState σ, u.stage = s.stage → u.lane = some lane' →
            u.poolStopped = s.poolStopped →
            u.trace = s.trace ++ (if lane'.isStopped then [.laneStopped] else []) →
            u.Dismantles := by
          intro u hstage hlane hpool trace
          rw [serves] at hpool
          refine ⟨?_, fun l hl' stopped => ?_, fun l hl' ends => ?_, ?_, ?_, ?_, ?_⟩
          · rw [takenDown_append trace, h.told, laneStopped, laneStopped, hl, hlane, serves, hpool]
            cases hs : lane'.isStopped <;> simp [before, hs, RunEvent.isTeardown]
          · rw [hlane, Option.some.injEq] at hl'
            subst hl'
            rw [status]
            exact ended stopped
          · rw [hlane, Option.some.injEq] at hl'
            subst hl'
            rw [status] at ends
            rw [queued]
            exact h.left lane hl ends
          · simp [hpool]
          · simp [hpool]
          · simp [hpool]
          · rw [isOver, hstage, CallerStage.isOver_of_takesDown taking]
            simp
        split
        · rename_i stopped
          have trace : ∀ u : RunState σ, u = s.noteLaneStopped lane' → u.Dismantles := by
            rintro u rfl
            unfold noteLaneStopped
            dsimp only
            split <;> exact put _ rfl rfl rfl (by rw [if_pos stopped]; rfl)
          exact trace _ rfl
        · rename_i stopping'
          exact put _ rfl rfl rfl (by rw [if_neg stopping', List.append_nil])
    · rename_i no_lane
      cases next
      refine stop_pool serves fun lane hl => ?_
      rw [no_lane] at hl
      cases hl

lemma callerStep_elsewhere (next : s.callerStep? w = some t) (later : s.stage ≠ .dispatching)
    (going : s.stage.takesDown = false) : t.takenDown = s.takenDown ∧ t.isOver = false := by
  have same : ∀ events, t.trace = s.trace ++ events →
      (∀ e ∈ events, RunEvent.isTeardown e = false) → t.takenDown = s.takenDown := by
    intro events trace others
    rw [takenDown_append trace, List.filter_eq_nil_iff.mpr, List.append_nil]
    intro e he
    simp [others e he]
  have verdict : ∀ {e : RunEvent} {v : Option SuiteError}, e.verdict? = some v →
      RunEvent.isTeardown e = false := by
    intro e v told
    cases e <;> first | rfl | cases told
  have unchanged : t.trace = s.trace → t.takenDown = s.takenDown := fun trace =>
    same [] (by rw [trace, List.append_nil]) (by simp)
  have moves : ∀ stage : CallerStage, t.stage = stage → stage.isOver = false →
      t.isOver = false := by
    rintro stage rfl goes_on
    exact goes_on
  by_cases late : s.stage.isEarly = false
  · cases (callerStep_late next late).1 with
    | report stage told trace results moved =>
      refine ⟨same _ trace (by simp [verdict told]), ?_⟩
      rcases moved with ⟨-, page', moved⟩ | ⟨e, -, moved⟩ <;> exact moves _ moved rfl
    | reported stage trace results moved => exact ⟨unchanged trace, moves _ moved rfl⟩
    | hook stage told trace results moved =>
      refine ⟨same _ trace (by simp [verdict told]), ?_⟩
      rcases moved with ⟨-, moved⟩ | ⟨e, -, moved⟩ <;> exact moves _ moved rfl
    | hooked stage trace results moved => exact ⟨unchanged trace, moves _ moved rfl⟩
    | fail stage trace counts results moved => exact ⟨unchanged trace, moves _ moved rfl⟩
    | giveUp stage trace overflows results moved => exact ⟨unchanged trace, moves _ moved rfl⟩
    | close stage trace results moved => exact ⟨unchanged trace, moves _ moved rfl⟩
    | tearDown events stage => rw [stage] at going; cases going
    | unwind events stage => rw [stage] at going; cases going
  · cases hs : s.stage with
    | dispatching => exact absurd hs later
    | executing i =>
      have ht := (callerStep_executing next hs).2
      exact ⟨unchanged (by rw [ht]), moves .dispatching (by rw [ht]) rfl⟩
    | awaiting error =>
      have ht := (callerStep_awaiting next hs).2
      refine ⟨same _ (ht ▸ leaveWaiting_trace w s error) (by simp [RunEvent.isTeardown]), ?_⟩
      rw [ht]
      exact CallerStage.isOver_of_not_isFinal (leaveWaiting_between w s error).2
    | _ => rw [hs] at late; exact absurd rfl late

lemma callerStep_dismantles (h : s.Dismantles) (sound : Sound w s)
    (next : s.callerStep? w = some t) : t.Dismantles := by
  by_cases dispatching : s.stage = .dispatching
  · obtain ⟨dispatches, still⟩ := callerStep_dispatches sound.aligned next dispatching
    exact dispatches_dismantles h dispatching dispatches still
  · cases taking : s.stage.takesDown with
    | true =>
      cases stage : s.stage with
      | tearingDown guard =>
        simp only [callerStep?, stage] at next
        refine tearDownStep_dismantles h taking ?_ next
        cases guard
        · exact .inr rfl
        · exact .inl rfl
      | unwinding payload =>
        simp only [callerStep?, stage] at next
        exact tearDownStep_dismantles h taking (.inl rfl) next
      | _ => rw [stage] at taking; cases taking
    | false =>
      obtain ⟨same, unfinished⟩ := callerStep_elsewhere next dispatching taking
      have stays := callerStep_stays next dispatching taking
      have goes_on : s.isOver = false := by
        cases stage : s.stage with
        | done | panicked =>
          simp only [callerStep?, stage] at next
          cases next
        | _ => rw [isOver, stage]; rfl
      refine h.serves goes_on taking same stays.poolStopped unfinished ?_
        (by rw [stays.lane]; exact id)
      exact fun lane' hl' => ⟨lane', stays.lane ▸ hl', rfl, rfl, fun _ => rfl⟩

/-! ### Runs -/

theorem Dismantles.step {p : Party} (h : s.Dismantles) (sound : Sound w s)
    (next : s.step? w p = some t) : t.Dismantles := by
  cases p with
  | caller => exact callerStep_dismantles h sound next
  | lane => exact laneStep_dismantles h next
  | feature i task =>
    obtain ⟨f, f', events, does⟩ := featureStep_does next
    obtain ⟨_, _, _, touches, _⟩ := featureStep_moves sound.aligned next
    exact h.keeps touches.keeps touches.lane does.seen.closed
  | pool i =>
    obtain ⟨f, f', events, does⟩ := poolStep_does (w := w) next
    obtain ⟨_, _, _, touches, _⟩ := poolStep_moves sound.aligned next
    exact h.keeps touches.keeps touches.lane does.seen.closed

lemma Reaches.dismantles (h : Reaches w a s) (sound : Sound w a) (first : a.Dismantles) :
    s.Dismantles := by
  induction h with
  | refl => exact first
  | step p reach next ih => exact ih.step (reach.sound sound) next

/-- What holds of a suite at its beginning, be it run or dropped. -/
structure Fresh (w : Suite σ) (a : RunState σ) : Prop where
  sound : Sound w a
  tales : Tales w a
  lodged : a.Lodged
  dismantles : a.Dismantles
  weight : a.toGo w ≤ w.weight

lemma start_dismantles (w : Suite σ) (limiter : AdmissionLimiter) (files : σ) :
    (w.start limiter files).Dismantles := by
  have lane : ∀ lane, (w.start limiter files).lane = some lane → lane = .fresh := by
    intro lane hl
    unfold Suite.start at hl
    dsimp only at hl
    split at hl <;> cases hl
    rfl
  have not_stopped : (w.start limiter files).laneStopped = false := by
    unfold laneStopped Suite.start
    dsimp only
    split <;> rfl
  refine ⟨?_, fun l hl stopped => ?_, fun l hl ends => ?_, ?_, ?_, ?_, ?_⟩
  · rw [not_stopped]
    rfl
  · rw [lane l hl] at stopped
    cases stopped
  · rw [lane l hl] at ends
    exact absurd rfl ends
  · simp [Suite.start]
  · simp [Suite.start]
  · simp [Suite.start]
  · simp [Suite.start, isOver, CallerStage.isOver]

lemma fresh_of_begins (begins : w.Begins limiter files a) : Fresh w a := by
  have sound := sound_start w limiter files
  have tales := tales_start w limiter files
  have lodged := lodged_start w limiter files
  have dismantles := start_dismantles w limiter files
  have weight := toGo_start w limiter files
  cases begins with
  | run => exact ⟨sound, tales, lodged, dismantles, weight⟩
  | drop =>
    have aligned := sound.aligned
    refine ⟨⟨⟨aligned.records, aligned.signals, aligned.ids, aligned.registered⟩, sound.made, ?_,
      sound.nodup, sound.queued⟩, ⟨tales.story, tales.known⟩, ⟨lodged.queued, ?_⟩, ?_, ?_⟩
    · rintro (stage | ⟨i, stage⟩) <;> cases stage
    · intro i stage
      cases stage
    · exact ⟨dismantles.told, dismantles.joined, dismantles.left, dismantles.lane,
        dismantles.limiter, fun _ => .inr rfl, by simp [Suite.drop, isOver, CallerStage.isOver]⟩
    · refine Nat.le_trans ?_ weight
      have stage : (Suite.drop (w.start limiter files)).stage = .tearingDown true := rfl
      have started : (w.start limiter files).stage = .dispatching := rfl
      have none_pending : (Suite.drop (w.start limiter files)).pendingToGo = 0 := rfl
      have features : (Suite.drop (w.start limiter files)).featuresToGo =
          (w.start limiter files).featuresToGo := rfl
      have lane : (Suite.drop (w.start limiter files)).laneToGo =
          (w.start limiter files).laneToGo := rfl
      have pool : (Suite.drop (w.start limiter files)).poolStopped =
          (w.start limiter files).poolStopped := rfl
      unfold RunState.toGo
      rw [stage, started, none_pending, features, lane, pool]
      simp only [CallerStage.toGo]
      omega

/-- Taking down has been carried out, each step once, and nothing is left to be started. -/
structure TornDown (w : Suite σ) (s : RunState σ) : Prop where
  poolStopped : s.poolStopped = true
  /-- Nobody gets a permit any more, whatever is done with the limiter. -/
  limiter : ∀ events, (s.limiter.afterAll events).GivesNothing
  lane : ∀ lane, s.lane = some lane → lane.isStopped = true ∧ lane.accepts = false ∧
    lane.status ≠ .serving ∧ lane.queued = []
  once : s.takenDown =
    (if 1 < w.config.threads then [.laneStopped] else []) ++ [.poolStopped, .limiterClosed]
  /-- What was queued has been let go, and was not started. -/
  unstarted : ∀ (i : Nat) (f : FeatureRun), s.features[i]? = some f → f.phase ≠ .queued ∧
    (f.phase = .discarded → f.completion = .dropped ∧ i ∉ s.startedFeatures)

lemma mem_startedFeatures {i : Nat} : i ∈ s.startedFeatures ↔ .started i ∈ s.trace := by
  unfold startedFeatures
  rw [List.mem_filterMap]
  constructor
  · rintro ⟨e, he, told⟩
    cases e <;> cases told
    exact he
  · exact fun he => ⟨_, he, rfl⟩

lemma Tales.not_started {i : Nat} {f : FeatureRun} (tales : Tales w s)
    (hf : s.features[i]? = some f) (discarded : f.phase = .discarded) :
    f.completion = .dropped ∧ i ∉ s.startedFeatures := by
  have story := tales.story i f hf
  rw [mem_startedFeatures]
  generalize told : s.tale i = tale at story
  cases story with
  | queued phase armed => rw [discarded] at phase; cases phase
  | discarded phase dropped =>
    refine ⟨dropped, fun started => ?_⟩
    have among : .started i ∈ s.tale i := List.mem_filter.mpr ⟨started, by simp [RunEvent.milestone?]⟩
    rw [told] at among
    simp at among
  | started phase course =>
    rw [discarded] at phase
    rcases phase with phase | phase <;> cases phase

lemma Begins.lane_isNone (begins : w.Begins limiter files a) (h : Reaches w a s) :
    s.lane = none ↔ ¬ 1 < w.config.threads := by
  rw [h.lane_eq_none (fresh_of_begins begins).sound]
  cases begins <;>
  · unfold Suite.start
    dsimp only [Suite.drop]
    split <;> simp_all

lemma tornDown_of_poolStopped (begins : w.Begins limiter files a) (h : Reaches w a s)
    (stopped : s.poolStopped = true) : TornDown w s := by
  have fresh := fresh_of_begins begins
  have dismantles := h.dismantles fresh.sound fresh.dismantles
  have tales := h.tales fresh.sound fresh.tales
  have lodged := h.lodged fresh.sound fresh.lodged
  have sound := h.sound fresh.sound
  refine ⟨stopped, fun events => ?_, fun lane hl => ?_, ?_, fun i f hf => ⟨fun queued => ?_, ?_⟩⟩
  · exact (AdmissionLimiter.givesNothing_of_closed (dismantles.limiter stopped)).afterAll events
  · have joined := dismantles.lane stopped lane hl
    have ended := dismantles.joined lane hl joined
    exact ⟨joined, by simp [Lane.accepts, ended], ended, dismantles.left lane hl ended⟩
  · have lane := Begins.lane_isNone begins h
    rw [dismantles.told, stopped, if_pos rfl, laneStopped]
    cases hl : s.lane with
    | none => rw [if_neg (lane.mp hl)]; rfl
    | some l =>
      have parallel : 1 < w.config.threads := by
        by_contra serial
        rw [lane.mpr serial] at hl
        cases hl
      simp [dismantles.lane stopped l hl, parallel]
  · -- A queued feature would have a lane that serves it.
    obtain ⟨c, hc, rfl⟩ := sound.aligned.exists_cell hf
    obtain ⟨lane, hl, serving, -⟩ := lodged.queued i c hc queued
    exact dismantles.joined lane hl (dismantles.lane stopped lane hl) serving
  · exact tales.not_started hf

lemma startedFeatures_append {events : List RunEvent} (h : t.trace = s.trace ++ events)
    (others : ∀ e ∈ events, ∀ i, e ≠ .started i) : t.startedFeatures = s.startedFeatures := by
  unfold startedFeatures
  rw [h, List.filterMap_append]
  convert List.append_nil _
  rw [List.filterMap_eq_nil_iff]
  intro e he
  cases e <;> first | rfl | exact absurd rfl (others _ he _)

lemma Deed.not_started {i : Nat} {f f' : FeatureRun} {events : List RunEvent}
    (deed : Deed w s i f f' events) : ∀ e ∈ events, ∀ j, e ≠ .started j := by
  have farewell : ∀ e ∈ f.farewell i, ∀ j, e ≠ .started j := by
    unfold FeatureRun.farewell
    split <;> simp
  cases deed with
  | passes phase completion quiet =>
    rintro e he j rfl
    cases quiet _ he
  | ends idle => exact farewell
  | abandons rest idle => exact farewell
  | completes rest armed found nothing => simp
  | reports rest armed found some_ran wanted => simp
  | goesOn completion fine => simp
  | signals completion last => simp

lemma Dismantles.step_after (h : s.Dismantles) (sound : Sound w s) {p : Party}
    (stopped : s.poolStopped = true) (next : s.step? w p = some t) :
    t.poolStopped = true ∧ t.startedFeatures = s.startedFeatures := by
  have deed : ∀ {i f f' events}, Does w s t i f f' events → Keeps s t →
      t.poolStopped = true ∧ t.startedFeatures = s.startedFeatures := fun does keeps =>
    ⟨keeps.poolStopped.trans stopped, startedFeatures_append does.seen.trace does.deed.not_started⟩
  cases p with
  | caller =>
    cases stage : s.stage with
    | tearingDown guard =>
      simp only [step?, callerStep?, stage, tearDownStep?, stopped, if_true] at next
      cases next
      exact ⟨rfl, rfl⟩
    | unwinding payload =>
      simp only [step?, callerStep?, stage, tearDownStep?, stopped, if_true] at next
      cases next
      exact ⟨rfl, rfl⟩
    | done | panicked =>
      simp only [step?, callerStep?, stage] at next
      cases next
    | _ =>
      rcases h.stage stopped with finished | taking
      · rw [isOver, stage] at finished
        cases finished
      · rw [stage] at taking
        cases taking
  | lane =>
    obtain ⟨lane, move, hl, hm, -⟩ := laneStep_inv next
    exact absurd (Lane.status_after hm).1 (h.joined lane hl (h.lane stopped lane hl))
  | feature i task =>
    obtain ⟨f, f', events, does⟩ := featureStep_does next
    obtain ⟨_, _, _, touches, _⟩ := featureStep_moves sound.aligned next
    exact deed does touches.keeps
  | pool i =>
    obtain ⟨f, f', events, does⟩ := poolStep_does (w := w) next
    obtain ⟨_, _, _, touches, _⟩ := poolStep_moves sound.aligned next
    exact deed does touches.keeps

lemma Reaches.after (begins : w.Begins limiter files a) (h : Reaches w a s)
    (stopped : s.poolStopped = true) (later : Reaches w s t) :
    t.poolStopped = true ∧ t.startedFeatures = s.startedFeatures := by
  have fresh := fresh_of_begins begins
  induction later with
  | refl => exact ⟨stopped, rfl⟩
  | @step t u p reaches next ih =>
    have reach_t := h.trans reaches
    obtain ⟨pool, same⟩ := (reach_t.dismantles fresh.sound fresh.dismantles).step_after
      (reach_t.sound fresh.sound) ih.1 next
    exact ⟨pool, same.trans ih.2⟩

lemma tearDownStep_stage {after : CallerStage} (serves : s.poolStopped = false)
    (next : s.tearDownStep? after = some t) : t.stage = s.stage := by
  unfold tearDownStep? at next
  rw [if_neg (by simp [serves])] at next
  split at next
  · split at next
    · cases next
      rfl
    · rw [Option.map_eq_some_iff] at next
      obtain ⟨lane', -, rfl⟩ := next
      split
      · unfold noteLaneStopped
        dsimp only
        split <;> rfl
      · rfl
  · cases next
    rfl

lemma callerStep_guard (sound : Sound w s) (next : s.step? w .caller = some t)
    (guard : t.stage = .tearingDown true) : ∃ g, s.stage = .tearingDown g := by
  have late : s.stage.isEarly = false := by
    by_contra early
    have going := step_isFinal sound next (by simpa using early)
    rw [guard] at going
    cases going
  cases (callerStep_late next late).1 with
  | tearDown events stage => exact ⟨_, stage⟩
  | report stage told trace results moved =>
    rcases moved with ⟨-, page', moved⟩ | ⟨e, -, moved⟩ <;> rw [moved] at guard <;> cases guard
  | hook stage told trace results moved =>
    rcases moved with ⟨-, moved⟩ | ⟨e, -, moved⟩ <;> rw [moved] at guard <;> cases guard
  | reported stage trace results moved => rw [moved] at guard; cases guard
  | hooked stage trace results moved => rw [moved] at guard; cases guard
  | fail stage trace counts results moved => rw [moved] at guard; cases guard
  | giveUp stage trace overflows results moved => rw [moved] at guard; cases guard
  | close stage trace results moved => rw [moved] at guard; cases guard
  | unwind events stage trace told results moved =>
    rcases moved with moved | moved <;> rw [moved] at guard <;> cases guard

lemma Reaches.guard (h : Reaches w (w.start limiter files) s)
    (guard : s.stage = .tearingDown true) : s.poolStopped = true := by
  induction h with
  | refl => cases guard
  | @step s t p reach next ih =>
    have sound := reach.sound (sound_start w limiter files)
    by_cases hp : p = .caller
    · subst hp
      obtain ⟨g, stage⟩ := callerStep_guard sound next guard
      have step : s.tearDownStep? (if g then .done else .tearingDown true) = some t := by
        simpa only [step?, callerStep?, stage] using next
      cases stopped : s.poolStopped with
      | true =>
        simp only [tearDownStep?, stopped, if_true, Option.some.injEq] at step
        subst step
        rfl
      | false =>
        -- The stage is as before, so this is the guard, which has found the pool stopped.
        rw [tearDownStep_stage stopped step] at guard
        rw [ih guard] at stopped
        cases stopped
    · have keeps := step_keeps sound next hp
      rw [keeps.poolStopped]
      exact ih (keeps.stage ▸ guard)

/-- **Everything is taken down, once.** A suite that is run, however that goes, and one that is
dropped without being run, come to their end after finitely many steps; taking down never waits for
anybody for ever. At the end the pool and the lane are stopped, the limiter gives nothing to anybody,
each step of taking down was told once, what was still queued has been let go unstarted, and no
feature is started any more. The guard of a run finds all of it done by the run. -/
theorem all_torn_down {σ : Type} {w : Suite σ} {limiter : AdmissionLimiter} {files : σ}
    {a s : RunState σ} (begins : w.Begins limiter files a) (reach : Reaches w a s) :
    (∀ (ps : List Party) (t : RunState σ), a.follow w ps = some t → ps.length ≤ w.weight) ∧
    (s.stage.takesDown = true → ¬ Halted w s) ∧
    (s.isOver = true → s.poolStopped = true) ∧
    (a = w.start limiter files → s.stage = .tearingDown true → s.poolStopped = true) ∧
    (s.poolStopped = true → TornDown w s ∧
      ∀ t, Reaches w s t → TornDown w t ∧ t.startedFeatures = s.startedFeatures) := by
  have fresh := fresh_of_begins begins
  refine ⟨fun ps t h => ?_, fun taking halted => ?_,
    (reach.dismantles fresh.sound fresh.dismantles).finished, fun run guard => ?_, fun stopped => ?_⟩
  · have bound := follow_length fresh.sound h
    have weight := fresh.weight
    omega
  · rw [halted.takesDown] at taking
    cases taking
  · subst run
    exact reach.guard guard
  · refine ⟨tornDown_of_poolStopped begins reach stopped, fun t ht => ?_⟩
    obtain ⟨pool, same⟩ := reach.after begins stopped ht
    exact ⟨tornDown_of_poolStopped begins (reach.trans ht) pool, same⟩

/-- A parallel batch of two features, of which making the second one gives up. -/
def unwoundBatch : Suite Unit :=
  smallSuite 2 two_threads false []
    [.made (.ofActs (smallFeature "f") [.complete]), .panicked .noText]

/-- The run fails with the first feature still queued, and is taken down. -/
def unwoundRun : RunState Unit :=
  (unwoundBatch.start smallLimiter ()).play unwoundBatch
    (List.replicate 6 .caller ++ [.lane, .lane] ++ List.replicate 6 .caller)

/-- The same suite is dropped without being run. -/
def droppedRun : RunState Unit :=
  (Suite.drop (unwoundBatch.start smallLimiter ())).play unwoundBatch
    ([.caller, .caller, .lane] ++ List.replicate 3 .caller)

theorem unwoundRun_taken_down :
    (unwoundRun.isDone = true ∧ unwoundRun.startedFeatures = [] ∧
      unwoundRun.features.map FeatureRun.phase = [.discarded] ∧
      TornDown unwoundBatch unwoundRun) ∧
    droppedRun.isDone = true ∧ TornDown unwoundBatch droppedRun := by
  have begins : unwoundBatch.Begins smallLimiter () (unwoundBatch.start smallLimiter ()) := .run
  have begins' : unwoundBatch.Begins smallLimiter ()
      (Suite.drop (unwoundBatch.start smallLimiter ())) := .drop
  have reach : Reaches unwoundBatch _ unwoundRun := reaches_play _ _ _
  have reach' : Reaches unwoundBatch _ droppedRun := reaches_play _ _ _
  obtain ⟨-, -, done, -, torn⟩ := all_torn_down begins reach
  obtain ⟨-, -, done', -, torn'⟩ := all_torn_down begins' reach'
  exact ⟨⟨by rfl, by rfl, by rfl, (torn (done (by rfl))).1⟩, by rfl, (torn' (done' (by rfl))).1⟩

end RunState

end FeatureBatch
