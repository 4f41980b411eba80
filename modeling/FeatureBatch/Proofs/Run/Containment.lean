import FeatureBatch.Proofs.Run.Samples
import FeatureBatch.Proofs.Run.Verdicts

/-!
Runtimes that give up. One that gives up while it runs costs the batch its own completion and no
more, on the caller's thread as on the pool. One that gives up in being started brings down what
starts it: the dispatching of a serial run, and the lane of a parallel one with all that waits in
it.
-/

namespace FeatureBatch

namespace RunState

variable {σ : Type} {w : Suite σ} {s : RunState σ} {limiter : AdmissionLimiter} {files : σ}

lemma arrivals_of_settled {signals : List SignalState} (h : SignalState.outstanding ∉ signals) :
    signals.length - signals.count .fired = signals.count .dropped := by
  induction signals with
  | nil => rfl
  | cons g gs ih =>
    rw [List.mem_cons, not_or] at h
    have more := ih h.2
    have some_fired : gs.count .fired ≤ gs.length := List.count_le_length
    cases g with
    | outstanding => exact absurd rfl h.1
    | fired => simp only [List.length_cons, List.count_cons]; simp; omega
    | dropped => simp only [List.length_cons, List.count_cons]; simp; omega

lemma Progress.reason {dispatch : Option SuiteError} {plan : Nat} (h : Progress w dispatch plan s)
    (final : s.stage.isFinal = true) :
    (s.results.failureReason = none ∧ dispatch = none) ∨
      ∃ e, s.results.failureReason = some e ∧ (dispatch = some e ∨ some e ∈ s.verdicts) := by
  rcases h.outcome final with ⟨reason, ended, -⟩ | ⟨e, reason, fails⟩
  · exact .inl ⟨reason, ended⟩
  · refine .inr ⟨e, reason, ?_⟩
    cases fails with
    | dispatch ended none_made => exact .inl ended
    | call ended among made =>
      right
      rw [made]
      exact List.mem_append_right _ (List.mem_singleton.mpr rfl)

/-- What is left of a batch of whose runtimes some gave up: dispatching has come to the first runtime
that is refused, or to the end; each runtime was started and played on its own, and its signal is
fired if the completion is invoked in that play and dropped if not, as with a runtime that gives up
before; the caller has counted the signals once; and the run fails of the refusal, or of one of its
own calls about the suite, if at all, and else of durations that overflow. -/
structure Contained (w : Suite σ) (a s : RunState σ) : Prop where
  dispatched : ∃ error, DispatchEnd w s.features.length error ∧
    ((s.results.failureReason = none ∧ error = none) ∨
      ∃ e, s.results.failureReason = some e ∧
        (error = some e ∨ some e ∈ s.verdicts ∨ Overflows w a s e))
  played : ∀ i < s.features.length, ∃ f r us invoked, s.features[i]? = some f ∧
    w.runtime? i = some r ∧ (f.phase = .running ∨ f.phase = .ended) ∧
    Act.Plays (w.Answers a i) r.acts us invoked ∧
    s.records.get? i = some (r.record.applyAll us) ∧
    s.barrier.signals[i]? = some (if invoked then .fired else .dropped) ∧
    (Act.CrashesFirst r.acts → s.barrier.signals[i]? = some .dropped)
  counted : s.releases = [⟨s.barrier.signals.count .fired, s.barrier.signals.count .dropped⟩]

lemma Awaited.contained (waits : Awaited w (w.start limiter files) s) (starts : w.StartsAll)
    (counted : s.stage.hasTotals = true) : Contained w (w.start limiter files) s := by
  obtain ⟨t, error, reach, waiting, settled, release, released⟩ :=
    waits.release (isEarly_of_hasTotals counted)
  -- All is read off at the end of the wait, after which no signal changes.
  have reaches := release.trans released
  have sound := reach.sound (sound_start w limiter files)
  have sound_s := reaches.sound sound
  have signals := reach.signals_eq starts waiting settled reaches
  have same_length : s.features.length = t.features.length := by
    rw [← sound_s.aligned.signals, ← sound.aligned.signals, signals]
  obtain ⟨progress, releases⟩ := reach.progress waiting release released
  have reason := progress.reason (isFinal_of_hasTotals counted).1
  rw [waitVerdict_eq] at reason
  refine ⟨⟨error, ?_, ?_⟩, fun i hi => ?_, ?_⟩
  · rw [same_length]
    exact reach.dispatchEnd starts waiting
  · by_cases countable : t.book.Countable
    · rw [if_pos countable] at reason
      refine reason.imp_right fun ⟨e, recorded, why⟩ => ⟨e, recorded, ?_⟩
      exact why.imp_right .inl
    · rw [if_neg countable] at reason
      obtain ⟨-, impossible⟩ | ⟨e, recorded, overflow | call⟩ := reason
      · cases impossible
      · rw [Option.some.injEq] at overflow
        exact .inr ⟨e, recorded, .inr (.inr ⟨overflow.symm, t, reach, reaches, countable⟩)⟩
      · exact .inr ⟨e, recorded, .inr (.inl call)⟩
  · rw [← sound_s.aligned.length_cells] at hi
    have hc := List.getElem?_eq_getElem hi
    obtain ⟨hf, hrecord, hsignal⟩ := cells_eq_some hc
    obtain ⟨r, hr, -⟩ := sound_s.made i _ hc
    have played := reach.played starts waiting settled reaches hc hr
    have consistent := (reach.trans reaches).consistent hc
    obtain ⟨us, record, play⟩ := played.playing.settled consistent played.settled
    have told : s.barrier.signals[i]? =
        some (if decide (s.cells[i].signal = .fired) then .fired else .dropped) := by
      rw [hsignal, signal_of_settled played.settled]
    refine ⟨_, r, us, _, hf, hr, played.started, play, ?_, told, fun crashes => ?_⟩
    · rw [RecordStore.get?, hrecord, record]
    · rw [told, crashes.not_invoked play]
      rfl
  · have none_left : SignalState.outstanding ∉ t.barrier.signals := by
      have complete := (isComplete_iff sound.aligned).mpr settled
      simpa [CompletionBarrier.isComplete] using complete
    rw [releases, signals, CompletionBarrier.arrivals, arrivals_of_settled none_left]

/-! ### Giving up in being started -/

/-- The run fails of feature `i`: it is the last one made, and no signals have been counted. -/
structure FailsOfStart (i : Nat) (e : SuiteError) (s : RunState σ) : Prop where
  length : s.features.length = i + 1
  releases : s.releases = []
  reason : (s.stage = .failing e ∧ s.results.failureReason = none) ∨
    (s.stage.isFinal = true ∧ s.results.failureReason = some e)

lemma FailsOfStart.step {i : Nat} {e : SuiteError} {p : Party} (h : FailsOfStart i e s)
    (sound : Sound w s) (next : s.step? w p = some t) : FailsOfStart i e t := by
  by_cases hp : p = .caller
  · subst hp
    have late : s.stage.isEarly = false := by
      rcases h.reason with ⟨failing, -⟩ | ⟨final, -⟩
      · rw [failing]
        rfl
      · exact isEarly_of_isFinal final
    obtain ⟨step, rests⟩ := callerStep_late next late
    refine ⟨by rw [rests.features, h.length], step.releases.trans h.releases, .inr ?_⟩
    rcases h.reason with ⟨failing, reason⟩ | ⟨final, reason⟩
    · rw [step_fail failing, Option.some.injEq] at next
      subst next
      exact fail_records reason e
    · obtain ⟨final_t, -, same | finished⟩ := step.closes final
      · exact ⟨final_t, by rw [same, reason]⟩
      · exact ⟨final_t, by rw [finished, Results.finish, reason]⟩
  · have keeps := step_keeps sound next hp
    refine ⟨by rw [keeps.features, h.length], ?_, by rw [keeps.stage, keeps.results]; exact h.reason⟩
    rw [releases_eq, keeps.callerTrace, ← releases_eq, h.releases]

lemma Reaches.failsOfStart (h : Reaches w (w.start limiter files) s)
    (serial : ¬ 1 < w.config.threads) {i : Nat} {r : Runtime} {payload : PanicPayload}
    (hr : w.runtime? i = some r) (completed : r.completionPanics = none)
    (panics : r.startPanics = some payload) (hi : i < s.features.length) :
    FailsOfStart i (.panic payload.message) s := by
  induction h with
  | refl => exact absurd hi (Nat.not_lt_zero i)
  | @step s t p reach next ih =>
    have sound := reach.sound (sound_start w limiter files)
    by_cases before : i < s.features.length
    · exact (ih before).step sound next
    · have hp : p = .caller := by
        by_contra hp
        exact before ((step_keeps sound next hp).features ▸ hi)
      subst hp
      have dispatching : s.stage = .dispatching := by
        by_contra later
        exact before ((callerStep_rests next later).features ▸ hi)
      obtain ⟨dispatches, still⟩ := callerStep_dispatches sound.aligned next dispatching
      cases dispatches with
      | ended why stage lane rests => exact absurd (rests.features ▸ hi) before
      | gaveUp why stage lane rests => exact absurd (rests.features ▸ hi) before
      | took taken asked submits pending aligned length cells =>
        have last : i = s.features.length := by omega
        subst last
        have made := sound.runtime?_next dispatching taken
        rw [hr, Option.some.injEq] at made
        subst made
        have no_lane : s.lane = none :=
          (reach.lane_eq_none (sound_start w limiter files)).mpr (if_neg serial)
        have undisturbed := reach.undisturbed (by rw [dispatching]; rfl)
        cases submits with
        | inline _ calm stage lane => rw [panics] at calm; cases calm
        | queued parallel accepts stage put => rw [no_lane] at parallel; cases parallel
        | rejected parallel rejects stage put => rw [no_lane] at parallel; cases parallel
        | gaveUp why stage lane =>
          rcases why with gives_up | ⟨-, -, same⟩
          · rw [completed] at gives_up
            cases gives_up
          · rw [panics, Option.some.injEq] at same
            subst same
            refine ⟨length, ?_, .inl ⟨stage, ?_⟩⟩
            · rw [releases_eq, still.callerTrace, undisturbed.callerTrace]
              rfl
            · rw [still.failureReason, undisturbed.failureReason]

/-- **A start that gives up brings the lane down**: the jobs in it are let go unstarted, and it takes
no more. -/
theorem lane_dies (sound : Sound w s) {lane : Lane Nat} {i : Nat} {r : Runtime}
    {payload : PanicPayload} (hl : s.lane = some lane) (serves : lane.accepts = true)
    (hand : lane.inHand = some i) (hr : w.runtime? i = some r)
    (panics : r.startPanics = some payload) :
    ∃ t lane', s.step? w .lane = some t ∧ t.lane = some lane' ∧ lane'.accepts = false ∧
      ∀ j ∈ lane.queued, ∃ f, t.features[j]? = some f ∧ f.phase = .discarded := by
  obtain ⟨owner, status⟩ : lane.owner = .serving ∧ lane.status = .serving := by
    simpa [Lane.accepts] using serves
  have queued : lane.queued = i :: lane.queue := by simp [Lane.queued, hand]
  have crashes : s.crashesLane i = true := by
    obtain ⟨c, hc, -⟩ := sound.queued lane hl i (by rw [queued]; exact List.mem_cons_self)
    obtain ⟨r', hr', -, same⟩ := sound.made i c hc
    rw [hr, Option.some.injEq] at hr'
    rw [crashesLane, (cells_eq_some hc).1]
    show c.run.startPanics.isSome = true
    rw [same, ← hr', panics]
    rfl
  have move : lane.move? s.crashesLane = some (.crash i lane.queue) := by
    simp [Lane.move?, status, hand, Lane.flagRaised, owner, crashes]
  have next : s.step? w .lane = some
      ({ s with lane := some (lane.after (.crash i lane.queue)) }.discardAll (i :: lane.queue)) := by
    simp [step?, laneStep?, hl, move]
  obtain ⟨-, lane_eq⟩ := discardAll_keeps
    { s with lane := some (lane.after (.crash i lane.queue)) } (i :: lane.queue)
  refine ⟨_, _, next, lane_eq, by simp [Lane.accepts, Lane.after], fun j hj => ?_⟩
  obtain ⟨c, hc, -⟩ := sound.queued lane hl j hj
  rw [queued] at hj
  have dropped := getElem?_discardAll (queued ▸ sound.nodup lane hl)
    { s with lane := some (lane.after (.crash i lane.queue)) } j
  have here : ({ s with lane := some (lane.after (.crash i lane.queue)) } : RunState σ).cells[j]? =
      some c := hc
  rw [here, if_pos hj] at dropped
  exact ⟨_, (cells_eq_some dropped).1, Cell.drop_phase _⟩

/-- **A runtime that gives up while it runs is contained**: if none gives up in being started and the
dispatching does not give up, a batch loses no more than the completions of those that gave up. A
serial run that comes to a runtime that gives up in being started does lose more: it makes no other
runtime, counts no signal and fails. -/
theorem crashes_contained {σ : Type} {w : Suite σ} {limiter : AdmissionLimiter} {files : σ}
    {s : RunState σ} (reach : Reaches w (w.start limiter files) s) (done : s.isDone = true) :
    (w.StartsAll → Awaited w (w.start limiter files) s → Contained w (w.start limiter files) s) ∧
    (¬ 1 < w.config.threads → ∀ (i : Nat) (r : Runtime) (payload : PanicPayload),
      w.runtime? i = some r → r.completionPanics = none → r.startPanics = some payload →
      i < s.features.length → s.features.length = i + 1 ∧ s.releases = [] ∧
        s.results.failureReason = some (.panic payload.message)) := by
  have counted := hasTotals_of_isDone done
  refine ⟨fun starts waits => waits.contained starts counted, ?_⟩
  intro serial i r payload hr completed panics hi
  have fails := reach.failsOfStart serial hr completed panics hi
  rcases fails.reason with ⟨failing, -⟩ | ⟨-, reason⟩
  · rw [failing] at counted
    cases counted
  · exact ⟨fails.length, fails.releases, reason⟩

/-- A batch whose first runtime gives up, in being started if it is told so and at its first act
otherwise, and whose second runtime is well. -/
def crashBatch (threads : UInt64) (threads_pos : 0 < threads) (startPanics : Option PanicPayload) :
    Suite Unit :=
  smallSuite threads threads_pos false []
    [.made { Runtime.ofActs (smallFeature "f") [.panic .noText] with startPanics },
      .made (.ofActs (smallFeature "f") [.work [.addScenario passing], .complete])]

/-- The first runtime gives up on the pool while the second runs. -/
def polledDispatched : RunState Unit :=
  ((crashBatch 2 two_threads none).start smallLimiter ()).play (crashBatch 2 two_threads none)
    [.caller, .caller, .lane, .lane, .caller]

def polledRun : RunState Unit :=
  polledDispatched.play (crashBatch 2 two_threads none)
    [.lane, .lane, .feature 1 0, .feature 0 0, .feature 1 0, .feature 1 0, .feature 1 0, .caller,
      .caller, .caller, .caller, .caller, .lane, .caller, .caller, .caller, .caller, .caller]

lemma polledRun_awaited :
    Awaited (crashBatch 2 (by decide) none) ((crashBatch 2 (by decide) none).start smallLimiter ())
      polledRun :=
  ⟨polledDispatched, none, reaches_play _ _ _, by rfl, reaches_play _ _ _⟩

lemma polledRun_reaches :
    Reaches (crashBatch 2 (by decide) none) ((crashBatch 2 (by decide) none).start smallLimiter ())
      polledRun :=
  (reaches_play _ _ _).trans (reaches_play _ polledDispatched _)

lemma crashBatch_startsAll (threads : UInt64) (threads_pos : 0 < threads) :
    (crashBatch threads threads_pos none).StartsAll := by
  refine forall_smallSuite fun r hr => ?_
  rw [List.mem_pair] at hr
  rcases hr with made | made <;> cases made <;> rfl

/-- The serial run in which the first runtime gives up in being started. -/
def serialStartRun : RunState Unit :=
  ((crashBatch 1 one_thread (some .noText)).start smallLimiter ()).play
    (crashBatch 1 one_thread (some .noText))
    [.caller, .caller, .caller, .caller, .caller, .caller]

theorem crashBatch_runs :
    (polledRun.isDone = true ∧ Contained (crashBatch 2 (by decide) none)
      ((crashBatch 2 (by decide) none).start smallLimiter ()) polledRun ∧
      polledRun.releases = [⟨1, 1⟩]) ∧
    (serialStartRun.isDone = true ∧ serialStartRun.features.length = 1 ∧
      serialStartRun.releases = []) := by
  have contained := (crashes_contained polledRun_reaches (by rfl)).1
    (crashBatch_startsAll 2 (by decide)) polledRun_awaited
  have fails := (crashes_contained (s := serialStartRun) (reaches_play _ _ _) (by rfl)).2
    (by decide) 0 _ .noText (by rfl) (by rfl) (by rfl) (by decide)
  exact ⟨⟨by rfl, contained, contained.counted⟩, by rfl, fails.1, fails.2.1⟩

/-- The parallel run in which it does so with the second feature behind it in the lane. -/
def laneStartRun : RunState Unit :=
  ((crashBatch 2 two_threads (some .noText)).start smallLimiter ()).play
    (crashBatch 2 two_threads (some .noText))
    [.caller, .caller, .caller, .lane, .lane, .caller, .caller, .caller, .caller, .caller, .caller,
      .caller, .caller, .caller]

/-- A runtime that gives up in being started costs the batch more than its own completion. In a
serial run the next runtime is not even made, no signal is counted, and the run fails; in a parallel
one the next feature is let go unstarted. -/
theorem startPanics_spread :
    (serialStartRun.isDone = true ∧ serialStartRun.features.length = 1 ∧
      serialStartRun.releases = [] ∧
      serialStartRun.results.failureReason = some (.panic PanicPayload.noText.message)) ∧
    (laneStartRun.isDone = true ∧ laneStartRun.releases = [⟨0, 2⟩] ∧
      laneStartRun.features[1]?.map FeatureRun.phase = some .discarded) := by
  exact ⟨⟨by rfl, by rfl, by rfl, by rfl⟩, by rfl, by rfl, by rfl⟩

end RunState

end FeatureBatch
