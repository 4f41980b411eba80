import FeatureBatch.Proofs.Run.Samples
import FeatureBatch.Proofs.Run.SuiteCalls

/-!
How runs end. A run comes to its end, unless a feature waits for a permit for ever; its results are
stamped, and they name what the run failed of: what dispatching failed of, in which case no call
about the suite is made, or else the first of these calls that failed.
-/

namespace FeatureBatch

namespace RunState

variable {σ : Type} {w : Suite σ} {a s t : RunState σ} {limiter : AdmissionLimiter} {files : σ}

/-! ### The end stamp -/

/-- The end is stamped with the time of the suite, if it is, and before everything is taken down. -/
structure Stamps (w : Suite σ) (s : RunState σ) : Prop where
  stamp : s.results.endedAt = none ∨ s.results.endedAt = some w.endedAt
  closed : s.isDone = true ∨ (∃ guard, s.stage = .tearingDown guard) → s.results.endedAt ≠ none

lemma turnToWaiting_results (s : RunState σ) (error : Option SuiteError) :
    (s.turnToWaiting error).results = s.results := by
  unfold turnToWaiting
  dsimp only
  split <;> rfl

lemma submitRuntime_results (s : RunState σ) (i : Nat) (r : Runtime) :
    (s.submitRuntime i r).results = s.results := by
  have discarded : ∀ u : RunState σ, (u.discard i).results = u.results := fun u =>
    (Touches.discard u i).keeps.results
  unfold submitRuntime
  split
  · split
    · exact discarded s
    · rfl
  · split
    · rfl
    · exact (turnToWaiting_results _ _).trans (discarded _)

lemma takeIn_endedAt (w : Suite σ) (s : RunState σ) (feature : Feature) (r : Runtime) :
    (takeIn w s feature r).results.endedAt = s.results.endedAt := by
  unfold takeIn
  split
  · rfl
  · dsimp only
    split
    · show ((s.registerRuntime r).discard s.features.length).results.endedAt = _
      rw [(Touches.discard (s.registerRuntime r) s.features.length).keeps.results]
      rfl
    · rw [submitRuntime_results]
      rfl

lemma dispatchNext_endedAt (w : Suite σ) (s : RunState σ) :
    (s.dispatchNext w).results.endedAt = s.results.endedAt := by
  unfold dispatchNext
  split
  · rw [turnToWaiting_results]
  · split
    · rw [turnToWaiting_results]
    · rfl
    · rw [takeIn_endedAt]

lemma Stamps.keeps (h : Stamps w s) (stage : t.stage = s.stage) (results : t.results = s.results) :
    Stamps w t where
  stamp := by rw [results]; exact h.stamp
  closed := by rw [isDone, stage, results]; exact h.closed

lemma callerStep_stamps (h : Stamps w s) (sound : Sound w s) (next : s.callerStep? w = some t) :
    Stamps w t := by
  by_cases late : s.stage.isEarly = false
  · have step := (callerStep_late next late).1
    cases step with
    | close stage trace results closing =>
      have stamped : t.results.endedAt = some w.endedAt := by
        rcases h.stamp with open_ | stamped
        · simp only [callerStep?, stage, Option.some.injEq] at next
          rw [← next, RunState.close, if_neg (by simp [Results.isFinished, open_])]
          rfl
        · rcases results with same | finished
          · rw [same, stamped]
          · rw [finished]
            rfl
      exact ⟨.inr stamped, fun _ => by rw [stamped]; simp⟩
    | tearDown events stage trace told results taking =>
      have closed := h.closed (.inr ⟨_, stage⟩)
      exact ⟨by rw [results]; exact h.stamp, fun _ => by rw [results]; exact closed⟩
    | report stage told trace results moved =>
      refine ⟨by rw [results]; exact h.stamp, fun ended => ?_⟩
      rcases moved with ⟨-, page', moved⟩ | ⟨e, -, moved⟩ <;> simp [isDone, moved] at ended
    | hook stage told trace results moved =>
      refine ⟨by rw [results]; exact h.stamp, fun ended => ?_⟩
      rcases moved with ⟨-, moved⟩ | ⟨e, -, moved⟩ <;> simp [isDone, moved] at ended
    | reported stage trace results moved =>
      exact ⟨by rw [results]; exact h.stamp, fun ended => by simp [isDone, moved] at ended⟩
    | hooked stage trace results moved =>
      exact ⟨by rw [results]; exact h.stamp, fun ended => by simp [isDone, moved] at ended⟩
    | @fail error totals stage trace counts results moved
    | @giveUp error payload stage trace counts results moved =>
      refine ⟨?_, fun ended => by simp [isDone, moved] at ended⟩
      have same : t.results.endedAt = s.results.endedAt := by
        rw [results]
        exact Results.recordFailure_endedAt s.results error
      rw [same]
      exact h.stamp
    | unwind events stage trace told results moved =>
      refine ⟨by rw [results]; exact h.stamp, fun ended => ?_⟩
      rcases moved with moved | moved <;> simp [isDone, moved] at ended
  · cases hs : s.stage with
    | dispatching =>
      simp only [callerStep?, hs, Option.some.injEq] at next
      have dispatches := (dispatchNext_dispatches (w := w) sound.aligned hs).1
      rw [next] at dispatches
      refine ⟨?_, fun ended => ?_⟩
      · rw [← next, dispatchNext_endedAt]
        exact h.stamp
      · have early_or : t.stage.hasTotals = false := by
          cases dispatches with
          | ended why stage => rw [stage]; rfl
          | gaveUp why stage => rw [stage]; rfl
          | took _ _ submits => cases submits <;> simp_all [CallerStage.hasTotals]
        rcases ended with done | ⟨guard, taking⟩
        · rw [hasTotals_of_isDone done] at early_or
          cases early_or
        · rw [taking] at early_or
          cases early_or
    | executing i =>
      rw [(callerStep_executing next hs).2]
      exact ⟨h.stamp, fun ended => by simp [isDone] at ended⟩
    | awaiting error =>
      rw [(callerStep_awaiting next hs).2]
      have endedAt : (s.leaveWaiting w error).results.endedAt = some w.endedAt := by
        obtain ⟨totals, stamped⟩ := leaveWaiting_stamped w s error
        rw [stamped.results]
        rfl
      exact ⟨.inr endedAt, fun _ => by rw [endedAt]; simp⟩
    | _ => rw [hs] at late; exact absurd rfl late

lemma Reaches.stamps (h : Reaches w (w.start limiter files) s) : Stamps w s := by
  induction h with
  | refl => exact ⟨.inl rfl, fun ended => by simp [isDone, Suite.start] at ended⟩
  | @step s t p reach next ih =>
    have sound := reach.sound (sound_start w limiter files)
    by_cases hp : p = .caller
    · subst hp
      exact callerStep_stamps ih sound next
    · have keeps := step_keeps sound next hp
      exact ih.keeps keeps.stage keeps.results

/-! ### Runs that fail in dispatching -/

/-- The run fails of `e`, and calls nothing before that. -/
inductive FailsUncalled (e : SuiteError) (s : RunState σ) : Prop where
  | failing (stage : s.stage = .failing e) (no_calls : s.suiteTrace = [])
      (reason : s.results.failureReason = none)
  | failed (stage : s.stage.isFinal = true) (no_calls : s.suiteTrace = [])
      (reason : s.results.failureReason = some e)

lemma FailsUncalled.no_calls {e : SuiteError} (h : FailsUncalled e s) : s.suiteTrace = [] := by
  cases h with
  | failing stage no_calls reason => exact no_calls
  | failed stage no_calls reason => exact no_calls

lemma FailsUncalled.step {e : SuiteError} (h : FailsUncalled e s)
    (next : s.callerStep? w = some t) : FailsUncalled e t := by
  cases h with
  | failing stage no_calls reason =>
    simp only [callerStep?, stage, Option.some.injEq] at next
    subst next
    obtain ⟨final, recorded⟩ := fail_records reason e
    exact .failed final ((fail_suiteTrace s e).trans no_calls) recorded
  | failed stage no_calls reason =>
    have late := (callerStep_late next (isEarly_of_isFinal stage)).1
    have calls := (late.suiteTrace stage).trans no_calls
    obtain ⟨final, -, same | finished⟩ := late.closes stage
    · exact .failed final calls (by rw [same, reason])
    · exact .failed final calls (by rw [finished, Results.finish, reason])

lemma FailsUncalled.keeps {e : SuiteError} (h : FailsUncalled e s) (keeps : Keeps s t) :
    FailsUncalled e t := by
  have calls : t.suiteTrace = s.suiteTrace := by
    rw [suiteTrace_eq, suiteTrace_eq, keeps.callerTrace]
  cases h with
  | failing stage no_calls reason =>
    exact .failing (keeps.stage.trans stage) (calls.trans no_calls) (by rw [keeps.results, reason])
  | failed stage no_calls reason =>
    exact .failed (keeps.stage ▸ stage) (calls.trans no_calls) (by rw [keeps.results, reason])

/-! ### What a late run has come from -/

/-- All features were dispatched, and the wait ended with these records. -/
structure Released (w : Suite σ) (first s : RunState σ) (records : List FeatureRecord) : Prop where
  waited : ∃ t, Reaches w first t ∧ t.stage = .awaiting none ∧ t.AllSettled ∧
    t.book.registered = records ∧ Reaches w t s

/-- How far a late run is: it has failed in dispatching or of durations that come to no word, or it
carries out its plan. -/
inductive Outcome (w : Suite σ) (first s : RunState σ) : Prop where
  | undispatched {e : SuiteError} (fails : DispatchFails w s.features.length e)
      (uncalled : FailsUncalled e s)
  | overflowed {e : SuiteError} (overflows : Overflows w first s e) (uncalled : FailsUncalled e s)
  | dispatched {results : Results} {records : List FeatureRecord}
      (all : s.features.length = w.creations.length) (released : Released w first s records)
      (totals : Totals.ofRecords records = .ok results.totals)
      (stamped : results.endedAt = some w.endedAt) (fresh : results.failureReason = none)
      (carries : CarriesOut w results (w.plan records) s)

lemma Outcome.fresh {first : RunState σ} (h : Outcome w first s) (going : s.stage.isFinal = false) :
    s.results.failureReason = none := by
  have uncalled : ∀ {e}, FailsUncalled e s → s.results.failureReason = none := by
    intro e h
    cases h with
    | failing stage no_calls reason => exact reason
    | failed stage => rw [going] at stage; cases stage
  cases h with
  | undispatched fails calls => exact uncalled calls
  | overflowed overflows calls => exact uncalled calls
  | dispatched all released totals stamped fresh carries =>
    cases carries with
    | reporting stage same => rw [same, fresh]
    | hooks stage same => rw [same, fresh]
    | failing stage same => rw [same, fresh]
    | finished stage => rw [going] at stage; cases stage

lemma Released.step {records : List FeatureRecord} {first : RunState σ} {p : Party}
    (h : Released w first s records) (next : s.step? w p = some t) :
    Released w first t records := by
  obtain ⟨u, reach, waiting, settled, same, reaches⟩ := h.waited
  exact ⟨u, reach, waiting, settled, same, .step p reaches next⟩

lemma Overflows.step {first : RunState σ} {e : SuiteError} {p : Party}
    (h : Overflows w first s e) (next : s.step? w p = some t) : Overflows w first t e := by
  obtain ⟨same, u, reach, reaches, uncountable⟩ := h
  exact ⟨same, u, reach, .step p reaches next, uncountable⟩

lemma leaveWaiting_outcome (reach : Reaches w (w.start limiter files) s)
    {error : Option SuiteError} (waiting : s.stage = .awaiting error) (settled : s.AllSettled)
    (next : s.step? w .caller = some (s.leaveWaiting w error)) :
    Outcome w (w.start limiter files) (s.leaveWaiting w error) := by
  have undisturbed := reach.undisturbed (by rw [waiting]; rfl)
  have no_calls := leaveWaiting_uncalled (w := w) undisturbed error
  have features := (leaveWaiting_rests w s error).features
  have fresh : (s.leaveWaiting w error).results.failureReason = none := by
    obtain ⟨totals, stamped⟩ := leaveWaiting_stamped w s error
    rw [stamped.results]
    exact undisturbed.failureReason
  obtain ⟨u, totals, stamped, ⟨counts, eq⟩ | ⟨payload, overflows, eq⟩⟩ :=
    leaveWaiting_cases w s error
  · cases error with
    | some e =>
      refine .undispatched ?_ (.failing (by rw [eq]; rfl) no_calls fresh)
      rw [features]
      exact reach.dispatched.2 e waiting
    | none =>
      have released : Released w (w.start limiter files) (s.leaveWaiting w none)
          s.book.registered := ⟨s, reach, waiting, settled, rfl, .step _ (.refl s) next⟩
      have carries : CarriesOut w u.results (w.plan s.book.registered) (s.leaveWaiting w none) := by
        rw [eq] at no_calls ⊢
        exact turnToReports_carries stamped.registered no_calls
      have all : (s.leaveWaiting w none).features.length = w.creations.length := by
        rw [features]
        exact reach.dispatched.1 waiting
      refine .dispatched all released ?_ ?_ ?_ carries <;> rw [stamped.results]
      · exact counts
      · rfl
      · exact undisturbed.failureReason
  · obtain ⟨uncountable, rfl⟩ := Totals.ofRecords_eq_error.mp overflows
    exact .overflowed ⟨rfl, s, reach, .step _ (.refl s) next, uncountable⟩
      (.failing (by rw [eq]) no_calls fresh)

/-- **Late runs have an outcome**, and every step gets on with it. -/
theorem Reaches.outcome (h : Reaches w (w.start limiter files) s)
    (late : s.stage.isEarly = false) : Outcome w (w.start limiter files) s := by
  induction h with
  | refl => cases late
  | @step s t p reach next ih =>
    have sound := reach.sound (sound_start w limiter files)
    by_cases early : s.stage.isEarly = true
    · obtain ⟨rfl, ⟨error, waiting, complete, rfl⟩ | ⟨dispatching, payload, why, failing⟩⟩ :=
        step_turns sound next early late
      · exact leaveWaiting_outcome reach waiting ((isComplete_iff sound.aligned).mp complete) next
      · obtain ⟨dispatches, still⟩ := callerStep_dispatches sound.aligned next dispatching
        have undisturbed := (reach.undisturbed early).dispatches still
        refine .undispatched ((dispatches.ends reach dispatching).2 _ (.inr failing))
          (.failing failing ?_ undisturbed.failureReason)
        rw [suiteTrace_eq, undisturbed.callerTrace]
        rfl
    · have late_s : s.stage.isEarly = false := by simpa using early
      have later := CallerStage.ne_dispatching late_s
      have outcome := ih late_s
      have length : t.features.length = s.features.length := by
        by_cases hp : p = .caller
        · subst hp
          rw [(callerStep_rests next later).features]
        · exact (step_keeps sound next hp).features
      cases outcome with
      | undispatched fails uncalled =>
        refine .undispatched (by rw [length]; exact fails) ?_
        by_cases hp : p = .caller
        · subst hp
          exact uncalled.step next
        · exact uncalled.keeps (step_keeps sound next hp)
      | overflowed overflows uncalled =>
        refine .overflowed (overflows.step next) ?_
        by_cases hp : p = .caller
        · subst hp
          exact uncalled.step next
        · exact uncalled.keeps (step_keeps sound next hp)
      | dispatched all released totals stamped fresh carries =>
        refine .dispatched (length.trans all) (released.step next) totals stamped fresh ?_
        by_cases hp : p = .caller
        · subst hp
          exact carries.step next (by rw [stamped]; simp) fresh
        · have keeps := step_keeps sound next hp
          refine carries.keeps keeps.stage keeps.results ?_
          rw [suiteTrace_eq, suiteTrace_eq, keeps.callerTrace]

lemma Released.kept {records : List FeatureRecord}
    (h : Released w (w.start limiter files) s records) (inTime : w.WritesInTime) :
    s.book.registered = records := by
  obtain ⟨t, reach, waiting, settled, rfl, reaches⟩ := h.waited
  clear h
  suffices both : s.AllSettled ∧ s.stage ≠ .dispatching ∧
      s.book.registered = t.book.registered from both.2.2
  induction reaches with
  | refl => exact ⟨settled, by rw [waiting]; simp, rfl⟩
  | @step s u p reaches next ih =>
    obtain ⟨settled_s, later, same⟩ := ih
    have reach_s := reach.trans reaches
    refine ⟨settled_s.step reach_s later next, ?_, (step_records reach_s inTime settled_s later
      next).trans same⟩
    rcases reach.waits waiting (.step p reaches next) with awaiting | ⟨late, -⟩
    · rw [awaiting]
      simp
    · exact CallerStage.ne_dispatching late

/-! ### The end -/

/-- The run has failed of `e`, and its totals are those of the records at that moment. -/
def Recounted (w : Suite σ) (first s : RunState σ) (e : SuiteError) : Prop :=
  ∃ t, Reaches w first t ∧ t.stage = .failing e ∧
    Totals.ofRecords t.book.registered = .ok s.results.totals ∧ Reaches w t s

lemma Recounted.step {first : RunState σ} {e : SuiteError} {p : Party}
    (h : Recounted w first s e) (next : s.step? w p = some t)
    (totals : t.results.totals = s.results.totals) : Recounted w first t e := by
  obtain ⟨u, reach, failing, counts, reaches⟩ := h
  exact ⟨u, reach, failing, totals ▸ counts, .step p reaches next⟩

/-- **A run that has failed has counted anew** when it failed. -/
theorem Reaches.recounted (h : Reaches w (w.start limiter files) s)
    (counted : s.stage.hasTotals = true) {e : SuiteError}
    (reason : s.results.failureReason = some e) : Recounted w (w.start limiter files) s e := by
  induction h with
  | refl => cases counted
  | @step s t p reach next ih =>
    have sound := reach.sound (sound_start w limiter files)
    by_cases hp : p = .caller
    · subst hp
      by_cases late : s.stage.isEarly = false
      · -- Before the end no failure is recorded; it is recorded where the totals are counted anew.
        have fresh := (reach.outcome late).fresh
        obtain ⟨hooks, same⟩ | ⟨error, totals, failing, counts, results⟩ | ⟨before, same⟩ :=
          (callerStep_late next late).1.of_hasTotals counted
        · rw [same, fresh (by rw [hooks]; rfl)] at reason
          cases reason
        · have recorded : t.results.failureReason = some error := by
            rw [results, Results.recordFailure, fresh (by rw [failing]; rfl)]
          rw [recorded, Option.some.injEq] at reason
          subst reason
          exact ⟨s, reach, failing, by rw [results]; exact counts, .step .caller (.refl s) next⟩
        · have kept : t.results.failureReason = s.results.failureReason ∧
              t.results.totals = s.results.totals := by
            rcases same with same | finished
            · rw [same]
              exact ⟨rfl, rfl⟩
            · rw [finished]
              exact ⟨rfl, rfl⟩
          exact (ih before (kept.1 ▸ reason)).step next kept.2
      · have final := (isFinal_of_hasTotals counted).1
        rw [step_isFinal sound next (by simpa using late)] at final
        cases final
    · have keeps := step_keeps sound next hp
      exact (ih (keeps.stage ▸ counted) (keeps.results ▸ reason)).step next (by rw [keeps.results])

/-- How a run has ended. It failed in dispatching, or of durations that come to no word, and called
nothing about the suite; or all features were dispatched, and the plan was carried out up to the
first call that failed, which is what the run failed of. All calls saw the end stamp and the totals
of the records as they were after the last signal. The run returns these totals unless it fails of a
call; then it counts anew, and a feature may have written in between. -/
inductive Ended (w : Suite σ) (first s : RunState σ) : Prop where
  | undispatched {e : SuiteError} (fails : DispatchFails w s.features.length e)
      (no_calls : s.suiteTrace = []) (reason : s.results.failureReason = some e)
  | overflowed {e : SuiteError} (overflows : Overflows w first s e)
      (no_calls : s.suiteTrace = []) (reason : s.results.failureReason = some e)
  | dispatched {results : Results} {records : List FeatureRecord}
      (all : s.features.length = w.creations.length) (released : Released w first s records)
      (stamped : results.endedAt = some w.endedAt)
      (totals : Totals.ofRecords records = .ok results.totals)
      (carried : Carried (SuiteCall.Makes w results) (w.plan records) s.suiteTrace
        s.results.failureReason)
      (returned : s.results.failureReason = none ∨ w.WritesInTime →
        s.results.totals = results.totals)
      (final : w.WritesInTime → s.book.registered = records)

lemma Outcome.ended (h : Outcome w (w.start limiter files) s)
    (reach : Reaches w (w.start limiter files) s) (counted : s.stage.hasTotals = true) :
    Ended w (w.start limiter files) s := by
  have failed : ∀ {e}, FailsUncalled e s →
      s.suiteTrace = [] ∧ s.results.failureReason = some e := by
    intro e uncalled
    cases uncalled with
    | failing stage no_calls reason => rw [stage] at counted; cases counted
    | failed stage no_calls reason => exact ⟨no_calls, reason⟩
  cases h with
  | undispatched fails uncalled => exact .undispatched fails (failed uncalled).1 (failed uncalled).2
  | overflowed overflows uncalled =>
    exact .overflowed overflows (failed uncalled).1 (failed uncalled).2
  | @dispatched results records all released totals stamped fresh carries =>
    cases carries with
    | reporting stage => rw [stage] at counted; cases counted
    | hooks stage => rw [stage] at counted; cases counted
    | failing stage => rw [stage] at counted; cases counted
    | finished stage carried endedAt same =>
      refine .dispatched all released stamped totals carried ?_ released.kept
      rintro (none_failed | inTime)
      · rw [same none_failed]
      · obtain ⟨t, ht, waiting, -, -, reaches⟩ := released.waited
        have covered : Covered w (w.start limiter files) s := .awaited ⟨t, none, ht, waiting, reaches⟩
        have recounts := (covered.counted reach counted).2 inTime
        rw [Recounts, released.kept inTime, totals, Except.ok.injEq] at recounts
        exact recounts.symm

/-- The run has failed with durations that came to no word at that moment. -/
def GaveUp (w : Suite σ) (first s : RunState σ) : Prop :=
  ∃ t e, Reaches w first t ∧ t.stage = .failing e ∧ ¬ t.book.Countable ∧ Reaches w t s

lemma GaveUp.step {first : RunState σ} {p : Party} (h : GaveUp w first s)
    (next : s.step? w p = some t) : GaveUp w first t := by
  obtain ⟨u, e, reach, failing, uncountable, reaches⟩ := h
  exact ⟨u, e, reach, failing, uncountable, .step p reaches next⟩

/-- **A run gives up for nothing but an overflow** that it finds when it has failed. -/
theorem Reaches.gaveUp (h : Reaches w (w.start limiter files) s) {payload : PanicPayload}
    (gave_up : s.stage.gaveUpOf? = some payload) :
    payload = Totals.overflow ∧ GaveUp w (w.start limiter files) s := by
  induction h with
  | refl => cases gave_up
  | @step s t p reach next ih =>
    have sound := reach.sound (sound_start w limiter files)
    by_cases hp : p = .caller
    · subst hp
      by_cases late : s.stage.isEarly = false
      · obtain unwinding | ⟨⟨error, failing⟩, overflows⟩ :=
          (callerStep_late next late).1.gives_up gave_up
        · obtain ⟨overflow, gaveUp⟩ := ih (by rw [unwinding]; rfl)
          exact ⟨overflow, gaveUp.step next⟩
        · obtain ⟨uncountable, rfl⟩ := Totals.ofRecords_eq_error.mp overflows
          exact ⟨rfl, s, error, reach, failing, uncountable, .step .caller (.refl s) next⟩
      · have final := isFinal_of_gaveUpOf gave_up
        rw [step_isFinal sound next (by simpa using late)] at final
        cases final
    · have keeps := step_keeps sound next hp
      obtain ⟨overflow, gaveUp⟩ := ih (keeps.stage ▸ gave_up)
      exact ⟨overflow, gaveUp.step next⟩

/-- **Runs end as planned.** No schedule goes on for ever, and where nobody can step the run has
returned, unless a feature waits for a permit that it is not given, or the run has given up: it had
failed, and the durations of its records came to no word. The results of a run that has returned are
stamped; they fail of what dispatching failed of, and else of the first call about the suite that
failed, before which all calls were made in their order, and after which none. If they fail, their
totals are those of the records at that moment. -/
theorem runs_end {σ : Type} {w : Suite σ} {limiter : AdmissionLimiter} {files : σ} {s : RunState σ}
    (reach : Reaches w (w.start limiter files) s) :
    (∀ (ps : List Party) (t : RunState σ), (w.start limiter files).follow w ps = some t →
      ps.length ≤ w.weight) ∧
    (Halted w s → s.isDone = true ∨ s.stage = .panicked Totals.overflow ∨
      ∃ (i : Nat) (f : FeatureRun), s.features[i]? = some f ∧ s.Starves f) ∧
    (∀ payload, s.stage = .panicked payload → GaveUp w (w.start limiter files) s) ∧
    (s.isDone = true →
      s.results.endedAt = some w.endedAt ∧ Ended w (w.start limiter files) s ∧
        ∀ e, s.results.failureReason = some e → Recounted w (w.start limiter files) s e) := by
  have sound := sound_start w limiter files
  refine ⟨fun ps t h => ?_, fun halted => ?_, fun payload stage => ?_, fun done => ?_⟩
  · have bound := follow_length sound h
    have start := toGo_start w limiter files
    omega
  · rcases halted.isOver_or_starves reach with finished | starves
    · rcases isOver_iff.mp finished with done | ⟨payload, stage⟩
      · exact .inl done
      · have gave_up : s.stage.gaveUpOf? = some payload := by rw [stage]; rfl
        rw [(reach.gaveUp gave_up).1] at stage
        exact .inr (.inl stage)
    · exact .inr (.inr starves)
  · have gave_up : s.stage.gaveUpOf? = some payload := by rw [stage]; rfl
    exact (reach.gaveUp gave_up).2
  · have counted := hasTotals_of_isDone done
    refine ⟨reach.stamps.stamp.resolve_left (reach.stamps.closed (.inl done)), ?_,
      fun e reason => reach.recounted counted reason⟩
    exact (reach.outcome (isEarly_of_hasTotals counted)).ended reach counted

/-- A serial batch of two features that take half of all times each. -/
def overflowingBatch : Suite Unit :=
  smallSuite 1 one_thread false []
    (List.replicate 2 (.made (.ofActs (smallFeature "f")
      [.work [.addScenario passing, .setDuration 9223372036854775808], .complete])))

/-- The features run one after the other, and then the caller goes on to the end. -/
def overflowingRun : RunState Unit :=
  (overflowingBatch.start smallLimiter ()).play overflowingBatch
    (.caller :: List.replicate 6 (.feature 0 0) ++ [.caller, .caller] ++
      List.replicate 6 (.feature 1 0) ++ List.replicate 8 .caller)

example : overflowingRun.isOver = true ∧ overflowingRun.isDone = false := by decide +kernel

/-- A serial batch of one feature with pages and three hooks, of which the second one fails. -/
def hookedBatch : Suite Unit :=
  smallSuite 1 one_thread true
    [⟨"a", fun _ => .ok⟩, ⟨"b", fun _ => .failed "no"⟩, ⟨"c", fun _ => .ok⟩]
    [.made (.ofActs (smallFeature "f") [.work [.addScenario passing], .complete])]

/-- The feature runs, and then the caller goes on to the end. -/
def hookedRun : RunState Unit :=
  (hookedBatch.start smallLimiter ()).play hookedBatch
    (.caller :: List.replicate 4 (.feature 0 0) ++ List.replicate 15 .caller)

theorem hookedRun_ends :
    hookedRun.isDone = true ∧ hookedRun.results.endedAt = some .epoch ∧
      hookedRun.results.failureReason = some (.hook "b" "no") ∧ hookedRun.suiteCalls.length = 4 ∧
      hookedRun.hookCalls.map Prod.fst = ["a", "b"] ∧
      Ended hookedBatch (hookedBatch.start smallLimiter ()) hookedRun := by
  obtain ⟨stamped, ended, -⟩ := (runs_end (s := hookedRun) (reaches_play _ _ _)).2.2.2 (by rfl)
  exact ⟨by rfl, stamped, by rfl, by rfl, by rfl, ended⟩

/-- A parallel batch of one feature that writes a failed scenario after its completion, with a hook
that fails. -/
def lateBatch : Suite Unit :=
  smallSuite 2 two_threads false [⟨"h", fun _ => .failed "no"⟩]
    [.made (.ofActs (smallFeature "f")
      [.work [.addScenario passing], .complete, .work [.addScenario failing]])]

/-- The feature writes when the hook has been called and before the run fails of it. -/
def lateRun : RunState Unit :=
  (lateBatch.start smallLimiter ()).play lateBatch
    ([.caller, .lane, .lane] ++ List.replicate 3 (.feature 0 0) ++
      [.caller, .caller, .caller, .feature 0 0] ++ List.replicate 4 .caller ++ [.lane] ++
      List.replicate 5 .caller)

/-- A call can see other totals than the run returns: the hook sees none of the failed scenarios, and
the run that fails of the hook counts one. -/
theorem lateRun_returns_other_totals :
    Reaches lateBatch (lateBatch.start smallLimiter ()) lateRun ∧ lateRun.isDone = true ∧
      lateRun.book.Countable ∧
      lateRun.hookCalls.map (fun c => (c.1, c.2.book.results.totals.failures)) = [("h", 0)] ∧
      lateRun.results.failureReason = some (.hook "h" "no") ∧
      lateRun.results.totals.failures = 1 :=
  ⟨reaches_play _ _ _, by rfl, by decide +kernel, by rfl, by rfl, by rfl⟩

end RunState

end FeatureBatch
