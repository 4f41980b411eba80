import FeatureBatch.Proofs.Run.Carried
import FeatureBatch.Proofs.Run.Standstill
import FeatureBatch.Proofs.Run.Verdicts

/-!
The calls about the whole suite. What is to be called is planned once every signal has come: a page
for each feature that ran, the summaries and the hooks. The caller carries the plan out up to the
first call that fails; if dispatching failed there is no plan, and no call.
-/

namespace FeatureBatch

/-- A call about the whole suite that is to be made. -/
inductive SuiteCall where
  | report (report : SuiteReport)
  | hook (hook : Hook)

/-- What is to be written about the whole suite: a page for each record that is not empty, and the
summaries. -/
def SuiteReport.ofRecords (records : List FeatureRecord) : List SuiteReport :=
  (records.filter fun r => !r.isEmpty).map .page ++ [.summary, .stats, .timeline]

/-- What is to be called, with these records: the reports if they are wanted, and then the hooks. -/
def Suite.plan {σ : Type} (w : Suite σ) (records : List FeatureRecord) : List SuiteCall :=
  (if w.config.outputs.html then (SuiteReport.ofRecords records).map .report else []) ++
    w.config.hooks.map .hook

/-- The call that a report is written by shows these results, if it shows any. -/
inductive SuiteReport.Shows (results : Results) : SuiteReport → ReportCall → Prop where
  | page (record : FeatureRecord) : SuiteReport.Shows results (.page record) (.featureHtml record)
  | summary (records : RecordStore) : SuiteReport.Shows results .summary (.summary ⟨results, records⟩)
  | stats (records : RecordStore) : SuiteReport.Shows results .stats (.stats ⟨results, records⟩)
  | timeline (records : RecordStore) :
      SuiteReport.Shows results .timeline (.timeline ⟨results, records⟩)

/-- A planned call is made where these results can be seen, and comes to an error or to none. -/
inductive SuiteCall.Makes {σ : Type} (w : Suite σ) (results : Results) :
    SuiteCall → RunEvent → Option SuiteError → Prop where
  | report {report : SuiteReport} {call : ReportCall} (files : σ)
      (shown : report.Shows results call) :
      SuiteCall.Makes w results (.report report)
        (.suiteCall call (w.emitter.perform w.config.reportDir call files).1 results)
        (w.emitter.perform w.config.reportDir call files).1.error?
  | hook (hook : Hook) (records : RecordStore) (limiterClosed : Bool) :
      SuiteCall.Makes w results (.hook hook)
        (.hookCall hook.name ⟨⟨results, records⟩, limiterClosed⟩
          (hook.call ⟨⟨results, records⟩, limiterClosed⟩))
        ((hook.call ⟨⟨results, records⟩, limiterClosed⟩).error? hook.name)

/-- How dispatching fails after `n` registrations. -/
inductive DispatchFails {σ : Type} (w : Suite σ) : Nat → SuiteError → Prop where
  | refused {n : Nat} {feature : Feature} {reason : String}
      (here : w.creations[n]? = some (feature, .refused reason)) :
      DispatchFails w n (.runtime feature.display reason)
  | create {n : Nat} {feature : Feature} {payload : PanicPayload}
      (here : w.creations[n]? = some (feature, .panicked payload)) :
      DispatchFails w n (.panic payload.message)
  | record {n : Nat} {feature : Feature} {r : Runtime} {payload : PanicPayload}
      (here : w.creations[n]? = some (feature, .made r)) (panics : r.recordPanics = some payload) :
      DispatchFails w n (.panic payload.message)
  /-- The runtime is registered, and gives up in taking its completion or, in a serial run, in being
  started. -/
  | submit {n : Nat} {feature : Feature} {r : Runtime} {payload : PanicPayload}
      (here : w.creations[n]? = some (feature, .made r))
      (panics : r.completionPanics = some payload ∨ (r.completionPanics = none ∧
        ¬ 1 < w.config.threads ∧ r.startPanics = some payload)) :
      DispatchFails w (n + 1) (.panic payload.message)
  /-- The lane is there no more: a runtime gave up in being started, and brought it down. -/
  | stopped {n : Nat} {feature : Feature} {r : Runtime} (parallel : 1 < w.config.threads)
      (here : w.creations[n]? = some (feature, .made r)) (dead : ¬ w.StartsAll) :
      DispatchFails w (n + 1) (.dispatcherStopped r.feature.display)

namespace RunState

variable {σ : Type} {w : Suite σ} {a s t : RunState σ} {limiter : AdmissionLimiter} {files : σ}

/-! ### How dispatching ends -/

lemma Reaches.lane_isNone (h : Reaches w (w.start limiter files) s) :
    s.lane = none ↔ ¬ 1 < w.config.threads := by
  rw [h.lane_eq_none (sound_start w limiter files)]
  unfold Suite.start
  dsimp only
  split <;> simp_all

lemma Dispatches.ends (reach : Reaches w (w.start limiter files) s)
    (dispatching : s.stage = .dispatching) (h : Dispatches s t) :
    (t.stage = .awaiting none → t.features.length = w.creations.length) ∧
    ∀ e, t.stage = .awaiting (some e) ∨ t.stage = .failing e →
      DispatchFails w t.features.length e := by
  have sound := reach.sound (sound_start w limiter files)
  cases h with
  | ended why stage lane rests =>
    rw [rests.features]
    cases why with
    | all none_left =>
      refine ⟨fun _ => ?_, fun e ended => ?_⟩
      · have ended := (Stops.all none_left).dispatchEnd sound dispatching
        cases ended with
        | all length => exact length
      · rw [stage] at ended
        rcases ended with ended | ended <;> cases ended
    | refused next =>
      refine ⟨fun all => ?_, fun e ended => ?_⟩
      · rw [stage] at all
        cases all
      · rw [stage] at ended
        rcases ended with ended | ended <;> cases ended
        exact .refused (sound.next dispatching next).1
  | gaveUp why stage lane rests =>
    rw [rests.features]
    refine ⟨fun all => ?_, fun e ended => ?_⟩
    · rw [stage] at all
      cases all
    · rw [stage] at ended
      rcases ended with ended | ended <;> cases ended
      cases why with
      | create next => exact .create (sound.next dispatching next).1
      | record next panics => exact .record (sound.next dispatching next).1 panics
  | took next asked submits pending aligned length cells =>
    have here := (sound.next dispatching next).1
    rw [length]
    cases submits with
    | inline serial calm stage lane =>
      rw [stage]
      refine ⟨(fun all => by cases all), ?_⟩
      rintro e (ended | ended) <;> cases ended
    | queued parallel accepts stage put =>
      rw [stage]
      refine ⟨(fun all => by cases all), ?_⟩
      rintro e (ended | ended) <;> cases ended
    | @rejected lane parallel rejects stage put =>
      rw [stage]
      refine ⟨(fun all => by cases all), ?_⟩
      rintro e (ended | ended) <;> cases ended
      refine .stopped ?_ here fun starts => ?_
      · by_contra serial
        rw [reach.lane_isNone.mpr serial] at parallel
        cases parallel
      · have serves := reach.laneServes starts (by rw [dispatching]; rfl)
        rw [serves.accepts parallel] at rejects
        cases rejects
    | gaveUp why stage lane =>
      rw [stage]
      refine ⟨(fun all => by cases all), ?_⟩
      rintro e (ended | ended) <;> cases ended
      rw [reach.lane_isNone] at why
      exact .submit here why

lemma Reaches.dispatched (h : Reaches w (w.start limiter files) s) :
    (s.stage = .awaiting none → s.features.length = w.creations.length) ∧
    ∀ e, s.stage = .awaiting (some e) → DispatchFails w s.features.length e := by
  induction h with
  | refl =>
    refine ⟨(fun waiting => by cases waiting), (fun e waiting => by cases waiting)⟩
  | @step s t p reach next ih =>
    have sound := reach.sound (sound_start w limiter files)
    by_cases hp : p = .caller
    · subst hp
      by_cases dispatching : s.stage = .dispatching
      · have ends := (callerStep_dispatches sound.aligned next dispatching).1.ends reach dispatching
        exact ⟨ends.1, fun e waiting => ends.2 e (.inl waiting)⟩
      · have others : ∀ error, t.stage ≠ .awaiting error := by
          intro error waiting
          obtain ⟨i, -, -, rfl⟩ := callerStep_early next (by rw [waiting]; rfl) dispatching
          cases waiting
        exact ⟨fun waiting => absurd waiting (others _), fun e waiting => absurd waiting (others _)⟩
    · have keeps := step_keeps sound next hp
      rw [keeps.stage, keeps.features]
      exact ih

/-! ### Carrying out the plan -/

/-- The calls about the whole suite in the trace. -/
def suiteTrace (s : RunState σ) : List RunEvent := s.trace.filter fun e => e.verdict?.isSome

lemma suiteTrace_append {events : List RunEvent} (h : t.trace = s.trace ++ events) :
    t.suiteTrace = s.suiteTrace ++ events.filter fun e => e.verdict?.isSome := by
  unfold suiteTrace
  rw [h, List.filter_append]

lemma suiteTrace_eq (s : RunState σ) :
    s.suiteTrace = s.callerTrace.filter fun e => e.verdict?.isSome := by
  unfold suiteTrace callerTrace
  rw [List.filter_filter]
  congr 1
  funext e
  cases e <;> rfl

lemma suiteTrace_same {events : List RunEvent} (h : t.trace = s.trace ++ events)
    (others : ∀ e ∈ events, e.verdict? = none) : t.suiteTrace = s.suiteTrace := by
  rw [suiteTrace_append h, List.filter_eq_nil_iff.mpr, List.append_nil]
  intro e he
  simp [others e he]

lemma suiteTrace_one {event : RunEvent} {verdict : Option SuiteError}
    (h : t.trace = s.trace ++ [event]) (told : event.verdict? = some verdict) :
    t.suiteTrace = s.suiteTrace ++ [event] := by
  rw [suiteTrace_append h]
  simp [told]

/-- How far the plan is carried out. All calls see the same results. -/
inductive CarriesOut (w : Suite σ) (results : Results) (plan : List SuiteCall) (s : RunState σ) :
    Prop where
  | reporting {rest : List SuiteReport} {page : Option Path} {done : List SuiteCall}
      (stage : s.stage = .reporting rest page) (results_eq : s.results = results)
      (passed : Passed (SuiteCall.Makes w results) done s.suiteTrace)
      (left : plan = done ++ (rest.map SuiteCall.report ++ w.config.hooks.map .hook))
  | hooks {rest : List Hook} {done : List SuiteCall} (stage : s.stage = .hooks rest)
      (results_eq : s.results = results)
      (passed : Passed (SuiteCall.Makes w results) done s.suiteTrace)
      (left : plan = done ++ rest.map .hook)
  | failing {e : SuiteError} (stage : s.stage = .failing e) (results_eq : s.results = results)
      (carried : Carried (SuiteCall.Makes w results) plan s.suiteTrace (some e))
  | finished (stage : s.stage.isFinal = true)
      (carried : Carried (SuiteCall.Makes w results) plan s.suiteTrace s.results.failureReason)
      (endedAt : s.results.endedAt = results.endedAt)
      (same : s.results.failureReason = none → s.results = results)

variable {results : Results} {plan : List SuiteCall}

lemma CarriesOut.keeps (h : CarriesOut w results plan s) (stage : t.stage = s.stage)
    (results_eq : t.results = s.results) (trace : t.suiteTrace = s.suiteTrace) :
    CarriesOut w results plan t := by
  cases h with
  | reporting hs same passed left =>
    exact .reporting (stage.trans hs) (results_eq.trans same) (trace ▸ passed) left
  | hooks hs same passed left =>
    exact .hooks (stage.trans hs) (results_eq.trans same) (trace ▸ passed) left
  | failing hs same carried =>
    exact .failing (stage.trans hs) (results_eq.trans same) (trace ▸ carried)
  | finished hs carried endedAt same =>
    refine .finished (stage ▸ hs) ?_ (results_eq ▸ endedAt) (results_eq ▸ same)
    rw [trace, results_eq]
    exact carried

lemma writeReport_carries {report : SuiteReport} {rest : List SuiteReport} {page : Option Path}
    {done : List SuiteCall} (results_eq : s.results = results)
    (passed : Passed (SuiteCall.Makes w results) done s.suiteTrace)
    (left : plan =
      done ++ ((report :: rest).map SuiteCall.report ++ w.config.hooks.map .hook)) :
    CarriesOut w results plan (s.writeReport w report rest page) := by
  have shown : report.Shows results (s.reportCall report) := by
    subst results_eq
    cases report with
    | page record => exact .page record
    | summary => exact .summary s.records
    | stats => exact .stats s.records
    | timeline => exact .timeline s.records
  have makes : SuiteCall.Makes w results (.report report) _ _ := .report s.files shown
  have one : (s.writeReport w report rest page).suiteTrace = s.suiteTrace ++
      [.suiteCall (s.reportCall report)
        (w.emitter.perform w.config.reportDir (s.reportCall report) s.files).1 results] := by
    refine suiteTrace_one ?_ rfl
    subst results_eq
    unfold writeReport
    dsimp only
    split <;> rfl
  have same : (s.writeReport w report rest page).results = results := by
    rw [← results_eq]
    unfold writeReport
    dsimp only
    split <;> rfl
  cases verdict : (w.emitter.perform w.config.reportDir (s.reportCall report) s.files).1.error? with
  | none =>
    have stage : ∃ page', (s.writeReport w report rest page).stage = .reporting rest page' := by
      unfold writeReport
      dsimp only
      split
      · rename_i e fails
        rw [verdict] at fails
        cases fails
      · exact ⟨_, rfl⟩
      · exact ⟨_, rfl⟩
    obtain ⟨page', stage⟩ := stage
    rw [verdict] at makes
    have passed_on : Passed (SuiteCall.Makes w results) (done ++ [.report report])
        (s.writeReport w report rest page).suiteTrace := by
      rw [one]
      exact passed.snoc makes
    refine .reporting stage same passed_on ?_
    rw [left, List.map_cons, List.append_assoc]
    rfl
  | some e =>
    have stage : (s.writeReport w report rest page).stage = .failing e := by
      unfold writeReport
      dsimp only
      rw [verdict]
    rw [verdict] at makes
    refine .failing stage same ?_
    rw [one, left]
    exact passed.carried (.failed makes)

lemma callHook_carries {hook : Hook} {rest : List Hook} {done : List SuiteCall}
    (results_eq : s.results = results)
    (passed : Passed (SuiteCall.Makes w results) done s.suiteTrace)
    (left : plan = done ++ (hook :: rest).map .hook) :
    CarriesOut w results plan (s.callHook hook rest) := by
  have makes : SuiteCall.Makes w results (.hook hook) _ _ := .hook hook s.records s.limiter.closed
  have one : (s.callHook hook rest).suiteTrace = s.suiteTrace ++
      [.hookCall hook.name ⟨⟨results, s.records⟩, s.limiter.closed⟩
        (hook.call ⟨⟨results, s.records⟩, s.limiter.closed⟩)] := by
    refine suiteTrace_one ?_ rfl
    subst results_eq
    unfold callHook
    dsimp only
    split <;> rfl
  have same : (s.callHook hook rest).results = results := by
    rw [← results_eq]
    unfold callHook
    dsimp only
    split <;> rfl
  cases verdict : (hook.call ⟨⟨results, s.records⟩, s.limiter.closed⟩).error? hook.name with
  | none =>
    have stage : (s.callHook hook rest).stage = .hooks rest := by
      subst results_eq
      unfold callHook book
      dsimp only
      rw [verdict]
    rw [verdict] at makes
    have passed_on : Passed (SuiteCall.Makes w results) (done ++ [.hook hook])
        (s.callHook hook rest).suiteTrace := by
      rw [one]
      exact passed.snoc makes
    refine .hooks stage same passed_on ?_
    rw [left, List.append_assoc]
    rfl
  | some e =>
    have stage : (s.callHook hook rest).stage = .failing e := by
      subst results_eq
      unfold callHook book
      dsimp only
      rw [verdict]
    rw [verdict] at makes
    refine .failing stage same ?_
    rw [one, left]
    exact passed.carried (.failed makes)

lemma LateStep.suiteTrace (step : LateStep w s t) (final : s.stage.isFinal = true) :
    t.suiteTrace = s.suiteTrace := by
  obtain ⟨-, -, trace, -⟩ | ⟨-, -, -, events, trace, told⟩ := step.of_isFinal final
  · have untold : t.trace = s.trace ++ [] := by rw [trace, List.append_nil]
    exact suiteTrace_same untold (by simp)
  · refine suiteTrace_same trace fun e he => ?_
    have := told e he
    cases e <;> first | rfl | cases this

lemma LateStep.results_stay (step : LateStep w s t) (h : s.callerStep? w = some t)
    (final : s.stage.isFinal = true) (stamped : s.results.endedAt ≠ none) :
    t.results = s.results := by
  obtain ⟨closing, -⟩ | ⟨-, -, same, -⟩ := step.of_isFinal final
  · simp only [callerStep?, closing, Option.some.injEq] at h
    rw [← h, RunState.close]
    exact if_pos (Option.isSome_iff_ne_none.mpr stamped)
  · exact same

lemma fail_endedAt (s : RunState σ) (error : SuiteError) :
    (s.fail error).results.endedAt = s.results.endedAt := by
  have same := Results.recordFailure_endedAt s.results error
  obtain ⟨totals, log, -, eq⟩ | ⟨payload, log, -, eq⟩ := fail_cases s error <;> rw [eq]
  · exact same
  · exact same

lemma fail_suiteTrace (s : RunState σ) (error : SuiteError) :
    (s.fail error).suiteTrace = s.suiteTrace := by
  obtain ⟨totals, log, -, eq⟩ | ⟨payload, log, -, eq⟩ := fail_cases s error <;> rw [eq] <;> rfl

/-- **The caller carries its plan out** by each of its steps. -/
lemma CarriesOut.step (h : CarriesOut w results plan s) (next : s.callerStep? w = some t)
    (stamped : results.endedAt ≠ none) (fresh : results.failureReason = none) :
    CarriesOut w results plan t := by
  cases h with
  | @reporting rest page done stage results_eq passed left =>
    simp only [callerStep?, stage] at next
    cases rest with
    | nil =>
      cases next
      have stage : (s.leaveReporting w page).stage = .hooks w.config.hooks := rfl
      have left : plan = done ++ w.config.hooks.map .hook := left
      refine .hooks stage ?_ ?_ left
      · unfold leaveReporting
        split <;> exact results_eq
      · unfold leaveReporting
        split <;> exact passed
    | cons report rest =>
      cases next
      exact writeReport_carries results_eq passed left
  | @hooks rest done stage results_eq passed left =>
    simp only [callerStep?, stage] at next
    cases rest with
    | nil =>
      cases next
      have none_failed : s.results.failureReason = none := by rw [results_eq, fresh]
      refine .finished rfl ?_ (by rw [results_eq]) fun _ => results_eq
      rw [left, List.map_nil, List.append_nil]
      show Carried _ _ s.suiteTrace s.results.failureReason
      rw [none_failed]
      exact passed.all
    | cons hook rest =>
      cases next
      exact callHook_carries results_eq passed left
  | @failing e stage results_eq carried =>
    simp only [callerStep?, stage, Option.some.injEq] at next
    subst next
    obtain ⟨final, reason⟩ := fail_records (results_eq ▸ fresh) e
    have endedAt : (s.fail e).results.endedAt = results.endedAt := by
      rw [fail_endedAt, results_eq]
    refine .finished final ?_ endedAt fun none_failed => ?_
    · rw [reason, fail_suiteTrace]
      exact carried
    · rw [reason] at none_failed
      cases none_failed
  | finished stage carried endedAt same =>
    have late := (callerStep_late next (isEarly_of_isFinal stage)).1
    have kept := late.results_stay next stage (by rw [endedAt]; exact stamped)
    refine .finished (late.closes stage).1 ?_ (by rw [kept, endedAt]) (by rw [kept]; exact same)
    rw [late.suiteTrace stage, kept]
    exact carried

lemma turnToReports_carries {records : List FeatureRecord} (same : s.book.registered = records)
    (no_calls : (s.turnToReports w none).suiteTrace = []) :
    CarriesOut w s.results (w.plan records) (s.turnToReports w none) := by
  have reports : s.suiteReports = SuiteReport.ofRecords s.book.registered := rfl
  have results : (s.turnToReports w none).results = s.results := by
    obtain ⟨stage, log, turned⟩ := turnToReports_eq w s none
    rw [turned]
  have passed : Passed (SuiteCall.Makes w s.results) [] (s.turnToReports w none).suiteTrace := by
    rw [no_calls]
    exact .nil
  subst same
  unfold Suite.plan
  by_cases html : w.config.outputs.html = true
  · have stage : (s.turnToReports w none).stage = .reporting s.suiteReports none := by
      simp only [turnToReports, html, if_true]
    refine .reporting stage results passed ?_
    rw [if_pos html, reports]
    rfl
  · have stage : (s.turnToReports w none).stage = .hooks w.config.hooks := by
      simp [turnToReports, html, turnToHooks]
    refine .hooks stage results passed ?_
    rw [if_neg html]

lemma leaveWaiting_uncalled (undisturbed : s.Undisturbed) (error : Option SuiteError) :
    (s.leaveWaiting w error).suiteTrace = [] := by
  rw [suiteTrace_same (leaveWaiting_trace w s error) (by simp [RunEvent.verdict?]), suiteTrace_eq,
    undisturbed.callerTrace]
  rfl

end RunState

end FeatureBatch
