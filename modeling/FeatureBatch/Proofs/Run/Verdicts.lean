import FeatureBatch.Proofs.Records.Book
import FeatureBatch.Proofs.Run.Counting
import FeatureBatch.Proofs.Run.Plays

/-!
What comes after the wait. The caller makes its calls about the suite one after the other until one
fails; that one, or the error that dispatching ended with, is what the run fails of, and the signals
are counted once. Totals that come to no word stand before all this: the run fails of them, whatever
dispatching ended with.
-/

namespace FeatureBatch

/-- The count of signals that the caller reads off the barrier. -/
def RunEvent.arrivals? : RunEvent → Option Arrivals
  | .released arrivals => some arrivals
  | _ => none

namespace RunState

variable {σ : Type} {w : Suite σ} {a s t : RunState σ} {limiter : AdmissionLimiter} {files : σ}

/-- What the calls about the suite came to, in order. -/
def verdicts (s : RunState σ) : List (Option SuiteError) := s.trace.filterMap RunEvent.verdict?

/-- The counts of signals that the caller has read off the barrier. -/
def releases (s : RunState σ) : List Arrivals := s.trace.filterMap RunEvent.arrivals?

lemma verdicts_eq (s : RunState σ) :
    s.verdicts = s.callerTrace.filterMap RunEvent.verdict? := by
  unfold verdicts callerTrace
  rw [List.filterMap_filter]
  congr 1
  funext e
  cases e <;> rfl

lemma releases_eq (s : RunState σ) :
    s.releases = s.callerTrace.filterMap RunEvent.arrivals? := by
  unfold releases callerTrace
  rw [List.filterMap_filter]
  congr 1
  funext e
  cases e <;> rfl

lemma verdicts_append {events : List RunEvent} (h : t.trace = s.trace ++ events) :
    t.verdicts = s.verdicts ++ events.filterMap RunEvent.verdict? := by
  unfold verdicts
  rw [h, List.filterMap_append]

/-- How many calls about the suite are to be made, with these records. -/
def planLength (w : Suite σ) (records : List FeatureRecord) : Nat :=
  (if w.config.outputs.html then (records.filter fun r => !r.isEmpty).length + 3 else 0) +
    w.config.hooks.length

/-- What the run fails of after the wait, before it calls anything. -/
def waitVerdict (s : RunState σ) (error : Option SuiteError) : Option SuiteError :=
  match Totals.ofRecords s.book.registered with
  | .ok _ => error
  | .error payload => some (.panic payload.message)

lemma waitVerdict_eq (s : RunState σ) (error : Option SuiteError) :
    s.waitVerdict error =
      if s.book.Countable then error else some (.panic Totals.overflow.message) := by
  rw [waitVerdict]
  by_cases countable : s.book.Countable
  · rw [countable.totals, if_pos countable]
  · rw [Totals.ofRecords_eq_error.mpr ⟨countable, rfl⟩, if_neg countable]

/-- The run has failed of durations that come to no word, on the way from `a` to `s`. -/
def Overflows (w : Suite σ) (a s : RunState σ) (e : SuiteError) : Prop :=
  e = .panic Totals.overflow.message ∧
    ∃ t, Reaches w a t ∧ Reaches w t s ∧ ¬ t.book.Countable

/-- What the wait has ended with, `dispatch`, and else the first call that fails. -/
inductive FailsOf (dispatch : Option SuiteError) (plan : Nat) (verdicts : List (Option SuiteError))
    (e : SuiteError) : Prop where
  | dispatch (ended : dispatch = some e) (none_made : verdicts = [])
  | call {k : Nat} (ended : dispatch = none) (among : k < plan)
      (made : verdicts = List.replicate k none ++ [some e])

/-- How far the caller is after the wait, and what came of its calls. -/
inductive Progress (w : Suite σ) (dispatch : Option SuiteError) (plan : Nat) (s : RunState σ) :
    Prop where
  | reporting {rest : List SuiteReport} {page : Option Path} {k : Nat}
      (stage : s.stage = .reporting rest page) (ended : dispatch = none)
      (reason : s.results.failureReason = none) (made : s.verdicts = List.replicate k none)
      (left : k + rest.length + w.config.hooks.length = plan)
  | hooks {rest : List Hook} {k : Nat} (stage : s.stage = .hooks rest) (ended : dispatch = none)
      (reason : s.results.failureReason = none) (made : s.verdicts = List.replicate k none)
      (left : k + rest.length = plan)
  | failing {e : SuiteError} (stage : s.stage = .failing e)
      (reason : s.results.failureReason = none) (fails : FailsOf dispatch plan s.verdicts e)
  | succeeded (stage : s.stage.isFinal = true) (reason : s.results.failureReason = none)
      (ended : dispatch = none) (made : s.verdicts = List.replicate plan none)
  | failed {e : SuiteError} (stage : s.stage.isFinal = true)
      (reason : s.results.failureReason = some e) (fails : FailsOf dispatch plan s.verdicts e)

lemma verdicts_teardown {events : List RunEvent} (h : t.trace = s.trace ++ events)
    (told : ∀ e ∈ events, e.isTeardown = true) : t.verdicts = s.verdicts := by
  rw [verdicts_append h, List.filterMap_eq_nil_iff.mpr, List.append_nil]
  intro e he
  have := told e he
  cases e <;> first | rfl | cases this

lemma Progress.keeps {dispatch : Option SuiteError} {plan : Nat}
    (h : Progress w dispatch plan s) (stage : t.stage = s.stage) (results : t.results = s.results)
    (verdicts : t.verdicts = s.verdicts) : Progress w dispatch plan t := by
  cases h with
  | reporting hs ended reason made left =>
    exact .reporting (stage.trans hs) ended (results ▸ reason) (verdicts.trans made) left
  | hooks hs ended reason made left =>
    exact .hooks (stage.trans hs) ended (results ▸ reason) (verdicts.trans made) left
  | failing hs reason fails => exact .failing (stage.trans hs) (results ▸ reason) (verdicts ▸ fails)
  | succeeded hs reason ended made =>
    exact .succeeded (stage ▸ hs) (results ▸ reason) ended (verdicts.trans made)
  | failed hs reason fails => exact .failed (stage ▸ hs) (results ▸ reason) (verdicts ▸ fails)

lemma made_next {dispatch : Option SuiteError} {plan k : Nat} {event : RunEvent}
    {verdict : Option SuiteError} (ended : dispatch = none) (among : k < plan)
    (made : s.verdicts = List.replicate k none) (told : event.verdict? = some verdict)
    (trace : t.trace = s.trace ++ [event]) :
    (verdict = none → t.verdicts = List.replicate (k + 1) none) ∧
      ∀ e, verdict = some e → FailsOf dispatch plan t.verdicts e := by
  have more : t.verdicts = List.replicate k none ++ [verdict] := by
    rw [verdicts_append trace, made]
    simp [told]
  refine ⟨fun fine => ?_, fun e fails => ?_⟩
  · rw [more, fine, List.replicate_succ']
  · exact .call ended among (by rw [more, fails])

section Stages

variable {dispatch : Option SuiteError} {plan : Nat}

lemma Progress.at_reporting (h : Progress w dispatch plan s) {rest : List SuiteReport}
    {page : Option Path} (stage : s.stage = .reporting rest page) :
    dispatch = none ∧ s.results.failureReason = none ∧ ∃ k, s.verdicts = List.replicate k none ∧
      k + rest.length + w.config.hooks.length = plan := by
  cases h with
  | @reporting _ _ k hs ended reason made left =>
    rw [stage, CallerStage.reporting.injEq] at hs
    obtain ⟨rfl, rfl⟩ := hs
    exact ⟨ended, reason, k, made, left⟩
  | hooks hs => rw [stage] at hs; cases hs
  | failing hs => rw [stage] at hs; cases hs
  | succeeded hs => rw [stage] at hs; cases hs
  | failed hs => rw [stage] at hs; cases hs

lemma Progress.at_hooks (h : Progress w dispatch plan s) {rest : List Hook}
    (stage : s.stage = .hooks rest) :
    dispatch = none ∧ s.results.failureReason = none ∧ ∃ k, s.verdicts = List.replicate k none ∧
      k + rest.length = plan := by
  cases h with
  | @hooks _ k hs ended reason made left =>
    rw [stage, CallerStage.hooks.injEq] at hs
    subst hs
    exact ⟨ended, reason, k, made, left⟩
  | reporting hs => rw [stage] at hs; cases hs
  | failing hs => rw [stage] at hs; cases hs
  | succeeded hs => rw [stage] at hs; cases hs
  | failed hs => rw [stage] at hs; cases hs

lemma Progress.at_failing (h : Progress w dispatch plan s) {error : SuiteError}
    (stage : s.stage = .failing error) :
    s.results.failureReason = none ∧ FailsOf dispatch plan s.verdicts error := by
  cases h with
  | failing hs reason fails =>
    rw [stage, CallerStage.failing.injEq] at hs
    subst hs
    exact ⟨reason, fails⟩
  | reporting hs => rw [stage] at hs; cases hs
  | hooks hs => rw [stage] at hs; cases hs
  | succeeded hs => rw [stage] at hs; cases hs
  | failed hs => rw [stage] at hs; cases hs

lemma Progress.outcome (h : Progress w dispatch plan s) (final : s.stage.isFinal = true) :
    (s.results.failureReason = none ∧ dispatch = none ∧ s.verdicts = List.replicate plan none) ∨
      ∃ e, s.results.failureReason = some e ∧ FailsOf dispatch plan s.verdicts e := by
  cases h with
  | reporting hs => rw [hs] at final; cases final
  | hooks hs => rw [hs] at final; cases final
  | failing hs => rw [hs] at final; cases final
  | succeeded hs reason ended made => exact .inl ⟨reason, ended, made⟩
  | @failed e hs reason fails => exact .inr ⟨e, reason, fails⟩

lemma Progress.stays (h : Progress w dispatch plan s) (final : s.stage.isFinal = true)
    (final_t : t.stage.isFinal = true)
    (reason_eq : t.results.failureReason = s.results.failureReason)
    (verdicts_eq : t.verdicts = s.verdicts) : Progress w dispatch plan t := by
  rcases h.outcome final with ⟨reason, ended, made⟩ | ⟨e, reason, fails⟩
  · exact .succeeded final_t (reason_eq.trans reason) ended (verdicts_eq.trans made)
  · exact .failed final_t (reason_eq.trans reason) (verdicts_eq ▸ fails)

/-- **The caller gets on with its calls** by each of its steps. -/
lemma Progress.step (h : Progress w dispatch plan s) (step : LateStep w s t) :
    Progress w dispatch plan t := by
  have closes := step.closes
  cases step with
  | report stage told trace results next =>
    obtain ⟨ended, reason, k, made, left⟩ := h.at_reporting stage
    rw [List.length_cons] at left
    have among : k < plan := by omega
    obtain ⟨fine, fails⟩ := made_next ended among made told trace
    rcases next with ⟨none_failed, page', next⟩ | ⟨e, failed, next⟩
    · exact .reporting next ended (results ▸ reason) (fine none_failed) (by omega)
    · exact .failing next (results ▸ reason) (fails e failed)
  | reported stage trace results next =>
    obtain ⟨ended, reason, k, made, left⟩ := h.at_reporting stage
    refine .hooks next ended (results ▸ reason) ?_ left
    rw [verdicts, trace]
    exact made
  | hook stage told trace results next =>
    obtain ⟨ended, reason, k, made, left⟩ := h.at_hooks stage
    rw [List.length_cons] at left
    have among : k < plan := by omega
    obtain ⟨fine, fails⟩ := made_next ended among made told trace
    rcases next with ⟨none_failed, next⟩ | ⟨e, failed, next⟩
    · exact .hooks next ended (results ▸ reason) (fine none_failed) (by omega)
    · exact .failing next (results ▸ reason) (fails e failed)
  | hooked stage trace results next =>
    obtain ⟨ended, reason, k, made, all⟩ := h.at_hooks stage
    rw [List.length_nil, Nat.add_zero] at all
    refine .succeeded (by rw [next]; rfl) (results ▸ reason) ended ?_
    rw [verdicts, trace, ← all]
    exact made
  | @fail error totals stage trace counts results next
  | @giveUp error payload stage trace counts results next =>
    obtain ⟨reason, fails⟩ := h.at_failing stage
    refine .failed (e := error) (by rw [next]; rfl) ?_ ?_
    · rw [results, Results.recordFailure, reason]
    · rw [verdicts, trace]
      exact fails
  | close stage trace results next =>
    refine h.stays (by rw [stage]; rfl) (by rw [next]; rfl) ?_ (by rw [verdicts, trace]; rfl)
    rcases results with same | finished
    · rw [same]
    · rw [finished]
      rfl
  | tearDown events stage trace told results next | unwind events stage trace told results next =>
    have final : s.stage.isFinal = true := by rw [stage]; rfl
    exact h.stays final (closes final).1 (by rw [results]) (verdicts_teardown trace told)

end Stages

/-! ### From the end of the wait -/

lemma suiteReports_length_eq (s : RunState σ) :
    s.suiteReports.length = (s.book.registered.filter fun r => !r.isEmpty).length + 3 := by
  simp only [suiteReports, List.length_append, List.length_map]
  rfl

lemma turnToReports_progress {error : Option SuiteError} (reason : s.results.failureReason = none)
    (no_calls : (s.turnToReports w error).verdicts = []) :
    Progress w error (planLength w s.book.registered) (s.turnToReports w error) := by
  cases error with
  | some e => exact .failing rfl reason (.dispatch rfl no_calls)
  | none =>
    unfold turnToReports at no_calls ⊢
    dsimp only at no_calls ⊢
    unfold planLength
    split at no_calls
    · rename_i html
      rw [if_pos html, if_pos html]
      refine .reporting (k := 0) rfl rfl reason no_calls ?_
      rw [suiteReports_length_eq]
      omega
    · rename_i html
      rw [if_neg html, if_neg html]
      exact .hooks (k := 0) rfl rfl reason no_calls (by omega)

lemma leaveWaiting_progress (undisturbed : s.Undisturbed) (error : Option SuiteError) :
    Progress w (s.waitVerdict error) (planLength w s.book.registered)
      (s.leaveWaiting w error) := by
  have no_calls : (s.leaveWaiting w error).verdicts = [] := by
    rw [verdicts_append (leaveWaiting_trace w s error), verdicts_eq, undisturbed.callerTrace]
    rfl
  have reason := undisturbed.failureReason
  obtain ⟨u, totals, stamped, ⟨counts, eq⟩ | ⟨payload, overflows, eq⟩⟩ :=
    leaveWaiting_cases w s error
  · rw [eq] at no_calls ⊢
    rw [waitVerdict, counts, ← stamped.registered]
    exact turnToReports_progress (by rw [stamped.results]; exact reason) no_calls
  · rw [eq] at no_calls ⊢
    refine .failing rfl ?_ (.dispatch ?_ no_calls)
    · rw [stamped.results]
      exact reason
    · rw [waitVerdict, overflows]

lemma LateStep.releases (step : LateStep w s t) : t.releases = s.releases := by
  obtain ⟨events, trace, others⟩ := step.exists_events
  have none_more : events.filterMap RunEvent.arrivals? = [] := by
    rw [List.filterMap_eq_nil_iff]
    intro e he
    rcases others e he with ⟨v, told⟩ | told <;> cases e <;> first | rfl | cases told
  rw [RunState.releases, trace, List.filterMap_append, none_more, List.append_nil]
  rfl

/-- **After the wait.** The signals are counted once, and the caller gets on with its calls until
one fails. -/
lemma Reaches.progress {error : Option SuiteError} (reach : Reaches w (w.start limiter files) a)
    (waiting : a.stage = .awaiting error) (before : Reaches w a (a.leaveWaiting w error))
    (h : Reaches w (a.leaveWaiting w error) s) :
    Progress w (a.waitVerdict error) (planLength w a.book.registered) s ∧
      s.releases = [a.barrier.arrivals] := by
  have undisturbed := reach.undisturbed (by rw [waiting]; rfl)
  have sound := (reach.trans before).sound (sound_start w limiter files)
  induction h with
  | refl =>
    refine ⟨leaveWaiting_progress undisturbed error, ?_⟩
    have none_before : a.trace.filterMap RunEvent.arrivals? = [] := by
      have := releases_eq a
      rw [undisturbed.callerTrace] at this
      exact this
    rw [RunState.releases, leaveWaiting_trace, List.filterMap_append, none_before]
    rfl
  | @step s t p reaches next ih =>
    obtain ⟨progress, releases⟩ := ih
    have sound_s := reaches.sound sound
    have late := reaches.isEarly sound (leaveWaiting_stage w a error)
    by_cases hp : p = .caller
    · subst hp
      have step := (callerStep_late next late).1
      exact ⟨progress.step step, step.releases.trans releases⟩
    · have keeps := step_keeps sound_s next hp
      refine ⟨progress.keeps keeps.stage keeps.results ?_, ?_⟩
      · rw [verdicts_eq, verdicts_eq, keeps.callerTrace]
      · rw [releases_eq, keeps.callerTrace, ← releases_eq, releases]

end RunState

end FeatureBatch
