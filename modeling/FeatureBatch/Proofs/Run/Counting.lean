import FeatureBatch.Proofs.Run.Writes

/-!
What the totals of a run count. They are computed once the wait is over, and once more when the run
has failed; if every signal has come by then, they are the totals of the records as these stay.
-/

namespace FeatureBatch

/-- The totals to be returned are computed. -/
def CallerStage.hasTotals : CallerStage → Bool
  | .closing => true
  | .tearingDown _ => true
  | .done => true
  | _ => false

/-- The run has failed and its totals are still to be computed, or could not be. -/
def CallerStage.lacksTotals : CallerStage → Bool
  | .failing _ => true
  | .unwinding _ => true
  | .panicked _ => true
  | _ => false

namespace RunState

variable {σ : Type} {w : Suite σ} {s t : RunState σ} {limiter : AdmissionLimiter} {files : σ}

/-- The totals are those of the registered records as they are now. -/
def Recounts (s : RunState σ) : Prop :=
  Totals.ofRecords s.book.registered = .ok s.results.totals

lemma Recounts.of_rests {totals : Totals} (rests : Rests s t)
    (counts : Totals.ofRecords s.book.registered = .ok totals) (same : t.results.totals = totals) :
    t.Recounts := by
  rw [Recounts, book, ResultsBook.registered, rests.registered, rests.records, same]
  exact counts

lemma leaveWaiting_recounts (w : Suite σ) (s : RunState σ) (error : Option SuiteError) :
    (s.leaveWaiting w error).stage.lacksTotals = true ∨ (s.leaveWaiting w error).Recounts := by
  have rests := leaveWaiting_rests w s error
  obtain ⟨u, totals, stamped, ⟨counts, eq⟩ | ⟨payload, -, eq⟩⟩ := leaveWaiting_cases w s error
  · obtain ⟨stage, log, turned⟩ := turnToReports_eq w u error
    exact .inr (.of_rests rests counts (by rw [eq, turned, stamped.results]))
  · exact .inl (by rw [eq]; rfl)

lemma LateStep.totals (h : LateStep w s t) (rests : Rests s t) :
    t.stage.lacksTotals = true ∨ t.Recounts ∨
      (t.results.totals = s.results.totals ∧ s.stage.lacksTotals = false) := by
  cases h with
  | report stage told trace results next =>
    exact .inr (.inr ⟨by rw [results], by rw [stage]; rfl⟩)
  | reported stage trace results next => exact .inr (.inr ⟨by rw [results], by rw [stage]; rfl⟩)
  | hook stage told trace results next => exact .inr (.inr ⟨by rw [results], by rw [stage]; rfl⟩)
  | hooked stage trace results next => exact .inr (.inr ⟨by rw [results], by rw [stage]; rfl⟩)
  | fail stage trace counts results next =>
    exact .inr (.inl (.of_rests rests counts (by rw [results])))
  | giveUp stage trace overflows results next => exact .inl (by rw [next]; rfl)
  | close stage trace results next =>
    refine .inr (.inr ⟨?_, by rw [stage]; rfl⟩)
    rcases results with same | finished
    · rw [same]
    · rw [finished]
      rfl
  | tearDown events stage trace told results next =>
    exact .inr (.inr ⟨by rw [results], by rw [stage]; rfl⟩)
  | unwind events stage trace told results next =>
    left
    rcases next with next | next <;> rw [next] <;> rfl

lemma step_late {p : Party} (sound : Sound w s) (h : s.step? w p = some t)
    (early : s.stage.isEarly = true) (late : t.stage.isEarly = false) :
    t.stage.lacksTotals = true ∨ t.Recounts := by
  obtain ⟨-, ⟨error, -, -, rfl⟩ | ⟨-, payload, -, failing⟩⟩ := step_turns sound h early late
  · exact leaveWaiting_recounts w s error
  · exact .inl (by rw [failing]; rfl)

/-- If every signal has come by the time the run is late, its totals are those of the records,
unless it fails just then and is about to count them, or gives up in counting them. -/
lemma Reaches.recounts {a : RunState σ} (reach : Reaches w (w.start limiter files) a)
    (h : Reaches w a s) (inTime : w.WritesInTime)
    (first : a.stage.isEarly = false → a.stage.lacksTotals = true)
    (settled : ∀ u, Reaches w a u → u.stage.isEarly = false → u.AllSettled)
    (late : s.stage.isEarly = false) : s.stage.lacksTotals = true ∨ s.Recounts := by
  induction h with
  | refl => exact .inl (first late)
  | @step s t p reaches next ih =>
    have reach_s := reach.trans reaches
    have sound := reach_s.sound (sound_start w limiter files)
    by_cases early : s.stage.isEarly = true
    · exact step_late sound next early late
    · have late_s : s.stage.isEarly = false := by simpa using early
      have later := CallerStage.ne_dispatching late_s
      have same := step_records reach_s inTime (settled s reaches late_s) later next
      -- The records stay; the caller counts them anew or keeps the totals.
      by_cases hp : p = .caller
      · subst hp
        obtain ⟨late_step, rests⟩ := callerStep_late next late_s
        rcases late_step.totals rests with lacks | recounts | ⟨totals, not_failing⟩
        · exact .inl lacks
        · exact .inr recounts
        · right
          rcases ih late_s with lacks | recounts
          · rw [not_failing] at lacks
            cases lacks
          · rw [Recounts, totals, same]
            exact recounts
      · have keeps := step_keeps sound next hp
        rcases ih late_s with lacks | recounts
        · exact .inl (by rw [keeps.stage, lacks])
        · right
          rw [Recounts, keeps.results, same]
          exact recounts

/-! ### Totals that are returned -/

lemma isEarly_of_isFinal {stage : CallerStage} (h : stage.isFinal = true) :
    stage.isEarly = false := by
  cases stage <;> first | rfl | cases h

lemma step_isFinal {p : Party} (sound : Sound w s) (h : s.step? w p = some t)
    (early : s.stage.isEarly = true) : t.stage.isFinal = false := by
  by_contra final
  have final_t : t.stage.isFinal = true := by simpa using final
  obtain ⟨-, ⟨error, -, -, rfl⟩ | ⟨-, payload, -, failing⟩⟩ :=
    step_turns sound h early (isEarly_of_isFinal final_t)
  · exact final (leaveWaiting_between w s error).2
  · rw [failing] at final_t
    cases final_t

lemma isFinal_of_gaveUpOf {stage : CallerStage} {payload : PanicPayload}
    (gave_up : stage.gaveUpOf? = some payload) : stage.isFinal = true := by
  cases stage <;> first | rfl | cases gave_up

lemma isFinal_of_hasTotals {stage : CallerStage} (h : stage.hasTotals = true) :
    stage.isFinal = true ∧ stage.lacksTotals = false := by
  cases stage <;> first | exact ⟨rfl, rfl⟩ | cases h

lemma isEarly_of_hasTotals {stage : CallerStage} (h : stage.hasTotals = true) :
    stage.isEarly = false :=
  isEarly_of_isFinal (isFinal_of_hasTotals h).1

lemma hasTotals_of_isDone (done : s.isDone = true) : s.stage.hasTotals = true := by
  unfold isDone at done
  split at done
  · rename_i hs
    rw [hs]
    rfl
  · cases done

/-- What is left to do once all calls are made: the end is stamped, or everything is taken down. -/
lemma LateStep.of_isFinal (h : LateStep w s t) (final : s.stage.isFinal = true) :
    (s.stage = .closing ∧ t.stage = .tearingDown false ∧ t.trace = s.trace ∧
      (t.results = s.results ∨ t.results = s.results.finish w.endedAt)) ∨
    t.stage.isFinal = true ∧ (s.stage.hasTotals = true → t.stage.hasTotals = true) ∧
      t.results = s.results ∧
      ∃ events, t.trace = s.trace ++ events ∧ ∀ e ∈ events, e.isTeardown = true := by
  cases h with
  | report stage => rw [stage] at final; cases final
  | reported stage => rw [stage] at final; cases final
  | hook stage => rw [stage] at final; cases final
  | hooked stage => rw [stage] at final; cases final
  | fail stage => rw [stage] at final; cases final
  | giveUp stage => rw [stage] at final; cases final
  | close stage trace results next => exact .inl ⟨stage, next, trace, results⟩
  | tearDown events stage trace told results next =>
    right
    rcases next with next | ⟨guard', next⟩ <;>
      exact ⟨by rw [next]; rfl, fun _ => by rw [next]; rfl, results, events, trace, told⟩
  | unwind events stage trace told results next =>
    have lacks : s.stage.hasTotals = false := by rw [stage]; rfl
    refine .inr ⟨?_, fun counted => ?_, results, events, trace, told⟩
    · rcases next with next | next <;> rw [next] <;> rfl
    · rw [lacks] at counted
      cases counted

lemma LateStep.closes (h : LateStep w s t) (final : s.stage.isFinal = true) :
    t.stage.isFinal = true ∧ (s.stage.hasTotals = true → t.stage.hasTotals = true) ∧
      (t.results = s.results ∨ t.results = s.results.finish w.endedAt) := by
  obtain ⟨-, next, -, results⟩ | ⟨final_t, counted, same, -⟩ := h.of_isFinal final
  · exact ⟨by rw [next]; rfl, fun _ => by rw [next]; rfl, results⟩
  · exact ⟨final_t, counted, .inl same⟩

lemma LateStep.of_hasTotals (h : LateStep w s t) (counted : t.stage.hasTotals = true) :
    (s.stage = .hooks [] ∧ t.results = s.results) ∨
    (∃ error totals, s.stage = .failing error ∧
      Totals.ofRecords s.book.registered = .ok totals ∧
      t.results = { (s.results.recordFailure error).2 with totals }) ∨
    s.stage.hasTotals = true ∧
      (t.results = s.results ∨ t.results = s.results.finish w.endedAt) := by
  cases h with
  | report stage told trace results next =>
    rcases next with ⟨-, page', next⟩ | ⟨e, -, next⟩ <;> rw [next] at counted <;> cases counted
  | hook stage told trace results next =>
    rcases next with ⟨-, next⟩ | ⟨e, -, next⟩ <;> rw [next] at counted <;> cases counted
  | reported stage trace results next => rw [next] at counted; cases counted
  | giveUp stage trace overflows results next => rw [next] at counted; cases counted
  | unwind events stage trace told results next =>
    rcases next with next | next <;> rw [next] at counted <;> cases counted
  | hooked stage trace results next => exact .inl ⟨stage, results⟩
  | fail stage trace counts results next => exact .inr (.inl ⟨_, _, stage, counts, results⟩)
  | close stage trace results next => exact .inr (.inr ⟨by rw [stage]; rfl, results⟩)
  | tearDown events stage trace told results next =>
    exact .inr (.inr ⟨by rw [stage]; rfl, .inl results⟩)

lemma step_hasTotals {p : Party} (sound : Sound w s) (h : s.step? w p = some t)
    (counted : s.stage.hasTotals = true) : t.stage.hasTotals = true := by
  by_cases hp : p = .caller
  · subst hp
    exact ((callerStep_late h (isEarly_of_hasTotals counted)).1.closes
      (isFinal_of_hasTotals counted).1).2.1 counted
  · rw [(step_keeps sound h hp).stage, counted]

lemma Reaches.allSettled {a : RunState σ} (reach : Reaches w (w.start limiter files) a)
    (h : Reaches w a s) (late : a.stage.isEarly = false) (settled : a.AllSettled) :
    s.AllSettled := by
  induction h with
  | refl => exact settled
  | @step s t p reaches next ih =>
    have late_s := reaches.isEarly (reach.sound (sound_start w limiter files)) late
    exact ih.step (reach.trans reaches) (CallerStage.ne_dispatching late_s) next

/-- How a run comes to have all signals when it counts: its caller has waited, or it is serial, or
the signals happen to be there when it turns to counting. -/
inductive Covered (w : Suite σ) (a s : RunState σ) : Prop where
  | awaited (waits : Awaited w a s)
  | serial (serial : ¬ 1 < w.config.threads)
  | early {t : RunState σ} {error : SuiteError} (reach : Reaches w a t)
      (failing : t.stage = .failing error) (settled : t.barrier.isComplete = true)
      (reaches : Reaches w t s)

lemma Covered.spec (covered : Covered w (w.start limiter files) s)
    (h : Reaches w (w.start limiter files) s) :
    ∃ a, Reaches w (w.start limiter files) a ∧ Reaches w a s ∧
      (a.stage.isEarly = false → a.stage.lacksTotals = true) ∧
      ∀ u, Reaches w a u → u.stage.isEarly = false → u.AllSettled := by
  cases covered with
  | awaited waits =>
    obtain ⟨t, error, reach, waiting, reaches⟩ := waits
    refine ⟨t, reach, reaches, fun late => ?_, fun u hu late => ?_⟩
    · rw [waiting] at late
      cases late
    · exact allSettled_of_late (reach.trans hu) (.inl ⟨t, error, reach, waiting, hu⟩) late
  | serial serial =>
    refine ⟨_, .refl _, h, (fun late => by cases late), fun u hu late => ?_⟩
    have no_lane : (w.start limiter files).lane = none := if_neg serial
    have sound := sound_start w limiter files
    exact allSettled_of_late hu (.inr ((hu.lane_eq_none sound).mpr no_lane)) late
  | @early t error reach failing settled reaches =>
    have sound := reach.sound (sound_start w limiter files)
    have late : t.stage.isEarly = false := by rw [failing]; rfl
    exact ⟨t, reach, reaches, fun _ => by rw [failing]; rfl, fun u hu _ =>
      reach.allSettled hu late ((isComplete_iff sound.aligned).mp settled)⟩

lemma Covered.counted (covered : Covered w (w.start limiter files) s)
    (h : Reaches w (w.start limiter files) s) (counted : s.stage.hasTotals = true) :
    s.AllSettled ∧ (w.WritesInTime → s.Recounts) := by
  obtain ⟨a, reach, reaches, first, settled⟩ := covered.spec h
  have late := isEarly_of_hasTotals counted
  refine ⟨settled s reaches late, fun inTime => ?_⟩
  rcases reach.recounts reaches inTime first settled late with lacks | recounts
  · rw [(isFinal_of_hasTotals counted).2] at lacks
    cases lacks
  · exact recounts

lemma Covered.extend {u : RunState σ} (covered : Covered w u s) (h : Reaches w s t) :
    Covered w u t := by
  cases covered with
  | awaited waits =>
    obtain ⟨v, error, reach, waiting, reaches⟩ := waits
    exact .awaited ⟨v, error, reach, waiting, reaches.trans h⟩
  | serial serial => exact .serial serial
  | early reach failing settled reaches => exact .early reach failing settled (reaches.trans h)

lemma Covered.kept (covered : Covered w (w.start limiter files) s)
    (reach : Reaches w (w.start limiter files) s) (counted : s.stage.hasTotals = true)
    (inTime : w.WritesInTime) (h : Reaches w s t) :
    t.stage.hasTotals = true ∧ t.book.registered = s.book.registered := by
  induction h with
  | refl => exact ⟨counted, rfl⟩
  | @step t u p reaches next ih =>
    have reach_t := reach.trans reaches
    have sound := reach_t.sound (sound_start w limiter files)
    have late := isEarly_of_hasTotals ih.1
    obtain ⟨settled, -⟩ := (covered.extend reaches).counted reach_t ih.1
    have later := CallerStage.ne_dispatching late
    have same := step_records reach_t inTime settled later next
    exact ⟨step_hasTotals sound next ih.1, same.trans ih.2⟩

/-! ### Runs that do not wait -/

lemma fail_records (fresh : s.results.failureReason = none) (error : SuiteError) :
    (s.fail error).stage.isFinal = true ∧ (s.fail error).results.failureReason = some error := by
  have recorded : (s.results.recordFailure error).2.failureReason = some error := by
    rw [Results.recordFailure, fresh]
  obtain ⟨totals, log, -, eq⟩ | ⟨payload, log, -, eq⟩ := fail_cases s error <;> rw [eq]
  · exact ⟨rfl, recorded⟩
  · exact ⟨rfl, recorded⟩

lemma step_fail {error : SuiteError} (failing : s.stage = .failing error) :
    s.step? w .caller = some (s.fail error) := by
  simp only [step?, callerStep?, failing]

lemma Reaches.fails {a : RunState σ} {error : SuiteError} (h : Reaches w a s) (sound : Sound w a)
    (failing : a.stage = .failing error) : s.stage = .failing error ∨
      ∃ t, Reaches w a t ∧ t.stage = .failing error ∧ Reaches w (t.fail error) s := by
  induction h with
  | refl => exact .inl failing
  | @step s t p reaches next ih =>
    rcases ih with still | ⟨u, hu, failing_u, reaches_u⟩
    · by_cases hp : p = .caller
      · subst hp
        rw [step_fail still, Option.some.injEq] at next
        subst next
        exact .inr ⟨s, reaches, still, .refl _⟩
      · exact .inl ((step_keeps (reaches.sound sound) next hp).stage.trans still)
    · exact .inr ⟨u, hu, failing_u, .step p reaches_u next⟩

/-- The run has counted while a signal was still to come. -/
inductive Hasty (w : Suite σ) (a s : RunState σ) : Prop where
  | mk {t : RunState σ} {error : SuiteError} (reach : Reaches w a t)
      (failing : t.stage = .failing error) (outstanding : t.barrier.isComplete = false)
      (reaches : Reaches w (t.fail error) s)

/-- The only runs that do not count late enough are parallel ones whose dispatching gives up while
signals are outstanding. -/
lemma hasty_of_not_covered (h : Reaches w (w.start limiter files) s)
    (counted : s.stage.hasTotals = true) (uncovered : ¬ Covered w (w.start limiter files) s) :
    1 < w.config.threads ∧ Unwound w (w.start limiter files) s ∧
      Hasty w (w.start limiter files) s := by
  have sound := sound_start w limiter files
  have late := isEarly_of_hasTotals counted
  have parallel : 1 < w.config.threads := by
    by_contra serial
    exact uncovered (.serial serial)
  have unwound := (h.awaited_or_unwound sound rfl late).resolve_left fun waits =>
    uncovered (.awaited waits)
  refine ⟨parallel, unwound, ?_⟩
  obtain ⟨reach, dispatching, why, next, failing, reaches⟩ := unwound
  have reach_u := Reaches.step _ reach next
  rcases reaches.fails (reach_u.sound sound) failing with still | ⟨t, ht, failing_t, reaches_t⟩
  · rw [still] at counted
    cases counted
  · refine ⟨reach_u.trans ht, failing_t, ?_, reaches_t⟩
    by_contra complete
    refine uncovered (.early (reach_u.trans ht) failing_t (by simpa using complete) ?_)
    exact (Reaches.step _ (.refl t) (step_fail failing_t)).trans reaches_t

end RunState

end FeatureBatch
