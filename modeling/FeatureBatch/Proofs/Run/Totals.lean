import FeatureBatch.Proofs.Records.Totals
import FeatureBatch.Proofs.Run.Counting
import FeatureBatch.Proofs.Run.Samples

/-!
The totals that a run returns. A run that waits for its features returns a recount of the records of
the runtimes that it made; a parallel run whose dispatching gives up does not wait, and may return
totals that miss what a feature goes on to write.
-/

namespace FeatureBatch

namespace RunState

/-- **The totals wait for the features** of a run that waits, of a serial run, and of one whose
signals have come when it fails: where the totals to be returned are there, every feature has
signalled or dropped its completion, and if runtimes write in time, the totals are those of the
records as they are now and will be. All other runs are parallel, their dispatching has given up,
and they have counted while a signal was still to come. -/
theorem totals_after_signals {σ : Type} {w : Suite σ} {limiter : AdmissionLimiter} {files : σ}
    {s : RunState σ} (reach : Reaches w (w.start limiter files) s)
    (counted : s.stage.hasTotals = true) :
    (Covered w (w.start limiter files) s →
      s.barrier.isComplete = true ∧ (w.WritesInTime → ∀ t, Reaches w s t →
        Totals.ofRecords t.book.registered = .ok t.results.totals ∧
          t.book.registered = s.book.registered)) ∧
    (¬ Covered w (w.start limiter files) s →
      1 < w.config.threads ∧ Unwound w (w.start limiter files) s ∧
        Hasty w (w.start limiter files) s) := by
  have sound := reach.sound (sound_start w limiter files)
  refine ⟨fun covered => ?_, hasty_of_not_covered reach counted⟩
  obtain ⟨settled, -⟩ := covered.counted reach counted
  refine ⟨(isComplete_iff sound.aligned).mpr settled, fun inTime t ht => ?_⟩
  obtain ⟨counted_t, same⟩ := covered.kept reach counted inTime ht
  exact ⟨((covered.extend ht).counted (reach.trans ht) counted_t).2 inTime, same⟩

/-- A batch of which the first runtime writes a failed scenario, and the second cannot be made: the
factory gives up. -/
def abortedBatch (threads : UInt64) (threads_pos : 0 < threads) : Suite Unit :=
  smallSuite threads threads_pos false []
    [.made (.ofActs (smallFeature "f") [.work [.addScenario failing], .complete]),
      .panicked .noText]

lemma abortedBatch_writesInTime (threads : UInt64) (threads_pos : 0 < threads) :
    (abortedBatch threads threads_pos).WritesInTime := by
  refine forall_smallSuite fun r hr => ?_
  rw [List.mem_pair] at hr
  rcases hr with made | made <;> cases made
  trivial

def serialBatch : Suite Unit := abortedBatch 1 (by decide)

/-- One feature runs to its end before the factory gives up. -/
def serialRun : RunState Unit :=
  (serialBatch.start smallLimiter ()).play serialBatch
    [.caller, .feature 0 0, .feature 0 0, .feature 0 0, .feature 0 0, .caller, .caller, .caller,
      .caller, .caller, .caller, .caller]

def hastyBatch : Suite Unit := abortedBatch 2 (by decide)

/-- Dispatching gives up while the first feature runs; the caller counts, and only then the feature
writes and completes. -/
def hastyRun : RunState Unit :=
  (hastyBatch.start smallLimiter ()).play hastyBatch
    ([.caller, .lane, .lane, .caller, .caller] ++ List.replicate 4 (.feature 0 0) ++
      [.caller, .caller, .caller, .lane, .caller, .caller, .caller, .caller, .caller])

lemma hastyRun_failures :
    hastyRun.results.totals.failures = 0 ∧
      (Totals.ofRecords hastyRun.book.registered).map Totals.failures = .ok 1 :=
  ⟨by rfl, by rfl⟩

theorem abortedBatch_runs :
    (serialRun.isDone = true ∧ serialBatch.WritesInTime ∧ serialRun.results.totals.failures = 1 ∧
      Totals.ofRecords serialRun.book.registered = .ok serialRun.results.totals) ∧
    (hastyRun.isDone = true ∧ hastyBatch.WritesInTime ∧
      Hasty hastyBatch (hastyBatch.start smallLimiter ()) hastyRun) := by
  have serial : serialBatch.WritesInTime := abortedBatch_writesInTime 1 (by decide)
  have hasty : hastyBatch.WritesInTime := abortedBatch_writesInTime 2 (by decide)
  have waits := (totals_after_signals (s := serialRun) (reaches_play _ _ _) (by rfl)).1
    (.serial (by decide))
  have goes := totals_after_signals (s := hastyRun) (w := hastyBatch) (reaches_play _ _ _) (by rfl)
  refine ⟨⟨by rfl, serial, by rfl, (waits.2 serial _ (.refl _)).1⟩, by rfl, hasty, ?_⟩
  refine (goes.2 fun covered => ?_).2.2
  obtain ⟨counted, recounted⟩ := hastyRun_failures
  rw [((goes.1 covered).2 hasty _ (.refl _)).1, Except.map, counted] at recounted
  cases recounted

/-- The run that did not wait returns totals without the failed scenario, whose feature was
submitted before dispatching gave up, and which has signalled in the end. -/
theorem hastyRun_misses_scenario :
    Reaches hastyBatch (hastyBatch.start smallLimiter ()) hastyRun ∧ hastyBatch.WritesInTime ∧
      hastyRun.isDone = true ∧ hastyRun.barrier.isComplete = true ∧
      hastyRun.results.totals.failures = 0 ∧
      (Totals.ofRecords hastyRun.book.registered).map Totals.failures = .ok 1 ∧
      Totals.ofRecords hastyRun.book.registered ≠ .ok hastyRun.results.totals := by
  obtain ⟨counted, recounted⟩ := hastyRun_failures
  refine ⟨reaches_play _ _ _, abortedBatch_writesInTime 2 (by decide), by rfl, by rfl, counted,
    recounted, ?_⟩
  intro same
  rw [same, Except.map, counted] at recounted
  cases recounted

/-! ### What is counted -/

section Created

variable {σ : Type} {w : Suite σ} {s : RunState σ} {limiter : AdmissionLimiter} {files : σ}

/-- The runtimes that the run has made, in the order of the configuration. -/
def created (w : Suite σ) (s : RunState σ) : List Runtime :=
  (List.range s.features.length).filterMap w.runtime?

lemma getElem?_filterMap_range {α : Type} {f : Nat → Option α} {n : Nat}
    (h : ∀ i < n, (f i).isSome) :
    ((List.range n).filterMap f).length = n ∧
      ∀ i < n, ((List.range n).filterMap f)[i]? = f i := by
  induction n with
  | zero => simp
  | succ n ih =>
    obtain ⟨length, get⟩ := ih fun i hi => h i (by omega)
    obtain ⟨a, ha⟩ := Option.isSome_iff_exists.mp (h n (by omega))
    have more : (List.range (n + 1)).filterMap f = (List.range n).filterMap f ++ [a] := by
      rw [List.range_succ, List.filterMap_append]
      simp [ha]
    rw [more]
    refine ⟨by simp [length], fun i hi => ?_⟩
    by_cases last : i = n
    · subst last
      rw [ha, List.getElem?_append_right (by omega), length]
      simp
    · rw [List.getElem?_append_left (by omega), get i (by omega)]

lemma created_get (sound : Sound w s) :
    (s.created w).length = s.features.length ∧
      ∀ i < s.features.length, (s.created w)[i]? = w.runtime? i := by
  refine getElem?_filterMap_range fun i hi => ?_
  rw [← sound.aligned.length_cells] at hi
  obtain ⟨r, hr, -⟩ := sound.made i s.cells[i] (List.getElem?_eq_getElem hi)
  simp [hr]

lemma created_eq (sound : Sound w s) :
    (w.config.features.zipIdx.take s.features.length).map (fun f => w.runtimes f.2 f.1) =
      (s.created w).map .made := by
  obtain ⟨length, get⟩ := created_get sound
  apply List.ext_getElem?
  intro i
  rw [List.getElem?_map, List.getElem?_map]
  by_cases hi : i < s.features.length
  · rw [List.getElem?_take_of_lt hi, get i hi]
    rw [← sound.aligned.length_cells] at hi
    obtain ⟨r, hr, -⟩ := sound.made i s.cells[i] (List.getElem?_eq_getElem hi)
    obtain ⟨f, hf, made⟩ := Suite.runtime?_eq_some.mp hr
    rw [hr, List.getElem?_zipIdx, hf]
    simp [made]
  · rw [List.getElem?_eq_none (by simp; omega), List.getElem?_eq_none (by omega)]
    rfl

lemma created_wrote (reach : Reaches w (w.start limiter files) s) :
    List.Forall₂ Runtime.Wrote (s.created w) s.book.registered := by
  have sound := reach.sound (sound_start w limiter files)
  obtain ⟨length, get⟩ := created_get sound
  rw [sound.aligned.registered_eq, List.forall₂_iff_get]
  refine ⟨by rw [length, List.length_map, sound.aligned.length_cells], fun i hi hc => ?_⟩
  rw [List.length_map] at hc
  have hr := get i (by omega)
  rw [List.getElem?_eq_getElem hi] at hr
  have written := reach.written (List.getElem?_eq_getElem hc) hr.symm
  simpa using written.wrote

/-- **The totals of a run that did not give up dispatching.** The registered records are those of
the runtimes that were made, in the order of the configuration; each counts, an empty one as skipped
and no more, and the failed features are the failed records in their order. -/
theorem totals_of_done {σ : Type} {w : Suite σ} {limiter : AdmissionLimiter} {files : σ}
    {s : RunState σ} (inTime : w.WritesInTime) (waits : Awaited w (w.start limiter files) s)
    (done : s.isDone = true) :
    (w.config.features.zipIdx.take s.features.length).map (fun f => w.runtimes f.2 f.1) =
        (s.created w).map .made ∧
      List.Forall₂ Runtime.Wrote (s.created w) s.book.registered ∧
      s.results.registered = List.range s.features.length ∧
      s.results.totals.features + s.results.totals.skipped = s.results.registered.length ∧
      s.results.totals =
        { features := s.book.registered.countP fun r => !r.isEmpty
          scenarios := (s.book.registered.map FeatureRecord.scenarioCount).sum
          failures := (s.book.registered.map FeatureRecord.failedCount).sum
          skipped := s.book.registered.countP FeatureRecord.isEmpty
          timeMs := ((s.book.registered.filter fun r => !r.isEmpty).map
            FeatureRecord.durationMs).sum
          failed := (s.book.registered.filter FeatureRecord.isFailed).map fun r =>
            ⟨r.qualifiedName, r.errorMessages⟩ } := by
  obtain ⟨t, error, reach, waiting, reaches⟩ := waits
  have reach_s := reach.trans reaches
  have sound := reach_s.sound (sound_start w limiter files)
  have counted := hasTotals_of_isDone done
  have covered : Covered w (w.start limiter files) s := .awaited ⟨t, error, reach, waiting, reaches⟩
  have recounts := (Totals.ofRecords_eq_ok.mp ((covered.counted reach_s counted).2 inTime)).2
  refine ⟨created_eq sound, created_wrote reach_s, sound.aligned.registered, ?_, ?_⟩
  · rw [recounts, Totals.features_add_skipped, sound.aligned.registered_eq, List.length_map,
      sound.aligned.length_cells, sound.aligned.registered, List.length_range]
  · rw [recounts]
    rfl

/-- A parallel batch in which one feature fails, one crashes and the last cannot be made. -/
def mixedBatch : Suite Unit :=
  smallSuite 2 (by decide) false []
    [.made (.ofActs (smallFeature "f") [.work [.addScenario failing], .complete]),
      .made (.ofActs (smallFeature "f") [.panic .noText]), .refused "no"]

/-- All that can be dispatched is dispatched before the first feature runs on. -/
def mixedDispatched : RunState Unit :=
  (mixedBatch.start smallLimiter ()).play mixedBatch [.caller, .lane, .lane, .caller, .caller]

/-- The features then run, the second one first, and the caller goes on when both have signalled. -/
def mixedRun : RunState Unit :=
  mixedDispatched.play mixedBatch
    [.lane, .lane, .feature 1 0, .feature 0 0, .feature 0 0, .feature 0 0, .feature 0 0, .caller,
      .caller, .caller, .caller, .caller, .lane, .caller, .caller, .caller, .caller, .caller]

lemma mixedBatch_writesInTime : mixedBatch.WritesInTime := by
  refine forall_smallSuite fun r hr => ?_
  rw [List.mem_cons, List.mem_pair] at hr
  rcases hr with made | made | made <;> cases made <;> trivial

lemma mixedRun_awaited : Awaited mixedBatch (mixedBatch.start smallLimiter ()) mixedRun :=
  ⟨mixedDispatched, _, reaches_play _ _ _, by rfl, reaches_play _ _ _⟩

theorem mixedRun_totals :
    mixedBatch.WritesInTime ∧ Awaited mixedBatch (mixedBatch.start smallLimiter ()) mixedRun ∧
      mixedRun.isDone = true ∧
      mixedRun.results.totals.features + mixedRun.results.totals.skipped = 2 := by
  refine ⟨mixedBatch_writesInTime, mixedRun_awaited, by rfl, ?_⟩
  exact (totals_of_done mixedBatch_writesInTime mixedRun_awaited (by rfl)).2.2.2.1

end Created

end RunState

end FeatureBatch
