import FeatureBatch.Proofs.Reports.Files
import FeatureBatch.Proofs.Run.Reported
import FeatureBatch.Proofs.Run.Samples

/-!
The files that a run writes. They are those that go with its reports, so no report is written over
another if the reports of the batch have files of their own; and if they have not, a run that writes
all of them loses some.
-/

namespace FeatureBatch

/-! ### The emitter has answered -/

namespace RunEvent

/-- A feature's report call that has ended was answered by the suite's emitter. -/
def IsAnswered {σ : Type} (w : Suite σ) : RunEvent → Prop
  | callEnded _ call outcome =>
    ∃ files, outcome = (w.emitter.perform w.config.reportDir call files).1
  | _ => True

end RunEvent

namespace RunState

variable {σ : Type} {w : Suite σ} {s t : RunState σ} {limiter : AdmissionLimiter} {files : σ}
variable {i : Nat} {f f' : FeatureRun} {events : List RunEvent}

lemma isAnswered_of_isEntry {e : RunEvent} (h : RunEvent.isEntry e = true) : e.IsAnswered w := by
  cases e <;> trivial

lemma Deed.answered (deed : Deed w s i f f' events) (idle : f.completion.isReporting = false) :
    ∀ e ∈ events, e.IsAnswered w := by
  have farewell : ∀ e ∈ f.farewell i, e.IsAnswered w := fun e he =>
    isAnswered_of_isEntry (farewell_isEntry f i e he)
  cases deed with
  | passes phase completion quiet =>
    intro e he
    have := quiet e he
    cases e <;> trivial
  | ends idle => exact farewell
  | abandons rest idle => exact farewell
  | completes rest armed found nothing => simp [RunEvent.IsAnswered]
  | reports rest armed found some_ran wanted => simp [RunEvent.IsAnswered]
  | goesOn completion fine => rw [completion] at idle; cases idle
  | signals completion last => rw [completion] at idle; cases idle

lemma endCall_answered (hf : s.features[i]? = some f) (snapshot : FeatureRecord) (call : ReportCall)
    (rest : List ReportCall) : ∃ events, (s.endCall w i snapshot call rest).trace = s.trace ++ events ∧
      ∀ e ∈ events, e.IsAnswered w := by
  obtain ⟨outcome, answer, last, more⟩ := Shows.endCall (w := w) hf snapshot call rest
  have answered (e : RunEvent) (entry : e.IsAnswered w) :
      ∀ e' ∈ [.callEnded i call outcome, e], RunEvent.IsAnswered w e' := by
    intro e' he'
    rw [List.mem_pair] at he'
    rcases he' with rfl | rfl
    · exact ⟨s.files, answer⟩
    · exact entry
  by_cases fine : outcome.error? = none
  · cases rest with
    | nil => exact ⟨_, (last (.inr rfl)).trace, answered _ trivial⟩
    | cons next rest => exact ⟨_, (more next rest rfl fine).trace, answered _ trivial⟩
  · exact ⟨_, (last (.inl fine)).trace, answered _ trivial⟩

lemma step_answered {p : Party} (sound : Sound w s) (h : s.step? w p = some t) :
    ∃ events, t.trace = s.trace ++ events ∧ ∀ e ∈ events, e.IsAnswered w := by
  have entries : (∃ events, t.trace = s.trace ++ events ∧ ∀ e ∈ events, RunEvent.isEntry e = true) →
      ∃ events, t.trace = s.trace ++ events ∧ ∀ e ∈ events, e.IsAnswered w :=
    fun ⟨events, trace, entry⟩ => ⟨events, trace, fun e he => isAnswered_of_isEntry (entry e he)⟩
  cases p with
  | caller => exact entries (callerStep_entries sound.aligned h)
  | lane => exact entries (laneStep_entries h)
  | feature j task =>
    obtain ⟨f, f', events, does⟩ := featureStep_does h
    cases completion : f.completion with
    | reporting snapshot call rest =>
      have ended : t = s.endCall w j snapshot call rest := by
        simpa [step?, featureStep?, does.seen.before, does.running, completion, eq_comm] using h
      rw [ended]
      exact endCall_answered does.seen.before snapshot call rest
    | _ => exact ⟨events, does.seen.trace, does.deed.answered (by rw [completion]; rfl)⟩
  | pool j =>
    obtain ⟨f, f', events, does⟩ := poolStep_does h
    refine ⟨events, does.seen.trace, does.deed.answered ?_⟩
    cases completion : f.completion with
    | reporting snapshot call rest =>
      simp only [step?, poolStep?, does.seen.before] at h
      split at h
      · rename_i g there
        cases there
        simp [does.running, completion] at h
      · cases h
    | _ => rfl

/-- **The reports of features are written by the emitter.** -/
lemma Reaches.answered (h : Reaches w (w.start limiter files) s) :
    ∀ e ∈ s.trace, e.IsAnswered w := by
  induction h with
  | refl => simp [Suite.start]
  | @step s t p reach next ih =>
    obtain ⟨events, trace, answered⟩ := step_answered (reach.sound (sound_start w limiter files)) next
    intro e he
    rw [trace, List.mem_append] at he
    exact he.elim (ih e) (answered e)

lemma suiteCall_answered (reach : Reaches w (w.start limiter files) s) {call : ReportCall}
    {outcome : CallOutcome} {seen : Results} (he : .suiteCall call outcome seen ∈ s.trace) :
    ∃ files, outcome = (w.emitter.perform w.config.reportDir call files).1 := by
  obtain ⟨t, results, done, error, -, -, carried⟩ := reach.carries
  obtain ⟨c, e, makes⟩ := carried.exists_call _ (List.mem_filter.mpr ⟨he, rfl⟩)
  cases makes with
  | report files shown => exact ⟨files, rfl⟩

end RunState

/-! ### The files -/

namespace FileReports

lemma writeReport_ok {fs : FileSystem} {path p : Path} {content : String}
    (h : (writeReport fs path content).1 = .ok p) : p = path := by
  unfold writeReport at h
  split at h
  · cases h
  · split at h
    · exact (Except.ok.inj h).symm
    · cases h

lemma perform_written {dir p : Path} {call : ReportCall} {fs : FileSystem}
    (h : (emitter.perform dir call fs).1 = .written p) : p = call.report.file dir := by
  have ok {w : Except ReportError Path} (h : CallOutcome.ofWritten w = .written p) : w = .ok p := by
    cases w with
    | ok path => rw [CallOutcome.written.inj h]
    | error e => cases h
  cases call with
  | timeline b =>
    simp only [emitter] at h
    split at h
    · exact writeReport_ok (ok h)
    · cases h
  | _ => exact writeReport_ok (ok h)

end FileReports

/-- The files that the reports of a batch go to. -/
def Suite.reportFiles (w : Suite FileSystem) : List Path :=
  (Report.ofBatch w.names).map (·.file w.config.reportDir)

namespace RunState

variable {w : Suite FileSystem} {s : RunState FileSystem} {limiter : AdmissionLimiter}
variable {files : FileSystem}

/-- The files that reports were written to, in their order. -/
def filesWritten {σ : Type} (s : RunState σ) : List Path :=
  s.trace.filterMap fun e => e.written?.map Prod.snd

lemma filesWritten_eq (built : w.emitter = FileReports.emitter)
    (reach : Reaches w (w.start limiter files) s) :
    s.filesWritten = s.reportsWritten.map (·.file w.config.reportDir) := by
  rw [filesWritten, reportsWritten, List.map_filterMap]
  refine List.filterMap_congr fun e he => ?_
  cases e with
  | callEnded i call outcome =>
    obtain ⟨fs, answer⟩ := reach.answered _ he
    cases outcome with
    | written path =>
      rw [built] at answer
      rw [FileReports.perform_written answer.symm]
      rfl
    | _ => rfl
  | suiteCall call outcome seen =>
    obtain ⟨fs, answer⟩ := suiteCall_answered reach he
    cases outcome with
    | written path =>
      rw [built] at answer
      rw [FileReports.perform_written answer.symm]
      rfl
    | _ => rfl
  | _ => rfl

/-- **The files of a run's reports** are those of its batch, or some of them, and in a complete run
they are all of them. If no name of a feature has a separator, they lie directly in the report
directory; then no report is written over another if the names of the features are different and
none goes by the name of a report about the suite, and in a complete run not otherwise. -/
theorem reports_have_own_files {w : Suite FileSystem} {limiter : AdmissionLimiter}
    {files : FileSystem} {s : RunState FileSystem} (built : w.emitter = FileReports.emitter)
    (named : w.NamesRecords) (reach : Reaches w (w.start limiter files) s) :
    s.filesWritten.Subperm w.reportFiles ∧
      (Complete w s → s.filesWritten.Perm w.reportFiles) ∧
      ((∀ name ∈ w.names, '/' ∉ name.toList) →
        (∀ p ∈ s.filesWritten, p.DirectlyIn w.config.reportDir) ∧
        (Report.Apart w.names → (s.filesWritten.map Path.components).Nodup) ∧
        (Complete w s → ¬ Report.Apart w.names → ¬ (s.filesWritten.map Path.components).Nodup)) := by
  have subperm : s.filesWritten.Subperm w.reportFiles := by
    obtain ⟨some_reports, perm, among⟩ := reportsWritten_subperm named reach
    rw [filesWritten_eq built reach]
    exact ⟨_, perm.map _, among.map _⟩
  have all (complete : Complete w s) : s.filesWritten.Perm w.reportFiles := by
    rw [filesWritten_eq built reach]
    exact (complete.reportsWritten_perm named reach).map _
  refine ⟨subperm, all, fun plain => ?_⟩
  have nodup : (w.reportFiles.map Path.components).Nodup ↔ Report.Apart w.names := by
    rw [Suite.reportFiles, List.map_map]
    exact Report.nodup_files w.config.reportDir plain
  refine ⟨fun p hp => ?_, fun apart => ?_, fun complete overlap => ?_⟩
  · obtain ⟨r, hr, rfl⟩ := List.mem_map.mp (subperm.subset hp)
    exact Path.directlyIn_of_components
      (Report.components_file _ (Report.isPlain_ofBatch plain r hr))
  · obtain ⟨some_files, perm, among⟩ := subperm
    exact (perm.map _).nodup_iff.mp ((nodup.mpr apart).sublist (among.map _))
  · rwa [((all complete).map _).nodup_iff, nodup]

/-- A batch of features with these paths, each of which passes one scenario. All is reported. -/
def fileBatch (paths : List String) : Suite FileSystem where
  config :=
    { smallConfig 1 one_thread true [] (paths.map fun path => .ofPath (.ofText path)) with
      outputs := .all
      reportDir := .ofText "r" }
  runtimes _ feature := .made (.ofActs feature [.work [.addScenario passing], .complete])
  emitter := FileReports.emitter
  startedAt := .epoch
  endedAt := .epoch

lemma fileBatch_namesRecords (paths : List String) : (fileBatch paths).NamesRecords := by
  intro i feature r made
  obtain ⟨-, same⟩ := Suite.creations_eq_some.mp made
  cases same
  rfl

/-- A run of two features to its end, on a file system that has nothing but room. -/
def fileRun (paths : List String) : RunState FileSystem :=
  ((fileBatch paths).start smallLimiter ⟨[], some []⟩).play (fileBatch paths)
    (.caller :: List.replicate 7 (.feature 0 0) ++ .caller :: .caller ::
      List.replicate 7 (.feature 1 0) ++ List.replicate 20 .caller)

set_option maxRecDepth 100000 in
theorem fileRun_has_own_files :
    let paths := ["a.feature", "b/c.feature"]
    let s := fileRun paths
    Complete (fileBatch paths) s ∧ Report.Apart (fileBatch paths).names ∧
      (s.filesWritten.map Path.components).Nodup ∧
      s.filesWritten.Perm (["r/a.json", "r/a.xml", "r/b.c.json", "r/b.c.xml", "r/a.html",
        "r/b.c.html", "r/index.html", "r/suite-stats.json", "r/timeline.json"].map .ofText) := by
  intro paths s
  have ⟨_, all, plainly⟩ := reports_have_own_files (w := fileBatch paths) (s := s) (by rfl)
    (fileBatch_namesRecords paths) (reaches_play _ _ _)
  have ⟨_, different, _⟩ := plainly (by decide +kernel)
  have apart : Report.Apart (fileBatch paths).names := ⟨by decide +kernel, by decide +kernel⟩
  have complete : Complete (fileBatch paths) s :=
    ⟨by decide +kernel, by decide +kernel, by decide +kernel, by decide +kernel, by decide +kernel⟩
  have files : (fileBatch paths).reportFiles = ["r/a.json", "r/a.xml", "r/b.c.json", "r/b.c.xml",
      "r/a.html", "r/b.c.html", "r/index.html", "r/suite-stats.json", "r/timeline.json"].map
        .ofText := by decide +kernel
  rw [files] at all
  exact ⟨complete, apart, different apart, all complete⟩

set_option maxRecDepth 100000 in
/-- The reports of `a/b.feature` and of `a.b.feature` go to the same files. -/
theorem fileRun_overwrites :
    let paths := ["a/b.feature", "a.b.feature"]
    let s := fileRun paths
    (paths.map fun path => (Path.ofText path).components).Nodup ∧ Complete (fileBatch paths) s ∧
      ¬ (s.filesWritten.map Path.components).Nodup := by
  intro paths s
  have complete : Complete (fileBatch paths) s :=
    ⟨by decide +kernel, by decide +kernel, by decide +kernel, by decide +kernel, by decide +kernel⟩
  exact ⟨by decide +kernel, complete, by decide +kernel⟩

end RunState

end FeatureBatch
