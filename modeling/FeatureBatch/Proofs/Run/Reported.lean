import Mathlib.Data.List.Flatten
import Mathlib.Data.List.Perm.Subperm
import FeatureBatch.Proofs.Records.Totals
import FeatureBatch.Proofs.Reports.Files
import FeatureBatch.Proofs.Run.Ending
import FeatureBatch.Proofs.Run.Reporting

/-!
The reports that a run writes: those of a feature by its story, the pages and the summaries by the
plan. Each is written once at most, whether by a run that ends or not, and by a complete run all are.
-/

namespace FeatureBatch

/-! ### What is reported -/

def ReportCall.report : ReportCall → Report
  | featureJson r => .feature r.qualifiedName .json
  | featureXml r => .feature r.qualifiedName .xml
  | featureHtml r => .feature r.qualifiedName .html
  | summary _ => .summary
  | stats _ => .stats
  | timeline _ => .timeline

def SuiteReport.report : SuiteReport → Report
  | page r => .feature r.qualifiedName .html
  | summary => .summary
  | stats => .stats
  | timeline => .timeline

/-- The report that a planned call is to write, if it is to write one. -/
def SuiteCall.report? : SuiteCall → Option Report
  | report r => some r.report
  | hook _ => none

namespace RunEvent

/-- The call that has written a report, and where. -/
def written? : RunEvent → Option (ReportCall × Path)
  | callEnded _ call (.written path) => some (call, path)
  | suiteCall call (.written path) _ => some (call, path)
  | _ => none

def report? (e : RunEvent) : Option Report := e.written?.map fun w => w.1.report

/-- A feature's report call has failed. -/
def callFails : RunEvent → Bool
  | callEnded _ _ outcome => outcome.error?.isSome
  | _ => false

/-- The feature whose completion was invoked with something to report. -/
def completed? : RunEvent → Option Nat
  | invoked i snapshot => if snapshot.isEmpty then none else some i
  | _ => none

end RunEvent

/-- The names that the reports of the features go by. -/
def Suite.names {σ : Type} (w : Suite σ) : List String :=
  w.config.features.map Feature.qualifiedName

/-- Every runtime keeps a record that is named like the feature that it is made for. -/
def Suite.NamesRecords {σ : Type} (w : Suite σ) : Prop :=
  ∀ (i : Nat) (f : Feature) (r : Runtime), w.creations[i]? = some (f, .made r) →
    r.record.qualifiedName = f.qualifiedName

namespace RunState

variable {σ : Type} {w : Suite σ} {s t : RunState σ} {limiter : AdmissionLimiter} {files : σ}
variable {i : Nat} {f : FeatureRun}

/-! ### The calls about the suite -/

lemma Reaches.carries (h : Reaches w (w.start limiter files) s) : ∃ t results done error,
    Reaches w (w.start limiter files) t ∧ done <+: w.plan t.book.registered ∧
      Carried (SuiteCall.Makes w results) done s.suiteTrace error := by
  have uncalled (nothing : s.suiteTrace = []) : ∃ t results done error,
      Reaches w (w.start limiter files) t ∧ done <+: w.plan t.book.registered ∧
        Carried (SuiteCall.Makes w results) done s.suiteTrace error :=
    ⟨s, s.results, [], none, h, List.nil_prefix, by rw [nothing]; exact .all⟩
  by_cases early : s.stage.isEarly = true
  · refine uncalled ?_
    rw [suiteTrace_eq, (h.undisturbed early).callerTrace]
    rfl
  · cases h.outcome (by simpa using early) with
    | undispatched fails failed => exact uncalled failed.no_calls
    | overflowed overflows failed => exact uncalled failed.no_calls
    | @dispatched results records all released totals stamped fresh carries =>
      obtain ⟨t, reach, -, -, rfl, -⟩ := released.waited
      cases carries with
      | reporting stage same passed left =>
        exact ⟨t, results, _, none, reach, ⟨_, left.symm⟩, passed.all⟩
      | hooks stage same passed left =>
        exact ⟨t, results, _, none, reach, ⟨_, left.symm⟩, passed.all⟩
      | failing stage same carried => exact ⟨t, results, _, _, reach, List.prefix_rfl, carried⟩
      | finished stage carried endedAt same =>
        exact ⟨t, results, _, _, reach, List.prefix_rfl, carried⟩

lemma report?_of_makes {results : Results} {c : SuiteCall} {e : RunEvent}
    (h : SuiteCall.Makes w results c e none) : e.report? = c.report? := by
  generalize fine : (none : Option SuiteError) = error at h
  cases h with
  | @report report call files shown =>
    cases outcome : (w.emitter.perform w.config.reportDir call files).1 with
    | written path => cases shown <;> rfl
    | failed e => rw [outcome] at fine; cases fine
    | panicked payload => rw [outcome] at fine; cases fine
  | hook hook records closed => rfl

lemma report?_of_failed {results : Results} {c : SuiteCall} {e : RunEvent} {error : SuiteError}
    (h : SuiteCall.Makes w results c e (some error)) : e.report? = none := by
  generalize fails : some error = verdict at h
  cases h with
  | @report report call files shown =>
    cases outcome : (w.emitter.perform w.config.reportDir call files).1 with
    | written path => rw [outcome] at fails; cases fails
    | failed e => rfl
    | panicked payload => rfl
  | hook hook records closed => rfl

/-! ### The reports of a feature -/

/-- What a feature's report call that has ended so has written. -/
def told? (made : ReportCall × CallOutcome) : Option Report :=
  match made.2 with
  | .written _ => some made.1.report
  | _ => none

lemma told?_of_makes {call : ReportCall} {made : ReportCall × CallOutcome}
    (h : ReportCall.Makes call made none) : told? made = some call.report := by
  obtain ⟨call', outcome⟩ := made
  obtain ⟨rfl, fine⟩ := h
  cases outcome with
  | written path => rfl
  | failed e => cases fine
  | panicked payload => cases fine

lemma told?_of_failed {call : ReportCall} {made : ReportCall × CallOutcome} {e : SuiteError}
    (h : ReportCall.Makes call made (some e)) : told? made = none := by
  obtain ⟨call', outcome⟩ := made
  cases outcome with
  | written path => cases h.2
  | failed e => rfl
  | panicked payload => rfl

lemma filterMap_callEvents (i : Nat) (made : List (ReportCall × CallOutcome)) :
    (callEvents i made).filterMap RunEvent.report? = made.filterMap told? := by
  induction made with
  | nil => rfl
  | cons m made ih =>
    obtain ⟨call, outcome⟩ := m
    rw [List.filterMap_cons, ← ih]
    cases outcome <;> rfl

lemma filterMap_tale {snapshot : FeatureRecord} {made : List (ReportCall × CallOutcome)}
    {last : RunEvent} (quiet : last.report? = none) :
    (.started i :: (.invoked i snapshot :: callEvents i made ++ [last])).filterMap
      RunEvent.report? = made.filterMap told? := by
  rw [List.cons_append, List.filterMap_cons_none rfl, List.filterMap_cons_none rfl,
    List.filterMap_append, filterMap_callEvents, List.filterMap_cons_none quiet, List.filterMap_nil,
    List.append_nil]

section Stories

variable {outputs : OutputFormats} {tale : List RunEvent}

lemma Story.reports (story : Story outputs i f tale) : tale.filterMap RunEvent.report? = [] ∨
    ∃ snapshot, .invoked i snapshot ∈ tale ∧ (tale.filterMap RunEvent.report?).Sublist
      ((reported outputs snapshot).map ReportCall.report) := by
  cases story with
  | queued phase armed => exact .inl rfl
  | discarded phase dropped => exact .inl rfl
  | @started tale phase course =>
    cases completion : f.completion with
    | armed => rw [completion] at course; cases course; exact .inl rfl
    | dropped => rw [completion] at course; cases course; exact .inl rfl
    | reporting snapshot call rest =>
      rw [completion] at course
      cases course with
      | reporting wanted passed =>
        refine .inr ⟨snapshot, by simp, ?_⟩
        have told := passed.filterMap_eq (f := some ∘ ReportCall.report) fun _ _ => told?_of_makes
        rw [filterMap_tale rfl, told, List.filterMap_eq_map, wanted, List.map_append]
        exact List.sublist_append_left _ _
    | used =>
      rw [completion] at course
      cases course with
      | @used snapshot made error carried =>
        refine .inr ⟨snapshot, by simp, ?_⟩
        rw [filterMap_tale rfl, ← List.filterMap_eq_map]
        exact carried.filterMap_sublist (fun _ _ => told?_of_makes) fun _ _ _ => told?_of_failed

lemma Story.reports_all (story : Story outputs i f tale) (used : f.completion = .used)
    (fine : ∀ e ∈ tale, e.callFails = false) {snapshot : FeatureRecord}
    (invoked : .invoked i snapshot ∈ tale) :
    tale.filterMap RunEvent.report? = (reported outputs snapshot).map ReportCall.report := by
  cases story with
  | queued phase armed => rw [used] at armed; cases armed
  | discarded phase dropped => rw [used] at dropped; cases dropped
  | @started tale phase course =>
    rw [used] at course
    cases course with
    | @used snapshot' made error carried =>
      obtain rfl : snapshot = snapshot' := by simpa [callEvents] using invoked
      have passed : Passed ReportCall.Makes (reported outputs snapshot) made := by
        cases error with
        | none => exact carried_none_iff.mp carried
        | some e =>
          -- the call that failed was the last, and the tale tells how it ended
          obtain ⟨done, call, rest, before, last, -, rfl, -, fails⟩ := carried.eq_snoc
          have told : .callEnded i last.1 last.2 ∈ callEvents i (before ++ [last]) := by
            simp [callEvents]
          have failed := fine (.callEnded i last.1 last.2) (by simp [told])
          simp [RunEvent.callFails, fails.2] at failed
      rw [filterMap_tale rfl, ← List.filterMap_eq_map]
      exact passed.filterMap_eq fun _ _ => told?_of_makes

end Stories

/-! ### Records that are not empty -/

lemma write_not_isEmpty {r : FeatureRecord} (u : RecordUpdate) (some_ran : r.isEmpty = false) :
    (u.apply r).isEmpty = false := by
  cases u with
  | addScenario sc => simp [RecordUpdate.apply, FeatureRecord.addScenario, FeatureRecord.isEmpty]
  | setDuration ms => exact some_ran
  | addThenPanic sc => simp [RecordUpdate.apply, FeatureRecord.addScenario, FeatureRecord.isEmpty]

lemma move_not_isEmpty {c d : Cell} (m : Cell.Move s i c d) (some_ran : c.record.isEmpty = false) :
    d.record.isEmpty = false := by
  cases m with
  | write here writes => exact write_not_isEmpty _ some_ran
  | discard queued why => rw [Cell.discard, Cell.drop_record]; exact some_ran
  | abandon here => rw [Cell.drop_record]; exact some_ran
  | finish running idle why => rw [Cell.finish, Cell.drop_record]; exact some_ran
  | _ => exact some_ran

lemma Reaches.not_isEmpty {a : RunState σ} (h : Reaches w a s) (sound : Sound w a) {c : Cell}
    (hc : a.cells[i]? = some c) (some_ran : c.record.isEmpty = false) :
    ∀ d, s.cells[i]? = some d → d.record.isEmpty = false := by
  induction h with
  | refl =>
    intro d hd
    rw [hc] at hd
    cases hd
    exact some_ran
  | @step s t p reaches next ih =>
    intro e he
    obtain ⟨d, hd⟩ := reaches.cells_kept sound hc
    obtain ⟨d', hd', same | move⟩ := ((reaches.sound sound).step next).2.kept i d hd
    · rw [he, Option.some.injEq] at hd'
      rw [hd', same]
      exact ih d hd
    · rw [he, Option.some.injEq] at hd'
      rw [hd']
      exact move_not_isEmpty move (ih d hd)

/-! ### Names -/

lemma InvokedWith.exists_cell {snapshot : FeatureRecord}
    (h : InvokedWith w (w.start limiter files) s i snapshot) : ∃ t c,
      Reaches w (w.start limiter files) t ∧ Reaches w t s ∧ t.cells[i]? = some c ∧
        c.record = snapshot := by
  obtain ⟨t, u, p, f, more, reach_t, next, reach_u, hf, -, -, found, -⟩ := h.invoked
  have aligned := (reach_t.sound (sound_start w limiter files)).aligned
  obtain ⟨c, hc, rfl⟩ := aligned.exists_cell hf
  have record := (cells_eq_some hc).2.1
  rw [aligned.record_eq hf, RecordStore.get?, record, Option.some.injEq] at found
  exact ⟨t, c, reach_t, (Reaches.step p (.refl t) next).trans reach_u, hc, found⟩

section Names

variable (named : w.NamesRecords) (reach : Reaches w (w.start limiter files) s)

include named reach

lemma record_named {c : Cell} (hc : s.cells[i]? = some c) :
    w.names[i]? = some c.record.qualifiedName := by
  obtain ⟨r, hr, -⟩ := (reach.sound (sound_start w limiter files)).made i c hc
  obtain ⟨f, hf, made⟩ := Suite.runtime?_eq_some.mp hr
  obtain ⟨us, -, wrote⟩ := (reach.written hc hr).wrote
  have name := named i f r (Suite.creations_eq_some.mpr ⟨hf, made⟩)
  rw [Suite.names, List.getElem?_map, hf, wrote, FeatureRecord.applyAll_qualifiedName, name]
  rfl

lemma snapshot_named {snapshot : FeatureRecord} (invoked : .invoked i snapshot ∈ s.trace) :
    w.names[i]? = some snapshot.qualifiedName := by
  have start := sound_start w limiter files
  obtain ⟨t, c, reach_t, -, hc, rfl⟩ := (reach.invokedWith start rfl invoked).exists_cell
  exact record_named named reach_t hc

lemma registered_named : s.book.registered.map FeatureRecord.qualifiedName <+: w.names := by
  have aligned := (reach.sound (sound_start w limiter files)).aligned
  rw [aligned.registered_eq, List.map_map, List.prefix_iff_getElem?]
  intro i hi
  rw [List.length_map] at hi
  rw [List.getElem_map]
  exact record_named named reach (List.getElem?_eq_getElem hi)

end Names

lemma reports_plan (html : w.config.outputs.html = true) (records : List FeatureRecord) :
    (w.plan records).filterMap SuiteCall.report? =
      (((records.filter fun r => !r.isEmpty).map FeatureRecord.qualifiedName).map
        (Report.feature · .html)) ++ [.summary, .stats, .timeline] := by
  have hooks : (w.config.hooks.map SuiteCall.hook).filterMap SuiteCall.report? = [] := by
    simp [SuiteCall.report?]
  have reports (rs : List SuiteReport) :
      (rs.map SuiteCall.report).filterMap SuiteCall.report? = rs.map SuiteReport.report := by
    rw [List.filterMap_map]
    exact congrFun List.filterMap_eq_map rs
  rw [Suite.plan, if_pos html, List.filterMap_append, hooks, List.append_nil, reports,
    SuiteReport.ofRecords, List.map_append, List.map_map, List.map_map]
  rfl

lemma reports_plan_sublist (named : w.NamesRecords) (reach : Reaches w (w.start limiter files) s) :
    ((w.plan s.book.registered).filterMap SuiteCall.report?).Sublist
      (w.names.map (Report.feature · .html) ++ [.summary, .stats, .timeline]) := by
  by_cases html : w.config.outputs.html = true
  · rw [reports_plan html]
    have pages : ((s.book.registered.filter fun r => !r.isEmpty).map
        FeatureRecord.qualifiedName).Sublist w.names :=
      (List.filter_sublist.map _).trans (registered_named named reach).sublist
    exact (pages.map _).append (List.Sublist.refl _)
  · have none_planned : (w.plan s.book.registered).filterMap SuiteCall.report? = [] := by
      simp [Suite.plan, html, SuiteCall.report?]
    rw [none_planned]
    exact List.nil_sublist _

/-! ### The reports that a run has written -/

lemma filter_below_succ {α : Type} (key : α → Option Nat) (l : List α) (n : Nat) :
    ((l.filter fun a => (key a).any (· < n)) ++ l.filter (key · = some n)).Perm
      (l.filter fun a => (key a).any (· < n + 1)) := by
  have split := List.filter_append_perm (fun a => (key a).any (· < n))
    (l.filter fun a => (key a).any (· < n + 1))
  have below (a : α) : ((key a).any (· < n) && (key a).any (· < n + 1)) = (key a).any (· < n) := by
    cases key a with
    | none => rfl
    | some k =>
      rw [Bool.eq_iff_iff]
      simp
      omega
  have bound (a : α) :
      (!(key a).any (· < n) && (key a).any (· < n + 1)) = decide (key a = some n) := by
    cases key a with
    | none => rfl
    | some k =>
      rw [Bool.eq_iff_iff]
      simp
      omega
  simpa only [List.filter_filter, below, bound] using split

lemma flatMap_filter_perm {α : Type} (key : α → Option Nat) (l : List α) (n : Nat) :
    ((List.range n).flatMap fun i => l.filter (key · = some i)).Perm
      (l.filter fun a => (key a).any (· < n)) := by
  induction n with
  | zero => simp
  | succ n ih =>
    rw [List.range_succ, List.flatMap_append, List.flatMap_singleton]
    exact (ih.append_right _).trans (filter_below_succ key l n)

/-- The reports that were written, in their order. -/
def reportsWritten (s : RunState σ) : List Report := s.trace.filterMap RunEvent.report?

lemma milestone_lt (reach : Reaches w (w.start limiter files) s) :
    ∀ e ∈ s.trace, ∀ i, e.milestone? = some i → i < w.names.length := by
  intro e he i told
  have start := sound_start w limiter files
  have below := (reach.tales start (tales_start w limiter files)).known e he i told
  have features := features_length_le (reach.sound start)
  simp only [Suite.creations, List.length_map, List.length_zipIdx] at features
  simp only [Suite.names, List.length_map]
  omega

lemma reportsWritten_perm (reach : Reaches w (w.start limiter files) s) :
    s.reportsWritten.Perm
      (((List.range w.names.length).flatMap fun i => (s.tale i).filterMap RunEvent.report?) ++
        s.suiteTrace.filterMap RunEvent.report?) := by
  have whole := (List.filter_append_perm
    (fun e : RunEvent => e.milestone?.any (· < w.names.length)) s.trace).symm.filterMap RunEvent.report?
  have own := (flatMap_filter_perm RunEvent.milestone? s.trace w.names.length).symm.filterMap
    RunEvent.report?
  -- what reports and is no milestone of a feature is a call about the suite
  have others : (s.trace.filter fun e => !e.milestone?.any (· < w.names.length)).filterMap
      RunEvent.report? = s.suiteTrace.filterMap RunEvent.report? := by
    rw [suiteTrace, List.filterMap_filter, List.filterMap_filter]
    refine List.filterMap_congr fun e he => ?_
    cases e with
    | callEnded i call outcome =>
      have below := milestone_lt reach _ he i rfl
      simp [RunEvent.milestone?, RunEvent.verdict?, below]
    | suiteCall call outcome seen => rfl
    | _ => simp [RunEvent.report?, RunEvent.written?]
  rw [List.filterMap_append, others] at whole
  rw [List.filterMap_flatMap] at own
  exact whole.trans (own.append_right _)

lemma flatMap_names {β : Type} (names : List String) (g : String → List β) :
    ((List.range names.length).flatMap fun i => names[i]?.toList.flatMap g) = names.flatMap g := by
  conv_rhs => rw [← filterMap_getElem?_range names, List.filterMap_eq_flatMap_toList,
    List.flatMap_assoc]

lemma reported_sublist (outputs : OutputFormats) (snapshot : FeatureRecord) :
    ((reported outputs snapshot).map ReportCall.report).Sublist
      [.feature snapshot.qualifiedName .json, .feature snapshot.qualifiedName .xml] := by
  unfold reported wantedCalls
  split
  · exact List.nil_sublist _
  · cases outputs.cucumberJson <;> cases outputs.junitXml <;> simp [ReportCall.report]

lemma tale_reports (named : w.NamesRecords) (reach : Reaches w (w.start limiter files) s) (i : Nat) :
    ((s.tale i).filterMap RunEvent.report?).Sublist
      (w.names[i]?.toList.flatMap fun name => [.feature name .json, .feature name .xml]) := by
  have tales := reach.tales (sound_start w limiter files) (tales_start w limiter files)
  cases hf : s.features[i]? with
  | none =>
    have untold : s.tale i = [] := by
      rw [tale, milestones, List.filter_eq_nil_iff]
      intro e he
      rw [decide_eq_true_eq]
      intro told
      have below := tales.known e he i told
      rw [List.getElem?_eq_none_iff] at hf
      omega
    rw [untold]
    exact List.nil_sublist _
  | some f =>
    rcases Story.reports (tales.story i f hf) with nothing | ⟨snapshot, invoked, among⟩
    · rw [nothing]
      exact List.nil_sublist _
    · have name := snapshot_named named reach (List.mem_of_mem_filter invoked)
      rw [name]
      simpa using among.trans (reported_sublist _ snapshot)

/-- **No report is written twice.** -/
theorem reportsWritten_subperm (named : w.NamesRecords)
    (reach : Reaches w (w.start limiter files) s) :
    s.reportsWritten.Subperm (Report.ofBatch w.names) := by
  obtain ⟨t, results, done, error, reach_t, first, carried⟩ := reach.carries
  have told := carried.filterMap_sublist (fun _ _ => report?_of_makes) fun _ _ _ => report?_of_failed
  have suite := (told.trans (first.filterMap _).sublist).trans (reports_plan_sublist named reach_t)
  have features := List.Sublist.flatMap_right (List.range w.names.length)
    fun i _ => tale_reports named reach i
  rw [flatMap_names] at features
  exact (reportsWritten_perm reach).subperm.trans (features.append suite).subperm

/-! ### Complete runs -/

/-- A run in which every feature was executed and every report was wanted, and no call failed. -/
structure Complete (w : Suite σ) (s : RunState σ) : Prop where
  done : s.isDone = true
  succeeded : s.results.failureReason = none
  outputs : w.config.outputs = .all
  executed : ∀ i < w.config.features.length, some i ∈ s.trace.map RunEvent.completed?
  answered : ∀ e ∈ s.trace, e.callFails = false

lemma Complete.invoked (complete : Complete w s) (hi : i < w.config.features.length) :
    ∃ snapshot, .invoked i snapshot ∈ s.tale i ∧ snapshot.isEmpty = false := by
  obtain ⟨e, he, told⟩ := List.mem_map.mp (complete.executed i hi)
  cases e with
  | invoked j snapshot =>
    rw [RunEvent.completed?] at told
    split at told
    · cases told
    · rename_i some_ran
      cases told
      exact ⟨snapshot, List.mem_filter.mpr ⟨he, by simp [RunEvent.milestone?]⟩, by simpa using some_ran⟩
  | _ => cases told

lemma tale_settled (reach : Reaches w (w.start limiter files) t) {error : Option SuiteError}
    (waiting : t.stage = .awaiting error) (settled : t.AllSettled) (h : Reaches w t s) (i : Nat) :
    s.tale i = t.tale i := by
  suffices both : s.AllSettled ∧ s.tale i = t.tale i from both.2
  induction h with
  | refl => exact ⟨settled, rfl⟩
  | @step s u p reaches next ih =>
    have reach_s := reach.trans reaches
    have later : s.stage ≠ .dispatching := by
      rcases reach.waits waiting reaches with awaiting | ⟨late, -⟩
      · rw [awaiting]
        simp
      · exact CallerStage.ne_dispatching late
    obtain ⟨events, trace, quiet⟩ := step_quiet reach_s ih.1 later next
    refine ⟨ih.1.step reach_s later next, ?_⟩
    rw [tale_append trace, milestones_quiet quiet, List.append_nil, ih.2]

lemma Complete.tale_reports (complete : Complete w s) (named : w.NamesRecords)
    (reach : Reaches w (w.start limiter files) s) (settled : s.AllSettled)
    (all : s.features.length = w.config.features.length) (hi : i < w.names.length) :
    (s.tale i).filterMap RunEvent.report? =
      w.names[i]?.toList.flatMap fun name => [.feature name .json, .feature name .xml] := by
  have start := sound_start w limiter files
  rw [Suite.names, List.length_map] at hi
  obtain ⟨snapshot, invoked, some_ran⟩ := complete.invoked hi
  obtain ⟨f, hf⟩ : ∃ f, s.features[i]? = some f := ⟨_, List.getElem?_eq_getElem (by omega)⟩
  have story := (reach.tales start (tales_start w limiter files)).story i f hf
  obtain ⟨c, hc, rfl⟩ := (reach.sound start).aligned.exists_cell hf
  have used : c.run.completion = .used := by
    -- a continuation that was dropped was not invoked before
    refine (gone_of_isSettled (reach.consistent hc) (settled i c hc)).resolve_right fun dropped => ?_
    rcases Story.of_dropped story dropped with told | told <;> simp [told] at invoked
  have fine : ∀ e ∈ s.tale i, e.callFails = false := fun e he =>
    complete.answered e (List.mem_of_mem_filter he)
  rw [Story.reports_all story used fine invoked,
    snapshot_named named reach (List.mem_of_mem_filter invoked)]
  simp [reported, some_ran, complete.outputs, wantedCalls, OutputFormats.all, ReportCall.report]

lemma Complete.registered (complete : Complete w s) (named : w.NamesRecords)
    (reach : Reaches w (w.start limiter files) t) (waiting : t.stage = .awaiting none)
    (settled : t.AllSettled) (reaches : Reaches w t s) :
    t.book.registered.map FeatureRecord.qualifiedName = w.names ∧
      ∀ r ∈ t.book.registered, r.isEmpty = false := by
  have start := sound_start w limiter files
  have aligned := (reach.sound start).aligned
  have length : t.cells.length = w.config.features.length := by
    rw [aligned.length_cells, reach.dispatched.1 waiting]
    simp [Suite.creations]
  rw [aligned.registered_eq]
  constructor
  · have first := registered_named named reach
    rw [aligned.registered_eq] at first
    exact first.eq_of_length (by simp [length, Suite.names])
  · intro r hr
    obtain ⟨c, hc, rfl⟩ := List.mem_map.mp hr
    obtain ⟨i, hi, rfl⟩ := List.mem_iff_getElem.mp hc
    obtain ⟨snapshot, invoked, some_ran⟩ := complete.invoked (length ▸ hi)
    rw [tale_settled reach waiting settled reaches] at invoked
    have with_it := reach.invokedWith start rfl (List.mem_of_mem_filter invoked)
    obtain ⟨u, c, reach_u, later, hc, rfl⟩ := with_it.exists_cell
    exact later.not_isEmpty (reach_u.sound start) hc some_ran _ (List.getElem?_eq_getElem hi)

/-- **Every report of the batch is written** in a complete run. -/
theorem Complete.reportsWritten_perm (complete : Complete w s) (named : w.NamesRecords)
    (reach : Reaches w (w.start limiter files) s) :
    s.reportsWritten.Perm (Report.ofBatch w.names) := by
  have counted := hasTotals_of_isDone complete.done
  cases (reach.outcome (isEarly_of_hasTotals counted)).ended reach counted with
  | undispatched fails nothing reason => rw [complete.succeeded] at reason; cases reason
  | overflowed overflows nothing reason => rw [complete.succeeded] at reason; cases reason
  | @dispatched results records all released stamped totals carried =>
    rw [complete.succeeded] at carried
    obtain ⟨t, reach_t, waiting, settled, rfl, reaches⟩ := released.waited
    have settled_s : s.AllSettled := by
      rcases reach_t.waits waiting reaches with awaiting | late
      · have done := complete.done
        simp [isDone, awaiting] at done
      · exact late.2
    obtain ⟨names, executed⟩ := complete.registered named reach_t waiting settled reaches
    have pages := (carried_none_iff.mp carried).filterMap_eq fun _ _ => report?_of_makes
    have html : w.config.outputs.html = true := by rw [complete.outputs]; rfl
    rw [reports_plan html, List.filter_eq_self.mpr (by simpa using executed), names] at pages
    have length : w.creations.length = w.config.features.length := by simp [Suite.creations]
    have features := List.flatMap_congr fun i hi =>
      complete.tale_reports named reach settled_s (all.trans length) (List.mem_range.mp hi)
    rw [flatMap_names] at features
    have written := RunState.reportsWritten_perm reach
    rw [features, pages] at written
    exact written

end RunState

end FeatureBatch
