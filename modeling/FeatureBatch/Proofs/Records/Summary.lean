import FeatureBatch.Proofs.Records.Book
import FeatureBatch.Proofs.Records.Duration

/-!
The summary against its rows. Its counts come from the totals, which were computed at some time, and
its rows from the records as they are now. Where no record has changed and none was registered since
the totals were computed to the end, both tell of the same records, and the summary fits together.
-/

namespace FeatureBatch

/-! ### Rows and totals of the same records -/

namespace FeatureRow

/-- The rows of records, of which those without a scenario have none. -/
def ofRecords (records : List FeatureRecord) : List FeatureRow :=
  (records.filter fun r => !r.isEmpty).map ofRecord

/-- The row is of a feature that failed. -/
def isFailed (row : FeatureRow) : Bool := 0 < row.failed

lemma passed_add_failed (r : FeatureRecord) :
    (ofRecord r).passed + (ofRecord r).failed = (ofRecord r).scenarios :=
  Nat.sub_add_cancel (Totals.failedCount_le r)

variable (records : List FeatureRecord)

lemma length_ofRecords : (ofRecords records).length = (Totals.counted records).features := by
  rw [Totals.counted, ofRecords, List.length_map, List.countP_eq_length_filter]

lemma sum_ofRecords {f : FeatureRow → Nat}
    (empty : ∀ r : FeatureRecord, r.isEmpty → f (ofRecord r) = 0) :
    ((ofRecords records).map f).sum = (records.map fun r => f (ofRecord r)).sum := by
  unfold ofRecords
  induction records with
  | nil => rfl
  | cons r rs ih =>
    by_cases h : r.isEmpty
    · simpa [h, empty r h] using ih
    · simpa [h] using ih

lemma sum_failed : ((ofRecords records).map failed).sum = (Totals.counted records).failures := by
  rw [Totals.counted, sum_ofRecords records fun r empty => (Totals.counts_of_isEmpty empty).2]
  rfl

lemma sum_scenarios :
    ((ofRecords records).map scenarios).sum = (Totals.counted records).scenarios := by
  rw [Totals.counted, sum_ofRecords records fun r empty => (Totals.counts_of_isEmpty empty).1]
  rfl

lemma sum_passed : ((ofRecords records).map passed).sum =
    (Totals.counted records).scenarios - (Totals.counted records).failures := by
  have both : ((ofRecords records).map scenarios).sum =
      ((ofRecords records).map passed).sum + ((ofRecords records).map failed).sum := by
    unfold ofRecords
    induction records.filter fun r => !r.isEmpty with
    | nil => rfl
    | cons r rs ih =>
      have counts := passed_add_failed r
      simp only [List.map_cons, List.sum_cons]
      omega
  rw [← sum_scenarios, ← sum_failed]
  omega

lemma filter_isFailed : (ofRecords records).filter isFailed =
    (records.filter FeatureRecord.isFailed).map ofRecord := by
  unfold ofRecords
  rw [List.filter_map, List.filter_filter]
  congr 1
  refine List.filter_congr fun r _ => ?_
  have same : isFailed (ofRecord r) = r.isFailed := rfl
  by_cases h : r.isEmpty
  · simp [same, Totals.not_isFailed_of_isEmpty h]
  · simp [same, h]

lemma length_failed : (Totals.counted records).failed.length =
    (ofRecords records).countP isFailed := by
  rw [List.countP_eq_length_filter, filter_isFailed, Totals.counted]
  simp

lemma names_failed : (Totals.counted records).failed.map FailedFeature.name =
    ((ofRecords records).filter isFailed).map name := by
  rw [filter_isFailed, Totals.counted, List.map_map, List.map_map]
  rfl

lemma sum_durations : ((ofRecords records).map fun row => row.durationMs.toNat).sum =
    (durations records).sum := by
  rw [ofRecords, List.map_map]
  rfl

end FeatureRow

/-! ### Summaries that fit together -/

namespace Summary

/-- The summary fits together, and with the records that it is of. -/
structure Fits (s : Summary) (records : List FeatureRecord) : Prop where
  rows : s.features = FeatureRow.ofRecords records
  features : s.featuresPassed + s.featuresFailed = s.features.length
  featuresFailed : s.featuresFailed = s.features.countP FeatureRow.isFailed
  scenariosPassed : s.scenariosPassed = (s.features.map FeatureRow.passed).sum
  scenariosFailed : s.scenariosFailed = (s.features.map FeatureRow.failed).sum
  counts : ∀ row ∈ s.features, row.passed + row.failed = row.scenarios
  skipped : s.features.length + s.featuresSkipped = records.length
  time : s.totalTimeMs.toNat = (s.features.map fun row => row.durationMs.toNat).sum
  failed : s.failed.map FailedFeature.name =
    (s.features.filter FeatureRow.isFailed).map FeatureRow.name

/-- **Totals of the records as they are** make a summary that fits. -/
lemma fits_ofResults {r : Results} {store : RecordStore} {records : List FeatureRecord}
    (registered : store.select r.registered = records)
    (current : Totals.ofRecords records = .ok r.totals) :
    (ofResults r store).Fits records := by
  have rows : (ofResults r store).features = FeatureRow.ofRecords records := by
    rw [← registered]
    rfl
  have balanced := Totals.balanced_ofRecords current
  obtain ⟨fits, counted⟩ := Totals.ofRecords_eq_ok.mp current
  refine ⟨rows, ?_, ?_, ?_, ?_, ?_, ?_, ?_, ?_⟩ <;> rw [rows]
  · rw [FeatureRow.length_ofRecords, ← counted]
    exact Nat.sub_add_cancel balanced.failed_le
  · rw [← FeatureRow.length_failed, ← counted]
    rfl
  · rw [FeatureRow.sum_passed, ← counted]
    rfl
  · rw [FeatureRow.sum_failed, ← counted]
    rfl
  · intro row mem
    obtain ⟨r, -, rfl⟩ := List.mem_map.mp mem
    exact FeatureRow.passed_add_failed r
  · rw [FeatureRow.length_ofRecords, ← Totals.features_add_skipped, ← counted]
    rfl
  · have time := Totals.toNat_timeMs records
    rw [← counted, Nat.mod_eq_of_lt fits] at time
    rw [FeatureRow.sum_durations]
    exact time
  · rw [← FeatureRow.names_failed, ← counted]
    rfl

end Summary

/-! ### After the totals were computed -/

/-- The event changes a record, or registers one. -/
def ResultsEvent.touchesRecords : ResultsEvent → Bool
  | .registerNew _ => true
  | .register _ => true
  | .update _ _ => true
  | _ => false

namespace ResultsBook

variable {b : ResultsBook} {records : List FeatureRecord}

/-- The totals are those of the registered records as they are. -/
def Current (b : ResultsBook) : Prop := Totals.ofRecords b.registered = .ok b.results.totals

lemma current_finalize (countable : b.Countable) : (b.after .finalize).Current := by
  rw [after_finalize, if_pos countable]
  exact countable.totals

lemma registered_after (b : ResultsBook) {e : ResultsEvent} (quiet : e.touchesRecords = false) :
    (b.after e).registered = b.registered := by
  cases e with
  | fail reason =>
    have same : (b.results.recordFailure reason).2.registered = b.results.registered := by
      rw [Results.recordFailure]
      split <;> rfl
    rw [registered, after, same, registered]
  | finalize =>
    rw [after_finalize]
    split <;> rfl
  | finish endedAt => rfl
  | _ => cases quiet

lemma registered_afterAll {events : List ResultsEvent}
    (quiet : ∀ e ∈ events, e.touchesRecords = false) :
    (b.afterAll events).registered = b.registered := by
  induction events generalizing b with
  | nil => rfl
  | cons e es ih =>
    rw [afterAll_cons, ih fun e he => quiet e (List.mem_cons_of_mem _ he),
      registered_after b (quiet e List.mem_cons_self)]

lemma Current.after (h : b.Current) {e : ResultsEvent} (quiet : e.touchesRecords = false) :
    (b.after e).Current := by
  cases kind : e.isFinalize with
  | true =>
    cases e with
    | finalize => exact current_finalize (Totals.ofRecords_eq_ok.mp h).1
    | _ => cases kind
  | false =>
    rw [Current, totals_after b kind, registered_after b quiet]
    exact h

lemma Current.afterAll (h : b.Current) {events : List ResultsEvent}
    (quiet : ∀ e ∈ events, e.touchesRecords = false) : (b.afterAll events).Current := by
  induction events generalizing b with
  | nil => exact h
  | cons e es ih =>
    exact ih (h.after (quiet e List.mem_cons_self)) fun e he => quiet e (List.mem_cons_of_mem _ he)

lemma totals_afterAll_of_not_countable (wrong : ¬ b.Countable) {events : List ResultsEvent}
    (quiet : ∀ e ∈ events, e.touchesRecords = false) :
    (b.afterAll events).results.totals = b.results.totals := by
  induction events generalizing b with
  | nil => rfl
  | cons e es ih =>
    have same : (b.after e).results.totals = b.results.totals := by
      cases kind : e.isFinalize with
      | true =>
        cases e with
        | finalize => rw [after_finalize, if_neg wrong]
        | _ => cases kind
      | false => exact totals_after b kind
    have still : ¬ (b.after e).Countable := by
      rw [Countable, registered_after b (quiet e List.mem_cons_self)]
      exact wrong
    rw [afterAll_cons, ih still fun e he => quiet e (List.mem_cons_of_mem _ he), same]

/-- **The summary fits together** if the totals were computed after the last record was registered
and after the last one changed, and if the times of the registered records sum up to a word: its
rows are the registered records with a scenario in their order, and its counts, its sums and its
failed features are those of the rows. If the sum is no word, computing the totals has given up and
the counts of the summary are those of an earlier time. -/
theorem summary_fits (startedAt : Instant) (threads : UInt64) (before later : List ResultsEvent)
    (allowed : (start startedAt threads).AllowsAll (before ++ .finalize :: later))
    (quiet : ∀ e ∈ later, e.touchesRecords = false) :
    let b := (start startedAt threads).afterAll (before ++ .finalize :: later)
    let earlier := (start startedAt threads).afterAll before
    (b.Countable → b.summary.Fits b.registered ∧
      b.summary.features.length + b.summary.featuresSkipped = b.results.registered.length) ∧
    (¬ b.Countable → b.results.totals = earlier.results.totals ∧
      b.summary.features = FeatureRow.ofRecords b.registered) := by
  intro b earlier
  have quiet_all : ∀ e ∈ ResultsEvent.finalize :: later, e.touchesRecords = false :=
    List.forall_mem_cons.mpr ⟨rfl, quiet⟩
  have split : b = earlier.afterAll (.finalize :: later) := List.foldl_append ..
  have countable_iff : b.Countable ↔ earlier.Countable := by
    rw [split, Countable, registered_afterAll quiet_all, Countable]
  constructor
  · intro countable
    have current : b.Current := by
      rw [split, afterAll_cons]
      exact (current_finalize (countable_iff.mp countable)).afterAll quiet
    have fits : b.summary.Fits b.registered := Summary.fits_ofResults rfl current
    have filed : b.Filed := Filed.afterAll (by simp [Filed, start, Results.start]) allowed
    exact ⟨fits, fits.skipped.trans filed.length_registered⟩
  · intro wrong
    refine ⟨?_, rfl⟩
    rw [split]
    exact totals_afterAll_of_not_countable (countable_iff.not.mp wrong) quiet_all

/-- A record that fails and is registered twice, one that passes and one in which nothing runs; the
run fails after the totals were computed. -/
def settledEvents : List ResultsEvent :=
  let record (name : String) : FeatureRecord := .ofFeature ⟨⟨[]⟩, name, []⟩
  [.registerNew (record "a"), .update 0 (.addScenario (.fail "s" 1 5 "broken" .epoch)),
    .update 0 (.setDuration 7), .register 0, .registerNew (record "b"), .registerNew (record "c"),
    .update 2 (.addScenario (.pass "t" 1 5 .epoch)), .update 2 (.setDuration 4)]

theorem settledEvents_fit :
    let b := (start .epoch 2).afterAll
      (settledEvents ++ .finalize :: [.fail (.panic "late"), .finish .epoch])
    b.Countable ∧ b.summary.Fits b.registered ∧
      b.summary.features.map FeatureRow.name = ["a", "a", "c"] ∧
      b.summary.failed.map FailedFeature.name = ["a", "a"] ∧ b.summary.featuresPassed = 1 ∧
      b.summary.featuresSkipped = 1 ∧ b.summary.totalTimeMs = 18 := by
  have allowed : (start .epoch 2).AllowsAll
      (settledEvents ++ .finalize :: [.fail (.panic "late"), .finish .epoch]) :=
    ⟨trivial, trivial, trivial, List.mem_singleton.mpr rfl, trivial, trivial, trivial, trivial,
      trivial, trivial, trivial, trivial⟩
  have fits := summary_fits .epoch 2 settledEvents [.fail (.panic "late"), .finish .epoch] allowed
    (by simp [ResultsEvent.touchesRecords])
  have countable : ((start .epoch 2).afterAll
      (settledEvents ++ .finalize :: [.fail (.panic "late"), .finish .epoch])).Countable := by
    decide +kernel
  exact ⟨countable, (fits.1 countable).1, rfl, rfl, rfl, rfl, rfl⟩

/-- Two records with half of the words each, the second one registered after the totals were
computed for the first. -/
theorem halvingEvents_misfit :
    let b := (start .epoch 1).afterAll halvingEvents
    (start .epoch 1).AllowsAll halvingEvents ∧ halvingEvents.getLast? = some .finalize ∧
      b.summary.features.length = 2 ∧ b.summary.featuresPassed + b.summary.featuresFailed = 1 ∧
      ¬ b.summary.Fits b.registered := by
  have counts : let b := (start .epoch 1).afterAll halvingEvents
      b.summary.features.length = 2 ∧ b.summary.featuresPassed + b.summary.featuresFailed = 1 := by
    decide +kernel
  refine ⟨⟨trivial, trivial, trivial, trivial, trivial⟩, rfl, counts.1, counts.2, fun fits => ?_⟩
  have features := fits.features
  rw [counts.1, counts.2] at features
  cases features

end ResultsBook

end FeatureBatch
