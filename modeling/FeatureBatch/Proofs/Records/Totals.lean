import Mathlib.Data.List.Forall2
import Mathlib.Data.List.Induction
import Mathlib.Data.UInt
import Mathlib.Tactic.Common
import FeatureBatch.Records.Results

/-!
What the totals of a list of records are: each count is a count or a sum over the list, and the
failed features are the failed records in their order. They are there exactly if the durations of
the records with a scenario sum up to a word: no sum on the way is larger than the whole. Lists whose
records have the same outcomes, one by one, have the same totals, up to the order of the messages of
a failed feature.
-/

namespace FeatureBatch

/-- The durations of the records that have a scenario. -/
def durations (records : List FeatureRecord) : List Nat :=
  (records.filter fun r => !r.isEmpty).map fun r => r.durationMs.toNat

lemma durations_append_singleton (rs : List FeatureRecord) (r : FeatureRecord) :
    durations (rs ++ [r]) = durations rs ++ if r.isEmpty then [] else [r.durationMs.toNat] := by
  by_cases empty : r.isEmpty <;> simp [durations, empty]

lemma toNat_sum (ns : List UInt64) : ns.sum.toNat = (ns.map UInt64.toNat).sum % 2 ^ 64 := by
  induction ns with
  | nil => rfl
  | cons n ns ih =>
    rw [List.map_cons, List.sum_cons, List.sum_cons, UInt64.toNat_add, ih]
    omega

namespace Totals

variable {t u : Totals} {r : FeatureRecord} {rs : List FeatureRecord}

/-- The entry of a record in the list of failed features. -/
def entry (r : FeatureRecord) : FailedFeature := ⟨r.qualifiedName, r.errorMessages⟩

/-- What is counted of a list of records. -/
def counted (rs : List FeatureRecord) : Totals where
  features := rs.countP fun r => !r.isEmpty
  scenarios := (rs.map FeatureRecord.scenarioCount).sum
  failures := (rs.map FeatureRecord.failedCount).sum
  skipped := rs.countP FeatureRecord.isEmpty
  timeMs := ((rs.filter fun r => !r.isEmpty).map FeatureRecord.durationMs).sum
  failed := (rs.filter FeatureRecord.isFailed).map entry

lemma toNat_timeMs (rs : List FeatureRecord) :
    (counted rs).timeMs.toNat = (durations rs).sum % 2 ^ 64 := by
  rw [counted, toNat_sum, List.map_map]
  rfl

lemma not_isFailed_of_isEmpty (h : r.isEmpty) : r.isFailed = false := by
  have : r.scenarios = [] := by simpa [FeatureRecord.isEmpty] using h
  simp [FeatureRecord.isFailed, FeatureRecord.failedCount, this]

lemma counts_of_isEmpty (h : r.isEmpty) : r.scenarioCount = 0 ∧ r.failedCount = 0 := by
  have : r.scenarios = [] := by simpa [FeatureRecord.isEmpty] using h
  simp [FeatureRecord.scenarioCount, FeatureRecord.failedCount, this]

lemma ofRecords_append_singleton (rs : List FeatureRecord) (r : FeatureRecord) :
    ofRecords (rs ++ [r]) = (ofRecords rs).bind (add · r) := by
  rw [ofRecords, List.foldlM_append]
  simp only [List.foldlM_cons, List.foldlM_nil, bind_pure]
  rfl

lemma addTimes_eq (a b : UInt64) :
    addTimes a b = if a.toNat + b.toNat < 2 ^ 64 then .ok (a + b) else .error overflow := rfl

lemma add_counted (rs : List FeatureRecord) (r : FeatureRecord) :
    (counted rs).add r =
      if r.isEmpty ∨ (counted rs).timeMs.toNat + r.durationMs.toNat < 2 ^ 64 then
        .ok (counted (rs ++ [r]))
      else .error overflow := by
  rw [add, addTimes_eq]
  by_cases empty : r.isEmpty
  · obtain ⟨scenarios, failures⟩ := counts_of_isEmpty empty
    rw [if_pos empty, if_pos (Or.intro_left _ empty)]
    simp [counted, empty, scenarios, failures, not_isFailed_of_isEmpty empty]
  · rw [if_neg empty]
    by_cases fits : (counted rs).timeMs.toNat + r.durationMs.toNat < 2 ^ 64
    · have either := Or.intro_right (r.isEmpty = true) fits
      rw [if_pos fits, if_pos either]
      by_cases failed : r.isFailed <;>
        simp [bind, Except.bind, counted, empty, failed, entry]
    · have neither := not_or.mpr ⟨empty, fits⟩
      rw [if_neg fits, if_neg neither]
      rfl

lemma ofRecords_eq (rs : List FeatureRecord) :
    ofRecords rs = if (durations rs).sum < 2 ^ 64 then .ok (counted rs) else .error overflow := by
  induction rs using List.reverseRecOn with
  | nil => rfl
  | append_singleton rs r ih =>
    have time := toNat_timeMs rs
    rw [ofRecords_append_singleton, ih, durations_append_singleton, List.sum_append]
    by_cases fits : (durations rs).sum < 2 ^ 64
    · rw [Nat.mod_eq_of_lt fits] at time
      rw [if_pos fits, Except.bind, add_counted, time]
      by_cases empty : r.isEmpty
      · simpa [empty] using fits
      · simp [empty]
    · -- what is no word does not become one by adding to it
      rw [if_neg fits, Except.bind, if_neg (by omega)]

lemma ofRecords_eq_ok : ofRecords rs = .ok t ↔ (durations rs).sum < 2 ^ 64 ∧ t = counted rs := by
  rw [ofRecords_eq]
  split <;> simp_all [eq_comm]

lemma ofRecords_eq_error {payload : PanicPayload} :
    ofRecords rs = .error payload ↔ ¬ (durations rs).sum < 2 ^ 64 ∧ payload = overflow := by
  rw [ofRecords_eq]
  split <;> simp_all [eq_comm]

lemma features_add_skipped (rs : List FeatureRecord) :
    (counted rs).features + (counted rs).skipped = rs.length := by
  have h := List.length_eq_countP_add_countP FeatureRecord.isEmpty (l := rs)
  simp only [counted, Bool.not_eq_true, Bool.decide_eq_false] at h ⊢
  omega

end Totals

/-! ### Records with the same outcomes -/

/-- What a scenario came to: what is said of its failure, if it failed. -/
def Scenario.outcome (s : Scenario) : Option String :=
  if s.failed then some s.failureMessage else none

namespace FeatureRecord

/-- Two records report the same, up to the order of their scenarios and when and where these ran. -/
structure SameOutcome (r s : FeatureRecord) : Prop where
  name : r.qualifiedName = s.qualifiedName
  scenarios : (r.scenarios.map Scenario.outcome).Perm (s.scenarios.map Scenario.outcome)
  duration : r.durationMs = s.durationMs

lemma failedCount_eq (r : FeatureRecord) :
    r.failedCount = (r.scenarios.map Scenario.outcome).countP Option.isSome := by
  rw [failedCount, List.countP_map]
  congr 1
  funext s
  cases h : s.failed <;> simp [Scenario.outcome, h]

lemma errorMessages_eq (r : FeatureRecord) :
    r.errorMessages = (r.scenarios.map Scenario.outcome).filterMap id := by
  unfold errorMessages
  induction r.scenarios with
  | nil => rfl
  | cons s ss ih => cases h : s.failed <;> simp [Scenario.outcome, h, ih]

variable {r s : FeatureRecord}

lemma SameOutcome.symm (h : SameOutcome r s) : SameOutcome s r :=
  ⟨h.name.symm, h.scenarios.symm, h.duration.symm⟩

lemma applyAll_qualifiedName (r : FeatureRecord) (us : List RecordUpdate) :
    (r.applyAll us).qualifiedName = r.qualifiedName := by
  induction us generalizing r with
  | nil => rfl
  | cons u us ih => rw [applyAll_cons, ih]; cases u <;> rfl

lemma applyAll_scenarios (r : FeatureRecord) (us : List RecordUpdate) :
    (r.applyAll us).scenarios = r.scenarios ++ us.filterMap RecordUpdate.scenario? := by
  induction us generalizing r with
  | nil => simp
  | cons u us ih =>
    rw [applyAll_cons, ih]
    cases u <;> simp [RecordUpdate.apply, RecordUpdate.scenario?, addScenario, setDuration,
      List.filterMap_cons]

lemma applyAll_durationMs (r : FeatureRecord) {us : List RecordUpdate}
    (adds : ∀ u ∈ us, u.scenario?.isSome) : (r.applyAll us).durationMs = r.durationMs := by
  induction us generalizing r with
  | nil => rfl
  | cons u us ih =>
    rw [applyAll_cons, ih (u.apply r) fun v hv => adds v (List.mem_cons_of_mem u hv)]
    have here := adds u List.mem_cons_self
    cases u with
    | setDuration ms => cases here
    | _ => rfl

lemma SameOutcome.of_perm (r : FeatureRecord) {us vs : List RecordUpdate} (perm : us.Perm vs)
    (adds : ∀ u ∈ us, u.scenario?.isSome) : SameOutcome (r.applyAll us) (r.applyAll vs) where
  name := by rw [applyAll_qualifiedName, applyAll_qualifiedName]
  scenarios := by
    rw [applyAll_scenarios, applyAll_scenarios]
    exact ((perm.filterMap _).append_left _).map _
  duration := by
    rw [applyAll_durationMs r adds,
      applyAll_durationMs r fun v hv => adds v (perm.mem_iff.mpr hv)]

lemma SameOutcome.scenarioCount (h : SameOutcome r s) : r.scenarioCount = s.scenarioCount := by
  simpa [FeatureRecord.scenarioCount] using h.scenarios.length_eq

lemma SameOutcome.isEmpty (h : SameOutcome r s) : r.isEmpty = s.isEmpty := by
  have hl : r.scenarios.length = s.scenarios.length := h.scenarioCount
  rw [Bool.eq_iff_iff]
  simp only [FeatureRecord.isEmpty, List.isEmpty_iff, ← List.length_eq_zero_iff, hl]

lemma SameOutcome.failedCount (h : SameOutcome r s) : r.failedCount = s.failedCount := by
  rw [failedCount_eq, failedCount_eq]
  exact h.scenarios.countP_eq _

lemma SameOutcome.isFailed (h : SameOutcome r s) : r.isFailed = s.isFailed := by
  simp [FeatureRecord.isFailed, h.failedCount]

lemma SameOutcome.errorMessages (h : SameOutcome r s) : r.errorMessages.Perm s.errorMessages := by
  rw [errorMessages_eq, errorMessages_eq]
  exact h.scenarios.filterMap _

end FeatureRecord

lemma durations_eq {rs ss : List FeatureRecord}
    (h : List.Forall₂ FeatureRecord.SameOutcome rs ss) : durations rs = durations ss := by
  induction h with
  | nil => rfl
  | @cons r s rs ss same _ ih =>
    simp only [durations] at ih ⊢
    rw [List.filter_cons, List.filter_cons, same.isEmpty]
    split
    · rw [List.map_cons, List.map_cons, same.duration, ih]
    · exact ih

/-- The two entries name the same feature and give the same messages, in any order. -/
def FailedFeature.SameMessages (f g : FailedFeature) : Prop :=
  f.name = g.name ∧ f.messages.Perm g.messages

namespace Totals

/-- Two totals are the same up to the order of the messages of each failed feature. -/
structure Agree (t u : Totals) : Prop where
  features : t.features = u.features
  scenarios : t.scenarios = u.scenarios
  failures : t.failures = u.failures
  skipped : t.skipped = u.skipped
  timeMs : t.timeMs = u.timeMs
  failed : List.Forall₂ FailedFeature.SameMessages t.failed u.failed

lemma Agree.counted {rs ss : List FeatureRecord}
    (h : List.Forall₂ FeatureRecord.SameOutcome rs ss) : Agree (counted rs) (counted ss) := by
  induction h with
  | nil => exact ⟨rfl, rfl, rfl, rfl, rfl, .nil⟩
  | @cons r s rs ss same _ ih =>
    obtain ⟨features, scenarios, failures, skipped, timeMs, failed⟩ := ih
    simp only [Totals.counted] at features scenarios failures skipped timeMs failed
    refine ⟨?_, ?_, ?_, ?_, ?_, ?_⟩ <;> simp only [Totals.counted]
    · rw [List.countP_cons, List.countP_cons, features, same.isEmpty]
    · rw [List.map_cons, List.map_cons, List.sum_cons, List.sum_cons, scenarios, same.scenarioCount]
    · rw [List.map_cons, List.map_cons, List.sum_cons, List.sum_cons, failures, same.failedCount]
    · rw [List.countP_cons, List.countP_cons, skipped, same.isEmpty]
    · rw [List.filter_cons, List.filter_cons, same.isEmpty]
      split
      · rw [List.map_cons, List.map_cons, List.sum_cons, List.sum_cons, timeMs, same.duration]
      · exact timeMs
    · rw [List.filter_cons, List.filter_cons, same.isFailed]
      split
      · exact .cons ⟨same.name, same.errorMessages⟩ failed
      · exact failed

theorem agree_ofRecords {rs ss : List FeatureRecord} {t u : Totals}
    (h : List.Forall₂ FeatureRecord.SameOutcome rs ss) (left : ofRecords rs = .ok t)
    (right : ofRecords ss = .ok u) : Agree t u := by
  rw [(ofRecords_eq_ok.mp left).2, (ofRecords_eq_ok.mp right).2]
  exact .counted h

end Totals

/-! ### Computing the totals of results -/

namespace Results

variable {r r' : Results} {store : RecordStore}

@[simp] lemma recordFailure_registered (r : Results) (error : SuiteError) :
    (r.recordFailure error).2.registered = r.registered := by
  unfold recordFailure
  split <;> rfl

lemma recordFailure_endedAt (r : Results) (error : SuiteError) :
    (r.recordFailure error).2.endedAt = r.endedAt := by
  unfold recordFailure
  split <;> rfl

lemma finalize_eq_ok : r.finalize store = .ok r' ↔
    ∃ totals, Totals.ofRecords (store.select r.registered) = .ok totals ∧
      r' = { r with totals } := by
  rw [finalize]
  cases Totals.ofRecords (store.select r.registered) with
  | error payload => simp [bind, Except.bind]
  | ok totals => simp [bind, Except.bind, eq_comm]

lemma finalize_eq_error {payload : PanicPayload} : r.finalize store = .error payload ↔
    Totals.ofRecords (store.select r.registered) = .error payload := by
  rw [finalize]
  cases Totals.ofRecords (store.select r.registered) <;> simp [bind, Except.bind]

end Results

end FeatureBatch
