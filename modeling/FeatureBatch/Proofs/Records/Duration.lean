import FeatureBatch.Records.ResultsBook
import FeatureBatch.Proofs.Records.Totals

/-!
The time of the totals against the durations that it sums up. It is their exact sum as long as that
is a word; otherwise computing the totals gives up.
-/

namespace FeatureBatch

namespace Results

/-- **The time is exact** where the totals are computed to the end, and they are exactly if the sum
of the durations of the records with a scenario is a word. -/
theorem time_exact_iff (r : Results) (store : RecordStore) :
    let executed := (store.select r.registered).filter fun record => !record.isEmpty
    let exact := (executed.map fun record => record.durationMs.toNat).sum
    (∀ r', r.finalize store = .ok r' → r'.totals.timeMs.toNat = exact) ∧
      ((∃ r', r.finalize store = .ok r') ↔ exact < 2 ^ 64) ∧
      (2 ^ 64 ≤ exact → r.finalize store = .error (.text "attempt to add with overflow")) := by
  intro executed exact
  have same : (durations (store.select r.registered)).sum = exact := rfl
  refine ⟨fun r' there => ?_, ?_, fun large => ?_⟩
  · obtain ⟨totals, counted, rfl⟩ := finalize_eq_ok.mp there
    obtain ⟨fits, rfl⟩ := Totals.ofRecords_eq_ok.mp counted
    rw [Totals.toNat_timeMs, Nat.mod_eq_of_lt fits, same]
  · rw [← same]
    constructor
    · rintro ⟨r', there⟩
      obtain ⟨totals, counted, -⟩ := finalize_eq_ok.mp there
      exact (Totals.ofRecords_eq_ok.mp counted).1
    · exact fun fits => ⟨_, finalize_eq_ok.mpr ⟨_, Totals.ofRecords_eq_ok.mpr ⟨fits, rfl⟩, rfl⟩⟩
  · exact finalize_eq_error.mpr (Totals.ofRecords_eq_error.mpr ⟨by omega, rfl⟩)

/-- Two records with half of the words each. -/
def halves : ResultsBook :=
  let record : FeatureRecord := .ofFeature ⟨⟨[]⟩, "f", []⟩
  let half := (record.addScenario (.pass "s" 1 0 .epoch)).setDuration (2 ^ 63)
  ⟨((start .epoch 1).register 0).register 1, ⟨[half, half]⟩⟩

theorem halves_overflow :
    (halves.registered.map fun record => record.durationMs.toNat).sum = 2 ^ 64 ∧
      halves.results.finalize halves.records = .error (.text "attempt to add with overflow") := by
  have durations : (halves.registered.map fun record => record.durationMs.toNat).sum = 2 ^ 64 := by
    decide +kernel
  refine ⟨durations, ?_⟩
  exact Results.finalize_eq_error.mpr (Totals.ofRecords_eq_error.mpr ⟨by decide +kernel, rfl⟩)

end Results

end FeatureBatch
