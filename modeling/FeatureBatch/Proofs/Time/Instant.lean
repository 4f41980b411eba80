import Mathlib.Data.UInt
import Mathlib.Tactic.Common
import FeatureBatch.Time.Instant

/-!
The order of instants, and where a span of time leads to from an instant. A span is counted in
nanoseconds from the beginning of the second in which it starts; a leap second is one more second
to pass for a span that starts in it, and none for any other. A span forward never leads back.
-/

namespace FeatureBatch.Instant

variable {t u v : Instant}

/-! ### The order -/

lemma before_eq_true :
    t.before u = true ↔ t.second < u.second ∨ t.second = u.second ∧ t.nanos < u.nanos := by
  simp [before]

lemma before_eq_false :
    t.before u = false ↔ u.second < t.second ∨ u.second = t.second ∧ u.nanos ≤ t.nanos := by
  rw [← Bool.not_eq_true, before_eq_true]
  omega

lemma eq_of_not_before (h : t.before u = false) (h' : u.before t = false) : t = u := by
  rw [before_eq_false] at h h'
  have second : t.second = u.second := by omega
  have nanos : t.nanos = u.nanos := by omega
  cases t
  cases u
  cases second
  cases nanos
  rfl

lemma not_before_trans (h : u.before t = false) (h' : v.before u = false) :
    v.before t = false := by
  rw [before_eq_false] at h h' ⊢
  omega

lemma not_before_total (t u : Instant) : u.before t = false ∨ t.before u = false := by
  rw [before_eq_false, before_eq_false]
  omega

/-! ### Spans -/

/-- Where a span of milliseconds leads to: the second, and the nanoseconds in it. -/
def landing (t : Instant) (ms : Int) : Int × Int :=
  let n := t.nanos + ms * 1000000
  if t.nanos < billion ∨ n < billion then (t.second + n / billion, n % billion)
  else if n < 2 * billion then (t.second, n)
  else (t.second + n / billion - 1, n % billion)

/-- The span leads to an instant: the second is one of those that instants have. -/
def Reaches (t : Instant) (ms : Int) : Prop :=
  -8334601228800 ≤ (t.landing ms).1 ∧ (t.landing ms).1 ≤ 8210266876799

instance (t : Instant) (ms : Int) : Decidable (t.Reaches ms) :=
  inferInstanceAs (Decidable (_ ∧ _))

lemma millis_split (ms : Int) :
    ms = ms.tdiv 1000 * 1000 + ms.tmod 1000 ∧ -1000 < ms.tmod 1000 ∧ ms.tmod 1000 < 1000 ∧
      (0 ≤ ms → 0 ≤ ms.tdiv 1000 ∧ 0 ≤ ms.tmod 1000) ∧
      (ms ≤ 0 → ms.tdiv 1000 ≤ 0 ∧ ms.tmod 1000 ≤ 0) := by
  have whole : ms = ms.tdiv 1000 * 1000 + ms.tmod 1000 := (Int.tdiv_mul_add_tmod ms 1000).symm
  rcases Int.le_total 0 ms with forward | back
  · have rest := Int.tmod_nonneg 1000 forward
    have less := Int.tmod_lt_of_pos ms (show (0 : Int) < 1000 by decide)
    omega
  · have rest := Int.tmod_nonneg 1000 (Int.neg_nonneg_of_nonpos back)
    have less := Int.tmod_lt_of_pos (-ms) (show (0 : Int) < 1000 by decide)
    rw [Int.neg_tmod] at rest less
    omega

lemma carry_eq (second n : Int) (more : -1000000000 < n) (less : n < 2000000000) :
    (if n < 0 then (second - 1, n + 1000000000)
      else if 1000000000 ≤ n then (second + 1, n - 1000000000) else (second, n)) =
      (second + n / 1000000000, n % 1000000000) := by
  split
  · rw [Prod.mk.injEq]
    omega
  · split <;> rw [Prod.mk.injEq] <;> omega

lemma shift_eq_landing (t : Instant) (ms : Int) : t.shift ms = t.landing ms := by
  obtain ⟨whole, more, less, forward, back⟩ := millis_split ms
  have small := t.nanos_lt
  have unit : ((1000000000 : Nat) : Int) = 1000000000 := rfl
  simp only [shift, landing, billion, unit]
  generalize ms.tdiv 1000 = seconds at *
  generalize ms.tmod 1000 = rest at *
  subst whole
  by_cases leap : (1000000000 : Int) ≤ t.nanos
  · rw [if_pos leap]
    split
    · -- past the end of the leap second
      rename_i leaves
      simp only [Bool.or_eq_true, Bool.and_eq_true, decide_eq_true_eq] at leaves
      rw [carry_eq _ _ (by omega) (by omega), if_neg (by omega), if_neg (by omega)]
      rw [Prod.mk.injEq]
      omega
    · rename_i stays
      simp only [Bool.or_eq_true, Bool.and_eq_true, decide_eq_true_eq] at stays
      split
      · -- back beyond its beginning
        rw [carry_eq _ _ (by omega) (by omega), if_pos (by omega)]
        rw [Prod.mk.injEq]
        omega
      · have none : seconds = 0 := by omega
        subst none
        split
        · rw [Prod.mk.injEq]
          omega
        · rw [if_pos (by omega), Prod.mk.injEq]
          omega
  · rw [if_neg leap, carry_eq _ _ (by omega) (by omega), if_pos (by omega), Prod.mk.injEq]
    omega

lemma landing_nanos (t : Instant) (ms : Int) :
    0 ≤ (t.landing ms).2 ∧ (t.landing ms).2 < 2000000000 := by
  have unit : ((1000000000 : Nat) : Int) = 1000000000 := rfl
  simp only [landing, billion, unit]
  split
  · dsimp only
    omega
  · split <;> dsimp only <;> omega

lemma ofParts?_eq_some {second : Int} {nanos : Nat} :
    ofParts? second nanos = some u ↔ u.second = second ∧ u.nanos = nanos := by
  unfold ofParts?
  split
  · rw [Option.some_inj]
    constructor
    · rintro rfl
      exact ⟨rfl, rfl⟩
    · rintro ⟨rfl, rfl⟩
      rfl
  · rename_i wrong
    refine ⟨nofun, ?_⟩
    rintro ⟨rfl, rfl⟩
    exact absurd ⟨u.first_le, u.le_last, u.nanos_lt⟩ wrong

lemma addMillis_eq_ok {ms : Int64} : t.addMillis ms = .ok u ↔
    ms ≠ Int64.minValue ∧ (u.second, (u.nanos : Int)) = t.landing ms.toInt := by
  have nonneg := (t.landing_nanos ms.toInt).1
  have cast : u.nanos = (t.landing ms.toInt).2.toNat ↔ (u.nanos : Int) = (t.landing ms.toInt).2 := by
    omega
  rw [addMillis, shift_eq_landing, Prod.ext_iff]
  split
  · rename_i least
    simp [least]
  · rename_i spans
    simp only [ne_eq, spans, not_false_eq_true, true_and]
    rw [← cast, ← ofParts?_eq_some]
    cases ofParts? (t.landing ms.toInt).1 (t.landing ms.toInt).2.toNat <;> simp

lemma exists_addMillis_eq_ok {ms : Int64} : (∃ u, t.addMillis ms = .ok u) ↔
    ms ≠ Int64.minValue ∧ t.Reaches ms.toInt := by
  constructor
  · rintro ⟨u, sum⟩
    obtain ⟨spans, parts⟩ := addMillis_eq_ok.mp sum
    refine ⟨spans, ?_⟩
    rw [Reaches, ← parts]
    exact ⟨u.first_le, u.le_last⟩
  · rintro ⟨spans, first, last⟩
    obtain ⟨nonneg, nanos⟩ := t.landing_nanos ms.toInt
    refine ⟨⟨(t.landing ms.toInt).1, (t.landing ms.toInt).2.toNat, first, last, by omega⟩, ?_⟩
    rw [addMillis_eq_ok]
    refine ⟨spans, Prod.ext rfl ?_⟩
    dsimp only
    omega

/-- **A span leads back exactly if it is negative.** -/
lemma before_iff_of_addMillis {ms : Int64} (sum : t.addMillis ms = .ok u) :
    u.before t = true ↔ ms.toInt < 0 := by
  have unit : ((1000000000 : Nat) : Int) = 1000000000 := rfl
  have parts := (addMillis_eq_ok.mp sum).2
  have small := t.nanos_lt
  rw [before_eq_true]
  simp only [landing, billion, unit] at parts
  generalize ms.toInt = span at *
  split at parts
  · rw [Prod.mk.injEq] at parts
    omega
  · split at parts <;> rw [Prod.mk.injEq] at parts <;> omega

/-! ### Spans that are words -/

lemma toInt_toInt64 (w : UInt64) :
    w.toInt64.toInt = if w.toNat < 2 ^ 63 then (w.toNat : Int) else w.toNat - 2 ^ 64 := by
  have word : w.toInt64.toInt = w.toBitVec.toInt := rfl
  have toNat : w.toBitVec.toNat = w.toNat := rfl
  rw [word, BitVec.toInt_eq_toNat_cond, toNat]
  split <;> split <;> omega

lemma toInt64_eq_minValue {w : UInt64} : w.toInt64 = Int64.minValue ↔ w.toNat = 2 ^ 63 := by
  have small := w.toNat_lt
  rw [← Int64.toInt_inj, Int64.toInt_minValue, toInt_toInt64]
  split <;> omega

lemma toInt_toInt64_of_lt {w : UInt64} (h : w.toNat < 2 ^ 63) : w.toInt64.toInt = w.toNat := by
  rw [toInt_toInt64, if_pos h]

lemma toInt_toInt64_neg_iff {w : UInt64} : w.toInt64.toInt < 0 ↔ 2 ^ 63 ≤ w.toNat := by
  have small := w.toNat_lt
  rw [toInt_toInt64]
  split <;> omega

end FeatureBatch.Instant
