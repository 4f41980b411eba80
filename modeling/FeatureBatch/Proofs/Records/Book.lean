import Mathlib.Algebra.Order.BigOperators.Group.List
import Mathlib.Algebra.Order.Ring.Nat
import FeatureBatch.Records.ResultsBook
import FeatureBatch.Proofs.Records.Totals

/-!
Results and their records in any course of events. The totals are those of the registered records as
they were when the totals were last computed to the end, and totals that are computed from records
are consistent; so they are at any time, whatever has become of the records since. Computing them
gives up where the sum of the times is no word, and then they are still those of an earlier time.
-/

namespace FeatureBatch

namespace Totals

/-- The totals fit together: no more fails than there is, and the failed features say one thing for
each failed scenario. -/
structure Balanced (t : Totals) : Prop where
  failures_le : t.failures ≤ t.scenarios
  failed_le : t.failed.length ≤ t.features
  failed_nil_iff : t.failed = [] ↔ t.failures = 0
  messages_ne : ∀ f ∈ t.failed, f.messages ≠ []
  messages_eq : (t.failed.map fun f => f.messages.length).sum = t.failures

lemma length_errorMessages (r : FeatureRecord) : r.errorMessages.length = r.failedCount := by
  simp [FeatureRecord.errorMessages, FeatureRecord.failedCount, List.countP_eq_length_filter]

lemma failedCount_le (r : FeatureRecord) : r.failedCount ≤ r.scenarioCount := List.countP_le_length

lemma isEmpty_eq_false_of_isFailed {r : FeatureRecord} (h : r.isFailed) : r.isEmpty = false := by
  by_contra empty
  rw [not_isFailed_of_isEmpty (by simpa using empty)] at h
  cases h

lemma balanced_counted (rs : List FeatureRecord) : (counted rs).Balanced where
  failures_le := List.sum_le_sum fun r _ => failedCount_le r
  failed_le := by
    simp only [counted, List.length_map, ← List.countP_eq_length_filter]
    exact List.countP_mono_left fun r _ failed => by simp [isEmpty_eq_false_of_isFailed failed]
  failed_nil_iff := by
    simp [counted, List.filter_eq_nil_iff, FeatureRecord.isFailed, List.sum_eq_zero_iff]
  messages_ne := by
    intro f mem
    obtain ⟨r, failed, rfl⟩ := List.mem_map.mp mem
    have pos : 0 < r.failedCount := by
      simpa [FeatureRecord.isFailed] using List.of_mem_filter failed
    rw [← List.length_pos_iff, entry, length_errorMessages]
    exact pos
  messages_eq := by
    simp only [counted, List.map_map, Function.comp_def, entry, length_errorMessages]
    induction rs with
    | nil => rfl
    | cons r rs ih =>
      by_cases failed : r.isFailed
      · simp [failed, ih]
      · have none : r.failedCount = 0 := by simpa [FeatureRecord.isFailed] using failed
        simp [failed, none, ih]

lemma balanced_ofRecords {rs : List FeatureRecord} {t : Totals} (h : ofRecords rs = .ok t) :
    t.Balanced := by
  rw [(ofRecords_eq_ok.mp h).2]
  exact balanced_counted rs

end Totals

namespace ResultsEvent

def isFinalize : ResultsEvent → Bool
  | .finalize => true
  | _ => false

/-- The reason that the event gives for a failure of the run. -/
def reason? : ResultsEvent → Option SuiteError
  | .fail reason => some reason
  | _ => none

/-- The end that the event stamps on the run. -/
def stamp? : ResultsEvent → Option Instant
  | .finish endedAt => some endedAt
  | _ => none

end ResultsEvent

namespace ResultsBook

variable {b : ResultsBook}

lemma afterAll_snoc (b : ResultsBook) (es : List ResultsEvent) (e : ResultsEvent) :
    b.afterAll (es ++ [e]) = (b.afterAll es).after e := by
  simp [afterAll, List.foldl_append]

/-- The times of the registered records sum up to a word, so that the totals can be computed. -/
def Countable (b : ResultsBook) : Prop := (durations b.registered).sum < 2 ^ 64

instance (b : ResultsBook) : Decidable b.Countable := inferInstanceAs (Decidable (_ < _))

lemma Countable.totals (h : b.Countable) :
    Totals.ofRecords b.registered = .ok (.counted b.registered) :=
  Totals.ofRecords_eq_ok.mpr ⟨h, rfl⟩

/-- **Computing the totals** changes nothing else, and nothing at all where it gives up. -/
lemma after_finalize (b : ResultsBook) : b.after .finalize =
    if b.Countable then ⟨{ b.results with totals := .counted b.registered }, b.records⟩ else b := by
  split
  · rename_i countable
    have there : b.results.finalize b.records = .ok { b.results with totals := .counted b.registered } :=
      Results.finalize_eq_ok.mpr ⟨_, countable.totals, rfl⟩
    rw [after, there]
  · rename_i wrong
    have none : b.results.finalize b.records = .error Totals.overflow :=
      Results.finalize_eq_error.mpr (Totals.ofRecords_eq_error.mpr ⟨wrong, rfl⟩)
    rw [after, none]

/-- The book after an event, and as it was when the totals were last computed to the end. -/
def track (p : ResultsBook × ResultsBook) (e : ResultsEvent) : ResultsBook × ResultsBook :=
  (p.1.after e, if e.isFinalize ∧ p.1.Countable then p.1.after e else p.2)

/-- The book as it was when the totals were last computed to the end, and at first if they never
were. -/
def lastCounted (b : ResultsBook) (events : List ResultsEvent) : ResultsBook :=
  (events.foldl track (b, b)).2

lemma foldl_track (b : ResultsBook) (events : List ResultsEvent) :
    events.foldl track (b, b) = (b.afterAll events, b.lastCounted events) := by
  refine Prod.ext ?_ rfl
  induction events using List.reverseRecOn with
  | nil => rfl
  | append_singleton es e ih =>
    rw [List.foldl_append, afterAll_snoc]
    exact congrArg (after · e) ih

lemma lastCounted_snoc (b : ResultsBook) (es : List ResultsEvent) (e : ResultsEvent) :
    b.lastCounted (es ++ [e]) =
      if e.isFinalize ∧ (b.afterAll es).Countable then b.afterAll (es ++ [e])
      else b.lastCounted es := by
  rw [lastCounted, List.foldl_append, foldl_track, afterAll_snoc]
  rfl

lemma lastCounted_eq (b : ResultsBook) {before later : List ResultsEvent}
    (countable : (b.afterAll before).Countable) (quiet : ∀ e ∈ later, e.isFinalize = false) :
    b.lastCounted (before ++ .finalize :: later) = b.afterAll (before ++ [.finalize]) := by
  induction later using List.reverseRecOn with
  | nil => rw [lastCounted_snoc, if_pos ⟨rfl, countable⟩]
  | append_singleton es e ih =>
    have other : e.isFinalize = false := quiet e (by simp)
    rw [← List.cons_append, ← List.append_assoc, lastCounted_snoc, if_neg (by simp [other])]
    exact ih fun f mem => quiet f (List.mem_append_left _ mem)

/-! ### The totals -/

lemma totals_after (b : ResultsBook) {e : ResultsEvent} (other : e.isFinalize = false) :
    (b.after e).results.totals = b.results.totals := by
  cases e with
  | finalize => cases other
  | fail reason =>
    simp only [after, Results.recordFailure]
    split <;> rfl
  | _ => rfl

/-- **The totals** are those of the registered records when they were last computed to the end. -/
lemma totals_afterAll (startedAt : Instant) (threads : UInt64) (events : List ResultsEvent) :
    Totals.ofRecords ((start startedAt threads).lastCounted events).registered =
      .ok ((start startedAt threads).afterAll events).results.totals := by
  induction events using List.reverseRecOn with
  | nil => rfl
  | append_singleton es e ih =>
    rw [lastCounted_snoc, afterAll_snoc]
    split
    · rename_i counts
      obtain ⟨kind, countable⟩ := counts
      cases e with
      | finalize =>
        rw [after_finalize, if_pos countable]
        exact countable.totals
      | _ => cases kind
    · rename_i other
      rw [ih]
      cases kind : e.isFinalize with
      | true =>
        cases e with
        | finalize => rw [after_finalize, if_neg fun countable => other ⟨rfl, countable⟩]
        | _ => cases kind
      | false => rw [totals_after _ kind]

/-! ### The registered records -/

/-- The event registers a record that is new, or one that is registered already. -/
def Allows (b : ResultsBook) : ResultsEvent → Prop
  | .register record => record ∈ b.results.registered
  | _ => True

/-- Every event of the course registers a record that is new, or one that is registered already. -/
def AllowsAll : ResultsBook → List ResultsEvent → Prop
  | _, [] => True
  | b, e :: es => b.Allows e ∧ (b.after e).AllowsAll es

lemma allowsAll_append {es fs : List ResultsEvent} (h : b.AllowsAll (es ++ fs)) :
    b.AllowsAll es ∧ (b.afterAll es).AllowsAll fs := by
  induction es generalizing b with
  | nil => exact ⟨trivial, h⟩
  | cons e es ih =>
    obtain ⟨first, rest⟩ := ih h.2
    exact ⟨⟨h.1, first⟩, rest⟩

/-- Whatever is registered is there. -/
def Filed (b : ResultsBook) : Prop := ∀ id ∈ b.results.registered, id < b.records.records.length

lemma Filed.after (h : b.Filed) {e : ResultsEvent} (allowed : b.Allows e) : (b.after e).Filed := by
  cases e with
  | registerNew record =>
    intro id mem
    have length : (b.after (.registerNew record)).records.records.length =
        b.records.records.length + 1 := by
      simp [ResultsBook.after, RecordStore.add]
    rw [length]
    rcases List.mem_append.mp mem with before | here
    · exact Nat.lt_succ_of_lt (h id before)
    · rw [List.mem_singleton.mp here]
      exact Nat.lt_succ_self _
  | register record =>
    intro id mem
    rcases List.mem_append.mp mem with before | here
    · exact h id before
    · rw [List.mem_singleton.mp here]
      exact h record allowed
  | update record change =>
    intro id mem
    have length : (b.after (.update record change)).records.records.length =
        b.records.records.length := by
      simp [ResultsBook.after, RecordStore.update]
    rw [length]
    exact h id mem
  | finalize =>
    rw [after_finalize]
    split <;> exact h
  | finish endedAt => exact h
  | fail reason =>
    have same : (b.results.recordFailure reason).2.registered = b.results.registered := by
      rw [Results.recordFailure]
      split <;> rfl
    intro id mem
    exact h id (same ▸ mem)

lemma Filed.afterAll (h : b.Filed) {events : List ResultsEvent} (allowed : b.AllowsAll events) :
    (b.afterAll events).Filed := by
  induction events generalizing b with
  | nil => exact h
  | cons e es ih => exact ih (h.after allowed.1) allowed.2

lemma Filed.length_registered (h : b.Filed) :
    b.registered.length = b.results.registered.length := by
  have all : ∀ ids : List RecordId, (∀ id ∈ ids, id < b.records.records.length) →
      (b.records.select ids).length = ids.length := by
    intro ids
    induction ids with
    | nil => exact fun _ => rfl
    | cons id ids ih =>
      intro there
      obtain ⟨record, here⟩ : ∃ record, b.records.get? id = some record :=
        ⟨_, List.getElem?_eq_getElem (there id List.mem_cons_self)⟩
      have rest := ih fun j mem => there j (List.mem_cons_of_mem id mem)
      simp only [RecordStore.select, List.filterMap_cons, here, List.length_cons] at rest ⊢
      rw [rest]
  exact all _ h

lemma Filed.lastCounted (h : b.Filed) {events : List ResultsEvent} (allowed : b.AllowsAll events) :
    (b.lastCounted events).Filed := by
  induction events using List.reverseRecOn with
  | nil => exact h
  | append_singleton es e ih =>
    rw [lastCounted_snoc]
    split
    · exact h.afterAll allowed
    · exact ih (allowsAll_append allowed).1

/-! ### The failure reason and the end -/

lemma failureReason_afterAll (startedAt : Instant) (threads : UInt64) (events : List ResultsEvent) :
    ((start startedAt threads).afterAll events).results.failureReason =
      events.findSome? ResultsEvent.reason? := by
  induction events using List.reverseRecOn with
  | nil => rfl
  | append_singleton es e ih =>
    rw [afterAll_snoc, List.findSome?_append, ← ih]
    cases e with
    | fail reason =>
      simp only [after, Results.recordFailure]
      split
      · rename_i known
        simp [known]
      · rename_i unknown
        simp [unknown, ResultsEvent.reason?]
    | finalize =>
      rw [after_finalize]
      split <;> simp [ResultsEvent.reason?]
    | _ => simp [after, Results.register, Results.finish, ResultsEvent.reason?]

lemma endedAt_afterAll (startedAt : Instant) (threads : UInt64) (events : List ResultsEvent) :
    ((start startedAt threads).afterAll events).results.endedAt =
      (events.filterMap ResultsEvent.stamp?).getLast? := by
  induction events using List.reverseRecOn with
  | nil => rfl
  | append_singleton es e ih =>
    rw [afterAll_snoc, List.filterMap_append]
    cases e with
    | finish endedAt => simp [after, Results.finish, ResultsEvent.stamp?]
    | fail reason =>
      have same : (((start startedAt threads).afterAll es).after (.fail reason)).results.endedAt =
          ((start startedAt threads).afterAll es).results.endedAt := by
        simp only [after, Results.recordFailure]
        split <;> rfl
      simpa [ResultsEvent.stamp?, same] using ih
    | finalize =>
      rw [after_finalize]
      split <;> simpa [ResultsEvent.stamp?] using ih
    | _ => simpa [after, Results.register, ResultsEvent.stamp?] using ih

/-! ### The main result -/

/-- **Results keep consistent**, in every course of events. The totals fit together, so that nothing
is subtracted from less. They are those of the records that were registered when they were last
computed to the end, each of which counts as a feature or as skipped; that was the last time that
they were computed if the times of the registered records summed up to a word then. Totals change
only where they are computed: then they depend on nothing but the registered records, computing them
again changes nothing, and where the sum of the times is no word nothing changes at all. The first
failure reason and the last end stamp stay. -/
theorem results_consistent (startedAt : Instant) (threads : UInt64) (events : List ResultsEvent)
    (allowed : (start startedAt threads).AllowsAll events) :
    let b := (start startedAt threads).afterAll events
    let last := (start startedAt threads).lastCounted events
    let t := b.results.totals
    t.Balanced ∧
      b.results.passedCount + t.failures = t.scenarios ∧
      b.summary.featuresPassed + t.failed.length = t.features ∧
      t.features + t.skipped = last.results.registered.length ∧
      Totals.ofRecords last.registered = .ok t ∧
      (∀ before later, events = before ++ .finalize :: later →
        (∀ e ∈ later, e.isFinalize = false) →
        ((start startedAt threads).afterAll before).Countable →
        last = (start startedAt threads).afterAll (before ++ [.finalize])) ∧
      (∀ e, e.isFinalize = false → (b.after e).results.totals = t) ∧
      (b.Countable →
        Totals.ofRecords b.registered = .ok (b.after .finalize).results.totals ∧
        ∀ earlier, ResultsBook.after ⟨{ b.results with totals := earlier }, b.records⟩ .finalize =
          b.after .finalize) ∧
      (¬ b.Countable → b.results.finalize b.records = .error Totals.overflow ∧
        b.after .finalize = b) ∧
      (b.after .finalize).after .finalize = b.after .finalize ∧
      b.results.failureReason = events.findSome? ResultsEvent.reason? ∧
      b.results.endedAt = (events.filterMap ResultsEvent.stamp?).getLast? := by
  intro b last t
  have totals : Totals.ofRecords last.registered = .ok t := totals_afterAll startedAt threads events
  have balanced : t.Balanced := Totals.balanced_ofRecords totals
  have filed : last.Filed :=
    Filed.lastCounted (by simp [Filed, start, Results.start]) allowed
  have counted : t.features + t.skipped = last.results.registered.length := by
    rw [(Totals.ofRecords_eq_ok.mp totals).2, Totals.features_add_skipped, filed.length_registered]
  have passed : b.results.passedCount + t.failures = t.scenarios :=
    Nat.sub_add_cancel balanced.failures_le
  have features : b.summary.featuresPassed + t.failed.length = t.features :=
    Nat.sub_add_cancel balanced.failed_le
  refine ⟨balanced, passed, features, counted, totals, ?_, fun _ other => totals_after b other, ?_,
    ?_, ?_, failureReason_afterAll .., endedAt_afterAll ..⟩
  · rintro before later rfl quiet countable
    exact lastCounted_eq _ countable quiet
  · intro countable
    refine ⟨?_, fun earlier => ?_⟩
    · rw [after_finalize, if_pos countable]
      exact countable.totals
    · rw [after_finalize, after_finalize]
      exact (if_pos countable).trans (if_pos countable).symm
  · intro wrong
    refine ⟨Results.finalize_eq_error.mpr (Totals.ofRecords_eq_error.mpr ⟨wrong, rfl⟩), ?_⟩
    rw [after_finalize, if_neg wrong]
  · rw [after_finalize b]
    split
    · rename_i countable
      rw [after_finalize]
      exact if_pos countable
    · rename_i wrong
      rw [after_finalize, if_neg wrong]

/-- A record that is registered twice and goes on changing after the totals were computed, a second
one in which nothing runs, and two failures of the run. -/
def driftingEvents : List ResultsEvent :=
  let failing : Scenario := .fail "a" 1 5 "broken" .epoch
  let record : FeatureRecord := .ofFeature ⟨⟨[]⟩, "f", []⟩
  [.registerNew record, .update 0 (.addScenario failing), .register 0, .registerNew record, .finalize,
    .update 0 (.addThenPanic failing), .fail (.hook "first" "a"), .fail (.panic "second"),
    .finish .epoch, .update 0 (.setDuration 7)]

theorem driftingEvents_consistent :
    let b := (start .epoch 2).afterAll driftingEvents
    (start .epoch 2).AllowsAll driftingEvents ∧ b.results.totals.Balanced ∧
      b.results.totals.failures = 2 ∧ b.results.totals.features + b.results.totals.skipped = 3 ∧
      (b.after .finalize).results.totals.failures = 4 ∧
      b.results.failureReason = some (.hook "first" "a") ∧ b.results.endedAt = some .epoch := by
  have allowed : (start .epoch 2).AllowsAll driftingEvents :=
    ⟨trivial, trivial, List.mem_singleton.mpr rfl, trivial, trivial, trivial, trivial, trivial,
      trivial, trivial, trivial⟩
  have consistent := results_consistent .epoch 2 driftingEvents allowed
  obtain ⟨balanced, -, -, counted, -, -, -, -, -, -, reason, ended⟩ := consistent
  exact ⟨allowed, balanced, rfl, counted, rfl, reason, ended⟩

/-- Two records with half of the words each, and totals that are computed after each. -/
def halvingEvents : List ResultsEvent :=
  let record : FeatureRecord := .ofFeature ⟨⟨[]⟩, "f", []⟩
  let half := (record.addScenario (.pass "s" 1 0 .epoch)).setDuration (2 ^ 63)
  [.registerNew half, .finalize, .registerNew half, .finalize]

theorem halvingEvents_count_one :
    let b := (start .epoch 1).afterAll halvingEvents
    (start .epoch 1).AllowsAll halvingEvents ∧ halvingEvents.getLast? = some .finalize ∧
      b.results.registered.length = 2 ∧ b.results.totals.features + b.results.totals.skipped = 1 := by
  refine ⟨⟨trivial, trivial, trivial, trivial, trivial⟩, rfl, ?_⟩
  decide +kernel

end ResultsBook

end FeatureBatch
