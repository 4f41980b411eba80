import Mathlib.Data.List.Forall2
import Mathlib.Data.List.Pairwise
import Mathlib.Tactic.Common
import FeatureBatch.Records.ResultsBook
import FeatureBatch.Proofs.Time.Instant

/-!
The timeline against the scenarios that it shows. A scenario has its place: the number of its record
in the order of submission, and its own number in the record. Where every scenario has an end, the
timeline shows each place once, in the order of the starts, and places with the same start in their
own order. A scenario has no end if its duration is `2 ^ 63` or its end is no instant; one that is
longer than that ends before it starts.
-/

namespace FeatureBatch

/-! ### Lists -/

lemma mapM_eq_ok {ε α β : Type} {f : α → Except ε β} {xs : List α} {ys : List β} :
    xs.mapM f = .ok ys ↔ List.Forall₂ (fun x y => f x = .ok y) xs ys := by
  induction xs generalizing ys with
  | nil => cases ys <;> simp [pure, Except.pure]
  | cons x xs ih =>
    rw [List.mapM_cons]
    cases here : f x with
    | error e => cases ys <;> simp [bind, Except.bind, here]
    | ok y =>
      cases rest : xs.mapM f with
      | error e => cases ys <;> simp [bind, Except.bind, here, rest, ← ih]
      | ok zs => cases ys <;> simp [bind, Except.bind, pure, Except.pure, here, rest, ← ih]

lemma forall₂_mergeSort {α β : Type} {R : α → β → Prop} {r : α → α → Bool} {s : β → β → Bool}
    (alike : ∀ a a' b b', R a b → R a' b' → r a a' = s b b') {xs : List α} {ys : List β}
    (h : List.Forall₂ R xs ys) : List.Forall₂ R (xs.mergeSort r) (ys.mergeSort s) := by
  obtain ⟨length, related⟩ := List.forall₂_iff_zip.mp h
  let pairs := (xs.zip ys).mergeSort fun p q => r p.1 q.1
  have left : pairs.map Prod.fst = xs.mergeSort r := by
    rw [List.map_mergeSort (f := Prod.fst) (s := r) fun _ _ _ _ => rfl,
      List.map_fst_zip (Nat.le_of_eq length)]
  have right : pairs.map Prod.snd = ys.mergeSort s := by
    rw [List.map_mergeSort (f := Prod.snd) (s := s) fun p hp q hq =>
      alike _ _ _ _ (related hp) (related hq), List.map_snd_zip (Nat.le_of_eq length.symm)]
  rw [← left, ← right, List.forall₂_map_left_iff, List.forall₂_map_right_iff, List.forall₂_same]
  exact fun p mem => related (List.mem_mergeSort.mp mem)

lemma exists_forall₂ {α β : Type} {R : α → β → Prop} {xs : List α} :
    (∃ ys, List.Forall₂ R xs ys) ↔ ∀ x ∈ xs, ∃ y, R x y := by
  induction xs with
  | nil => simp
  | cons x xs ih =>
    rw [List.forall_mem_cons, ← ih]
    constructor
    · rintro ⟨ys, h⟩
      cases h with
      | cons here rest => exact ⟨⟨_, here⟩, _, rest⟩
    · rintro ⟨⟨y, here⟩, ys, rest⟩
      exact ⟨y :: ys, .cons here rest⟩

lemma exists_of_forall₂ {α β : Type} {R : α → β → Prop} {xs : List α} {ys : List β}
    (h : List.Forall₂ R xs ys) : ∀ x ∈ xs, ∃ y ∈ ys, R x y := by
  induction h with
  | nil => exact nofun
  | @cons x y xs ys here _ ih =>
    rw [List.forall_mem_cons]
    refine ⟨⟨y, List.mem_cons_self, here⟩, fun x' mem => ?_⟩
    obtain ⟨y', mem', related⟩ := ih x' mem
    exact ⟨y', List.mem_cons_of_mem y mem', related⟩

lemma pairwise_zipIdx {α : Type} (xs : List α) :
    xs.zipIdx.Pairwise fun p q => p.2 < q.2 := by
  have numbers := List.pairwise_lt_range' (s := 0) (n := xs.length) 1
  rw [← List.zipIdx_map_snd, List.pairwise_map] at numbers
  exact numbers

/-! ### Scenarios in their places -/

/-- A scenario of a feature, with the number of its record and its own number in the record. -/
structure PlacedScenario where
  record : Nat
  number : Nat
  feature : String
  scenario : Scenario

namespace PlacedScenario

/-- The place is that of a scenario in these records. -/
def IsOf (p : PlacedScenario) (records : List FeatureRecord) : Prop :=
  ∃ r, records[p.record]? = some r ∧ r.scenarios[p.number]? = some p.scenario ∧
    r.qualifiedName = p.feature

/-- The first place is in an earlier record, or earlier in the same one. -/
def IsBefore (p q : PlacedScenario) : Prop :=
  p.record < q.record ∨ p.record = q.record ∧ p.number < q.number

/-- The first scenario starts earlier, or at the same time in an earlier place. -/
def Precedes (p q : PlacedScenario) : Prop :=
  p.scenario.startedAt.before q.scenario.startedAt = true ∨
    p.scenario.startedAt = q.scenario.startedAt ∧ p.IsBefore q

lemma Precedes.not_before {p q : PlacedScenario} (h : p.Precedes q) :
    q.scenario.startedAt.before p.scenario.startedAt = false := by
  rw [← Bool.not_eq_true, Instant.before_eq_true]
  obtain earlier | ⟨same, -⟩ := h
  · rw [Instant.before_eq_true] at earlier
    omega
  · rw [same]
    omega

lemma Precedes.ne {p q : PlacedScenario} (h : p.Precedes q) : p ≠ q := by
  rintro rfl
  obtain earlier | ⟨-, place⟩ := h
  · rw [Instant.before_eq_true] at earlier
    omega
  · rw [IsBefore] at place
    omega

/-- What the timeline shows of the scenario. -/
structure ShownBy (p : PlacedScenario) (e : TimelineEntry) : Prop where
  feature : e.feature = p.feature
  scenario : e.scenario = p.scenario.name
  thread : e.thread = p.scenario.thread
  startedAt : e.startedAt = p.scenario.startedAt
  failed : e.failed = p.scenario.failed
  endedAt : p.scenario.startedAt.addMillis p.scenario.durationMs.toInt64 = .ok e.endedAt

lemma ofScenario_eq_ok {p : PlacedScenario} {e : TimelineEntry} :
    TimelineEntry.ofScenario p.feature p.scenario = .ok e ↔ p.ShownBy e := by
  constructor
  · intro shown
    rw [TimelineEntry.ofScenario] at shown
    cases ends : p.scenario.startedAt.addMillis p.scenario.durationMs.toInt64 with
    | error _ => simp [ends, bind, Except.bind] at shown
    | ok endedAt =>
      simp only [ends, bind, Except.bind, Except.ok.injEq] at shown
      subst shown
      exact ⟨rfl, rfl, rfl, rfl, rfl, ends⟩
  · rintro ⟨feature, scenario, thread, startedAt, failed, ends⟩
    obtain ⟨_, _, _, _, _, _⟩ := e
    simp only at feature scenario thread startedAt failed ends
    subst feature scenario thread startedAt failed
    rw [TimelineEntry.ofScenario, ends]
    rfl

/-- The scenarios of the records in their places. -/
def ofRecords (records : List FeatureRecord) : List PlacedScenario :=
  records.zipIdx.flatMap fun (r, i) => r.scenarios.zipIdx.map fun (s, j) =>
    ⟨i, j, r.qualifiedName, s⟩

lemma mem_ofRecords {p : PlacedScenario} {records : List FeatureRecord} :
    p ∈ ofRecords records ↔ p.IsOf records := by
  obtain ⟨i, j, feature, s⟩ := p
  simp only [ofRecords, IsOf, List.mem_flatMap, List.mem_map, Prod.exists,
    List.mk_mem_zipIdx_iff_getElem?, PlacedScenario.mk.injEq]
  constructor
  · rintro ⟨r, i, here, s, j, there, rfl, rfl, rfl, rfl⟩
    exact ⟨r, here, there, rfl⟩
  · rintro ⟨r, here, there, rfl⟩
    exact ⟨r, i, here, s, j, there, rfl, rfl, rfl, rfl⟩

lemma pairwise_ofRecords (records : List FeatureRecord) :
    (ofRecords records).Pairwise IsBefore := by
  rw [ofRecords, List.pairwise_flatMap]
  constructor
  · rintro ⟨r, i⟩ -
    rw [List.pairwise_map]
    exact (pairwise_zipIdx r.scenarios).imp fun less => .inr ⟨rfl, less⟩
  · refine (pairwise_zipIdx records).imp ?_
    rintro ⟨r, i⟩ ⟨r', i'⟩ less p here q there
    obtain ⟨_, -, rfl⟩ := List.mem_map.mp here
    obtain ⟨_, -, rfl⟩ := List.mem_map.mp there
    exact .inl less

/-! ### In the order of the starts -/

/-- Whether the first may stand before the second by their starts. -/
def startsFirst (p q : PlacedScenario) : Bool :=
  !q.scenario.startedAt.before p.scenario.startedAt

variable {p q : PlacedScenario} {ps : List PlacedScenario}

lemma startsFirst_trans (p q u : PlacedScenario) (h : p.startsFirst q = true)
    (h' : q.startsFirst u = true) : p.startsFirst u = true := by
  simp only [startsFirst, Bool.not_eq_true'] at h h' ⊢
  exact Instant.not_before_trans h h'

lemma startsFirst_total (p q : PlacedScenario) : (p.startsFirst q || q.startsFirst p) = true := by
  simp only [startsFirst, Bool.or_eq_true, Bool.not_eq_true']
  exact Instant.not_before_total ..

lemma filter_mergeSort (ps : List PlacedScenario) (t : Instant) :
    (ps.mergeSort startsFirst).filter (·.scenario.startedAt = t) =
      ps.filter (·.scenario.startedAt = t) := by
  have same : (ps.filter (·.scenario.startedAt = t)).Pairwise fun p q => p.startsFirst q = true := by
    rw [List.pairwise_filter]
    refine List.pairwise_of_forall fun p q hp hq => ?_
    have starts : p.scenario.startedAt = q.scenario.startedAt :=
      (of_decide_eq_true hp).trans (of_decide_eq_true hq).symm
    simp [startsFirst, starts, Instant.before]
  have kept := (List.sublist_mergeSort startsFirst_trans startsFirst_total same
    List.filter_sublist).filter (·.scenario.startedAt = t)
  rw [List.filter_filter] at kept
  simp only [Bool.and_self] at kept
  exact (kept.eq_of_length ((List.mergeSort_perm ps startsFirst).filter _).length_eq.symm).symm

lemma pairwise_mergeSort (h : ps.Pairwise IsBefore) :
    (ps.mergeSort startsFirst).Pairwise Precedes := by
  rw [List.pairwise_iff_forall_sublist]
  intro p q sub
  have starts := List.pairwise_iff_forall_sublist.mp
    (List.pairwise_mergeSort startsFirst_trans startsFirst_total ps) sub
  by_cases earlier : p.scenario.startedAt.before q.scenario.startedAt = true
  · exact .inl earlier
  -- Two places that start at one time are in the order that they have among all of that start.
  · have same : p.scenario.startedAt = q.scenario.startedAt :=
      Instant.eq_of_not_before (by simpa using earlier) (by simpa [startsFirst] using starts)
    have both := sub.filter (·.scenario.startedAt = q.scenario.startedAt)
    simp only [filter_mergeSort, List.filter_cons, same, decide_true, if_true,
      List.filter_nil] at both
    exact .inr ⟨same, List.pairwise_iff_forall_sublist.mp h (both.trans List.filter_sublist)⟩

end PlacedScenario

/-! ### The timeline -/

lemma timelineEntries_cons (r : FeatureRecord) (rs : List FeatureRecord) :
    timelineEntries (r :: rs) =
      (r.scenarios.mapM (TimelineEntry.ofScenario r.qualifiedName)).bind fun row =>
        (timelineEntries rs).bind fun rest => .ok (row ++ rest) := by
  rw [timelineEntries, List.mapM_cons]
  cases r.scenarios.mapM (TimelineEntry.ofScenario r.qualifiedName) with
  | error e => rfl
  | ok row =>
    rw [timelineEntries]
    cases rs.mapM fun r => r.scenarios.mapM (TimelineEntry.ofScenario r.qualifiedName) with
    | error e => rfl
    | ok rows => rfl

lemma timelineEntries_filter (rs : List FeatureRecord) :
    timelineEntries (rs.filter fun r => !r.isEmpty) = timelineEntries rs := by
  induction rs with
  | nil => rfl
  | cons r rs ih =>
    by_cases empty : r.isEmpty
    · have none : r.scenarios = [] := by simpa [FeatureRecord.isEmpty] using empty
      rw [List.filter_cons_of_neg (by simp [empty]), ih, timelineEntries_cons, none]
      cases timelineEntries rs <;> rfl
    · rw [List.filter_cons_of_pos (by simpa using empty), timelineEntries_cons, timelineEntries_cons,
        ih]

lemma mapM_ofScenario (r : FeatureRecord) (i : Nat) :
    (r.scenarios.zipIdx.map fun (s, j) => PlacedScenario.mk i j r.qualifiedName s).mapM
        (fun p => TimelineEntry.ofScenario p.feature p.scenario) =
      r.scenarios.mapM (TimelineEntry.ofScenario r.qualifiedName) := by
  rw [List.mapM_map]
  conv_rhs => rw [← List.zipIdx_map_fst 0 r.scenarios, List.mapM_map]
  rfl

lemma timelineEntries_eq (rs : List FeatureRecord) :
    timelineEntries rs = (PlacedScenario.ofRecords rs).mapM fun p =>
      TimelineEntry.ofScenario p.feature p.scenario := by
  have step : ∀ n, timelineEntries rs =
      ((rs.zipIdx n).flatMap fun (r, i) => r.scenarios.zipIdx.map fun (s, j) =>
        PlacedScenario.mk i j r.qualifiedName s).mapM fun p =>
          TimelineEntry.ofScenario p.feature p.scenario := by
    induction rs with
    | nil => exact fun _ => rfl
    | cons r rs ih =>
      intro n
      rw [timelineEntries_cons, List.zipIdx_cons, List.flatMap_cons, List.mapM_append,
        ← ih (n + 1), mapM_ofScenario]
      rfl
  exact step 0

namespace Scenario

/-- The scenario has an end: its duration has an opposite when it is read with a sign, and leads to
an instant. -/
def HasEnd (s : Scenario) : Prop :=
  s.durationMs.toNat ≠ 2 ^ 63 ∧ s.startedAt.Reaches s.durationMs.toInt64.toInt

/-- The scenario ends in time: its duration is less than `2 ^ 63`, and leads to an instant. -/
def EndsInTime (s : Scenario) : Prop :=
  s.durationMs.toNat < 2 ^ 63 ∧ s.startedAt.Reaches s.durationMs.toNat

instance (s : Scenario) : Decidable s.EndsInTime := inferInstanceAs (Decidable (_ ∧ _))

lemma hasEnd_iff {s : Scenario} :
    s.HasEnd ↔ ∃ u, s.startedAt.addMillis s.durationMs.toInt64 = .ok u := by
  rw [HasEnd, Instant.exists_addMillis_eq_ok, Ne, Ne, Instant.toInt64_eq_minValue]

lemma endsInTime_iff {s : Scenario} :
    s.EndsInTime ↔ s.HasEnd ∧ s.durationMs.toNat < 2 ^ 63 := by
  rw [EndsInTime, HasEnd]
  constructor
  · rintro ⟨short, reaches⟩
    rw [Instant.toInt_toInt64_of_lt short]
    exact ⟨⟨by omega, reaches⟩, short⟩
  · rintro ⟨⟨-, reaches⟩, short⟩
    rw [Instant.toInt_toInt64_of_lt short] at reaches
    exact ⟨short, reaches⟩

end Scenario

namespace PlacedScenario

variable {p : PlacedScenario} {e : TimelineEntry} {records : List FeatureRecord}

lemma exists_shownBy : (∃ e, p.ShownBy e) ↔ p.scenario.HasEnd := by
  rw [Scenario.hasEnd_iff]
  constructor
  · rintro ⟨e, shown⟩
    exact ⟨_, shown.endedAt⟩
  · rintro ⟨u, ends⟩
    exact ⟨⟨p.feature, p.scenario.name, p.scenario.thread, p.scenario.startedAt, u,
      p.scenario.failed⟩, rfl, rfl, rfl, rfl, rfl, ends⟩

lemma ShownBy.ends_before_iff (shown : p.ShownBy e) :
    e.endedAt.before e.startedAt = true ↔ 2 ^ 63 ≤ p.scenario.durationMs.toNat := by
  rw [shown.startedAt, Instant.before_iff_of_addMillis shown.endedAt, Instant.toInt_toInt64_neg_iff]

lemma forall_isOf {P : Scenario → Prop} :
    (∀ p : PlacedScenario, p.IsOf records → P p.scenario) ↔
      ∀ record ∈ records, ∀ s ∈ record.scenarios, P s := by
  constructor
  · intro all record mem s there
    obtain ⟨i, here⟩ := List.getElem?_of_mem mem
    obtain ⟨j, inside⟩ := List.getElem?_of_mem there
    exact all ⟨i, j, record.qualifiedName, s⟩ ⟨record, here, inside, rfl⟩
  · rintro all p ⟨record, here, inside, -⟩
    exact all record (List.mem_of_getElem? here) _ (List.mem_of_getElem? inside)

end PlacedScenario

namespace Results

open PlacedScenario

variable {r : Results} {store : RecordStore} {entries : List TimelineEntry}

lemma timeline_eq_ok : r.timeline store = .ok entries ↔
    ∃ rows, List.Forall₂ ShownBy (ofRecords (store.select r.registered)) rows ∧
      entries = rows.mergeSort fun a b => !b.startedAt.before a.startedAt := by
  have rows_iff : ∀ rows, timelineEntries (r.executed store) = .ok rows ↔
      List.Forall₂ ShownBy (ofRecords (store.select r.registered)) rows := by
    intro rows
    rw [executed, timelineEntries_filter, timelineEntries_eq, mapM_eq_ok]
    simp only [ofScenario_eq_ok]
  simp only [← rows_iff]
  rw [timeline]
  cases timelineEntries (r.executed store) with
  | error e => simp [bind, Except.bind]
  | ok rows => simp [bind, Except.bind, eq_comm]

lemma exists_timeline : (∃ entries, r.timeline store = .ok entries) ↔
    ∀ record ∈ store.select r.registered, ∀ s ∈ record.scenarios, s.HasEnd := by
  rw [← forall_isOf]
  simp only [← mem_ofRecords, ← exists_shownBy]
  rw [← exists_forall₂]
  constructor
  · rintro ⟨entries, there⟩
    obtain ⟨rows, shown, -⟩ := timeline_eq_ok.mp there
    exact ⟨rows, shown⟩
  · rintro ⟨rows, shown⟩
    exact ⟨_, timeline_eq_ok.mpr ⟨rows, shown, rfl⟩⟩

/-- **What a timeline shows**: each place once, in the order of the starts. -/
lemma shows_of_timeline (there : r.timeline store = .ok entries) :
    ∃ ps, (∀ p, p ∈ ps ↔ p.IsOf (store.select r.registered)) ∧ ps.Pairwise Precedes ∧
      List.Forall₂ ShownBy ps entries := by
  obtain ⟨rows, shown, rfl⟩ := timeline_eq_ok.mp there
  refine ⟨(ofRecords (store.select r.registered)).mergeSort startsFirst, fun p => ?_,
    pairwise_mergeSort (pairwise_ofRecords _), forall₂_mergeSort ?_ shown⟩
  · rw [List.mem_mergeSort, mem_ofRecords]
  · intro p q a b hp hq
    rw [startsFirst, hp.startedAt, hq.startedAt]

lemma shown_of_timeline (there : r.timeline store = .ok entries) :
    (∀ p : PlacedScenario, p.IsOf (store.select r.registered) → ∃ e ∈ entries, p.ShownBy e) ∧
      ∀ e ∈ entries, ∃ p : PlacedScenario, p.IsOf (store.select r.registered) ∧ p.ShownBy e := by
  obtain ⟨ps, places, -, shown⟩ := shows_of_timeline there
  constructor
  · intro p isOf
    exact exists_of_forall₂ shown p ((places p).mpr isOf)
  · intro e mem
    obtain ⟨p, there, shows⟩ := exists_of_forall₂ (R := flip ShownBy) shown.flip e mem
    exact ⟨p, (places p).mp there, shows⟩

/-! ### The main results -/

/-- **Spans lead forward** exactly if every scenario ends in time. There is a timeline if every
scenario has an end, and otherwise working it out breaks down; of its entries those end before they
start whose scenarios are longer than `2 ^ 63`. -/
theorem spans_forward_iff (r : Results) (store : RecordStore) :
    let records := store.select r.registered
    ((∃ entries, r.timeline store = .ok entries) ↔
        ∀ record ∈ records, ∀ s ∈ record.scenarios, s.HasEnd) ∧
      (∀ entries, r.timeline store = .ok entries →
        (∀ p : PlacedScenario, p.IsOf records → ∃ e ∈ entries, p.ShownBy e) ∧
        ∀ e ∈ entries, ∃ p : PlacedScenario, p.IsOf records ∧ p.ShownBy e ∧
          (e.endedAt.before e.startedAt = true ↔ 2 ^ 63 < p.scenario.durationMs.toNat)) ∧
      ((∃ entries, r.timeline store = .ok entries ∧
          ∀ e ∈ entries, e.endedAt.before e.startedAt = false) ↔
        ∀ record ∈ records, ∀ s ∈ record.scenarios, s.EndsInTime) := by
  intro records
  refine ⟨exists_timeline, fun entries there => ⟨(shown_of_timeline there).1, fun e mem => ?_⟩, ?_⟩
  · obtain ⟨p, isOf, shows⟩ := (shown_of_timeline there).2 e mem
    have ends : p.scenario.HasEnd := exists_shownBy.mp ⟨e, shows⟩
    refine ⟨p, isOf, shows, ?_⟩
    rw [shows.ends_before_iff]
    have := ends.1
    omega
  · constructor
    · rintro ⟨entries, there, forward⟩
      rw [← forall_isOf]
      intro p isOf
      obtain ⟨e, mem, shows⟩ := (shown_of_timeline there).1 p isOf
      have short := forward e mem
      rw [← Bool.not_eq_true, shows.ends_before_iff] at short
      exact Scenario.endsInTime_iff.mpr ⟨exists_shownBy.mp ⟨e, shows⟩, by omega⟩
    · intro inTime
      obtain ⟨entries, there⟩ := exists_timeline.mpr fun record mem s here =>
        (Scenario.endsInTime_iff.mp (inTime record mem s here)).1
      refine ⟨entries, there, fun e mem => ?_⟩
      obtain ⟨p, isOf, shows⟩ := (shown_of_timeline there).2 e mem
      have short := (forall_isOf.mpr inTime p isOf).1
      rw [← Bool.not_eq_true, shows.ends_before_iff]
      omega

/-- Results of one record with one scenario, which starts in 1970. -/
def ofDuration (ms : UInt64) : ResultsBook :=
  let record : FeatureRecord := .ofFeature ⟨⟨[]⟩, "f", []⟩
  ⟨(start .epoch 1).register 0, ⟨[record.addScenario (.pass "s" 1 ms .epoch)]⟩⟩

/-- The longest duration leads back a millisecond; shorter ones have no end. -/
theorem long_spans_fail :
    (∃ e, (ofDuration (2 ^ 64 - 1)).timeline = .ok [e] ∧ e.endedAt.before e.startedAt = true) ∧
      (ofDuration (2 ^ 63)).timeline = .error .span ∧
      (ofDuration (2 ^ 63 - 1)).timeline = .error .range := by
  refine ⟨⟨⟨"f", "s", none, .epoch, ⟨-1, 999000000, by decide, by decide, by decide⟩,
    false⟩, ?_, ?_⟩, ?_, ?_⟩ <;> decide +kernel

/-- **The timeline is in order.** If every scenario ends in time, there is a timeline. Its entries
are in the order of their starts and show the scenarios of the registered records, one entry for
each place, those with the same start in the order of their places. -/
theorem timeline_in_order (r : Results) (store : RecordStore)
    (inTime : ∀ record ∈ store.select r.registered, ∀ s ∈ record.scenarios, s.EndsInTime) :
    ∃ entries, r.timeline store = .ok entries ∧
      (entries.Pairwise fun a b => b.startedAt.before a.startedAt = false) ∧
      ∃ ps : List PlacedScenario, (∀ p, p ∈ ps ↔ p.IsOf (store.select r.registered)) ∧ ps.Nodup ∧
        ps.Pairwise PlacedScenario.Precedes ∧ List.Forall₂ PlacedScenario.ShownBy ps entries := by
  obtain ⟨entries, there⟩ := exists_timeline.mpr fun record mem s here =>
    (Scenario.endsInTime_iff.mp (inTime record mem s here)).1
  obtain ⟨ps, places, ordered, shown⟩ := shows_of_timeline there
  have starts : entries.map TimelineEntry.startedAt = ps.map fun p => p.scenario.startedAt := by
    rw [← List.forall₂_eq_eq_eq, List.forall₂_map_left_iff, List.forall₂_map_right_iff]
    exact (shown.imp fun p e shows => shows.startedAt).flip
  refine ⟨entries, there, ?_, ps, places, ordered.imp Precedes.ne, ordered, shown⟩
  have sorted : (ps.map fun p => p.scenario.startedAt).Pairwise fun t u => u.before t = false :=
    List.pairwise_map.mpr (ordered.imp Precedes.not_before)
  rw [← starts, List.pairwise_map] at sorted
  exact sorted

/-- Three records of which the first is registered twice and nothing runs in the second. Scenarios
start out of order, at the same time in two records, and in a leap second, which one of them does
not leave. -/
def scattered : ResultsBook :=
  let record (name : String) : FeatureRecord := .ofFeature ⟨⟨[]⟩, name, []⟩
  let leap := (Instant.ofParts? 59 1500000000).getD .epoch
  let minute := (Instant.ofParts? 60 0).getD .epoch
  ⟨(((((start .epoch 2).register 0).register 1).register 2).register 0),
    ⟨[(record "a").addScenarios [.pass "late" 1 7 minute, .fail "leaping" 2 400 "broken" leap],
      record "b",
      (record "c").addScenarios [.pass "early" 1 90000 .epoch, .pass "later" 2 600 leap]]⟩⟩

theorem scattered_in_order :
    (∀ record ∈ scattered.registered, ∀ s ∈ record.scenarios, s.EndsInTime) ∧
      ∃ entries, scattered.timeline = .ok entries ∧
        (entries.Pairwise fun a b => b.startedAt.before a.startedAt = false) ∧
        ∃ ps : List PlacedScenario, (∀ p, p ∈ ps ↔ p.IsOf scattered.registered) ∧ ps.Nodup ∧
          ps.Pairwise Precedes ∧ List.Forall₂ ShownBy ps entries := by
  have inTime : ∀ record ∈ scattered.registered, ∀ s ∈ record.scenarios, s.EndsInTime := by
    decide +kernel
  exact ⟨inTime, timeline_in_order scattered.results scattered.records inTime⟩

end Results

end FeatureBatch
