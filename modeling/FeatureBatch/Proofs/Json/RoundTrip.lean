import FeatureBatch.Proofs.Json.Printed
import FeatureBatch.Proofs.Text.Utf8
import FeatureBatch.Proofs.Time.Rfc3339
import FeatureBatch.Reports.FileReports

/-!
What is written as JSON is read back as it was, from either text: features whose path is text,
scenarios, records, failed features, output formats and entries of the timeline. A feature is not
written exactly if its path is no text. A time in a leap second within a minute is read as the
second after it; nothing else is lost.
-/

namespace FeatureBatch

/-! ### Lists -/

lemma mapM_map_eq_some {α β γ : Type} {l : List α} {name : α → β} {f : β → Option γ} {g : α → γ}
    (h : ∀ a ∈ l, f (name a) = some (g a)) : (l.map name).mapM f = some (l.map g) := by
  induction l with
  | nil => rfl
  | cons a l ih =>
    rw [List.map_cons, List.mapM_cons, h a List.mem_cons_self,
      ih fun b hb => h b (List.mem_cons_of_mem a hb)]
    rfl

lemma mapM_map_eq_self {α β : Type} {l : List α} {name : α → β} {f : β → Option α}
    (h : ∀ a ∈ l, f (name a) = some a) : (l.map name).mapM f = some l :=
  (mapM_map_eq_some (g := id) h).trans (congrArg some l.map_id)

lemma filter_key {α β : Type} [DecidableEq α] {pairs : List (α × β)}
    (distinct : (pairs.map Prod.fst).Nodup) {p : α × β} (hp : p ∈ pairs) :
    pairs.filter (fun q => q.1 = p.1) = [p] := by
  induction pairs with
  | nil => cases hp
  | cons q pairs ih =>
    obtain ⟨new, distinct⟩ := List.nodup_cons.mp distinct
    rcases List.mem_cons.mp hp with rfl | hp
    · have others : pairs.filter (fun q => q.1 = p.1) = [] := by
        rw [List.filter_eq_nil_iff]
        intro q hq same
        have same : q.1 = p.1 := by simpa using same
        exact new (same ▸ List.mem_map_of_mem hq)
      simp [others]
    · have other : q.1 ≠ p.1 := fun same => new (same ▸ List.mem_map_of_mem hp)
      simpa [other] using ih distinct hp

namespace Json

/-! ### Fields -/

lemma lookup?_record {fields : List (String × Json)} (distinct : (fields.map Prod.fst).Nodup)
    {f : String × Json} (hf : f ∈ fields) :
    lookup? (fields.map fun g => (some g.1, g.2)) f.1 = some (some f.2) := by
  have distinct : ((fields.map fun g => (some g.1, g.2)).map Prod.fst).Nodup := by
    rw [List.map_map]
    exact List.pairwise_map.mpr ((List.pairwise_map.mp distinct).imp fun ne same =>
      ne (Option.some.inj same))
  unfold lookup?
  generalize found : List.filter _ _ = l
  obtain rfl : l = [(some f.1, f.2)] :=
    found.symm.trans (filter_key distinct (List.mem_map_of_mem hf))
  rfl

lemma fieldValues?_record {fields : List (String × Json)} {names : List String}
    (named : fields.map Prod.fst = names) (distinct : names.Nodup) :
    (record fields).fieldValues? names = some (fields.map fun f => some f.2) := by
  subst named
  rw [record, fieldValues?, if_pos (by simp)]
  exact mapM_map_eq_some fun f hf => lookup?_record distinct hf

@[simp] lemma required?_some {α : Type} (f : Json → Option α) (v : Json) :
    required? f (some v) = f v := rfl

@[simp] lemma asText?_text (s : String) : (text s).asText? = some s := rfl

@[simp] lemma asBool?_bool (b : Bool) : (Json.bool b).asBool? = some b := rfl

@[simp] lemma asWord?_word (n : UInt64) : (word n).asWord? = some n := word?_ofNat n

@[simp] lemma asInstant?_instant (t : Instant) : (instant t).asInstant? = some t.asWritten := by
  rw [instant, asInstant?, asText?_text, Option.bind_some, String.toList_ofList,
    Rfc3339.read?_write]

lemma asList?_map {α : Type} {f : Json → Option α} {g : α → Json} {read : α → α}
    (h : ∀ a, f (g a) = some (read a)) (l : List α) :
    asList? f (.array (l.map g)) = some (l.map read) :=
  mapM_map_eq_some fun a _ => h a

@[simp] lemma asList?_texts (ss : List String) : asList? asText? (texts ss) = some ss :=
  mapM_map_eq_self fun s _ => asText?_text s

@[simp] lemma optional?_text (s : Option String) :
    optional? asText? (some (orNull text s)) = some s := by
  cases s <;> rfl

@[simp] lemma optional?_instant (t : Option Instant) :
    optional? asInstant? (some (orNull instant t)) = some (t.map Instant.asWritten) := by
  cases t with
  | none => rfl
  | some t => exact congrArg (Option.map some) (asInstant?_instant t)

/-! ### Values that are written -/

lemma writable_record {fields : List (String × Json)} (values : ∀ f ∈ fields, Writable f.2) :
    Writable (record fields) := by
  refine .object (fun g hg => ?_) fun g hg => ?_
  · obtain ⟨f, -, rfl⟩ := List.mem_map.mp hg
    rfl
  · obtain ⟨f, hf, rfl⟩ := List.mem_map.mp hg
    exact values f hf

lemma writable_word (n : UInt64) : Writable (word n) := .number (isSpelled_ofNat n.toNat)

lemma writable_instant (t : Instant) : Writable (instant t) := .text _

lemma writable_map {α : Type} {g : α → Json} (h : ∀ a, Writable (g a)) (l : List α) :
    Writable (.array (l.map g)) := by
  refine .array fun v hv => ?_
  obtain ⟨a, -, rfl⟩ := List.mem_map.mp hv
  exact h a

lemma writable_orNull {α : Type} {g : α → Json} (h : ∀ a, Writable (g a)) (o : Option α) :
    Writable (orNull g o) := by
  cases o with
  | none => exact .null
  | some a => exact h a

/-- Both texts of a value are read as `a`. -/
structure ReadsBack {α : Type} (ofJson? : Json → Option α) (v : Json) (a : α) : Prop where
  compact : (ofText? v.compactText).bind ofJson? = some a
  pretty : (ofText? v.prettyText).bind ofJson? = some a

lemma ReadsBack.of_writable {α : Type} {ofJson? : Json → Option α} {v : Json} {a : α}
    (h : Writable v) (read : ofJson? v = some a) : ReadsBack ofJson? v a :=
  ⟨by rw [ofText?_compactText h, Option.bind_some, read],
    by rw [ofText?_prettyText h, Option.bind_some, read]⟩

end Json

open Json

/-! ### Features -/

/-- The bytes of the path are those of a text. -/
def Path.IsText (p : Path) : Prop := ∃ s, Path.ofText s = p

lemma Path.text?_eq_some {p : Path} {s : String} : p.text? = some s ↔ Path.ofText s = p := by
  have bytes (cs : List Char) : Text.ofUtf8? p.bytes = some cs ↔ Text.utf8 cs = p.bytes :=
    Text.ofUtf8?_eq_some
  rw [text?, Option.map_eq_some_iff]
  constructor
  · rintro ⟨cs, read, rfl⟩
    rw [ofText, String.toList_ofList, (bytes cs).mp read]
  · rintro rfl
    exact ⟨s.toList, (bytes _).mpr rfl, String.ofList_toList⟩

lemma Path.text?_eq_none {p : Path} : p.text? = none ↔ ¬ p.IsText := by
  simp only [Option.eq_none_iff_forall_ne_some, ne_eq, text?_eq_some, IsText, not_exists]

lemma Feature.toJson?_eq_none {f : Feature} : f.toJson? = none ↔ ¬ f.path.IsText := by
  rw [toJson?, Option.map_eq_none_iff, Path.text?_eq_none]

lemma Feature.ofJson?_of_toJson? {f : Feature} {v : Json} (h : f.toJson? = some v) :
    ofJson? v = some f := by
  obtain ⟨path, text, rfl⟩ := Option.map_eq_some_iff.mp h
  simp [ofJson?, fieldValues?_record, Path.text?_eq_some.mp text]

lemma Feature.writable_of_toJson? {f : Feature} {v : Json} (h : f.toJson? = some v) :
    Writable v := by
  obtain ⟨path, -, rfl⟩ := Option.map_eq_some_iff.mp h
  refine writable_record ?_
  simp [texts, writable_map, Writable.text]

/-! ### Records -/

namespace Scenario

/-- The times in a scenario. -/
def times (s : Scenario) : List Instant := [s.startedAt]

/-- The scenario with its times as they are written. -/
def asWritten (s : Scenario) : Scenario := { s with startedAt := s.startedAt.asWritten }

lemma asWritten_eq_self {s : Scenario} :
    s.asWritten = s ↔ ∀ t ∈ s.times, t.LeapsOnMinute := by
  rw [times, List.forall_mem_singleton, ← Instant.asWritten_eq_self]
  exact ⟨congrArg startedAt, fun same => by rw [asWritten, same]⟩

lemma ofJson?_toJson (s : Scenario) : ofJson? s.toJson = some s.asWritten := by
  simp [ofJson?, toJson, fieldValues?_record, asWritten]

lemma writable_toJson (s : Scenario) : Writable s.toJson := by
  refine writable_record ?_
  simp [writable_word, writable_instant, writable_orNull, Writable.text, Writable.bool]

end Scenario

namespace FeatureRecord

/-- The times in a record. -/
def times (r : FeatureRecord) : List Instant :=
  r.startedAt.toList ++ r.scenarios.flatMap Scenario.times

/-- The record with its times as they are written. -/
def asWritten (r : FeatureRecord) : FeatureRecord :=
  { r with
    startedAt := r.startedAt.map Instant.asWritten
    scenarios := r.scenarios.map Scenario.asWritten }

lemma asWritten_eq_self {r : FeatureRecord} :
    r.asWritten = r ↔ ∀ t ∈ r.times, t.LeapsOnMinute := by
  have startedAt : r.startedAt.map Instant.asWritten = r.startedAt ↔
      ∀ t ∈ r.startedAt.toList, t.LeapsOnMinute := by
    cases r.startedAt <;> simp [Instant.asWritten_eq_self]
  have scenarios : r.scenarios.map Scenario.asWritten = r.scenarios ↔
      ∀ t ∈ r.scenarios.flatMap Scenario.times, t.LeapsOnMinute := by
    conv_lhs => rhs; rw [← List.map_id r.scenarios]
    rw [List.map_inj_left, List.forall_mem_flatMap]
    exact forall₂_congr fun s _ => Scenario.asWritten_eq_self
  rw [times, List.forall_mem_append, ← startedAt, ← scenarios]
  constructor
  · exact fun same => ⟨congrArg FeatureRecord.startedAt same, congrArg FeatureRecord.scenarios same⟩
  · rintro ⟨same, same'⟩
    rw [asWritten, same, same']

lemma ofJson?_toJson (r : FeatureRecord) : ofJson? r.toJson = some r.asWritten := by
  have scenarios := asList?_map Scenario.ofJson?_toJson r.scenarios
  simp [ofJson?, toJson, fieldValues?_record, scenarios, asWritten]

lemma writable_toJson (r : FeatureRecord) : Writable r.toJson := by
  refine writable_record ?_
  simp [writable_word, writable_instant, writable_orNull, writable_map, Scenario.writable_toJson,
    Writable.text]

end FeatureRecord

lemma FailedFeature.ofJson?_toJson (f : FailedFeature) : ofJson? f.toJson = some f := by
  simp [ofJson?, toJson, fieldValues?_record]

lemma FailedFeature.writable_toJson (f : FailedFeature) : Writable f.toJson := by
  refine writable_record ?_
  simp [texts, writable_map, Writable.text]

lemma OutputFormats.ofJson?_toJson (o : OutputFormats) : ofJson? o.toJson = some o := by
  simp [ofJson?, ofFields?, toJson, fieldValues?_record]

lemma OutputFormats.writable_toJson (o : OutputFormats) : Writable o.toJson := by
  refine writable_record ?_
  simp [Writable.bool]

namespace TimelineEntry

/-- The times in an entry. -/
def times (e : TimelineEntry) : List Instant := [e.startedAt, e.endedAt]

/-- The entry with its times as they are written. -/
def asWritten (e : TimelineEntry) : TimelineEntry :=
  { e with startedAt := e.startedAt.asWritten, endedAt := e.endedAt.asWritten }

lemma asWritten_eq_self {e : TimelineEntry} :
    e.asWritten = e ↔ ∀ t ∈ e.times, t.LeapsOnMinute := by
  rw [times, List.forall_mem_cons, List.forall_mem_singleton, ← Instant.asWritten_eq_self,
    ← Instant.asWritten_eq_self]
  constructor
  · exact fun same => ⟨congrArg startedAt same, congrArg endedAt same⟩
  · rintro ⟨same, same'⟩
    rw [asWritten, same, same']

lemma ofJson?_toJson (e : TimelineEntry) : ofJson? e.toJson = some e.asWritten := by
  simp [ofJson?, toJson, fieldValues?_record, asWritten]

lemma writable_toJson (e : TimelineEntry) : Writable e.toJson := by
  refine writable_record ?_
  simp [writable_instant, writable_orNull, Writable.text, Writable.bool]

end TimelineEntry

/-- **What is written as JSON is read back.** Both the text in one line and the text over several
lines of a feature whose path is text, of a scenario, a record, a failed feature, output formats and
an entry of the timeline are read, and as what was written, with its times as they are written: it
is what was written exactly if each leap second in it stands at the end of a minute. A feature is
not written exactly if its path is no text. -/
theorem written_reads_back :
    (∀ f : Feature, (f.toJson? = none ↔ ¬ f.path.IsText) ∧
      (f.path.IsText → ∃ v, f.toJson? = some v ∧ ReadsBack Feature.ofJson? v f)) ∧
    (∀ s : Scenario, ReadsBack Scenario.ofJson? s.toJson s.asWritten ∧
      (s.asWritten = s ↔ ∀ t ∈ s.times, t.LeapsOnMinute)) ∧
    (∀ r : FeatureRecord, ReadsBack FeatureRecord.ofJson? r.toJson r.asWritten ∧
      (r.asWritten = r ↔ ∀ t ∈ r.times, t.LeapsOnMinute)) ∧
    (∀ f : FailedFeature, ReadsBack FailedFeature.ofJson? f.toJson f) ∧
    (∀ o : OutputFormats, ReadsBack OutputFormats.ofJson? o.toJson o) ∧
    ∀ e : TimelineEntry, ReadsBack TimelineEntry.ofJson? e.toJson e.asWritten ∧
      (e.asWritten = e ↔ ∀ t ∈ e.times, t.LeapsOnMinute) := by
  refine ⟨fun f => ⟨Feature.toJson?_eq_none, fun text => ?_⟩,
    fun s => ⟨.of_writable s.writable_toJson s.ofJson?_toJson, Scenario.asWritten_eq_self⟩,
    fun r => ⟨.of_writable r.writable_toJson r.ofJson?_toJson, FeatureRecord.asWritten_eq_self⟩,
    fun f => .of_writable f.writable_toJson f.ofJson?_toJson,
    fun o => .of_writable o.writable_toJson o.ofJson?_toJson,
    fun e => ⟨.of_writable e.writable_toJson e.ofJson?_toJson, TimelineEntry.asWritten_eq_self⟩⟩
  obtain ⟨v, written⟩ := Option.ne_none_iff_exists'.mp fun none =>
    Feature.toJson?_eq_none.mp none text
  exact ⟨v, written, .of_writable (Feature.writable_of_toJson? written)
    (Feature.ofJson?_of_toJson? written)⟩

/-- A record whose one scenario starts a third of a second into a leap second within a minute. -/
def leapingRecord : FeatureRecord :=
  let leap : Instant := ⟨4, 1333333333, by decide, by decide, by decide⟩
  (FeatureRecord.ofFeature ⟨⟨[]⟩, "f", []⟩).addScenario (.pass "s" 1 1 leap)

theorem leapingRecord_reads_later :
    (∀ t ∈ leapingRecord.times, t.second = 4 ∧ t.nanos = 1333333333) ∧
      (∀ t ∈ leapingRecord.asWritten.times, t.second = 5 ∧ t.nanos = 333333333) ∧
      ReadsBack FeatureRecord.ofJson? leapingRecord.toJson leapingRecord.asWritten ∧
      ¬ ReadsBack FeatureRecord.ofJson? leapingRecord.toJson leapingRecord := by
  have read : ReadsBack FeatureRecord.ofJson? leapingRecord.toJson leapingRecord.asWritten :=
    .of_writable leapingRecord.writable_toJson leapingRecord.ofJson?_toJson
  refine ⟨by decide, by decide, read, fun same => ?_⟩
  have both := Option.some.inj (same.compact.symm.trans read.compact)
  exact absurd (congrArg FeatureRecord.startedAt both) (by decide)

end FeatureBatch
