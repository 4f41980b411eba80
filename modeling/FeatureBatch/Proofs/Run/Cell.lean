import Mathlib.Data.List.Basic
import Mathlib.Data.List.Induction
import Mathlib.Tactic.Common
import FeatureBatch.Run.Suite

/-!
Cells. A feature of a run, its record and its signal have the same number, and one thing can happen
to all three in a step; together they are a cell. A run is read as a list of cells, in the order of
submission, beside the caller, the lane and what features share.
-/

namespace FeatureBatch

structure Cell where
  run : FeatureRun
  record : FeatureRecord
  signal : SignalState

namespace Cell

/-- The cell of a runtime that has just been registered. -/
def fresh (i : Nat) (r : Runtime) : Cell where
  run :=
    { feature := r.feature, record := i, startPanics := r.startPanics, acts := r.acts
      completion := .armed, phase := .queued, permits := [], waiter := none }
  record := r.record
  signal := .outstanding

def settle (g how : SignalState) : SignalState := if g = .outstanding then how else g

/-- The completion is dropped, if it is still there to be dropped. -/
def drop (c : Cell) : Cell :=
  match c.run.completion with
  | .armed =>
    { c with run := { c.run with completion := .dropped }, signal := settle c.signal .dropped }
  | _ => c

def discard (c : Cell) : Cell := { c with run := { c.run with phase := .discarded } }.drop

def start (c : Cell) : Cell := { c with run := { c.run with phase := .running } }

/-- The feature runs no more. -/
def ended (c : Cell) : Cell :=
  { c with run := { c.run with phase := .ended, acts := [], permits := [], waiter := none } }

def finish (c : Cell) : Cell := c.ended.drop

/-- The completion has signalled. -/
def fire (c : Cell) : Cell :=
  { c with run := { c.run with completion := .used }, signal := settle c.signal .fired }

/-- A report call of the completion begins. -/
def reporting (c : Cell) (snapshot : FeatureRecord) (call : ReportCall) (rest : List ReportCall) :
    Cell :=
  { c with run := { c.run with completion := .reporting snapshot call rest } }

/-- The acts still to come and what the feature holds of the limiter. -/
def withActs (c : Cell) (acts : List Act) (permits : List Nat) (waiter : Option Nat) : Cell :=
  { c with run := { c.run with acts, permits, waiter } }

def write (c : Cell) (u : RecordUpdate) (acts : List Act) : Cell :=
  { c with run := { c.run with acts }, record := u.apply c.record }

/-- The completion is gone: it has signalled or was dropped. -/
def IsSettled (c : Cell) : Prop := c.signal ≠ .outstanding

end Cell

/-! ### Lists of cells -/

lemma modify_congr {α : Type} {l : List α} {i : Nat} {φ ψ : α → α}
    (h : ∀ a, l[i]? = some a → φ a = ψ a) : l.modify i φ = l.modify i ψ := by
  apply List.ext_getElem?
  intro j
  rw [List.getElem?_modify, List.getElem?_modify]
  by_cases hj : i = j
  · subst hj
    cases ha : l[i]? with
    | none => rfl
    | some a => simp [h a ha]
  · simp [hj]

lemma modify_eq_set {α : Type} {l : List α} {i : Nat} {a : α} (φ : α → α) (h : l[i]? = some a) :
    l.modify i φ = l.set i (φ a) := by
  apply List.ext_getElem?
  intro j
  rw [List.getElem?_modify, List.getElem?_set]
  by_cases hj : i = j
  · subst hj
    obtain ⟨hi, rfl⟩ := List.getElem?_eq_some_iff.mp h
    simp [hi]
  · simp [hj]

lemma modify_length_append {α : Type} (l : List α) (a : α) (φ : α → α) :
    (l ++ [a]).modify l.length φ = l ++ [φ a] := by
  rw [modify_eq_set φ List.getElem?_concat_length, List.set_append_right _ _ (Nat.le_refl _)]
  simp

lemma filterMap_getElem?_range {α : Type} (l : List α) :
    (List.range l.length).filterMap (fun i => l[i]?) = l := by
  induction l using List.reverseRecOn with
  | nil => rfl
  | append_singleton l a ih =>
    rw [List.length_append, List.length_singleton, List.range_succ, List.filterMap_append]
    have h : (List.range l.length).filterMap (fun i => (l ++ [a])[i]?) =
        (List.range l.length).filterMap (fun i => l[i]?) := by
      refine List.filterMap_congr fun i hi => ?_
      exact List.getElem?_append_left (List.mem_range.mp hi)
    rw [h, ih]
    simp

namespace RunState

variable {σ : Type}

/-- The features with their records and signals, in the order of submission. -/
def cells (s : RunState σ) : List Cell :=
  (s.features.zip (s.records.records.zip s.barrier.signals)).map fun (f, r, g) => ⟨f, r, g⟩

/-- Features, records, signals and registrations go by the same numbers. -/
structure Aligned (s : RunState σ) : Prop where
  records : s.records.records.length = s.features.length
  signals : s.barrier.signals.length = s.features.length
  ids : s.features.map FeatureRun.record = List.range s.features.length
  registered : s.results.registered = List.range s.features.length

lemma getElem?_cells (s : RunState σ) (i : Nat) :
    s.cells[i]? = (s.features[i]?).bind fun f => (s.records.records[i]?).bind fun r =>
      (s.barrier.signals[i]?).map fun g => ⟨f, r, g⟩ := by
  unfold cells
  rw [List.getElem?_map, List.zip_eq_zipWith, List.getElem?_zipWith, List.zip_eq_zipWith,
    List.getElem?_zipWith]
  cases s.features[i]? <;> cases s.records.records[i]? <;> cases s.barrier.signals[i]? <;> rfl

lemma cells_eq_some {s : RunState σ} {i : Nat} {c : Cell} (h : s.cells[i]? = some c) :
    s.features[i]? = some c.run ∧ s.records.records[i]? = some c.record ∧
      s.barrier.signals[i]? = some c.signal := by
  rw [getElem?_cells] at h
  cases hf : s.features[i]? with
  | none => simp [hf] at h
  | some f =>
    cases hr : s.records.records[i]? with
    | none => simp [hf, hr] at h
    | some r =>
      cases hg : s.barrier.signals[i]? with
      | none => simp [hf, hr, hg] at h
      | some g =>
        simp only [hf, hr, hg, Option.bind_some, Option.map_some, Option.some.injEq] at h
        subst h
        exact ⟨rfl, rfl, rfl⟩

lemma cells_modify {s t : RunState σ} {i : Nat} {F : FeatureRun → FeatureRun}
    {G : FeatureRecord → FeatureRecord} {H : SignalState → SignalState}
    (hf : t.features = s.features.modify i F)
    (hr : t.records.records = s.records.records.modify i G)
    (hg : t.barrier.signals = s.barrier.signals.modify i H) :
    t.cells = s.cells.modify i fun c => ⟨F c.run, G c.record, H c.signal⟩ := by
  apply List.ext_getElem?
  intro j
  rw [List.getElem?_modify, getElem?_cells, getElem?_cells, hf, hr, hg, List.getElem?_modify,
    List.getElem?_modify, List.getElem?_modify]
  by_cases hj : i = j
  · subst hj
    cases s.features[i]? <;> cases s.records.records[i]? <;> cases s.barrier.signals[i]? <;> simp
  · simp [hj]

namespace Aligned

variable {s : RunState σ} (al : s.Aligned)

include al

lemma length_cells : s.cells.length = s.features.length := by
  simp [cells, al.records, al.signals]

lemma map_run : s.cells.map Cell.run = s.features := by
  unfold cells
  rw [List.map_map, show (Cell.run ∘ fun x : FeatureRun × FeatureRecord × SignalState =>
    (⟨x.1, x.2.1, x.2.2⟩ : Cell)) = Prod.fst from rfl, List.map_fst_zip]
  simp [al.records, al.signals]

lemma map_record : s.cells.map Cell.record = s.records.records := by
  unfold cells
  rw [List.map_map, show (Cell.record ∘ fun x : FeatureRun × FeatureRecord × SignalState =>
    (⟨x.1, x.2.1, x.2.2⟩ : Cell)) = Prod.fst ∘ Prod.snd from rfl, ← List.map_map,
    List.map_snd_zip, List.map_fst_zip]
  · simp [al.records, al.signals]
  · simp [al.records, al.signals]

lemma map_signal : s.cells.map Cell.signal = s.barrier.signals := by
  unfold cells
  rw [List.map_map, show (Cell.signal ∘ fun x : FeatureRun × FeatureRecord × SignalState =>
    (⟨x.1, x.2.1, x.2.2⟩ : Cell)) = Prod.snd ∘ Prod.snd from rfl, ← List.map_map,
    List.map_snd_zip, List.map_snd_zip]
  · simp [al.records, al.signals]
  · simp [al.records, al.signals]

lemma exists_cell {i : Nat} {f : FeatureRun} (h : s.features[i]? = some f) :
    ∃ c, s.cells[i]? = some c ∧ c.run = f := by
  rw [← al.map_run, List.getElem?_map, Option.map_eq_some_iff] at h
  exact h

lemma record_eq {i : Nat} {f : FeatureRun} (h : s.features[i]? = some f) : f.record = i := by
  have hi : i < s.features.length := (List.getElem?_eq_some_iff.mp h).1
  have := congrArg (·[i]?) al.ids
  simpa [h, List.getElem?_range hi] using this

lemma registered_eq : s.book.registered = s.cells.map Cell.record := by
  rw [al.map_record]
  unfold ResultsBook.registered RecordStore.select book
  rw [al.registered, ← al.records]
  exact filterMap_getElem?_range _

end Aligned

end RunState

end FeatureBatch
