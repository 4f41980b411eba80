import FeatureBatch.Proofs.Run.Cell

/-!
What a feature does to the state of a run: it touches one cell and what features share, and leaves
alone the caller, the lane and the numbers by which features, records and signals go.
-/

namespace FeatureBatch

/-- The event is one of the caller's own. -/
def RunEvent.isCallers : RunEvent → Bool
  | .released _ => true
  | .suiteCall _ _ _ => true
  | .hookCall _ _ _ => true
  | .laneStopped => true
  | .poolStopped => true
  | .limiterClosed => true
  | _ => false

namespace RunState

variable {σ : Type}

/-- What the caller has left in the trace. -/
def callerTrace (s : RunState σ) : List RunEvent := s.trace.filter RunEvent.isCallers

/-- `t` is as `s` but for the lane and what features may change. -/
structure Keeps (s t : RunState σ) : Prop where
  pending : t.pending = s.pending
  stage : t.stage = s.stage
  results : t.results = s.results
  poolStopped : t.poolStopped = s.poolStopped
  callerTrace : t.callerTrace = s.callerTrace
  features : t.features.length = s.features.length
  records : t.records.records.length = s.records.records.length
  signals : t.barrier.signals.length = s.barrier.signals.length
  ids : t.features.map FeatureRun.record = s.features.map FeatureRun.record

/-- `t` is as `s` but for the cell `i`, which was changed by `φ`, and what features share. -/
structure Touches (s t : RunState σ) (i : Nat) (φ : Cell → Cell) : Prop where
  keeps : Keeps s t
  lane : t.lane = s.lane
  cells : t.cells = s.cells.modify i φ

lemma Aligned.keeps {s t : RunState σ} (al : s.Aligned) (h : Keeps s t) : t.Aligned where
  records := by rw [h.records, h.features, al.records]
  signals := by rw [h.signals, h.features, al.signals]
  ids := by rw [h.ids, h.features, al.ids]
  registered := by rw [h.results, h.features, al.registered]

lemma Keeps.refl (s : RunState σ) : Keeps s s :=
  ⟨rfl, rfl, rfl, rfl, rfl, rfl, rfl, rfl, rfl⟩

lemma Keeps.trans {s t u : RunState σ} (h : Keeps s t) (k : Keeps t u) : Keeps s u where
  pending := k.pending.trans h.pending
  stage := k.stage.trans h.stage
  results := k.results.trans h.results
  poolStopped := k.poolStopped.trans h.poolStopped
  callerTrace := k.callerTrace.trans h.callerTrace
  features := k.features.trans h.features
  records := k.records.trans h.records
  signals := k.signals.trans h.signals
  ids := k.ids.trans h.ids

namespace Touches

variable {s t u : RunState σ} {i : Nat} {φ ψ : Cell → Cell}

lemma refl (s : RunState σ) (i : Nat) : Touches s s i id := ⟨.refl s, rfl, by rw [List.modify_id]⟩

lemma trans (h : Touches s t i φ) (k : Touches t u i ψ) : Touches s u i (ψ ∘ φ) :=
  ⟨h.keeps.trans k.keeps, k.lane.trans h.lane, by rw [k.cells, h.cells, List.modify_modify_eq]⟩

lemma congr (h : Touches s t i φ) (same : ∀ c, s.cells[i]? = some c → φ c = ψ c) :
    Touches s t i ψ :=
  ⟨h.keeps, h.lane, by rw [h.cells, modify_congr same]⟩

lemma set {c : Cell} (h : Touches s t i φ) (hc : s.cells[i]? = some c) :
    t.cells = s.cells.set i (φ c) := by
  rw [h.cells, modify_eq_set φ hc]

/-! ### What features share -/

lemma share (s : RunState σ) (i : Nat) (limiter : AdmissionLimiter) (cache : SuiteCache Json)
    (files : σ) (log : Log) : Touches s { s with limiter, cache, files, log } i id :=
  ⟨⟨rfl, rfl, rfl, rfl, rfl, rfl, rfl, rfl, rfl⟩, rfl, by rw [List.modify_id]; rfl⟩

lemma reportInside (s : RunState σ) (i : Nat) (events : Log) :
    Touches s (s.reportInside events) i id := by
  unfold RunState.reportInside
  split
  · exact refl s i
  · exact share s i s.limiter s.cache s.files _

lemma note (s : RunState σ) (i : Nat) {e : RunEvent} (he : e.isCallers = false) :
    Touches s (s.note e) i id := by
  refine ⟨⟨rfl, rfl, rfl, rfl, ?_, rfl, rfl, rfl, rfl⟩, rfl, by rw [List.modify_id]; rfl⟩
  simp [callerTrace, RunState.note, he]

/-! ### One cell -/

lemma updateFeature (s : RunState σ) (i : Nat) {f : FeatureRun → FeatureRun}
    (hf : ∀ r, (f r).record = r.record) :
    Touches s (s.updateFeature i f) i fun c => { c with run := f c.run } := by
  refine ⟨⟨rfl, rfl, rfl, rfl, rfl, ?_, rfl, rfl, ?_⟩, rfl, ?_⟩
  · simp [RunState.updateFeature]
  · apply List.ext_getElem?
    intro j
    simp only [RunState.updateFeature, List.getElem?_map, List.getElem?_modify]
    cases s.features[j]? with
    | none => rfl
    | some r => by_cases h : i = j <;> simp [h, hf]
  · exact cells_modify (G := id) (H := id) rfl (by rw [List.modify_id]; rfl)
      (by rw [List.modify_id]; rfl)

lemma settle (s : RunState σ) (i : Nat) (how : SignalState) :
    Touches s { s with barrier := s.barrier.settle i how } i
      fun c => { c with signal := Cell.settle c.signal how } := by
  refine ⟨⟨rfl, rfl, rfl, rfl, rfl, rfl, rfl, ?_, rfl⟩, rfl, ?_⟩
  · simp [CompletionBarrier.settle]
  · refine cells_modify (F := id) (G := id) (H := (Cell.settle · how)) ?_ ?_ ?_
    · exact (List.modify_id i _).symm
    · exact (List.modify_id i _).symm
    · rfl

lemma updateRecord (s : RunState σ) (i : Nat) (change : RecordUpdate) :
    Touches s { s with records := s.records.update i change } i
      fun c => { c with record := change.apply c.record } := by
  refine ⟨⟨rfl, rfl, rfl, rfl, rfl, rfl, ?_, rfl, rfl⟩, rfl, ?_⟩
  · simp [RecordStore.update]
  · refine cells_modify (F := id) (G := change.apply) (H := id) ?_ ?_ ?_
    · exact (List.modify_id i _).symm
    · rfl
    · exact (List.modify_id i _).symm

lemma dropCompletion (s : RunState σ) (i : Nat) : Touches s (s.dropCompletion i) i Cell.drop := by
  unfold RunState.dropCompletion
  split
  · rename_i armed
    have unset := updateFeature { s with barrier := s.barrier.settle i .dropped } i
      (f := fun r => { r with completion := .dropped }) fun _ => rfl
    refine (((settle s i .dropped).trans unset).trans (note _ i (e := .abandoned i) rfl)).congr
      fun c hc => ?_
    have hrun := (cells_eq_some hc).1
    rw [hrun] at armed
    simp only [Option.map_some, Option.some.injEq] at armed
    simp [Cell.drop, armed]
  · rename_i gone
    refine (refl s i).congr fun c hc => ?_
    have hrun := (cells_eq_some hc).1
    rw [hrun] at gone
    unfold Cell.drop
    split
    · rename_i armed
      exact absurd (by rw [Option.map_some, armed]) gone
    · rfl

lemma discard (s : RunState σ) (i : Nat) : Touches s (s.discard i) i Cell.discard := by
  refine (updateFeature s i ?_).trans (dropCompletion _ i)
  exact fun _ => rfl

lemma start (s : RunState σ) (i : Nat) : Touches s (s.begin i) i Cell.start := by
  refine (updateFeature s i ?_).trans (note _ i ?_)
  · exact fun _ => rfl
  · rfl

lemma signal (s : RunState σ) (i : Nat) : Touches s (s.signal i) i Cell.fire := by
  refine ((settle s i .fired).trans (updateFeature _ i ?_)).trans (note _ i ?_)
  · exact fun _ => rfl
  · rfl

lemma finishFeature (s : RunState σ) (i : Nat) :
    Touches s (s.finishFeature i) i Cell.finish := by
  unfold RunState.finishFeature
  split
  · rename_i absent
    refine (refl s i).congr fun c hc => ?_
    rw [(cells_eq_some hc).1] at absent
    cases absent
  · refine ((share s i _ s.cache s.files s.log).trans (updateFeature _ i ?_)).trans
      (dropCompletion _ i)
    exact fun _ => rfl

end Touches

end RunState

end FeatureBatch
