import FeatureBatch.Proofs.Run.Orders
import FeatureBatch.Proofs.Run.Samples
import FeatureBatch.Proofs.Run.Stories
import FeatureBatch.Proofs.Run.SuiteCalls

/-!
Emitters compared. A report of a feature that fails keeps its completion from the next report, and
does nothing else: with another emitter in its place, one that answers the same about the suite, the
run would have come to the same results by the same calls, but for what follows a feature's first
report call.
-/

namespace FeatureBatch

/-- The report call of feature `i` that begins. -/
def RunEvent.begins? (i : Nat) : RunEvent → Option ReportCall
  | .callBegan j call => if j = i then some call else none
  | _ => none

/-- The record with which the completion of feature `i` is invoked. -/
def RunEvent.snapshot? (i : Nat) : RunEvent → Option FeatureRecord
  | .invoked j snapshot => if j = i then some snapshot else none
  | _ => none

namespace RunState

variable {σ σ₁ σ₂ : Type}

/-- The report calls of feature `i` that have begun, in order. -/
def callsOf (s : RunState σ) (i : Nat) : List ReportCall := s.trace.filterMap (RunEvent.begins? i)

/-- The records with which the completion of feature `i` was invoked. -/
def snapshotsOf (s : RunState σ) (i : Nat) : List FeatureRecord :=
  s.trace.filterMap (RunEvent.snapshot? i)

/-! ### The first report call -/

section First

variable {w : Suite σ} {s : RunState σ} {i : Nat} {f : FeatureRun} {tale : List RunEvent}
variable {outputs : OutputFormats}

lemma callsOf_eq (s : RunState σ) (i : Nat) :
    s.callsOf i = (s.tale i).filterMap (RunEvent.begins? i) := by
  unfold callsOf RunState.tale milestones
  rw [List.filterMap_filter]
  congr 1
  funext e
  cases e <;> simp [RunEvent.begins?, RunEvent.milestone?]

lemma snapshotsOf_eq (s : RunState σ) (i : Nat) :
    s.snapshotsOf i = (s.tale i).filterMap (RunEvent.snapshot? i) := by
  unfold snapshotsOf RunState.tale milestones
  rw [List.filterMap_filter]
  congr 1
  funext e
  cases e <;> simp [RunEvent.snapshot?, RunEvent.milestone?]

lemma filterMap_begins_callEvents (i : Nat) (made : List (ReportCall × CallOutcome)) :
    (callEvents i made).filterMap (RunEvent.begins? i) = made.map Prod.fst := by
  induction made with
  | nil => rfl
  | cons m made ih =>
    have split : callEvents i (m :: made) =
        [.callBegan i m.1, .callEnded i m.1 m.2] ++ callEvents i made := rfl
    rw [split, List.filterMap_append, ih]
    simp [RunEvent.begins?]

lemma filterMap_snapshot_callEvents (i : Nat) (made : List (ReportCall × CallOutcome)) :
    (callEvents i made).filterMap (RunEvent.snapshot? i) = [] := by
  rw [List.filterMap_eq_nil_iff]
  intro e he
  obtain ⟨m, -, he⟩ := List.mem_flatMap.mp he
  simp only [List.mem_cons, List.not_mem_nil, or_false] at he
  rcases he with rfl | rfl <;> rfl

lemma carried_head {calls : List ReportCall} {made : List (ReportCall × CallOutcome)}
    {error : Option SuiteError} (h : Carried ReportCall.Makes calls made error) :
    (made.map Prod.fst).head? = calls.head? := by
  cases h with
  | all => rfl
  | next fine later => simp [fine.1]
  | failed fails => simp [fails.1]

lemma Course.first {completion : CompletionState} (h : Course outputs i completion tale) :
    (tale.filterMap (RunEvent.begins? i)).head? =
      (tale.filterMap (RunEvent.snapshot? i)).head?.bind fun r => (reported outputs r).head? := by
  cases h with
  | armed => rfl
  | dropped => rfl
  | @reporting snapshot call done rest made wanted passed =>
    have first : (made.map Prod.fst ++ [call]).head? = (done ++ call :: rest).head? := by
      cases passed with
      | nil => rfl
      | cons fine later => simp [fine.1]
    have begun : List.filterMap (RunEvent.begins? i)
        (.invoked i snapshot :: callEvents i made ++ [.callBegan i call]) =
          made.map Prod.fst ++ [call] := by
      simp [List.filterMap_cons, RunEvent.begins?, filterMap_begins_callEvents]
    have invoked : List.filterMap (RunEvent.snapshot? i)
        (.invoked i snapshot :: callEvents i made ++ [.callBegan i call]) = [snapshot] := by
      simp [List.filterMap_cons, RunEvent.snapshot?, filterMap_snapshot_callEvents]
    rw [begun, invoked, first, ← wanted]
    rfl
  | @used snapshot made error carried =>
    have begun : List.filterMap (RunEvent.begins? i)
        (.invoked i snapshot :: callEvents i made ++ [.signalled i]) = made.map Prod.fst := by
      simp [List.filterMap_cons, RunEvent.begins?, filterMap_begins_callEvents]
    have invoked : List.filterMap (RunEvent.snapshot? i)
        (.invoked i snapshot :: callEvents i made ++ [.signalled i]) = [snapshot] := by
      simp [List.filterMap_cons, RunEvent.snapshot?, filterMap_snapshot_callEvents]
    rw [begun, invoked, carried_head carried]
    rfl

/-- **The first report call of a feature** is the first that is to be made of the record with which
its completion was invoked. -/
theorem Tales.first (tales : Tales w s) (i : Nat) :
    (s.callsOf i).head? =
      (s.snapshotsOf i).head?.bind fun r => (reported w.config.outputs r).head? := by
  rw [callsOf_eq, snapshotsOf_eq]
  cases hf : s.features[i]? with
  | none =>
    -- Nothing is told of a feature that is not there.
    have untold : s.tale i = [] := by
      rw [RunState.tale, milestones, List.filter_eq_nil_iff]
      intro e he
      rw [decide_eq_true_eq]
      intro told
      exact absurd (tales.known e he i told) (by simpa using hf)
    rw [untold]
    rfl
  | some f =>
    have story := tales.story i f hf
    generalize s.tale i = tale at story ⊢
    cases story with
    | queued phase armed => rfl
    | discarded phase dropped => rfl
    | started phase course => exact (Course.first course :)

end First

/-! ### What two runs have in common -/

variable {w₁ : Suite σ₁} {w₂ : Suite σ₂} {s₁ : RunState σ₁} {s₂ : RunState σ₂}

lemma Alike.filterMap_trace {α : Type} (h : Alike s₁ s₂) (pick : RunEvent → Option α)
    (others : ∀ e, e.isFeatureCall = true → pick e = none) :
    s₁.trace.filterMap pick = s₂.trace.filterMap pick := by
  have outlined : ∀ trace : List RunEvent,
      (trace.filter fun e => !e.isFeatureCall).filterMap pick = trace.filterMap pick := by
    intro trace
    rw [List.filterMap_filter]
    congr 1
    funext e
    cases hc : e.isFeatureCall
    · simp
    · simp [others e hc]
  have same := congrArg (List.filterMap pick) h.outline
  rwa [RunState.outline, RunState.outline, outlined, outlined] at same

/-- What both runs come to. Everything of the one is as in the other, but for the report calls of
features after the first one of each. -/
structure Agree (s₁ : RunState σ₁) (s₂ : RunState σ₂) : Prop where
  done : s₁.isDone = s₂.isDone
  /-- The totals with the failed features, the failure reason, and all else of the results. -/
  results : s₁.results = s₂.results
  registered : s₁.book.registered = s₂.book.registered
  barrier : s₁.barrier = s₂.barrier
  /-- How the signals had come when the wait ended. -/
  releases : s₁.releases = s₂.releases
  /-- The calls about the suite and of the hooks, with what they saw and came to. -/
  suiteTrace : s₁.suiteTrace = s₂.suiteTrace
  firstCall : ∀ i, (s₁.callsOf i).head? = (s₂.callsOf i).head?
  /-- Every feature is as far, and whatever features share is the same. -/
  alike : Alike s₁ s₂

lemma Alike.agree (h : Alike s₁ s₂) (same : w₁.SameButEmitter w₂) (tales₁ : Tales w₁ s₁)
    (tales₂ : Tales w₂ s₂) : Agree s₁ s₂ where
  done := by rw [h.recast]; rfl
  results := by rw [h.recast]; rfl
  registered := by rw [h.recast]; rfl
  barrier := by rw [h.recast]; rfl
  releases := h.filterMap_trace RunEvent.arrivals? fun e he => by cases e <;> first | rfl | cases he
  suiteTrace := by
    have picked := h.filterMap_trace (Option.guard fun e : RunEvent => e.verdict?.isSome)
      fun e he => by cases e <;> first | rfl | cases he
    rwa [List.filterMap_eq_filter] at picked
  firstCall i := by
    have snapshots : s₁.snapshotsOf i = s₂.snapshotsOf i :=
      h.filterMap_trace (RunEvent.snapshot? i) fun e he => by cases e <;> first | rfl | cases he
    rw [tales₁.first, tales₂.first, snapshots, same.config]
  alike := h

lemma alike_start (same : w₁.SameButEmitter w₂) (limiter : AdmissionLimiter) (files₁ : σ₁)
    (files₂ : σ₂) : Alike (w₁.start limiter files₁) (w₂.start limiter files₂) := by
  refine ⟨?_, rfl, rfl⟩
  unfold Suite.start recast Suite.creations
  rw [same.config, same.runtimes, same.startedAt]

/-- **Reports of features stay apart.** Take two suites that differ in their emitters alone, of which
both answer the same to the calls about the suite. Whatever comes of the report calls of features,
every run of the one has its order, in that order the other can be run as well, and runs of one order
agree: in the records, the results, the signals, the calls about the suite and of the hooks, and in
the first report call of each feature. -/
theorem feature_reports_apart {σ₁ σ₂ : Type} {w₁ : Suite σ₁} {w₂ : Suite σ₂}
    {limiter : AdmissionLimiter} {files₁ : σ₁} {files₂ : σ₂} (same : w₁.SameButEmitter w₂)
    (answers : SameAnswers w₁ w₂ (w₁.start limiter files₁) (w₂.start limiter files₂)) :
    (∀ s₁, Reaches w₁ (w₁.start limiter files₁) s₁ →
      ∃ order, RunsInOrder w₁ (w₁.start limiter files₁) order s₁) ∧
    ∀ order s₁, RunsInOrder w₁ (w₁.start limiter files₁) order s₁ →
      (∃ s₂, RunsInOrder w₂ (w₂.start limiter files₂) order s₂) ∧
      ∀ s₂, RunsInOrder w₂ (w₂.start limiter files₂) order s₂ → Agree s₁ s₂ := by
  have first := alike_start same limiter files₁ files₂
  refine ⟨fun s₁ reach => reach.exists_order, fun order s₁ run₁ =>
    ⟨run₁.exists_run same first answers, fun s₂ run₂ => ?_⟩⟩
  have tales₁ := run₁.reaches.tales (sound_start w₁ limiter files₁) (tales_start w₁ limiter files₁)
  have tales₂ := run₂.reaches.tales (sound_start w₂ limiter files₂) (tales_start w₂ limiter files₂)
  exact (run₁.alike same first answers run₂).agree same tales₁ tales₂

/-- A parallel batch of two features with all reports and a hook, to be run with this emitter. -/
def comparedBatch (emitter : Emitter Unit) : Suite Unit :=
  let w := smallSuite 2 two_threads true [⟨"a", fun _ => .ok⟩]
    [.made (.ofActs (smallFeature "f") [.work [.addScenario passing], .complete]),
      .made (.ofActs (smallFeature "g") [.work [.addScenario failing], .complete])]
  { w with config := { w.config with outputs := ⟨true, true, true⟩ }, emitter }

/-- Writes every report. -/
def writesAll : Emitter Unit := ⟨fun dir _ files => (.written dir, files)⟩

/-- Gives up at reports of features, and writes the others. -/
def writesNoFeature : Emitter Unit :=
  ⟨fun dir call files => (if call.isPerFeature then .panicked .noText else .written dir, files)⟩

/-- The run with all reports written. -/
def comparedRun : RunState Unit :=
  ((comparedBatch writesAll).start smallLimiter ()).play (comparedBatch writesAll)
    (List.replicate 3 .caller ++ List.replicate 4 .lane ++ List.replicate 6 (.feature 1 0) ++
      List.replicate 6 (.feature 0 0) ++ List.replicate 14 .caller ++ [.lane] ++
      List.replicate 6 .caller)

theorem comparedRun_agrees :
    comparedRun.isDone = true ∧ comparedRun.featureCalls.length = 4 ∧
      comparedRun.suiteCalls.length = 5 ∧ comparedRun.releases = [⟨2, 0⟩] ∧
      ∃ order s, RunsInOrder (comparedBatch writesNoFeature)
        ((comparedBatch writesNoFeature).start smallLimiter ()) order s ∧ Agree comparedRun s := by
  have same : (comparedBatch writesAll).SameButEmitter (comparedBatch writesNoFeature) :=
    ⟨rfl, rfl, rfl, rfl⟩
  have answers : SameAnswers (comparedBatch writesAll) (comparedBatch writesNoFeature)
      ((comparedBatch writesAll).start smallLimiter ())
      ((comparedBatch writesNoFeature).start smallLimiter ()) := by
    refine sameAnswers_of_forall same fun dir call files₁ files₂ suite => ?_
    simp [comparedBatch, writesAll, writesNoFeature, suite]
  obtain ⟨orders, agree⟩ := feature_reports_apart same answers
  obtain ⟨order, run⟩ := orders comparedRun (reaches_play _ _ _)
  obtain ⟨⟨s, run'⟩, agrees⟩ := agree order comparedRun run
  exact ⟨by rfl, by rfl, by rfl, by rfl, order, s, run', agrees s run'⟩

end RunState

end FeatureBatch
