import FeatureBatch.Run.Suite
import Mathlib.Tactic.Common

/-!
States that are alike but for the reports of features: what an emitter has left behind, which report
call of a completion is under way, what the trace tells of such calls, and the log. Two suites that
differ in their emitters alone go from states that are alike to such states, whoever steps, as long
as a completion signals in both or in neither.
-/

namespace FeatureBatch

/-- The completion, whichever of its report calls is under way. -/
def CompletionState.bare : CompletionState → CompletionState
  | .reporting snapshot _ _ => .reporting snapshot (.featureJson snapshot) []
  | c => c

/-- The feature, whichever report call of its completion is under way. -/
def FeatureRun.bare (f : FeatureRun) : FeatureRun := { f with completion := f.completion.bare }

/-- The event tells of a report call of a feature. -/
def RunEvent.isFeatureCall : RunEvent → Bool
  | .callBegan _ _ | .callEnded _ _ _ => true
  | _ => false

/-- The suites differ in nothing but their emitters. -/
structure Suite.SameButEmitter {σ₁ σ₂ : Type} (w₁ : Suite σ₁) (w₂ : Suite σ₂) : Prop where
  config : w₁.config = w₂.config
  runtimes : w₁.runtimes = w₂.runtimes
  startedAt : w₁.startedAt = w₂.startedAt
  endedAt : w₁.endedAt = w₂.endedAt

lemma CompletionState.bare_eq {c d : CompletionState} (h : c.bare = d.bare) :
    (c = d ∧ ∀ snapshot call rest, c ≠ .reporting snapshot call rest) ∨
      ∃ snapshot call rest call' rest',
        c = .reporting snapshot call rest ∧ d = .reporting snapshot call' rest' := by
  cases c <;> cases d <;> simp only [bare, reduceCtorEq, reporting.injEq] at h
  case reporting.reporting => exact .inr ⟨_, _, _, _, _, rfl, by rw [h.1]⟩
  all_goals exact .inl ⟨rfl, by simp⟩

namespace RunState

variable {σ₁ σ₂ : Type} {w₁ : Suite σ₁} {w₂ : Suite σ₂}
variable {s₁ t₁ : RunState σ₁} {s₂ t₂ : RunState σ₂}

/-- The trace without the report calls of features. -/
def outline {σ : Type} (s : RunState σ) : List RunEvent := s.trace.filter fun e => !e.isFeatureCall

/-- The state with what the reports of features may make different. -/
def recast (s : RunState σ₁) (features : List FeatureRun) (files : σ₂) (log : Log)
    (trace : List RunEvent) : RunState σ₂ := { s with features, files, log, trace }

/-- The states are alike but for the reports of features. -/
structure Alike (s₁ : RunState σ₁) (s₂ : RunState σ₂) : Prop where
  recast : s₂ = s₁.recast s₂.features s₂.files s₂.log s₂.trace
  features : s₁.features.map FeatureRun.bare = s₂.features.map FeatureRun.bare
  outline : s₁.outline = s₂.outline

namespace Alike

lemma symm (h : Alike s₁ s₂) : Alike s₂ s₁ := by
  refine ⟨?_, h.features.symm, h.outline.symm⟩
  rw [h.recast]
  rfl

lemma exists_recast (h : Alike s₁ s₂) :
    ∃ features files log trace, s₂ = s₁.recast features files log trace := ⟨_, _, _, _, h.recast⟩

lemma ite {c : Prop} [Decidable c] (yes : Alike s₁ s₂) (no : Alike t₁ t₂) :
    Alike (if c then s₁ else t₁) (if c then s₂ else t₂) := by
  split
  · exact yes
  · exact no

lemma iteStep {c : Prop} [Decidable c] {yes₁ no₁ : Option (RunState σ₁)}
    {yes₂ no₂ : Option (RunState σ₂)} (yes : Option.Rel Alike yes₁ yes₂)
    (no : Option.Rel Alike no₁ no₂) :
    Option.Rel Alike (if c then yes₁ else no₁) (if c then yes₂ else no₂) := by
  split
  · exact yes
  · exact no

lemma length (h : Alike s₁ s₂) : s₁.features.length = s₂.features.length := by
  have same := congrArg List.length h.features
  rwa [List.length_map, List.length_map] at same

lemma feature (h : Alike s₁ s₂) (i : Nat) :
    (s₁.features[i]? = none ∧ s₂.features[i]? = none) ∨
      ∃ f completion, s₁.features[i]? = some f ∧
        s₂.features[i]? = some { f with completion } ∧ f.completion.bare = completion.bare := by
  have same := congrArg (·[i]?) h.features
  simp only [List.getElem?_map] at same
  cases h₁ : s₁.features[i]? <;> cases h₂ : s₂.features[i]? <;> simp [h₁, h₂] at same ⊢
  rename_i f g
  have completion : f.bare.completion = g.bare.completion := by rw [same]
  refine ⟨g.completion, ?_, completion⟩
  have back : { g.bare with completion := g.completion } = g := rfl
  rw [← back, ← same]
  rfl

/-! ### Small changes -/

lemma note (h : Alike s₁ s₂) (e : RunEvent) : Alike (s₁.note e) (s₂.note e) := by
  obtain ⟨features, files, log, trace, rfl⟩ := h.exists_recast
  refine ⟨rfl, h.features, ?_⟩
  have before := h.outline
  simp only [RunState.outline, RunState.note, List.filter_append] at before ⊢
  rw [before]

lemma report (h : Alike s₁ s₂) (level : LogLevel) (m₁ m₂ : String) :
    Alike (s₁.report level m₁) (s₂.report level m₂) := by
  obtain ⟨features, files, log, trace, rfl⟩ := h.exists_recast
  exact ⟨rfl, h.features, h.outline⟩

lemma reportInside (h : Alike s₁ s₂) (log₁ log₂ : Log) :
    Alike (s₁.reportInside log₁) (s₂.reportInside log₂) := by
  obtain ⟨features, files, log, trace, rfl⟩ := h.exists_recast
  exact ite h ⟨rfl, h.features, h.outline⟩

lemma updateFeature (h : Alike s₁ s₂) (i : Nat) {φ₁ φ₂ : FeatureRun → FeatureRun}
    (same : ∀ f₁ f₂ : FeatureRun, f₁.bare = f₂.bare → (φ₁ f₁).bare = (φ₂ f₂).bare) :
    Alike (s₁.updateFeature i φ₁) (s₂.updateFeature i φ₂) := by
  refine ⟨by rw [h.recast]; rfl, List.ext_getElem? fun j => ?_, h.outline⟩
  have alike := congrArg (·[j]?) h.features
  simp only [RunState.updateFeature, List.getElem?_map, List.getElem?_modify] at alike ⊢
  split
  · cases h₁ : s₁.features[j]? <;> cases h₂ : s₂.features[j]? <;> simp [h₁, h₂] at alike ⊢
    exact same _ _ alike
  · simpa using alike

lemma change (h : Alike s₁ s₂) (i : Nat) (φ : FeatureRun → FeatureRun)
    (commutes : ∀ f : FeatureRun, (φ f).bare = φ f.bare) :
    Alike (s₁.updateFeature i φ) (s₂.updateFeature i φ) :=
  h.updateFeature i fun f₁ f₂ alike => by rw [commutes, commutes, alike]

lemma dropCompletion (h : Alike s₁ s₂) (i : Nat) :
    Alike (s₁.dropCompletion i) (s₂.dropCompletion i) := by
  unfold RunState.dropCompletion
  rcases h.feature i with ⟨h₁, h₂⟩ | ⟨f, c, h₁, h₂, alike⟩
  · rw [h₁, h₂]
    exact h
  · rw [h₁, h₂]
    obtain ⟨features, files, log, trace, rfl⟩ := h.exists_recast
    rcases CompletionState.bare_eq alike with
      ⟨rfl, -⟩ | ⟨snapshot, call, rest, call', rest', hf, hc⟩
    · cases hc : f.completion with
      | armed =>
        simp only [Option.map_some, hc]
        refine (change ?_ i ({ · with completion := .dropped }) fun _ => rfl).note _
        exact ⟨rfl, h.features, h.outline⟩
      | _ => simpa only [Option.map_some, hc] using h
    · simpa only [Option.map_some, hf, hc] using h

lemma discard (h : Alike s₁ s₂) (i : Nat) : Alike (s₁.discard i) (s₂.discard i) :=
  (h.change i ({ · with phase := .discarded }) fun _ => rfl).dropCompletion i

lemma discardAll (h : Alike s₁ s₂) (is : List Nat) :
    Alike (s₁.discardAll is) (s₂.discardAll is) := by
  induction is generalizing s₁ s₂ with
  | nil => exact h
  | cons i is ih => exact ih (h.discard i)

lemma begin (h : Alike s₁ s₂) (i : Nat) : Alike (s₁.begin i) (s₂.begin i) :=
  (h.change i ({ · with phase := .running }) fun _ => rfl).note _

lemma finishFeature (h : Alike s₁ s₂) (i : Nat) :
    Alike (s₁.finishFeature i) (s₂.finishFeature i) := by
  unfold RunState.finishFeature
  rcases h.feature i with ⟨h₁, h₂⟩ | ⟨f, c, h₁, h₂, alike⟩
  · rw [h₁, h₂]
    exact h
  · rw [h₁, h₂]
    obtain ⟨features, files, log, trace, rfl⟩ := h.exists_recast
    refine (change ?_ i ({ · with phase := .ended, acts := [], permits := [], waiter := none })
      fun _ => rfl).dropCompletion i
    exact ⟨rfl, h.features, h.outline⟩

/-! ### The caller -/

lemma turnToWaiting (h : Alike s₁ s₂) (error : Option SuiteError) :
    Alike (s₁.turnToWaiting error) (s₂.turnToWaiting error) := by
  obtain ⟨features, files, log, trace, rfl⟩ := h.exists_recast
  exact ite ⟨rfl, h.features, h.outline⟩ ⟨rfl, h.features, h.outline⟩

lemma unwind (h : Alike s₁ s₂) (payload : PanicPayload) :
    Alike (s₁.unwind payload) (s₂.unwind payload) := by
  obtain ⟨features, files, log, trace, rfl⟩ := h.exists_recast
  exact ⟨rfl, h.features, h.outline⟩

lemma registerRuntime (h : Alike s₁ s₂) (runtime : Runtime) :
    Alike (s₁.registerRuntime runtime) (s₂.registerRuntime runtime) := by
  obtain ⟨features, files, log, trace, rfl⟩ := h.exists_recast
  refine ⟨rfl, ?_, h.outline⟩
  simp only [RunState.registerRuntime, List.map_append, h.features]
  rfl

lemma submitRuntime (h : Alike s₁ s₂) (i : Nat) (runtime : Runtime) :
    Alike (s₁.submitRuntime i runtime) (s₂.submitRuntime i runtime) := by
  have same : s₂.lane = s₁.lane := by rw [h.recast]; rfl
  unfold RunState.submitRuntime
  rw [same]
  cases s₁.lane with
  | none =>
    cases runtime.startPanics with
    | some payload => exact (h.discard i).unwind payload
    | none =>
      refine begin ?_ i
      obtain ⟨features, files, log, trace, rfl⟩ := h.exists_recast
      exact ⟨rfl, h.features, h.outline⟩
  | some lane =>
    rcases hl : lane.submit i with ⟨accepted, lane'⟩
    have put : Alike { s₁ with lane := some lane' } { s₂ with lane := some lane' } := by
      obtain ⟨features, files, log, trace, rfl⟩ := h.exists_recast
      exact ⟨rfl, h.features, h.outline⟩
    cases accepted with
    | true => simpa only [hl] using put
    | false => simpa only [hl] using (put.discard i).turnToWaiting _

lemma takeIn (h : Alike s₁ s₂) (feature : Feature) (runtime : Runtime) :
    Alike (s₁.takeIn w₁ feature runtime) (s₂.takeIn w₂ feature runtime) := by
  unfold RunState.takeIn
  dsimp only
  rw [h.length]
  cases runtime.recordPanics with
  | some payload => exact h.unwind payload
  | none =>
    have registered := h.registerRuntime runtime
    cases runtime.completionPanics with
    | some payload => exact (registered.discard _).unwind payload
    | none => exact (registered.report _ _ _).submitRuntime _ runtime

lemma dispatchNext (h : Alike s₁ s₂) : Alike (s₁.dispatchNext w₁) (s₂.dispatchNext w₂) := by
  have same : s₂.pending = s₁.pending := by rw [h.recast]; rfl
  unfold RunState.dispatchNext
  rw [same]
  rcases s₁.pending with _ | ⟨⟨feature, creation⟩, rest⟩
  · exact h.turnToWaiting none
  · cases creation with
    | refused reason => exact h.turnToWaiting _
    | panicked payload => exact h.unwind payload
    | made runtime =>
      refine takeIn ?_ feature runtime
      obtain ⟨features, files, log, trace, rfl⟩ := h.exists_recast
      exact ⟨rfl, h.features, h.outline⟩

lemma turn (h : Alike s₁ s₂) (stage : CallerStage) (log₁ log₂ : Log) :
    Alike { s₁ with stage, log := log₁ } { s₂ with stage, log := log₂ } := by
  obtain ⟨features, files, log, trace, rfl⟩ := h.exists_recast
  exact ⟨rfl, h.features, h.outline⟩

lemma settle (h : Alike s₁ s₂) (stage : CallerStage) (results : Results) :
    Alike { s₁ with stage, results } { s₂ with stage, results } := by
  obtain ⟨features, files, log, trace, rfl⟩ := h.exists_recast
  exact ⟨rfl, h.features, h.outline⟩

lemma stampEnd (same : w₁.SameButEmitter w₂) (h : Alike s₁ s₂) :
    Alike (s₁.stampEnd w₁) (s₂.stampEnd w₂) := by
  have forgotten : Alike
      ({ s₁ with barrier := s₁.barrier.forget }.note (.released s₁.barrier.arrivals))
      ({ s₂ with barrier := s₂.barrier.forget }.note (.released s₁.barrier.arrivals)) := by
    refine note ?_ _
    obtain ⟨features, files, log, trace, rfl⟩ := h.exists_recast
    exact ⟨rfl, h.features, h.outline⟩
  have barrier : s₂.barrier = s₁.barrier := by rw [h.recast]; rfl
  have stamped : ∀ {u₁ : RunState σ₁} {u₂ : RunState σ₂}, Alike u₁ u₂ →
      Alike { u₁ with results := u₁.results.finish w₁.endedAt }
        { u₂ with results := u₂.results.finish w₁.endedAt } := by
    intro u₁ u₂ h
    obtain ⟨features, files, log, trace, rfl⟩ := h.exists_recast
    exact ⟨rfl, h.features, h.outline⟩
  unfold RunState.stampEnd
  rw [barrier, ← same.endedAt]
  rw [barrier] at forgotten
  exact stamped (ite (forgotten.report _ _ _) forgotten)

lemma turnToHooks (same : w₁.SameButEmitter w₂) (h : Alike s₁ s₂) :
    Alike (s₁.turnToHooks w₁) (s₂.turnToHooks w₂) := by
  unfold RunState.turnToHooks
  rw [← same.config]
  exact h.turn _ _ _

lemma turnToReports (same : w₁.SameButEmitter w₂) (h : Alike s₁ s₂) (error : Option SuiteError) :
    Alike (s₁.turnToReports w₁ error) (s₂.turnToReports w₂ error) := by
  unfold RunState.turnToReports
  cases error with
  | some e => exact h.turn _ _ _
  | none =>
    have reports : s₂.suiteReports = s₁.suiteReports := by rw [h.recast]; rfl
    dsimp only
    rw [← same.config, reports]
    exact ite (h.turn _ _ _) (h.turnToHooks same)

lemma leaveWaiting (same : w₁.SameButEmitter w₂) (h : Alike s₁ s₂) (error : Option SuiteError) :
    Alike (s₁.leaveWaiting w₁ error) (s₂.leaveWaiting w₂ error) := by
  have stamped := h.stampEnd same
  have totals : (s₂.stampEnd w₂).results.finalize (s₂.stampEnd w₂).records =
      (s₁.stampEnd w₁).results.finalize (s₁.stampEnd w₁).records := by
    rw [stamped.recast]
    rfl
  unfold RunState.leaveWaiting
  dsimp only
  rw [totals]
  cases (s₁.stampEnd w₁).results.finalize (s₁.stampEnd w₁).records with
  | error payload => exact stamped.turn _ _ _
  | ok results =>
    have stage : (s₂.stampEnd w₂).stage = (s₁.stampEnd w₁).stage := by rw [stamped.recast]; rfl
    have settled := stamped.settle (s₁.stampEnd w₁).stage results
    nth_rewrite 2 [← stage] at settled
    exact settled.turnToReports same error

lemma leaveReporting (same : w₁.SameButEmitter w₂) (h : Alike s₁ s₂) (page : Option Path) :
    Alike (s₁.leaveReporting w₁ page) (s₂.leaveReporting w₂ page) := by
  cases page with
  | none => exact h.turnToHooks same
  | some path => exact (h.report _ _ _).turnToHooks same

end Alike

/-- What the emitter answers to a report about the suite. -/
def answer {σ : Type} (w : Suite σ) (s : RunState σ) (report : SuiteReport) : CallOutcome :=
  (w.emitter.perform w.config.reportDir (s.reportCall report) s.files).1

/-- If a report about the suite is to be written, both emitters answer the same. -/
def SameAnswer (w₁ : Suite σ₁) (w₂ : Suite σ₂) (s₁ : RunState σ₁) (s₂ : RunState σ₂) : Prop :=
  ∀ report rest page, s₁.stage = .reporting (report :: rest) page →
    s₁.answer w₁ report = s₂.answer w₂ report

namespace Alike

lemma writeReport (h : Alike s₁ s₂) {report : SuiteReport} (rest : List SuiteReport)
    (page : Option Path) (answers : s₁.answer w₁ report = s₂.answer w₂ report) :
    Alike (s₁.writeReport w₁ report rest page) (s₂.writeReport w₂ report rest page) := by
  have noted : ∀ (files₁ : σ₁) (files₂ : σ₂) (outcome : CallOutcome), Alike
      ({ s₁ with files := files₁ }.note (.suiteCall (s₁.reportCall report) outcome s₁.results))
      ({ s₂ with files := files₂ }.note (.suiteCall (s₂.reportCall report) outcome s₂.results)) := by
    intro files₁ files₂ outcome
    obtain ⟨features, files, log, trace, rfl⟩ := h.exists_recast
    have put : Alike { s₁ with files := files₁ }
        { s₁.recast features files log trace with files := files₂ } :=
      ⟨rfl, h.features, h.outline⟩
    exact put.note _
  unfold answer at answers
  unfold RunState.writeReport
  dsimp only
  rw [← answers]
  generalize (w₁.emitter.perform w₁.config.reportDir (s₁.reportCall report) s₁.files).1 = outcome
  cases outcome with
  | failed e => exact (noted _ _ _).turn _ _ _
  | panicked payload => exact (noted _ _ _).turn _ _ _
  | written path => cases report <;> exact (noted _ _ _).turn _ _ _

lemma callHook (h : Alike s₁ s₂) (hook : Hook) (rest : List Hook) :
    Alike (s₁.callHook hook rest) (s₂.callHook hook rest) := by
  have view : (⟨s₂.book, s₂.limiter.closed⟩ : HookView) = ⟨s₁.book, s₁.limiter.closed⟩ := by
    rw [h.recast]
    rfl
  unfold RunState.callHook
  dsimp only
  rw [view]
  have noted := h.note (.hookCall hook.name ⟨s₁.book, s₁.limiter.closed⟩
    (hook.call ⟨s₁.book, s₁.limiter.closed⟩))
  cases (hook.call ⟨s₁.book, s₁.limiter.closed⟩).error? hook.name with
  | some e => exact noted.turn _ _ _
  | none => exact noted.turn _ _ _

lemma fail (h : Alike s₁ s₂) (error : SuiteError) : Alike (s₁.fail error) (s₂.fail error) := by
  have told := h.report .error ("runner failed: " ++ error.message)
    ("runner failed: " ++ error.message)
  have recorded : (s₂.results.recordFailure error).2.finalize s₂.records =
      (s₁.results.recordFailure error).2.finalize s₁.records := by
    rw [h.recast]
    rfl
  have results : s₂.results = s₁.results := by rw [h.recast]; rfl
  unfold RunState.fail
  dsimp only [RunState.report]
  rw [recorded, results]
  cases (s₁.results.recordFailure error).2.finalize s₁.records with
  | ok settled => exact told.settle .closing settled
  | error payload => exact told.settle (.unwinding payload) _

lemma close (same : w₁.SameButEmitter w₂) (h : Alike s₁ s₂) :
    Alike (s₁.close w₁) (s₂.close w₂) := by
  unfold RunState.close
  rw [← same.endedAt]
  obtain ⟨features, files, log, trace, rfl⟩ := h.exists_recast
  exact ⟨rfl, h.features, h.outline⟩

lemma stopPool (h : Alike s₁ s₂) : Alike s₁.stopPool s₂.stopPool := by
  have stopped : Alike { s₁ with poolStopped := true } { s₂ with poolStopped := true } := by
    obtain ⟨features, files, log, trace, rfl⟩ := h.exists_recast
    exact ⟨rfl, h.features, h.outline⟩
  have told := (stopped.report .debug "execution pool stopped" "execution pool stopped").note
    .poolStopped
  have closed : ∀ {u₁ : RunState σ₁} {u₂ : RunState σ₂}, Alike u₁ u₂ →
      Alike { u₁ with limiter := u₁.limiter.close } { u₂ with limiter := u₂.limiter.close } := by
    intro u₁ u₂ h
    obtain ⟨features, files, log, trace, rfl⟩ := h.exists_recast
    exact ⟨rfl, h.features, h.outline⟩
  exact ((closed told).note _).report _ _ _

lemma putLane (h : Alike s₁ s₂) (lane : Option (Lane Nat)) :
    Alike { s₁ with lane } { s₂ with lane } := by
  obtain ⟨features, files, log, trace, rfl⟩ := h.exists_recast
  exact ⟨rfl, h.features, h.outline⟩

lemma noteLaneStopped (h : Alike s₁ s₂) (lane : Lane Nat) :
    Alike (s₁.noteLaneStopped lane) (s₂.noteLaneStopped lane) :=
  ((ite ((h.putLane lane).report _ _ _) (h.putLane lane)).report _ _ _).note _

lemma tearDownStep (h : Alike s₁ s₂) (next : CallerStage) :
    Option.Rel Alike (s₁.tearDownStep? next) (s₂.tearDownStep? next) := by
  have pool : s₂.poolStopped = s₁.poolStopped := by rw [h.recast]; rfl
  have lane : s₂.lane = s₁.lane := by rw [h.recast]; rfl
  have stage : s₂.stage = s₁.stage := by rw [h.recast]; rfl
  have puts : ∀ (stage : CallerStage) (lane : Option (Lane Nat)) (poolStopped : Bool),
      Alike { s₁ with stage, lane, poolStopped } { s₂ with stage, lane, poolStopped } := by
    intro stage lane poolStopped
    obtain ⟨features, files, log, trace, rfl⟩ := h.exists_recast
    exact ⟨rfl, h.features, h.outline⟩
  unfold tearDownStep?
  rw [pool, lane, stage]
  refine iteStep (.some (puts _ _ _)) ?_
  cases s₁.lane with
  | none => exact .some h.stopPool
  | some lane =>
    refine iteStep (.some h.stopPool) ?_
    cases lane.stopStep? with
    | none => exact .none
    | some lane' => exact .some (ite (h.noteLaneStopped lane') (puts _ _ _))

lemma hasEnded (h : Alike s₁ s₂) (i : Nat) : s₂.hasEnded i = s₁.hasEnded i := by
  unfold RunState.hasEnded
  rcases h.feature i with ⟨h₁, h₂⟩ | ⟨f, c, h₁, h₂, -⟩ <;> rw [h₁, h₂]

lemma callerStep (same : w₁.SameButEmitter w₂) (h : Alike s₁ s₂)
    (answer : SameAnswer w₁ w₂ s₁ s₂) :
    Option.Rel Alike (s₁.callerStep? w₁) (s₂.callerStep? w₂) := by
  have stage_eq : s₂.stage = s₁.stage := by rw [h.recast]; rfl
  have barrier : s₂.barrier = s₁.barrier := by rw [h.recast]; rfl
  unfold callerStep?
  rw [stage_eq]
  cases stage : s₁.stage with
  | dispatching => exact .some h.dispatchNext
  | executing i =>
    dsimp only
    rw [h.hasEnded]
    exact iteStep (.some (h.turn _ _ _)) .none
  | awaiting error =>
    dsimp only
    rw [barrier]
    exact iteStep (.some (h.leaveWaiting same error)) .none
  | reporting rest page =>
    cases rest with
    | nil => exact .some (h.leaveReporting same page)
    | cons report rest => exact .some (h.writeReport rest page (answer report rest page stage))
  | hooks rest =>
    cases rest with
    | nil => exact .some (h.turn _ _ _)
    | cons hook rest => exact .some (h.callHook hook rest)
  | failing error => exact .some (h.fail error)
  | closing => exact .some (h.close same)
  | tearingDown guard => exact h.tearDownStep _
  | unwinding payload => exact h.tearDownStep _
  | done | panicked => exact .none

/-! ### The lane and the pool -/

lemma crashesLane (h : Alike s₁ s₂) : s₂.crashesLane = s₁.crashesLane := by
  funext i
  unfold RunState.crashesLane
  rcases h.feature i with ⟨h₁, h₂⟩ | ⟨f, c, h₁, h₂, -⟩ <;> rw [h₁, h₂]

lemma laneStep (h : Alike s₁ s₂) : Option.Rel Alike s₁.laneStep? s₂.laneStep? := by
  have lane : s₂.lane = s₁.lane := by rw [h.recast]; rfl
  unfold laneStep?
  rw [lane, h.crashesLane]
  cases s₁.lane with
  | none => exact .none
  | some lane =>
    dsimp only
    cases lane.move? s₁.crashesLane with
    | none => exact .none
    | some move =>
      have put := h.putLane (lane.after move)
      cases move with
      | take job => exact .some put
      | start i => exact .some (put.begin i)
      | crash i unstarted => exact .some (put.discardAll _)
      | leave unstarted => exact .some (put.discardAll _)

lemma poolStep (h : Alike s₁ s₂) (i : Nat) :
    Option.Rel Alike (s₁.poolStep? i) (s₂.poolStep? i) := by
  have stopped : (s₂.poolStopped && s₂.isParallel) = (s₁.poolStopped && s₁.isParallel) := by
    rw [h.recast]
    rfl
  unfold poolStep?
  rw [stopped]
  rcases h.feature i with ⟨h₁, h₂⟩ | ⟨f, c, h₁, h₂, alike⟩
  · rw [h₁, h₂]
    cases s₁.poolStopped && s₁.isParallel <;> exact .none
  · rw [h₁, h₂]
    cases s₁.poolStopped && s₁.isParallel with
    | false => exact .none
    | true =>
      have ends := Option.Rel.some (h.finishFeature i)
      refine iteStep .none ?_
      rcases CompletionState.bare_eq alike with
        ⟨rfl, quiet⟩ | ⟨snapshot, call, rest, call', rest', hf, rfl⟩
      · cases hc : f.completion with
        | reporting snapshot call rest => exact absurd hc (quiet _ _ _)
        | _ => exact ends
      · rw [hf]
        exact .none

/-! ### Features -/

lemma crash (h : Alike s₁ s₂) (i : Nat) (f : FeatureRun) :
    Alike (s₁.crash i f) (s₂.crash i f) :=
  (h.finishFeature i).reportInside _ _

lemma givePermit (h : Alike s₁ s₂) (i : Nat) (admission : Admission) :
    Alike (s₁.givePermit i admission) (s₂.givePermit i admission) := by
  cases admission with
  | permit p =>
    exact h.change i (fun f => { f with permits := f.permits ++ [p], waiter := none }) fun _ => rfl
  | waiting n => exact h.change i ({ · with waiter := some n }) fun _ => rfl
  | closed => exact h.change i ({ · with waiter := none }) fun _ => rfl

lemma signal (h : Alike s₁ s₂) (i : Nat) : Alike (s₁.signal i) (s₂.signal i) := by
  obtain ⟨features, files, log, trace, rfl⟩ := h.exists_recast
  refine (change ?_ i ({ · with completion := .used }) fun _ => rfl).note _
  exact ⟨rfl, h.features, h.outline⟩

lemma nextCall (h : Alike s₁ s₂) (i : Nat) (snapshot : FeatureRecord) (calls : List ReportCall) :
    Alike (s₁.nextCall w₁ i snapshot calls) (s₂.nextCall w₂ i snapshot calls) := by
  cases calls with
  | nil => exact (h.reportInside _ _).signal i
  | cons call rest =>
    refine (h.updateFeature i fun f₁ f₂ alike => ?_).note _
    exact congrArg ({ · with completion := CompletionState.bare (.reporting snapshot call rest) })
      alike

lemma invoke (same : w₁.SameButEmitter w₂) (h : Alike s₁ s₂) (i : Nat)
    (snapshot : FeatureRecord) : Alike (s₁.invoke w₁ i snapshot) (s₂.invoke w₂ i snapshot) := by
  have told := h.note (.invoked i snapshot)
  unfold RunState.invoke
  rw [← same.config]
  exact ite ((told.reportInside _ _).signal i) (told.nextCall i snapshot _)

lemma act (same : w₁.SameButEmitter w₂) (h : Alike s₁ s₂) (i task : Nat) (f : FeatureRun)
    (next : Act) (rest : List Act) :
    Option.Rel Alike (s₁.act w₁ i task f next rest) (s₂.act w₂ i task f next rest) := by
  have goOn := h.change i ({ · with acts := rest }) fun _ => rfl
  cases next with
  | work tasks =>
    cases tasks with
    | nil => exact .some goOn
    | cons t ts =>
      unfold RunState.act
      dsimp only
      cases (t :: ts)[task]? with
      | none => exact .none
      | some update =>
        obtain ⟨features, files, log, trace, rfl⟩ := h.exists_recast
        refine .some (change ?_ i ({ · with acts := .work ((t :: ts).eraseIdx task) :: rest })
          fun _ => rfl)
        exact ⟨rfl, h.features, h.outline⟩
  | obtain key init =>
    have cache : s₂.cache = s₁.cache := by rw [h.recast]; rfl
    have put : ∀ {u₁ : RunState σ₁} {u₂ : RunState σ₂} (cache : SuiteCache Json), Alike u₁ u₂ →
        Alike { u₁ with cache } { u₂ with cache } := by
      intro u₁ u₂ cache h
      obtain ⟨features, files, log, trace, rfl⟩ := h.exists_recast
      exact ⟨rfl, h.features, h.outline⟩
    unfold RunState.act
    dsimp only
    rw [cache]
    rcases s₁.cache.answer (.getOrInsert key init) with ⟨reply, cache'⟩
    cases reply with
    | obtained value first => exact .some ((put cache' goOn).note _)
    | _ => exact .some ((put cache' h).crash i f)
  | acquire =>
    have limiter : s₂.limiter = s₁.limiter := by rw [h.recast]; rfl
    unfold RunState.act
    dsimp only
    rw [limiter]
    rcases s₁.limiter.acquire with ⟨admission, limiter'⟩
    refine .some (givePermit ?_ i admission)
    obtain ⟨features, files, log, trace, rfl⟩ := h.exists_recast
    exact ⟨rfl, goOn.features, goOn.outline⟩
  | release =>
    unfold RunState.act
    dsimp only
    cases f.permits.getLast? with
    | none => exact .some goOn
    | some p =>
      refine .some (change ?_ i ({ · with permits := f.permits.dropLast }) fun _ => rfl)
      obtain ⟨features, files, log, trace, rfl⟩ := h.exists_recast
      exact ⟨rfl, goOn.features, goOn.outline⟩
  | complete =>
    have records : s₂.records = s₁.records := by rw [h.recast]; rfl
    unfold RunState.act
    dsimp only
    rw [records]
    cases f.completion <;> cases s₁.records.get? f.record
    case armed.some snapshot => exact .some (goOn.invoke same i snapshot)
    all_goals exact .some goOn
  | abandon => exact .some (goOn.dropCompletion i)
  | panic payload => exact .some (h.crash i f)

end Alike

end RunState

end FeatureBatch
