import FeatureBatch.Proofs.Run.Alike
import FeatureBatch.Proofs.Run.Deeds

/-!
The order of a run: who stepped, one after the other, not counting where a completion passes from one
of its report calls on to the next. Suites that differ in their emitters alone can be run in the same
orders, and two runs in one order are alike, whatever comes of the reports of features.
-/

namespace FeatureBatch

namespace RunState

variable {σ σ₁ σ₂ σ₃ : Type}

/-- The party's step is a feature's, which ends a report call and passes on to the next one. -/
inductive PassesOn (w : Suite σ) (s : RunState σ) : Party → Prop where
  | feature {i task : Nat} {f : FeatureRun} {snapshot : FeatureRecord} {call next : ReportCall}
      {rest : List ReportCall} (found : s.features[i]? = some f) (running : f.phase = .running)
      (reports : f.completion = .reporting snapshot call (next :: rest))
      (fine : (w.emitter.perform w.config.reportDir call s.files).1.error? = none) :
      PassesOn w s (.feature i task)

/-- A run in that order of steps, where passing on from report to report does not count. -/
inductive RunsInOrder (w : Suite σ) (a : RunState σ) : List Party → RunState σ → Prop where
  | start : RunsInOrder w a [] a
  | counts {order : List Party} {s t : RunState σ} (p : Party) (run : RunsInOrder w a order s)
      (next : s.step? w p = some t) (counted : ¬ PassesOn w s p) :
      RunsInOrder w a (order ++ [p]) t
  | passesOn {order : List Party} {s t : RunState σ} (p : Party) (run : RunsInOrder w a order s)
      (next : s.step? w p = some t) (passes : PassesOn w s p) : RunsInOrder w a order t

/-! ### Reports that end -/

lemma Alike.refl (s : RunState σ) : Alike s s := ⟨rfl, rfl, rfl⟩

lemma Alike.trans {s₁ : RunState σ₁} {s₂ : RunState σ₂} {s₃ : RunState σ₃} (h : Alike s₁ s₂)
    (k : Alike s₂ s₃) : Alike s₁ s₃ := by
  obtain ⟨features, files, log, trace, rfl⟩ := h.exists_recast
  obtain ⟨features', files', log', trace', rfl⟩ := k.exists_recast
  exact ⟨rfl, h.features.trans k.features, h.outline.trans k.outline⟩

section Reports

variable {w : Suite σ} {s t : RunState σ} {i : Nat} {f : FeatureRun} {snapshot : FeatureRecord}
variable {call next : ReportCall} {rest : List ReportCall}

lemma alike_reportInside (s : RunState σ) (log : Log) : Alike s (s.reportInside log) := by
  unfold reportInside
  split
  · exact .refl s
  · exact ⟨rfl, rfl, rfl⟩

lemma alike_told (s : RunState σ) (files : σ) {e : RunEvent} (told : e.isFeatureCall = true) :
    Alike s ({ s with files }.note e) := by
  refine ⟨rfl, rfl, ?_⟩
  simp [outline, RunState.note, List.filter_append, told]

lemma alike_signal (last : rest = [] ∨
      (w.emitter.perform w.config.reportDir call s.files).1.error? ≠ none) :
    Alike (s.signal i) (s.endCall w i snapshot call rest) := by
  unfold endCall
  dsimp only
  have told := alike_told s (w.emitter.perform w.config.reportDir call s.files).2
    (e := .callEnded i call (w.emitter.perform w.config.reportDir call s.files).1) rfl
  have ends := fun log => (told.trans (alike_reportInside _ log)).signal i
  split
  · exact ends _
  · rename_i fine
    rw [last.resolve_right fun failed => failed fine]
    exact ends _

lemma step_passesOn (task : Nat) (found : s.features[i]? = some f) (running : f.phase = .running)
    (reports : f.completion = .reporting snapshot call (next :: rest))
    (fine : (w.emitter.perform w.config.reportDir call s.files).1.error? = none) :
    s.step? w (.feature i task) = some (s.endCall w i snapshot call (next :: rest)) ∧
      (s.endCall w i snapshot call (next :: rest)).features[i]? =
        some { f with completion := .reporting snapshot next rest } := by
  obtain ⟨outcome, rfl, -, more⟩ := Shows.endCall (w := w) found snapshot call (next :: rest)
  exact ⟨by simp [step?, featureStep?, found, running, reports], (more next rest rfl fine).after⟩

lemma PassesOn.alike {p : Party} (h : PassesOn w s p) (step : s.step? w p = some t) :
    Alike s t := by
  cases h with
  | @feature i task f snapshot call next rest found running reports fine =>
    rw [(step_passesOn task found running reports fine).1, Option.some.injEq] at step
    subst step
    unfold endCall
    dsimp only
    rw [fine]
    have told := alike_told s (w.emitter.perform w.config.reportDir call s.files).2
      (e := .callEnded i call (w.emitter.perform w.config.reportDir call s.files).1) rfl
    refine told.trans ⟨rfl, List.ext_getElem? fun j => ?_, ?_⟩
    · simp only [nextCall, RunState.note, RunState.updateFeature, List.getElem?_map,
        List.getElem?_modify]
      split
      · rename_i same
        subst same
        rw [found]
        simp [FeatureRun.bare, CompletionState.bare, reports]
      · simp
    · simp [outline, nextCall, RunState.note, RunState.updateFeature, RunEvent.isFeatureCall]

end Reports

/-! ### Steps that count -/

variable {w₁ : Suite σ₁} {w₂ : Suite σ₂} {s₁ t₁ a₁ : RunState σ₁} {s₂ t₂ a₂ : RunState σ₂}

/-- **A feature goes on alike** if it does not pass on from one report to the next. -/
lemma Alike.featureStep (same : w₁.SameButEmitter w₂) (h : Alike s₁ s₂) (i task : Nat)
    (counted₁ : ¬ PassesOn w₁ s₁ (.feature i task))
    (counted₂ : ¬ PassesOn w₂ s₂ (.feature i task)) :
    Option.Rel Alike (s₁.featureStep? w₁ i task) (s₂.featureStep? w₂ i task) := by
  have limiter : s₂.limiter = s₁.limiter := by rw [h.recast]; rfl
  unfold featureStep?
  rcases h.feature i with ⟨h₁, h₂⟩ | ⟨f, c, h₁, h₂, alike⟩
  · rw [h₁, h₂]
    exact .none
  rcases CompletionState.bare_eq alike with
    ⟨rfl, quiet⟩ | ⟨snapshot, call, rest, call', rest', hf, rfl⟩
  · have h₂ : s₂.features[i]? = some f := h₂
    rw [h₁, h₂]
    refine iteStep .none ?_
    cases hc : f.completion with
    | reporting snapshot call rest => exact absurd hc (quiet _ _ _)
    | _ =>
      cases f.waiter with
      | some waiter =>
        dsimp only
        rw [limiter]
        refine iteStep ?_ .none
        cases s₁.limiter.poll? waiter with
        | none => exact .none
        | some given =>
          refine .some (givePermit ?_ i given.1)
          obtain ⟨features, files, log, trace, rfl⟩ := h.exists_recast
          exact ⟨rfl, h.features, h.outline⟩
      | none =>
        cases f.acts with
        | nil => exact .some (h.finishFeature i)
        | cons next rest => exact h.act same i task f next rest
  · rw [h₁, h₂]
    by_cases running : f.phase = .running
    · -- Both end a report call, and neither has another one to make.
      have last₁ : rest = [] ∨
          (w₁.emitter.perform w₁.config.reportDir call s₁.files).1.error? ≠ none := by
        cases rest with
        | nil => exact .inl rfl
        | cons next rest => exact .inr fun fine => counted₁ (.feature h₁ running hf fine)
      have last₂ : rest' = [] ∨
          (w₂.emitter.perform w₂.config.reportDir call' s₂.files).1.error? ≠ none := by
        cases rest' with
        | nil => exact .inl rfl
        | cons next rest => exact .inr fun fine => counted₂ (.feature h₂ running rfl fine)
      simp only [ne_eq, running, not_true_eq_false, if_false, hf]
      exact .some (((alike_signal last₁).symm.trans (h.signal i)).trans (alike_signal last₂))
    · simp only [ne_eq, running, not_false_eq_true, if_true]
      exact .none

/-- **Whoever steps, both suites go on alike.** -/
theorem Alike.step (same : w₁.SameButEmitter w₂) (h : Alike s₁ s₂) (p : Party)
    (answer : SameAnswer w₁ w₂ s₁ s₂) (counted₁ : ¬ PassesOn w₁ s₁ p)
    (counted₂ : ¬ PassesOn w₂ s₂ p) : Option.Rel Alike (s₁.step? w₁ p) (s₂.step? w₂ p) := by
  cases p with
  | caller => exact h.callerStep same answer
  | lane => exact h.laneStep
  | feature i task => exact h.featureStep same i task counted₁ counted₂
  | pool i => exact h.poolStep i

/-! ### Orders -/

lemma Reaches.exists_order {w : Suite σ} {a s : RunState σ} (h : Reaches w a s) :
    ∃ order, RunsInOrder w a order s := by
  induction h with
  | refl => exact ⟨[], .start⟩
  | @step s t p reach next ih =>
    obtain ⟨order, run⟩ := ih
    by_cases passes : PassesOn w s p
    · exact ⟨order, .passesOn p run next passes⟩
    · exact ⟨order ++ [p], .counts p run next passes⟩

lemma RunsInOrder.reaches {w : Suite σ} {a s : RunState σ} {order : List Party}
    (h : RunsInOrder w a order s) : Reaches w a s := by
  induction h with
  | start => exact .refl a
  | counts p run next counted ih => exact .step p ih next
  | passesOn p run next passes ih => exact .step p ih next

/-- In runs of one order both emitters answer the same to what is asked about the suite. -/
def SameAnswers (w₁ : Suite σ₁) (w₂ : Suite σ₂) (a₁ : RunState σ₁) (a₂ : RunState σ₂) : Prop :=
  ∀ order s₁ s₂, RunsInOrder w₁ a₁ order s₁ → RunsInOrder w₂ a₂ order s₂ → Alike s₁ s₂ →
    SameAnswer w₁ w₂ s₁ s₂

lemma sameAnswers_of_forall (same : w₁.SameButEmitter w₂)
    (h : ∀ dir call files₁ files₂, call.isPerFeature = false →
      (w₁.emitter.perform dir call files₁).1 = (w₂.emitter.perform dir call files₂).1) :
    SameAnswers w₁ w₂ a₁ a₂ := by
  intro order s₁ s₂ run₁ run₂ alike report rest page stage
  have call : s₂.reportCall report = s₁.reportCall report := by rw [alike.recast]; rfl
  unfold answer
  rw [call, ← same.config]
  exact h _ _ _ _ (by cases report <;> rfl)

/-- **Runs in one order are alike.** -/
theorem RunsInOrder.alike (same : w₁.SameButEmitter w₂) (first : Alike a₁ a₂)
    (answers : SameAnswers w₁ w₂ a₁ a₂) {order : List Party}
    (run₁ : RunsInOrder w₁ a₁ order s₁) (run₂ : RunsInOrder w₂ a₂ order s₂) : Alike s₁ s₂ := by
  induction run₁ generalizing s₂ with
  | start =>
    generalize none_yet : ([] : List Party) = order at run₂
    induction run₂ with
    | start => exact first
    | counts p run next counted ih => simp at none_yet
    | passesOn p run next passes ih => exact (ih none_yet).trans (passes.alike next)
  | @passesOn order s₁ t₁ p run₁ next passes ih =>
    exact (passes.alike next).symm.trans (ih run₂)
  | @counts order s₁ t₁ p run₁ next counted ih =>
    generalize last : order ++ [p] = order' at run₂
    induction run₂ with
    | start => simp at last
    | passesOn q run₂ next₂ passes ih₂ => exact (ih₂ last).trans (passes.alike next₂)
    | @counts order₂ s₂ t₂ q run₂ next₂ counted₂ ih₂ =>
      obtain ⟨rfl, rfl⟩ : order = order₂ ∧ p = q := by simpa using List.append_inj' last rfl
      have alike := ih run₂
      have both := alike.step same p (answers _ _ _ run₁ run₂ alike) counted counted₂
      rw [next, next₂] at both
      cases both with
      | some alike => exact alike

lemma RunsInOrder.settles {w : Suite σ} {a s : RunState σ} {order : List Party}
    (run : RunsInOrder w a order s) (p : Party) :
    ∃ t, RunsInOrder w a order t ∧ ¬ PassesOn w t p := by
  by_cases passes : PassesOn w s p
  · cases passes with
    | @feature i task f snapshot call next rest found running reports fine =>
      induction rest generalizing s f call next with
      | nil =>
        have stepped := step_passesOn task found running reports fine
        refine ⟨_, .passesOn _ run stepped.1 (.feature found running reports fine), ?_⟩
        intro passes
        cases passes with
        | feature found' running' reports' fine' =>
          rw [stepped.2, Option.some.injEq] at found'
          subst found'
          cases reports'
      | cons next' rest ih =>
        have stepped := step_passesOn task found running reports fine
        have run' := RunsInOrder.passesOn _ run stepped.1 (.feature found running reports fine)
        by_cases failed : (w.emitter.perform w.config.reportDir next
            (s.endCall w i snapshot call (next :: next' :: rest)).files).1.error? = none
        · exact ih run' stepped.2 running rfl failed
        · refine ⟨_, run', fun passes => ?_⟩
          cases passes with
          | feature found' running' reports' fine' =>
            rw [stepped.2, Option.some.injEq] at found'
            subst found'
            cases reports'
            exact failed fine'
  · exact ⟨s, run, passes⟩

/-- **What order one suite is run in, the other can be.** -/
theorem RunsInOrder.exists_run (same : w₁.SameButEmitter w₂) (first : Alike a₁ a₂)
    (answers : SameAnswers w₁ w₂ a₁ a₂) {order : List Party}
    (run₁ : RunsInOrder w₁ a₁ order s₁) : ∃ s₂, RunsInOrder w₂ a₂ order s₂ := by
  induction run₁ with
  | start => exact ⟨a₂, .start⟩
  | passesOn p run next passes ih => exact ih
  | @counts order s₁ t₁ p run₁ next counted ih =>
    obtain ⟨u₂, run⟩ := ih
    obtain ⟨s₂, run₂, counted₂⟩ := run.settles p
    have alike := run₁.alike same first answers run₂
    have both := alike.step same p (answers _ _ _ run₁ run₂ alike) counted counted₂
    rw [next] at both
    cases next₂ : s₂.step? w₂ p with
    | none => rw [next₂] at both; cases both
    | some t₂ => exact ⟨t₂, .counts p run₂ next₂ counted₂⟩

end RunState

end FeatureBatch
