import Mathlib.Data.List.Forall2
import FeatureBatch.Proofs.Records.Totals
import FeatureBatch.Proofs.Run.Samples
import FeatureBatch.Proofs.Run.Verdicts

/-!
Serial and parallel runs. Two runs of a batch, each with any number of threads, come to the same
results if what a single runtime comes to does not hang on the mode: features are made up to the
same refusal, every one is played, and the caller makes the same calls after the wait.
-/

namespace FeatureBatch

/-- The runtime is asked, completed and started without giving up. -/
structure Runtime.IsCalm (r : Runtime) : Prop where
  record : r.recordPanics = none
  completion : r.completionPanics = none
  start : r.startPanics = none

/-- What making a runtime for the same feature comes to in two suites: a refusal in both, or
runtimes of which every play of the one has the outcome of every play of the other. -/
inductive Counterpart (answers₁ answers₂ : Nat → Bool → Prop) : Creation → Creation → Prop where
  | refused (reason₁ reason₂ : String) :
      Counterpart answers₁ answers₂ (.refused reason₁) (.refused reason₂)
  | made {r₁ r₂ : Runtime} (calm₁ : r₁.IsCalm) (calm₂ : r₂.IsCalm)
      (same : ∀ us vs invoked₁ invoked₂, Act.Plays answers₁ r₁.acts us invoked₁ →
        Act.Plays answers₂ r₂.acts vs invoked₂ → invoked₁ = invoked₂ ∧
          FeatureRecord.SameOutcome (r₁.record.applyAll us) (r₂.record.applyAll vs)) :
      Counterpart answers₁ answers₂ (.made r₁) (.made r₂)

/-- Two suites with the same features, with the same calls to make after the wait, and with runtimes
that are counterparts. The number of threads is free. -/
structure Counterparts {σ₁ σ₂ : Type} (w₁ : Suite σ₁) (w₂ : Suite σ₂) (a₁ : RunState σ₁)
    (a₂ : RunState σ₂) : Prop where
  features : w₁.config.features = w₂.config.features
  html : w₁.config.outputs.html = w₂.config.outputs.html
  hooks : w₁.config.hooks.length = w₂.config.hooks.length
  creations : ∀ i f, w₁.config.features[i]? = some f →
    Counterpart (w₁.Answers a₁ i) (w₂.Answers a₂ i) (w₁.runtimes i f) (w₂.runtimes i f)

/-- Making a runtime does not give up, nor does the runtime before it runs. -/
def Creation.IsCalm : Creation → Prop
  | .made r => r.IsCalm
  | .refused _ => True
  | .panicked _ => False

/-- Dispatching has nothing to give up for. -/
def Suite.IsCalm {σ : Type} (w : Suite σ) : Prop :=
  ∀ i f, w.config.features[i]? = some f → (w.runtimes i f).IsCalm

lemma Suite.IsCalm.startsAll {σ : Type} {w : Suite σ} (calm : w.IsCalm) : w.StartsAll := by
  intro i r hr
  obtain ⟨f, hf, made⟩ := Suite.runtime?_eq_some.mp hr
  have here := calm i f hf
  rw [made] at here
  exact here.start

lemma Counterpart.calm {answers₁ answers₂ : Nat → Bool → Prop} {c₁ c₂ : Creation}
    (h : Counterpart answers₁ answers₂ c₁ c₂) : c₁.IsCalm ∧ c₂.IsCalm := by
  cases h with
  | refused reason₁ reason₂ => exact ⟨trivial, trivial⟩
  | made calm₁ calm₂ same => exact ⟨calm₁, calm₂⟩

namespace Counterparts

variable {σ₁ σ₂ : Type} {w₁ : Suite σ₁} {w₂ : Suite σ₂} {a₁ : RunState σ₁} {a₂ : RunState σ₂}

lemma symm (h : Counterparts w₁ w₂ a₁ a₂) : Counterparts w₂ w₁ a₂ a₁ where
  features := h.features.symm
  html := h.html.symm
  hooks := h.hooks.symm
  creations i f hf := by
    have pair := h.creations i f (h.features ▸ hf)
    revert pair
    generalize w₁.runtimes i f = c₁
    generalize w₂.runtimes i f = c₂
    intro pair
    cases pair with
    | refused reason₁ reason₂ => exact .refused reason₂ reason₁
    | made calm₁ calm₂ same =>
      refine .made calm₂ calm₁ fun us vs invoked₁ invoked₂ play₁ play₂ => ?_
      obtain ⟨told, outcome⟩ := same vs us invoked₂ invoked₁ play₂ play₁
      exact ⟨told.symm, outcome.symm⟩

lemma length_eq (h : Counterparts w₁ w₂ a₁ a₂) : w₁.creations.length = w₂.creations.length := by
  simp [Suite.creations, h.features]

lemma calm (h : Counterparts w₁ w₂ a₁ a₂) : w₁.IsCalm ∧ w₂.IsCalm :=
  ⟨fun i f hf => (h.creations i f hf).calm.1,
    fun i f hf => (h.creations i f (h.features ▸ hf)).calm.2⟩

lemma refused (h : Counterparts w₁ w₂ a₁ a₂) {n : Nat} {f : Feature} {reason : String}
    (found : w₁.creations[n]? = some (f, .refused reason)) :
    ∃ reason', w₂.creations[n]? = some (f, .refused reason') := by
  obtain ⟨hf, made⟩ := Suite.creations_eq_some.mp found
  have pair := h.creations n f hf
  rw [made] at pair
  generalize made₂ : w₂.runtimes n f = c₂ at pair
  cases pair
  exact ⟨_, Suite.creations_eq_some.mpr ⟨h.features ▸ hf, made₂⟩⟩

lemma outcomes (h : Counterparts w₁ w₂ a₁ a₂) {i : Nat} {r₁ r₂ : Runtime}
    (hr₁ : w₁.runtime? i = some r₁) (hr₂ : w₂.runtime? i = some r₂) {us vs : List RecordUpdate}
    {invoked₁ invoked₂ : Bool} (play₁ : Act.Plays (w₁.Answers a₁ i) r₁.acts us invoked₁)
    (play₂ : Act.Plays (w₂.Answers a₂ i) r₂.acts vs invoked₂) :
    invoked₁ = invoked₂ ∧
      FeatureRecord.SameOutcome (r₁.record.applyAll us) (r₂.record.applyAll vs) := by
  obtain ⟨f, hf, made₁⟩ := Suite.runtime?_eq_some.mp hr₁
  obtain ⟨g, hg, made₂⟩ := Suite.runtime?_eq_some.mp hr₂
  rw [← h.features, hf, Option.some.injEq] at hg
  subst hg
  have pair := h.creations i f hf
  rw [made₁, made₂] at pair
  cases pair with
  | made calm₁ calm₂ same => exact same us vs invoked₁ invoked₂ play₁ play₂

end Counterparts

namespace RunState

section Calm

variable {σ : Type} {w : Suite σ} {s t : RunState σ} {limiter : AdmissionLimiter} {files : σ}

lemma creation_isCalm (calm : w.IsCalm) (sound : Sound w s) (dispatching : s.stage = .dispatching)
    {feature : Feature} {creation : Creation} {rest : List (Feature × Creation)}
    (next : s.pending = (feature, creation) :: rest) : creation.IsCalm := by
  obtain ⟨hf, made⟩ := Suite.creations_eq_some.mp (sound.next dispatching next).1
  exact made ▸ calm _ _ hf

lemma Unwinds.not_calm {payload : PanicPayload} (why : Unwinds s payload) (sound : Sound w s)
    (dispatching : s.stage = .dispatching) : ¬ w.IsCalm := by
  intro calm
  cases why with
  | before why =>
    cases why with
    | create next => exact creation_isCalm calm sound dispatching next
    | record next panics =>
      have asked := (creation_isCalm calm sound dispatching next).record
      rw [asked] at panics
      cases panics
  | after next why =>
    have made : Runtime.IsCalm _ := creation_isCalm calm sound dispatching next
    rcases why with panics | ⟨-, -, panics⟩
    · rw [made.completion] at panics
      cases panics
    · rw [made.start] at panics
      cases panics

lemma Reaches.awaited (h : Reaches w (w.start limiter files) s) (calm : w.IsCalm)
    (late : s.stage.isEarly = false) : Awaited w (w.start limiter files) s := by
  have sound := sound_start w limiter files
  refine (h.awaited_or_unwound sound rfl late).resolve_right fun unwound => ?_
  obtain ⟨reach, dispatching, why, -, -, -⟩ := unwound
  exact why.not_calm (reach.sound sound) dispatching calm

lemma Reaches.counted {a : RunState σ} {error : Option SuiteError} (sound : Sound w a)
    (before : Reaches w a (a.leaveWaiting w error)) (h : Reaches w (a.leaveWaiting w error) s) :
    s.stage.lacksTotals = true ∨
      ∃ u, Reaches w a u ∧ Totals.ofRecords u.book.registered = .ok s.results.totals := by
  induction h with
  | refl => exact (leaveWaiting_recounts w a error).imp_right fun recounts => ⟨_, before, recounts⟩
  | @step s t p reaches next ih =>
    have sound_l := before.sound sound
    by_cases hp : p = .caller
    · subst hp
      obtain ⟨step, rests⟩ := callerStep_late next
        (reaches.isEarly sound_l (leaveWaiting_stage w a error))
      rcases step.totals rests with lacks | recounts | ⟨same, computed⟩
      · exact .inl lacks
      · exact .inr ⟨t, (before.trans reaches).trans (.step .caller (.refl s) next), recounts⟩
      · rcases ih with lacks | ⟨u, hu, totals⟩
        · rw [computed] at lacks
          cases lacks
        · exact .inr ⟨u, hu, same ▸ totals⟩
    · have keeps := step_keeps (reaches.sound sound_l) next hp
      rcases ih with lacks | ⟨u, hu, totals⟩
      · exact .inl (keeps.stage ▸ lacks)
      · exact .inr ⟨u, hu, keeps.results ▸ totals⟩

end Calm

/-! ### Two runs -/

section TwoRuns

variable {σ₁ σ₂ : Type} {w₁ : Suite σ₁} {w₂ : Suite σ₂} {a₁ : RunState σ₁} {a₂ : RunState σ₂}

lemma dispatchEnd_le (h : Counterparts w₁ w₂ a₁ a₂) {m n : Nat} {e : Option SuiteError}
    (end₁ : DispatchEnd w₁ m e) (made₂ : ∀ i < n, ∃ r, w₂.runtime? i = some r)
    (le : n ≤ w₂.creations.length) : n ≤ m := by
  by_contra more
  obtain ⟨r, hr⟩ := made₂ m (by omega)
  obtain ⟨g, hg, made⟩ := Suite.runtime?_eq_some.mp hr
  cases end₁ with
  | all length => have := h.length_eq; omega
  | refused here =>
    obtain ⟨reason, found⟩ := h.refused here
    obtain ⟨hf, refused⟩ := Suite.creations_eq_some.mp found
    rw [hg, Option.some.injEq] at hf
    subst hf
    rw [made] at refused
    cases refused

variable {limiter₁ limiter₂ : AdmissionLimiter} {files₁ : σ₁} {files₂ : σ₂}
variable {t₁ s₁ : RunState σ₁} {t₂ s₂ : RunState σ₂} {e₁ e₂ : Option SuiteError}

lemma dispatchEnd_agree
    (h : Counterparts w₁ w₂ (w₁.start limiter₁ files₁) (w₂.start limiter₂ files₂))
    (reach₁ : Reaches w₁ (w₁.start limiter₁ files₁) t₁) (waiting₁ : t₁.stage = .awaiting e₁)
    (reach₂ : Reaches w₂ (w₂.start limiter₂ files₂) t₂) (waiting₂ : t₂.stage = .awaiting e₂) :
    t₁.features.length = t₂.features.length ∧ e₁.map SuiteError.kind = e₂.map SuiteError.kind := by
  have sound₁ := reach₁.sound (sound_start w₁ limiter₁ files₁)
  have sound₂ := reach₂.sound (sound_start w₂ limiter₂ files₂)
  have end₁ := reach₁.dispatchEnd h.calm.1.startsAll waiting₁
  have end₂ := reach₂.dispatchEnd h.calm.2.startsAll waiting₂
  have le₁ := dispatchEnd_le h end₁ sound₂.exists_runtime (features_length_le sound₂)
  have le₂ := dispatchEnd_le h.symm end₂ sound₁.exists_runtime (features_length_le sound₁)
  have same : t₁.features.length = t₂.features.length := Nat.le_antisymm le₂ le₁
  refine ⟨same, ?_⟩
  rw [same] at end₁
  have lengths := h.length_eq
  cases end₁ with
  | all length =>
    cases end₂ with
    | all length₂ => rfl
    | refused here =>
      have := (List.getElem?_eq_some_iff.mp here).1
      omega
  | refused here₁ =>
    cases end₂ with
    | all length₂ =>
      have := (List.getElem?_eq_some_iff.mp here₁).1
      omega
    | refused here₂ => rfl

lemma cells_agree
    (h : Counterparts w₁ w₂ (w₁.start limiter₁ files₁) (w₂.start limiter₂ files₂))
    {i : Nat} {r₁ r₂ : Runtime} {c₁ c₂ : Cell} (hr₁ : w₁.runtime? i = some r₁)
    (hr₂ : w₂.runtime? i = some r₂) (consistent₁ : c₁.Consistent) (consistent₂ : c₂.Consistent)
    (played₁ : Played w₁ (w₁.start limiter₁ files₁) t₁ i r₁ c₁)
    (played₂ : Played w₂ (w₂.start limiter₂ files₂) t₂ i r₂ c₂) :
    c₁.record.SameOutcome c₂.record ∧ c₁.signal = c₂.signal := by
  obtain ⟨us, record₁, play₁⟩ := played₁.playing.settled consistent₁ played₁.settled
  obtain ⟨vs, record₂, play₂⟩ := played₂.playing.settled consistent₂ played₂.settled
  obtain ⟨told, outcome⟩ := h.outcomes hr₁ hr₂ play₁ play₂
  refine ⟨record₁ ▸ record₂ ▸ outcome, ?_⟩
  rw [← signal_of_settled played₁.settled, ← signal_of_settled played₂.settled, told]

lemma records_agree
    (h : Counterparts w₁ w₂ (w₁.start limiter₁ files₁) (w₂.start limiter₂ files₂))
    (reach₁ : Reaches w₁ (w₁.start limiter₁ files₁) t₁) (waiting₁ : t₁.stage = .awaiting e₁)
    (settled₁ : t₁.AllSettled) (h₁ : Reaches w₁ t₁ s₁)
    (reach₂ : Reaches w₂ (w₂.start limiter₂ files₂) t₂) (waiting₂ : t₂.stage = .awaiting e₂)
    (settled₂ : t₂.AllSettled) (h₂ : Reaches w₂ t₂ s₂) :
    List.Forall₂ FeatureRecord.SameOutcome s₁.book.registered s₂.book.registered ∧
      s₁.barrier.signals = s₂.barrier.signals := by
  have starts₁ := h.calm.1.startsAll
  have starts₂ := h.calm.2.startsAll
  have reach_s₁ := reach₁.trans h₁
  have reach_s₂ := reach₂.trans h₂
  have sound₁ := reach_s₁.sound (sound_start w₁ limiter₁ files₁)
  have sound₂ := reach_s₂.sound (sound_start w₂ limiter₂ files₂)
  -- Both runs dispatched as many features, and none has been added since the wait.
  have lengths : s₁.cells.length = s₂.cells.length := by
    have same := (dispatchEnd_agree h reach₁ waiting₁ reach₂ waiting₂).1
    have al₁ := (reach₁.sound (sound_start w₁ limiter₁ files₁)).aligned
    have al₂ := (reach₂.sound (sound_start w₂ limiter₂ files₂)).aligned
    rw [sound₁.aligned.length_cells, sound₂.aligned.length_cells, ← sound₁.aligned.signals,
      ← sound₂.aligned.signals, reach₁.signals_eq starts₁ waiting₁ settled₁ h₁,
      reach₂.signals_eq starts₂ waiting₂ settled₂ h₂, al₁.signals, al₂.signals, same]
  have agree : ∀ i (hi₁ : i < s₁.cells.length) (hi₂ : i < s₂.cells.length),
      s₁.cells[i].record.SameOutcome s₂.cells[i].record ∧
        s₁.cells[i].signal = s₂.cells[i].signal := by
    intro i hi₁ hi₂
    have hc₁ := List.getElem?_eq_getElem hi₁
    have hc₂ := List.getElem?_eq_getElem hi₂
    obtain ⟨r₁, hr₁, -⟩ := sound₁.made i _ hc₁
    obtain ⟨r₂, hr₂, -⟩ := sound₂.made i _ hc₂
    exact cells_agree h hr₁ hr₂ (reach_s₁.consistent hc₁) (reach_s₂.consistent hc₂)
      (reach₁.played starts₁ waiting₁ settled₁ h₁ hc₁ hr₁)
      (reach₂.played starts₂ waiting₂ settled₂ h₂ hc₂ hr₂)
  rw [sound₁.aligned.registered_eq, sound₂.aligned.registered_eq, ← sound₁.aligned.map_signal,
    ← sound₂.aligned.map_signal]
  constructor
  · rw [List.forall₂_iff_get]
    refine ⟨by simp [lengths], fun i hi₁ hi₂ => ?_⟩
    rw [List.length_map] at hi₁ hi₂
    simpa using (agree i hi₁ hi₂).1
  · apply List.ext_getElem (by simp [lengths])
    intro i hi₁ hi₂
    rw [List.length_map] at hi₁ hi₂
    simpa using (agree i hi₁ hi₂).2

lemma planLength_agree
    (h : Counterparts w₁ w₂ (w₁.start limiter₁ files₁) (w₂.start limiter₂ files₂))
    {rs ss : List FeatureRecord} (same : List.Forall₂ FeatureRecord.SameOutcome rs ss) :
    planLength w₁ rs = planLength w₂ ss := by
  have executed :
      (rs.filter fun r => !r.isEmpty).length = (ss.filter fun r => !r.isEmpty).length := by
    induction same with
    | nil => rfl
    | cons outcome _ ih =>
      rw [List.filter_cons, List.filter_cons, outcome.isEmpty]
      split <;> simp [ih]
  unfold planLength
  rw [h.html, h.hooks, executed]

/-- The calls about the suite that both runs have made in the same place came to the same in both,
or to errors of the same kind. -/
def VerdictsAgree (s₁ : RunState σ₁) (s₂ : RunState σ₂) : Prop :=
  ∀ (k : Nat) (v₁ v₂ : Option SuiteError), s₁.verdicts[k]? = some v₁ → s₂.verdicts[k]? = some v₂ →
    v₁.map SuiteError.kind = v₂.map SuiteError.kind

lemma VerdictsAgree.symm (h : VerdictsAgree s₁ s₂) : VerdictsAgree s₂ s₁ :=
  fun k v₂ v₁ h₂ h₁ => (h k v₁ v₂ h₁ h₂).symm

lemma waitVerdict_agree
    (outcomes : List.Forall₂ FeatureRecord.SameOutcome t₁.book.registered t₂.book.registered)
    (dispatch : e₁.map SuiteError.kind = e₂.map SuiteError.kind) :
    (t₁.waitVerdict e₁).map SuiteError.kind = (t₂.waitVerdict e₂).map SuiteError.kind := by
  have same : t₁.book.Countable ↔ t₂.book.Countable := by
    rw [ResultsBook.Countable, ResultsBook.Countable, durations_eq outcomes]
  rw [waitVerdict_eq, waitVerdict_eq]
  by_cases countable : t₁.book.Countable
  · rw [if_pos countable, if_pos (same.mp countable), dispatch]
  · rw [if_neg countable, if_neg fun h => countable (same.mpr h)]

lemma VerdictsAgree.not_passed (h : VerdictsAgree s₁ s₂) {k m : Nat} {e : SuiteError}
    {more : List (Option SuiteError)} (made₁ : s₁.verdicts = List.replicate k none ++ [some e])
    (made₂ : s₂.verdicts = List.replicate m none ++ more) : m ≤ k := by
  by_contra passed
  have here₁ : s₁.verdicts[k]? = some (some e) := by
    rw [made₁, List.getElem?_append_right (by simp)]
    simp
  have here₂ : s₂.verdicts[k]? = some none := by
    rw [made₂, List.getElem?_append_left (by simp; omega), List.getElem?_replicate,
      if_pos (by omega)]
  cases h k _ _ here₁ here₂

lemma VerdictsAgree.not_all (h : VerdictsAgree s₁ s₂) {k plan : Nat} {e : SuiteError}
    (among : k < plan) (made₁ : s₁.verdicts = List.replicate k none ++ [some e])
    (made₂ : s₂.verdicts = List.replicate plan none) : False := by
  have passed : plan ≤ k := h.not_passed made₁ (made₂.trans (List.append_nil _).symm)
  omega

lemma reason_agree {plan : Nat} (progress₁ : Progress w₁ e₁ plan s₁)
    (progress₂ : Progress w₂ e₂ plan s₂) (final₁ : s₁.stage.isFinal = true)
    (final₂ : s₂.stage.isFinal = true)
    (dispatch : e₁.map SuiteError.kind = e₂.map SuiteError.kind) (verdicts : VerdictsAgree s₁ s₂) :
    s₁.results.failureReason.map SuiteError.kind =
      s₂.results.failureReason.map SuiteError.kind := by
  rcases progress₁.outcome final₁ with ⟨reason₁, ended₁, made₁⟩ | ⟨f₁, reason₁, fails₁⟩ <;>
    rcases progress₂.outcome final₂ with ⟨reason₂, ended₂, made₂⟩ | ⟨f₂, reason₂, fails₂⟩ <;>
    rw [reason₁, reason₂]
  · -- One run succeeds: all its calls passed, so the other cannot have failed of one.
    cases fails₂ with
    | dispatch ended none_made => rw [ended₁, ended] at dispatch; cases dispatch
    | call ended among made => exact (verdicts.symm.not_all among made made₁).elim
  · cases fails₁ with
    | dispatch ended none_made => rw [ended₂, ended] at dispatch; cases dispatch
    | call ended among made => exact (verdicts.not_all among made made₂).elim
  · cases fails₁ with
    | dispatch ended none_made =>
      cases fails₂ with
      | dispatch ended' none_made' => rw [← ended, ← ended', dispatch]
      | call ended' among made => rw [ended, ended'] at dispatch; cases dispatch
    | @call k ended among made =>
      cases fails₂ with
      | dispatch ended' none_made => rw [ended, ended'] at dispatch; cases dispatch
      | @call m ended' among' made' =>
        -- Each run passed the calls before its failed one, so both failed at the same place.
        have same : k = m := Nat.le_antisymm (verdicts.symm.not_passed made' made)
          (verdicts.not_passed made made')
        subst same
        refine verdicts k _ _ ?_ ?_
        · rw [made, List.getElem?_append_right (by simp)]
          simp
        · rw [made', List.getElem?_append_right (by simp)]
          simp

/-- **Serial and parallel runs agree.** Two runs of counterparts, with any number of threads and in
any order of steps, end with the same counts and times, the same count of signals, the same kind of
failure and the same failed features in the same order, with the same messages up to their order. -/
theorem modes_agree {σ₁ σ₂ : Type} {w₁ : Suite σ₁} {w₂ : Suite σ₂}
    {limiter₁ limiter₂ : AdmissionLimiter} {files₁ : σ₁} {files₂ : σ₂} {s₁ : RunState σ₁}
    {s₂ : RunState σ₂}
    (counterparts : Counterparts w₁ w₂ (w₁.start limiter₁ files₁) (w₂.start limiter₂ files₂))
    (reach₁ : Reaches w₁ (w₁.start limiter₁ files₁) s₁) (done₁ : s₁.isDone = true)
    (reach₂ : Reaches w₂ (w₂.start limiter₂ files₂) s₂) (done₂ : s₂.isDone = true)
    (verdicts : VerdictsAgree s₁ s₂) :
    Totals.Agree s₁.results.totals s₂.results.totals ∧
      (∃ arrivals, s₁.releases = [arrivals] ∧ s₂.releases = [arrivals]) ∧
      s₁.results.failureReason.map SuiteError.kind =
        s₂.results.failureReason.map SuiteError.kind := by
  have counted₁ := hasTotals_of_isDone done₁
  have counted₂ := hasTotals_of_isDone done₂
  have late₁ := isEarly_of_hasTotals counted₁
  have late₂ := isEarly_of_hasTotals counted₂
  obtain ⟨t₁, e₁, to₁, waiting₁, settled₁, release₁, released₁⟩ :=
    (reach₁.awaited counterparts.calm.1 late₁).release late₁
  obtain ⟨t₂, e₂, to₂, waiting₂, settled₂, release₂, released₂⟩ :=
    (reach₂.awaited counterparts.calm.2 late₂).release late₂
  have sound₁ := to₁.sound (sound_start w₁ limiter₁ files₁)
  have sound₂ := to₂.sound (sound_start w₂ limiter₂ files₂)
  obtain ⟨outcomes, signals⟩ := records_agree counterparts to₁ waiting₁ settled₁ (.refl t₁) to₂
    waiting₂ settled₂ (.refl t₂)
  obtain ⟨progress₁, releases₁⟩ := to₁.progress waiting₁ release₁ released₁
  obtain ⟨progress₂, releases₂⟩ := to₂.progress waiting₂ release₂ released₂
  refine ⟨?_, ⟨t₁.barrier.arrivals, releases₁, ?_⟩, ?_⟩
  · obtain ⟨u₁, hu₁, totals₁⟩ := (release₁.counted sound₁ released₁).resolve_left
      (Bool.eq_false_iff.mp (isFinal_of_hasTotals counted₁).2)
    obtain ⟨u₂, hu₂, totals₂⟩ := (release₂.counted sound₂ released₂).resolve_left
      (Bool.eq_false_iff.mp (isFinal_of_hasTotals counted₂).2)
    have same := (records_agree counterparts to₁ waiting₁ settled₁ hu₁ to₂ waiting₂ settled₂ hu₂).1
    exact Totals.agree_ofRecords same totals₁ totals₂
  · rw [releases₂, CompletionBarrier.arrivals, CompletionBarrier.arrivals, signals]
  · rw [planLength_agree counterparts outcomes] at progress₁
    have dispatch := (dispatchEnd_agree counterparts to₁ waiting₁ to₂ waiting₂).2
    exact reason_agree progress₁ progress₂ (isFinal_of_hasTotals counted₁).1
      (isFinal_of_hasTotals counted₂).1 (waitVerdict_agree outcomes dispatch) verdicts

end TwoRuns

/-! ### A batch in both modes -/

/-- A batch with a runtime whose two tasks write in any order, one that crashes, and a hook that
fails. -/
def bothBatch (threads : UInt64) (threads_pos : 0 < threads) : Suite Unit :=
  smallSuite threads threads_pos true [⟨"h", fun _ => .failed "no"⟩]
    [.made (.ofActs (smallFeature "f")
        [.work [.addScenario failing, .addScenario passing], .complete]),
      .made (.ofActs (smallFeature "f") [.panic .noText])]

def bothSerial : RunState Unit :=
  ((bothBatch 1 one_thread).start smallLimiter ()).play (bothBatch 1 one_thread)
    ([.caller] ++ List.replicate 5 (.feature 0 0) ++ [.caller, .caller, .feature 1 0] ++
      List.replicate 14 .caller)

/-- The second runtime crashes before the first writes, and that one's second task writes first. -/
def bothParallel : RunState Unit :=
  ((bothBatch 2 two_threads).start smallLimiter ()).play (bothBatch 2 two_threads)
    ([.caller, .caller, .caller, .lane, .lane, .lane, .lane, .feature 1 0, .feature 0 1] ++
      List.replicate 4 (.feature 0 0) ++ List.replicate 11 .caller ++ [.lane] ++
      List.replicate 5 .caller)

lemma bothBatch_counterparts {a₁ a₂ : RunState Unit} :
    Counterparts (bothBatch 1 (by decide)) (bothBatch 2 (by decide)) a₁ a₂ where
  features := rfl
  html := rfl
  hooks := rfl
  creations i f hf := by
    match i with
    | 0 =>
      refine .made ⟨rfl, rfl, rfl⟩ ⟨rfl, rfl, rfl⟩ ?_
      rintro us vs invoked₁ invoked₂ ⟨ts₁, ls₁, perm₁, rfl, rfl, rfl⟩
        ⟨ts₂, ls₂, perm₂, rfl, rfl, rfl⟩
      refine ⟨rfl, .of_perm _ ((perm₁.trans perm₂.symm).append_right []) fun u hu => ?_⟩
      rw [List.append_nil, perm₁.mem_iff, List.mem_pair] at hu
      rcases hu with rfl | rfl <;> rfl
    | 1 =>
      refine .made ⟨rfl, rfl, rfl⟩ ⟨rfl, rfl, rfl⟩ ?_
      rintro us vs invoked₁ invoked₂ ⟨rfl, rfl⟩ ⟨rfl, rfl⟩
      exact ⟨rfl, rfl, .refl _, rfl⟩
    | _ + 2 => cases hf

/-- The two runs of the batch agree. -/
theorem bothBatch_agrees :
    (bothSerial.isDone = true ∧ bothParallel.isDone = true ∧
      VerdictsAgree bothSerial bothParallel) ∧
    Totals.Agree bothSerial.results.totals bothParallel.results.totals ∧
      (∃ arrivals, bothSerial.releases = [arrivals] ∧ bothParallel.releases = [arrivals]) ∧
      bothSerial.results.failureReason.map SuiteError.kind =
        bothParallel.results.failureReason.map SuiteError.kind := by
  have verdicts : VerdictsAgree bothSerial bothParallel := by
    have same : bothSerial.verdicts = bothParallel.verdicts := by rfl
    intro k v₁ v₂ h₁ h₂
    rw [same, h₂, Option.some.injEq] at h₁
    rw [h₁]
  exact ⟨⟨by rfl, by rfl, verdicts⟩, modes_agree bothBatch_counterparts (reaches_play _ _ _)
    (by rfl) (reaches_play _ _ _) (by rfl) verdicts⟩

end RunState

end FeatureBatch
