import FeatureBatch.Proofs.Exec.Limiter
import FeatureBatch.Proofs.Run.Dispatch
import Mathlib.Algebra.Ring.Nat

/-!
Deeds: what a step does to one feature, and what it adds to the trace. Where the moves of a cell say
how record and signal change, a deed says which calls have begun and ended, with which outcome; and
every deed takes something off what the feature still has to do.
-/

namespace FeatureBatch

/-- The feature of which the event is a milestone: it starts, or something becomes of its
completion. -/
def RunEvent.milestone? : RunEvent → Option Nat
  | .started i => some i
  | .invoked i _ => some i
  | .callBegan i _ => some i
  | .callEnded i _ _ => some i
  | .signalled i => some i
  | .abandoned i => some i
  | _ => none

/-- The report calls that the completion has still to make. -/
def CompletionState.effort : CompletionState → Nat
  | .reporting _ _ rest => rest.length + 1
  | _ => 0

namespace FeatureRun

/-- The completion is dropped, if it is still there to be dropped. -/
def drop (f : FeatureRun) : FeatureRun :=
  match f.completion with
  | .armed => { f with completion := .dropped }
  | _ => f

/-- What dropping the completion adds to the trace. -/
def farewell (f : FeatureRun) (i : Nat) : List RunEvent :=
  match f.completion with
  | .armed => [.abandoned i]
  | _ => []

def ended (f : FeatureRun) : FeatureRun :=
  { f with phase := .ended, acts := [], permits := [], waiter := none }

/-- More steps than the feature can still take. -/
def effort (f : FeatureRun) : Nat :=
  let work := (f.acts.map Suite.actWeight).sum + f.completion.effort +
    if f.waiter.isSome then 1 else 0
  match f.phase with
  | .queued => work + 2
  | .running => work + 1
  | _ => 0

@[simp] lemma drop_phase (f : FeatureRun) : f.drop.phase = f.phase := by
  unfold drop
  split <;> rfl

@[simp] lemma drop_acts (f : FeatureRun) : f.drop.acts = f.acts := by
  unfold drop
  split <;> rfl

@[simp] lemma drop_waiter (f : FeatureRun) : f.drop.waiter = f.waiter := by
  unfold drop
  split <;> rfl

@[simp] lemma drop_completion_effort (f : FeatureRun) :
    f.drop.completion.effort = f.completion.effort := by
  unfold drop
  split
  · rename_i armed
    rw [armed]
    rfl
  · rfl

@[simp] lemma drop_effort (f : FeatureRun) : f.drop.effort = f.effort := by
  simp only [effort, drop_acts, drop_waiter, drop_completion_effort, drop_phase]

lemma effort_running {f : FeatureRun} (running : f.phase = .running) :
    f.effort = (f.acts.map Suite.actWeight).sum + f.completion.effort +
      (if f.waiter.isSome then 1 else 0) + 1 := by
  unfold effort
  rw [running]

lemma effort_over {f : FeatureRun} (ended : f.phase = .ended ∨ f.phase = .discarded) :
    f.effort = 0 := by
  unfold effort
  rcases ended with ended | ended <;> rw [ended]

lemma effort_start {f : FeatureRun} (queued : f.phase = .queued) :
    ({ f with phase := .running } : FeatureRun).effort < f.effort := by
  simp [effort, queued]

end FeatureRun

namespace RunState

variable {σ : Type} {w : Suite σ} {s t u : RunState σ} {i : Nat} {f f' f'' : FeatureRun}
variable {events events' : List RunEvent}

/-- What others see of a step that changes feature `i`: the feature after it and what is added to
the trace. Nobody closes or opens the limiter. -/
structure Shows (s t : RunState σ) (i : Nat) (f f' : FeatureRun) (events : List RunEvent) :
    Prop where
  before : s.features[i]? = some f
  features : t.features = s.features.set i f'
  trace : t.trace = s.trace ++ events
  closed : t.limiter.closed = s.limiter.closed

namespace Shows

lemma after (h : Shows s t i f f' events) : t.features[i]? = some f' := by
  have hi : i < s.features.length := (List.getElem?_eq_some_iff.mp h.before).1
  rw [h.features]
  simp [hi]

lemma trans (h : Shows s t i f f' events) (k : Shows t u i f' f'' events') :
    Shows s u i f f'' (events ++ events') where
  before := h.before
  features := by rw [k.features, h.features, List.set_set]
  trace := by rw [k.trace, h.trace, List.append_assoc]
  closed := k.closed.trans h.closed

lemma share (hf : s.features[i]? = some f) (features : t.features = s.features)
    (trace : t.trace = s.trace) (closed : t.limiter.closed = s.limiter.closed) :
    Shows s t i f f [] where
  before := hf
  features := by
    rw [features]
    obtain ⟨hi, rfl⟩ := List.getElem?_eq_some_iff.mp hf
    exact (List.set_getElem_self hi).symm
  trace := by rw [trace, List.append_nil]
  closed := closed

lemma note (hf : s.features[i]? = some f) (e : RunEvent) : Shows s (s.note e) i f f [e] :=
  ⟨hf, (share (t := s) hf rfl rfl rfl).features, rfl, rfl⟩

lemma reportInside (hf : s.features[i]? = some f) (log : Log) :
    Shows s (s.reportInside log) i f f [] := by
  unfold RunState.reportInside
  split <;> exact share hf rfl rfl rfl

lemma updateFeature (hf : s.features[i]? = some f) (g : FeatureRun → FeatureRun) :
    Shows s (s.updateFeature i g) i f (g f) [] :=
  ⟨hf, modify_eq_set g hf, (List.append_nil _).symm, rfl⟩

lemma dropCompletion (hf : s.features[i]? = some f) :
    Shows s (s.dropCompletion i) i f f.drop (f.farewell i) := by
  unfold RunState.dropCompletion FeatureRun.drop FeatureRun.farewell
  rw [hf, Option.map_some]
  cases hc : f.completion with
  | armed =>
    have settled : Shows s { s with barrier := s.barrier.drop i } i f f [] :=
      share hf rfl rfl rfl
    have dropped := settled.trans (updateFeature settled.after ({ · with completion := .dropped }))
    exact dropped.trans (note dropped.after _)
  | _ => exact share hf rfl rfl rfl

lemma discard (hf : s.features[i]? = some f) :
    Shows s (s.discard i) i f ({ f with phase := .discarded } : FeatureRun).drop (f.farewell i) :=
  have marked := updateFeature hf ({ · with phase := .discarded })
  marked.trans (dropCompletion marked.after)

lemma start (hf : s.features[i]? = some f) :
    Shows s (s.begin i) i f { f with phase := .running } [.started i] :=
  have marked := updateFeature hf ({ · with phase := .running })
  marked.trans (note marked.after _)

lemma signal (hf : s.features[i]? = some f) :
    Shows s (s.signal i) i f { f with completion := .used } [.signalled i] := by
  have fired : Shows s { s with barrier := s.barrier.fire i } i f f [] := share hf rfl rfl rfl
  have used := fired.trans (updateFeature fired.after ({ · with completion := .used }))
  exact used.trans (note used.after _)

lemma finishFeature (hf : s.features[i]? = some f) :
    Shows s (s.finishFeature i) i f f.ended.drop (f.farewell i) := by
  unfold RunState.finishFeature
  rw [hf]
  dsimp only
  -- The permits go back and the waiter leaves, which leaves the limiter as open as it was.
  have returned : ∀ l : AdmissionLimiter, l.closed = s.limiter.closed →
      Shows s ({ s with limiter := l.releaseAll f.permits } : RunState σ) i f f [] := fun l same =>
    share hf rfl rfl ((AdmissionLimiter.releaseAll_closed l f.permits).trans same)
  have last : ∀ l : AdmissionLimiter, l.closed = s.limiter.closed →
      Shows s ((({ s with limiter := l.releaseAll f.permits } : RunState σ).updateFeature i
        ({ · with phase := .ended, acts := [], permits := [], waiter := none })).dropCompletion i)
        i f f.ended.drop (f.farewell i) := fun l same =>
    have ended := (returned l same).trans (updateFeature (returned l same).after
      ({ · with phase := .ended, acts := [], permits := [], waiter := none }))
    ended.trans (dropCompletion ended.after)
  split
  · exact last _ (AdmissionLimiter.cancel_closed _ _)
  · exact last _ rfl

end Shows

/-! ### Running features -/

/-- What a running feature `i` does in one step. -/
inductive Deed (w : Suite σ) (s : RunState σ) (i : Nat) (f : FeatureRun) :
    FeatureRun → List RunEvent → Prop where
  /-- An act or a look that does not concern the completion. -/
  | passes {f' : FeatureRun} {events : List RunEvent} (phase : f'.phase = .running)
      (completion : f'.completion = f.completion)
      (quiet : ∀ e ∈ events, e.milestone? = none) : Deed w s i f f' events
  | ends (idle : f.completion.isReporting = false) : Deed w s i f f.ended.drop (f.farewell i)
  | abandons (rest : List Act) (idle : f.completion.isReporting = false) :
      Deed w s i f ({ f with acts := rest } : FeatureRun).drop (f.farewell i)
  /-- The completion is invoked, and has nothing to report. -/
  | completes (rest : List Act) {snapshot : FeatureRecord} (armed : f.completion = .armed)
      (found : s.records.get? f.record = some snapshot)
      (nothing : snapshot.isEmpty = true ∨ wantedCalls w.config.outputs snapshot = []) :
      Deed w s i f { f with acts := rest, completion := .used } [.invoked i snapshot, .signalled i]
  /-- The completion is invoked, and its first report call begins. -/
  | reports (rest : List Act) {snapshot : FeatureRecord} {call : ReportCall}
      {calls : List ReportCall} (armed : f.completion = .armed)
      (found : s.records.get? f.record = some snapshot) (some_ran : snapshot.isEmpty = false)
      (wanted : wantedCalls w.config.outputs snapshot = call :: calls) :
      Deed w s i f { f with acts := rest, completion := .reporting snapshot call calls }
        [.invoked i snapshot, .callBegan i call]
  /-- A report call ends well, and the next one begins. -/
  | goesOn {snapshot : FeatureRecord} {call next : ReportCall} {rest : List ReportCall}
      {outcome : CallOutcome} (completion : f.completion = .reporting snapshot call (next :: rest))
      (fine : outcome.error? = none) :
      Deed w s i f { f with completion := .reporting snapshot next rest }
        [.callEnded i call outcome, .callBegan i next]
  /-- A report call ends that was the last one, or that failed. -/
  | signals {snapshot : FeatureRecord} {call : ReportCall} {rest : List ReportCall}
      {outcome : CallOutcome} (completion : f.completion = .reporting snapshot call rest)
      (last : outcome.error? ≠ none ∨ rest = []) :
      Deed w s i f { f with completion := .used } [.callEnded i call outcome, .signalled i]

lemma Shows.reportSignal (hf : s.features[i]? = some f) (log : Log) :
    Shows s ((s.reportInside log).signal i) i f { f with completion := .used } [.signalled i] :=
  have told := reportInside hf log
  told.trans (signal told.after)

lemma Shows.endCompletion (hf : s.features[i]? = some f) (snapshot : FeatureRecord)
    (error : Option SuiteError) : Shows s (s.endCompletion w i snapshot error) i f
      { f with completion := .used } [.signalled i] :=
  reportSignal hf _

lemma Shows.lastCall (hf : s.features[i]? = some f) (snapshot : FeatureRecord) :
    Shows s (s.nextCall w i snapshot []) i f { f with completion := .used } [.signalled i] :=
  endCompletion hf snapshot none

lemma Shows.nextCall (hf : s.features[i]? = some f) (snapshot : FeatureRecord) (call : ReportCall)
    (rest : List ReportCall) : Shows s (s.nextCall w i snapshot (call :: rest)) i f
      { f with completion := .reporting snapshot call rest } [.callBegan i call] :=
  have begun := updateFeature hf ({ · with completion := .reporting snapshot call rest })
  begun.trans (note begun.after _)

/-- A step that shows a deed of feature `i`, after which less is left to do. -/
structure Does (w : Suite σ) (s t : RunState σ) (i : Nat) (f f' : FeatureRun)
    (events : List RunEvent) : Prop where
  running : f.phase = .running
  seen : Shows s t i f f' events
  deed : Deed w s i f f' events
  effort : f'.effort < f.effort

lemma Shows.endCall (hf : s.features[i]? = some f) (snapshot : FeatureRecord) (call : ReportCall)
    (rest : List ReportCall) :
    ∃ outcome, outcome = (w.emitter.perform w.config.reportDir call s.files).1 ∧
      (outcome.error? ≠ none ∨ rest = [] → Shows s (s.endCall w i snapshot call rest) i f
        { f with completion := .used } [.callEnded i call outcome, .signalled i]) ∧
      ∀ next rest', rest = next :: rest' → outcome.error? = none →
        Shows s (s.endCall w i snapshot call rest) i f
          { f with completion := .reporting snapshot next rest' }
          [.callEnded i call outcome, .callBegan i next] := by
  have shared : Shows s
      { s with files := (w.emitter.perform w.config.reportDir call s.files).2 } i f f [] :=
    share hf rfl rfl rfl
  have ended := shared.trans (note shared.after
    (.callEnded i call (w.emitter.perform w.config.reportDir call s.files).1))
  refine ⟨_, rfl, fun last => ?_, fun next rest' more fine => ?_⟩
  · unfold RunState.endCall
    dsimp only
    split
    · exact ended.trans (endCompletion ended.after _ _)
    · rename_i fine
      rw [last.resolve_left fun failed => failed fine]
      exact ended.trans (lastCall ended.after snapshot)
  · subst more
    unfold RunState.endCall
    dsimp only
    rw [fine]
    exact ended.trans (nextCall ended.after _ _ _)

lemma endCall_does (hf : s.features[i]? = some f) (running : f.phase = .running)
    {snapshot : FeatureRecord} {call : ReportCall} {rest : List ReportCall}
    (reports : f.completion = .reporting snapshot call rest) :
    ∃ f' events, Does w s (s.endCall w i snapshot call rest) i f f' events := by
  obtain ⟨outcome, -, last, more⟩ := Shows.endCall (w := w) hf snapshot call rest
  have left : f.effort = (f.acts.map Suite.actWeight).sum + (rest.length + 1) +
      (if f.waiter.isSome then 1 else 0) + 1 := by
    rw [FeatureRun.effort_running running, reports]
    rfl
  have used : ({ f with completion := .used } : FeatureRun).effort < f.effort := by
    rw [left, FeatureRun.effort_running (f := { f with completion := .used }) running]
    simp only [CompletionState.effort]
    omega
  by_cases failed : outcome.error? = none
  · cases rest with
    | nil => exact ⟨_, _, running, last (.inr rfl), .signals reports (.inr rfl), used⟩
    | cons next rest =>
      refine ⟨_, _, running, more next rest rfl failed, .goesOn reports failed, ?_⟩
      rw [left, FeatureRun.effort_running
        (f := { f with completion := .reporting snapshot next rest }) running]
      simp only [CompletionState.effort, List.length_cons]
      omega
  · exact ⟨_, _, running, last (.inl failed), .signals reports (.inl failed), used⟩

/-! ### Acts -/

lemma effort_acts (running : f.phase = .running) (idle : f.completion.isReporting = false)
    (acts : List Act) (permits : List Nat) (waiter : Option Nat) :
    ({ f with acts, permits, waiter } : FeatureRun).effort =
      (acts.map Suite.actWeight).sum + (if waiter.isSome then 1 else 0) + 1 := by
  have none_left : f.completion.effort = 0 := by
    cases hc : f.completion with
    | reporting snapshot call rest => rw [hc] at idle; cases idle
    | _ => rfl
  rw [FeatureRun.effort_running (f := { f with acts, permits, waiter }) running]
  simp only [none_left, Nat.add_zero]

lemma effort_idle (running : f.phase = .running) (idle : f.completion.isReporting = false) :
    f.effort = (f.acts.map Suite.actWeight).sum + (if f.waiter.isSome then 1 else 0) + 1 :=
  effort_acts running idle f.acts f.permits f.waiter

lemma Shows.givePermit (hf : s.features[i]? = some f) (admission : Admission) :
    ∃ permits waiter, Shows s (s.givePermit i admission) i f { f with permits, waiter } [] ∧
      ((∀ n, admission ≠ .waiting n) → waiter = none) := by
  cases admission with
  | permit p => exact ⟨_, none, updateFeature hf _, fun _ => rfl⟩
  | waiting n => exact ⟨_, some n, updateFeature hf _, fun answered => absurd rfl (answered n)⟩
  | closed => exact ⟨_, none, updateFeature hf _, fun _ => rfl⟩

lemma finish_does (running : f.phase = .running) (idle : f.completion.isReporting = false)
    (seen : Shows s t i f f.ended.drop (f.farewell i)) :
    Does w s t i f f.ended.drop (f.farewell i) := by
  refine ⟨running, seen, .ends idle, ?_⟩
  rw [FeatureRun.effort_over (.inl (FeatureRun.drop_phase _)), FeatureRun.effort_running running]
  omega

lemma Shows.crash (hf : s.features[i]? = some f) :
    Shows s (s.crash i f) i f f.ended.drop (f.farewell i) := by
  have finished := finishFeature hf
  have told := finished.trans (reportInside finished.after
    [⟨.warn, s!"feature {f.feature.display} panicked before completing"⟩])
  rwa [List.append_nil] at told

lemma length_wantedCalls (outputs : OutputFormats) (snapshot : FeatureRecord) :
    (wantedCalls outputs snapshot).length ≤ 2 := by
  unfold wantedCalls
  split <;> split <;> simp

lemma invoke_does {rest : List Act} (hf : s.features[i]? = some f) (running : f.phase = .running)
    (acts : f.acts = .complete :: rest) (waits : f.waiter = none) (armed : f.completion = .armed)
    {snapshot : FeatureRecord} (found : s.records.get? f.record = some snapshot) :
    ∃ f' events, Does w s ((s.updateFeature i ({ · with acts := rest })).invoke w i snapshot) i f f'
      events := by
  have went := Shows.updateFeature hf ({ · with acts := rest })
  have invoked := went.trans (.note went.after (.invoked i snapshot))
  have left : f.effort = 4 + (rest.map Suite.actWeight).sum + 1 := by
    rw [FeatureRun.effort_running running, acts, armed, waits]
    simp only [List.map_cons, List.sum_cons, Suite.actWeight, CompletionState.effort]
    rfl
  have used : ({ f with acts := rest, completion := .used } : FeatureRun).effort < f.effort := by
    rw [left, FeatureRun.effort_running (f := { f with acts := rest, completion := .used }) running]
    simp only [CompletionState.effort, waits]
    simp
  unfold invoke
  dsimp only
  split
  · rename_i nothing
    exact ⟨_, _, running, invoked.trans (.reportSignal invoked.after _),
      .completes rest armed found (.inl nothing), used⟩
  · rename_i some_ran
    cases wanted : wantedCalls w.config.outputs snapshot with
    | nil =>
      exact ⟨_, _, running, invoked.trans (.lastCall invoked.after snapshot),
        .completes rest armed found (.inr wanted), used⟩
    | cons call calls =>
      refine ⟨_, _, running, invoked.trans (.nextCall invoked.after _ _ _),
        .reports rest armed found (by simpa using some_ran) wanted, ?_⟩
      have few := length_wantedCalls w.config.outputs snapshot
      rw [wanted, List.length_cons] at few
      rw [left, FeatureRun.effort_running
        (f := { f with acts := rest, completion := .reporting snapshot call calls }) running]
      simp only [CompletionState.effort, waits]
      simp
      omega

lemma act_does {task : Nat} {next : Act} {rest : List Act} (hf : s.features[i]? = some f)
    (running : f.phase = .running) (idle : f.completion.isReporting = false)
    (acts : f.acts = next :: rest) (waits : f.waiter = none)
    (h : s.act w i task f next rest = some t) : ∃ f' events, Does w s t i f f' events := by
  have went := Shows.updateFeature hf ({ · with acts := rest })
  have left : f.effort = Suite.actWeight next + (rest.map Suite.actWeight).sum + 1 := by
    rw [effort_idle running idle, acts, waits, List.map_cons, List.sum_cons]
    rfl
  -- After an act that leaves the completion the feature has the rest before it, and may wait.
  have passes : ∀ {u : RunState σ} {events : List RunEvent} (acts' : List Act) (permits : List Nat)
      (waiter : Option Nat), Shows s u i f { f with acts := acts', permits, waiter } events →
      (∀ e ∈ events, e.milestone? = none) →
      (acts'.map Suite.actWeight).sum + (if waiter.isSome then 1 else 0) <
        Suite.actWeight next + (rest.map Suite.actWeight).sum →
      ∃ f' events, Does w s u i f f' events := by
    intro u events acts' permits waiter seen quiet less
    refine ⟨_, _, running, seen, .passes running rfl quiet, ?_⟩
    rw [left, effort_acts running idle]
    omega
  have crashed : ∀ {u : RunState σ}, Shows s u i f f [] →
      ∃ f' events, Does w s (u.crash i f) i f f' events := fun first =>
    ⟨_, _, finish_does running idle (first.trans (.crash first.after))⟩
  unfold RunState.act at h
  cases next with
  | work tasks =>
    cases tasks with
    | nil =>
      simp only [Option.some.injEq] at h
      subst h
      exact passes rest f.permits f.waiter went (by simp) (by simp [waits, Suite.actWeight])
    | cons u us =>
      simp only [Option.map_eq_some_iff] at h
      obtain ⟨u', hu, rfl⟩ := h
      have wrote : Shows s { s with records := s.records.update f.record u' } i f f [] :=
        .share hf rfl rfl rfl
      have some_task : task < (u :: us).length := (List.getElem?_eq_some_iff.mp hu).1
      refine passes (.work ((u :: us).eraseIdx task) :: rest) f.permits f.waiter
        (wrote.trans (.updateFeature wrote.after _)) (by simp) ?_
      simp only [List.map_cons, List.sum_cons, Suite.actWeight, waits, Option.isSome_none]
      rw [List.length_eraseIdx_of_lt some_task]
      simp
  | obtain key init =>
    dsimp only at h
    split at h
    · rename_i value computed answered
      simp only [Option.some.injEq] at h
      subst h
      have shared := went.trans (.share (t := { s.updateFeature i ({ · with acts := rest }) with
        cache := (s.cache.answer (.getOrInsert key init)).2 }) went.after rfl rfl rfl)
      refine passes rest f.permits f.waiter (shared.trans (.note shared.after _)) ?_ ?_
      · simp [RunEvent.milestone?]
      · simp [waits, Suite.actWeight]
    · rename_i refused
      simp only [Option.some.injEq] at h
      subst h
      exact crashed (.share hf rfl rfl rfl)
  | acquire =>
    dsimp only at h
    simp only [Option.some.injEq] at h
    subst h
    have shared := went.trans (.share (t := { s.updateFeature i ({ · with acts := rest }) with
      limiter := s.limiter.acquire.2 }) went.after rfl rfl (AdmissionLimiter.acquire_closed _))
    obtain ⟨permits, waiter, given, -⟩ := Shows.givePermit shared.after s.limiter.acquire.1
    refine passes rest permits waiter (shared.trans given) (by simp) ?_
    simp only [Suite.actWeight]
    split <;> omega
  | release =>
    dsimp only at h
    split at h
    · simp only [Option.some.injEq] at h
      subst h
      exact passes rest f.permits f.waiter went (by simp) (by simp [waits, Suite.actWeight])
    · rename_i p last
      simp only [Option.some.injEq] at h
      subst h
      have shared := went.trans (.share (t := { s.updateFeature i ({ · with acts := rest }) with
        limiter := (s.limiter.release p).2 }) went.after rfl rfl
        (AdmissionLimiter.release_closed _ _))
      exact passes rest f.permits.dropLast f.waiter
        (shared.trans (.updateFeature shared.after ({ · with permits := f.permits.dropLast })))
        (by simp) (by simp [waits, Suite.actWeight])
  | complete =>
    dsimp only at h
    split at h
    · rename_i snapshot armed found
      simp only [Option.some.injEq] at h
      subst h
      exact invoke_does hf running acts waits armed found
    · simp only [Option.some.injEq] at h
      subst h
      exact passes rest f.permits f.waiter went (by simp) (by simp [waits, Suite.actWeight])
  | abandon =>
    simp only [Option.some.injEq] at h
    subst h
    refine ⟨_, _, running, went.trans (.dropCompletion went.after), .abandons rest idle, ?_⟩
    rw [FeatureRun.drop_effort, left, effort_acts running idle rest f.permits f.waiter, waits]
    simp [Suite.actWeight]
  | panic payload =>
    simp only [Option.some.injEq] at h
    subst h
    exact crashed (.share hf rfl rfl rfl)

/-! ### Steps -/

theorem featureStep_does {task : Nat} (h : s.featureStep? w i task = some t) :
    ∃ f f' events, Does w s t i f f' events := by
  unfold featureStep? at h
  split at h
  · cases h
  · rename_i f hf
    refine ⟨f, ?_⟩
    split at h
    · cases h
    · rename_i hphase
      have running : f.phase = .running := by simpa using hphase
      split at h
      · rename_i snapshot call calls reports
        simp only [Option.some.injEq] at h
        subst h
        exact endCall_does hf running reports
      · rename_i waiter waits idle
        have idle' := CompletionState.isReporting_eq_false idle
        split at h
        · rename_i ready
          simp only [Option.map_eq_some_iff] at h
          obtain ⟨⟨admission, limiter⟩, answer, rfl⟩ := h
          have shared : Shows s { s with limiter } i f f [] :=
            .share hf rfl rfl (AdmissionLimiter.poll?_closed answer)
          obtain ⟨permits, waiter', given, answered⟩ := Shows.givePermit shared.after admission
          have settled := answered (AdmissionLimiter.poll?_of_isReady ready answer)
          refine ⟨_, _, running, shared.trans given, .passes running rfl (by simp), ?_⟩
          rw [effort_idle running idle', waits,
            effort_acts running idle' f.acts permits waiter', settled]
          simp
        · cases h
      · rename_i waits acts idle
        exact act_does hf running (CompletionState.isReporting_eq_false idle) acts waits h
      · rename_i idle
        simp only [Option.some.injEq] at h
        subst h
        exact ⟨_, _, finish_does running (CompletionState.isReporting_eq_false idle)
          (.finishFeature hf)⟩

theorem poolStep_does (h : s.poolStep? i = some t) : ∃ f f' events, Does w s t i f f' events := by
  unfold poolStep? at h
  split at h
  · rename_i f stopped hf
    refine ⟨f, ?_⟩
    split at h
    · cases h
    · rename_i hphase
      split at h
      · cases h
      · rename_i idle
        simp only [Option.some.injEq] at h
        subst h
        exact ⟨_, _, finish_does (by simpa using hphase) (CompletionState.isReporting_eq_false idle)
          (.finishFeature hf)⟩
  · cases h

/-- A step of the lane's thread takes a job, starts one, or lets all jobs go that leave with it. -/
inductive LaneDeed (s : RunState σ) (lane : Lane Nat) (move : LaneMove Nat) : RunState σ → Prop where
  | takes (job : Nat) (take : move = .take job) :
      LaneDeed s lane move { s with lane := some (lane.after move) }
  | starts (i : Nat) (start : move = .start i) :
      LaneDeed s lane move (({ s with lane := some (lane.after move) } : RunState σ).begin i)
  | letsGo (ends : (lane.after move).status ≠ .serving) :
      LaneDeed s lane move
        (({ s with lane := some (lane.after move) } : RunState σ).discardAll move.leaving)

theorem laneStep_does (h : s.laneStep? = some t) : ∃ lane move, s.lane = some lane ∧
    lane.move? s.crashesLane = some move ∧ LaneDeed s lane move t := by
  unfold laneStep? at h
  split at h
  · cases h
  · rename_i lane hl
    rw [Option.map_eq_some_iff] at h
    obtain ⟨move, hm, rfl⟩ := h
    refine ⟨lane, move, hl, hm, ?_⟩
    cases move with
    | take job => exact .takes job rfl
    | start i => exact .starts i rfl
    | crash i unstarted =>
      have ends : (lane.after (.crash i unstarted)).status ≠ .serving := by simp [Lane.after]
      exact .letsGo ends
    | leave unstarted =>
      have ends : (lane.after (.leave unstarted)).status ≠ .serving := by simp [Lane.after]
      exact .letsGo ends

end RunState

end FeatureBatch
