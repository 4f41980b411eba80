import FeatureBatch.Proofs.Run.Samples
import FeatureBatch.Proofs.Run.Standstill
import FeatureBatch.Proofs.Run.Stories

/-!
The reports of a feature. An invoked completion makes its calls with the record as it was then, one
after the other, and signals when they have ended; as the wait goes on until every signal has come,
no call is under way after it, and none begins.
-/

namespace FeatureBatch

namespace RunState

variable {σ : Type} {w : Suite σ} {a s t : RunState σ} {limiter : AdmissionLimiter} {files : σ}
variable {i : Nat} {f : FeatureRun}

/-! ### The calls that are made -/

/-- The calls that were made if `made` says how they ended: JSON if it is wanted, and XML if that is
and the JSON call, if there was one, was answered without an error; none for an empty record. -/
def callsMade (outputs : OutputFormats) (snapshot : FeatureRecord)
    (made : List (ReportCall × CallOutcome)) : List ReportCall :=
  if snapshot.isEmpty then []
  else
    (if outputs.cucumberJson then [.featureJson snapshot] else []) ++
      (if outputs.junitXml ∧ (outputs.cucumberJson → ∀ m ∈ made.head?, m.2.error? = none) then
        [.featureXml snapshot] else [])

lemma carried_one {call : ReportCall} {made : List (ReportCall × CallOutcome)}
    {error : Option SuiteError} (h : Carried ReportCall.Makes [call] made error) :
    ∃ outcome, made = [(call, outcome)] ∧ outcome.error? = error := by
  cases h with
  | @next _ b _ _ _ fine later =>
    cases later
    exact ⟨b.2, by rw [← fine.1], fine.2⟩
  | @failed _ b _ e fails => exact ⟨b.2, by rw [← fails.1], fails.2⟩

lemma carried_calls {outputs : OutputFormats} {snapshot : FeatureRecord}
    {made : List (ReportCall × CallOutcome)} {error : Option SuiteError}
    (h : Carried ReportCall.Makes (reported outputs snapshot) made error) :
    made.map Prod.fst = callsMade outputs snapshot made := by
  unfold reported at h
  unfold callsMade
  by_cases empty : snapshot.isEmpty = true
  · rw [if_pos empty] at h ⊢
    cases h
    rfl
  · rw [if_neg empty] at h ⊢
    unfold wantedCalls at h
    by_cases json : outputs.cucumberJson = true
    · by_cases xml : outputs.junitXml = true
      · rw [if_pos json, if_pos xml] at h
        -- Both are wanted: the second one is made if the first one passes.
        cases h with
        | @next _ b _ _ _ fine later =>
          obtain ⟨outcome, rfl, -⟩ := carried_one later
          simp [json, xml, fine.1, fine.2]
        | @failed _ b _ e fails => simp [json, xml, fails.1, fails.2]
      · rw [if_pos json, if_neg xml] at h
        obtain ⟨outcome, rfl, -⟩ := carried_one h
        simp [json, xml]
    · by_cases xml : outputs.junitXml = true
      · rw [if_neg json, if_pos xml] at h
        obtain ⟨outcome, rfl, -⟩ := carried_one h
        simp [json, xml]
      · rw [if_neg json, if_neg xml] at h
        cases h
        simp [json, xml]

/-! ### The record that is reported -/

/-- The completion of feature `i` was invoked on the way to `s`, when its record was `snapshot`. -/
structure InvokedWith (w : Suite σ) (first s : RunState σ) (i : Nat) (snapshot : FeatureRecord) :
    Prop where
  invoked : ∃ t u p f more, Reaches w first t ∧ t.step? w p = some u ∧ Reaches w u s ∧
    t.features[i]? = some f ∧ f.phase = .running ∧ f.completion = .armed ∧
    t.records.get? f.record = some snapshot ∧ u.trace = t.trace ++ .invoked i snapshot :: more

/-- The events of a step that is not a deed of a running feature are the caller's, or tell that a
feature is started or let go. -/
def RunEvent.isEntry : RunEvent → Bool
  | .started _ => true
  | .abandoned _ => true
  | e => e.isCallers

lemma farewell_isEntry (f : FeatureRun) (i : Nat) :
    ∀ e ∈ f.farewell i, RunEvent.isEntry e = true := by
  unfold FeatureRun.farewell
  split <;> simp [RunEvent.isEntry]

lemma discard_trace (s : RunState σ) (i : Nat) : ∃ events,
    (s.discard i).trace = s.trace ++ events ∧ ∀ e ∈ events, RunEvent.isEntry e = true := by
  cases hf : s.features[i]? with
  | none =>
    have absent : s.features.length ≤ i := List.getElem?_eq_none_iff.mp hf
    refine ⟨[], ?_, by simp⟩
    simp [RunState.discard, RunState.updateFeature, dropCompletion, List.modify_eq_self absent, hf]
  | some f => exact ⟨_, (Shows.discard hf).trace, farewell_isEntry f i⟩

lemma discardAll_trace (s : RunState σ) (is : List Nat) : ∃ events,
    (s.discardAll is).trace = s.trace ++ events ∧ ∀ e ∈ events, RunEvent.isEntry e = true := by
  induction is generalizing s with
  | nil => exact ⟨[], (List.append_nil _).symm, by simp⟩
  | cons i is ih =>
    obtain ⟨first, one, entry⟩ := discard_trace s i
    obtain ⟨events, rest, entries⟩ := ih (s.discard i)
    refine ⟨first ++ events, ?_, fun e he => ?_⟩
    · rw [show (s.discardAll (i :: is)).trace = ((s.discard i).discardAll is).trace from rfl, rest,
        one, List.append_assoc]
    · rw [List.mem_append] at he
      exact he.elim (entry e) (entries e)

lemma dispatchNext_trace (al : s.Aligned) : ∃ events,
    (s.dispatchNext w).trace = s.trace ++ events ∧ ∀ e ∈ events, RunEvent.isEntry e = true := by
  rcases dispatchNext_enters (w := w) al with
    unseen | ⟨feature, r, rest, f, events, -, seen, enters⟩
  · exact ⟨[], by rw [unseen.trace, List.append_nil], by simp⟩
  · refine ⟨events, seen.trace, ?_⟩
    cases enters with
    | waits => simp
    | starts => simp [RunEvent.isEntry]
    | letGo => exact farewell_isEntry _ _

lemma callerStep_entries (al : s.Aligned) (h : s.callerStep? w = some t) : ∃ events,
    t.trace = s.trace ++ events ∧ ∀ e ∈ events, RunEvent.isEntry e = true := by
  by_cases dispatching : s.stage = .dispatching
  · have ht : t = s.dispatchNext w := by
      simpa [callerStep?, dispatching, eq_comm] using h
    rw [ht]
    exact dispatchNext_trace al
  · obtain ⟨events, trace, callers⟩ := callerStep_trace h dispatching
    refine ⟨events, trace, fun e he => ?_⟩
    have := callers e he
    cases e <;> first | rfl | cases this

lemma laneStep_entries (h : s.laneStep? = some t) : ∃ events,
    t.trace = s.trace ++ events ∧ ∀ e ∈ events, RunEvent.isEntry e = true := by
  obtain ⟨lane, move, -, -, does⟩ := laneStep_does h
  cases does with
  | takes job take => exact ⟨[], (List.append_nil _).symm, by simp⟩
  | starts j start => exact ⟨[.started j], rfl, by simp [RunEvent.isEntry]⟩
  | letsGo ends => exact discardAll_trace { s with lane := some (lane.after move) } move.leaving

/-- **What a step adds to the trace** is told by a deed of a running feature, or is no report. -/
theorem step_trace {p : Party} (sound : Sound w s) (h : s.step? w p = some t) :
    ∃ events, t.trace = s.trace ++ events ∧
      ((∃ j f f', Does w s t j f f' events) ∨ ∀ e ∈ events, RunEvent.isEntry e = true) := by
  cases p with
  | caller =>
    obtain ⟨events, trace, entries⟩ := callerStep_entries sound.aligned h
    exact ⟨events, trace, .inr entries⟩
  | lane =>
    obtain ⟨events, trace, entries⟩ := laneStep_entries h
    exact ⟨events, trace, .inr entries⟩
  | feature j task =>
    obtain ⟨f, f', events, does⟩ := featureStep_does h
    exact ⟨events, does.seen.trace, .inl ⟨j, f, f', does⟩⟩
  | pool j =>
    obtain ⟨f, f', events, does⟩ := poolStep_does h
    exact ⟨events, does.seen.trace, .inl ⟨j, f, f', does⟩⟩

lemma Deed.invoked {j : Nat} {f f' : FeatureRun} {events : List RunEvent} {snapshot : FeatureRecord}
    (deed : Deed w s j f f' events) (he : .invoked i snapshot ∈ events) :
    j = i ∧ f.completion = .armed ∧ s.records.get? f.record = some snapshot ∧
      ∃ more, events = .invoked i snapshot :: more := by
  have not_farewell : RunEvent.invoked i snapshot ∉ f.farewell j := fun told => by
    have := farewell_isEntry f j _ told
    cases this
  cases deed with
  | passes phase completion quiet =>
    have := quiet _ he
    cases this
  | ends idle => exact absurd he not_farewell
  | abandons rest idle => exact absurd he not_farewell
  | completes rest armed found nothing =>
    simp only [List.mem_cons, RunEvent.invoked.injEq, reduceCtorEq, List.not_mem_nil, or_false] at he
    obtain ⟨rfl, rfl⟩ := he
    exact ⟨rfl, armed, found, _, rfl⟩
  | reports rest armed found some_ran wanted =>
    simp only [List.mem_cons, RunEvent.invoked.injEq, reduceCtorEq, List.not_mem_nil, or_false] at he
    obtain ⟨rfl, rfl⟩ := he
    exact ⟨rfl, armed, found, _, rfl⟩
  | goesOn completion fine => simp at he
  | signals completion last => simp at he

lemma Reaches.invokedWith (h : Reaches w a s) (sound : Sound w a) (none_before : a.trace = [])
    {snapshot : FeatureRecord} (he : .invoked i snapshot ∈ s.trace) :
    InvokedWith w a s i snapshot := by
  induction h with
  | refl =>
    rw [none_before] at he
    cases he
  | @step s t p reach next ih =>
    obtain ⟨events, trace, deed_or_entry⟩ := step_trace (reach.sound sound) next
    by_cases before : .invoked i snapshot ∈ s.trace
    · obtain ⟨u, v, q, f, more, hu, step, hv, found⟩ := (ih before).invoked
      exact ⟨u, v, q, f, more, hu, step, .step p hv next, found⟩
    · rw [trace, List.mem_append] at he
      have now := he.resolve_left before
      rcases deed_or_entry with ⟨j, f, f', does⟩ | entries
      · obtain ⟨rfl, armed, found, more, events_eq⟩ := does.deed.invoked now
        exact ⟨s, t, p, f, more, reach, next, .refl t, does.seen.before, does.running, armed, found,
          by rw [trace, events_eq]⟩
      · have := entries _ now
        cases this

/-! ### The signal -/

lemma signals_soon {snapshot : FeatureRecord} {call : ReportCall} {rest : List ReportCall}
    (hf : s.features[i]? = some f) (running : f.phase = .running)
    (reports : f.completion = .reporting snapshot call rest) :
    ∃ n t f', n ≤ rest.length + 1 ∧ s.follow w (List.replicate n (.feature i 0)) = some t ∧
      t.features[i]? = some f' ∧ f'.completion = .used := by
  induction rest generalizing s f call with
  | nil =>
    obtain ⟨outcome, -, last, -⟩ := Shows.endCall (w := w) hf snapshot call []
    refine ⟨1, _, _, Nat.le_refl _, ?_, (last (.inr rfl)).after, rfl⟩
    simp [follow, step?, featureStep?, hf, running, reports]
  | cons next rest ih =>
    obtain ⟨outcome, -, last, more⟩ := Shows.endCall (w := w) hf snapshot call (next :: rest)
    have stepped : s.step? w (.feature i 0) = some (s.endCall w i snapshot call (next :: rest)) := by
      simp [step?, featureStep?, hf, running, reports]
    by_cases fine : outcome.error? = none
    · obtain ⟨n, t, f', few, followed, found, used⟩ := ih (more next rest rfl fine).after running rfl
      refine ⟨n + 1, t, f', by simpa using few, ?_, found, used⟩
      rw [List.replicate_succ, follow, stepped]
      exact followed
    · refine ⟨1, _, _, by simp, ?_, (last (.inl fine)).after, rfl⟩
      simp [follow, stepped]

/-! ### After the wait -/

lemma releases_dispatches (undisturbed : s.Undisturbed) (still : StillDispatching s t) :
    t.releases = [] := by
  rw [releases_eq, still.callerTrace, undisturbed.callerTrace]
  rfl

lemma Reaches.allSettled_of_releases (h : Reaches w (w.start limiter files) s)
    (released : s.releases ≠ []) : s.AllSettled ∧ s.stage.isEarly = false := by
  induction h with
  | refl => exact absurd rfl released
  | @step s t p reach next ih =>
    have sound := reach.sound (sound_start w limiter files)
    by_cases before : s.releases = []
    · by_cases early : s.stage.isEarly = true
      · by_cases early_t : t.stage.isEarly = true
        · have undisturbed := (Reaches.step p reach next).undisturbed early_t
          rw [releases_eq, undisturbed.callerTrace] at released
          exact absurd rfl released
        · have late : t.stage.isEarly = false := by simpa using early_t
          obtain ⟨rfl, ⟨error, waiting, complete, rfl⟩ | ⟨dispatching, payload, why, failing⟩⟩ :=
            step_turns sound next early late
          · refine ⟨?_, late⟩
            unfold AllSettled
            rw [(leaveWaiting_rests w s error).cells]
            exact (isComplete_iff sound.aligned).mp complete
          · have still := (callerStep_dispatches sound.aligned next dispatching).2
            exact absurd (releases_dispatches (reach.undisturbed early) still) released
      · -- Late in a run nothing is released.
        have late : s.stage.isEarly = false := by simpa using early
        have same : t.releases = s.releases := by
          by_cases hp : p = .caller
          · subst hp
            exact (callerStep_late next late).1.releases
          · rw [releases_eq, (step_keeps sound next hp).callerTrace, ← releases_eq]
        rw [same, before] at released
        exact absurd rfl released
    · obtain ⟨settled, late⟩ := ih before
      exact ⟨settled.step reach (CallerStage.ne_dispatching late) next, step_isEarly sound next late⟩

lemma Deed.quiet {f' : FeatureRun} {events : List RunEvent} (deed : Deed w s i f f' events)
    (gone : f.completion = .used ∨ f.completion = .dropped) :
    ∀ e ∈ events, e.milestone? = none := by
  have no_farewell : f.farewell i = [] := by
    unfold FeatureRun.farewell
    rcases gone with gone | gone <;> rw [gone]
  cases deed with
  | passes phase completion quiet => exact quiet
  | ends idle => simp [no_farewell]
  | abandons rest idle => simp [no_farewell]
  | completes rest armed found nothing => simp [armed] at gone
  | reports rest armed found some_ran wanted => simp [armed] at gone
  | goesOn completion fine => simp [completion] at gone
  | signals completion last => simp [completion] at gone

lemma gone_of_isSettled {c : Cell} (consistent : c.Consistent) (settled : c.IsSettled) :
    c.run.completion = .used ∨ c.run.completion = .dropped := by
  unfold Cell.IsSettled at settled
  rw [consistent.signal] at settled
  cases hc : c.run.completion with
  | armed => rw [hc] at settled; exact absurd rfl settled
  | reporting snapshot call rest => rw [hc] at settled; exact absurd rfl settled
  | used => exact .inl rfl
  | dropped => exact .inr rfl

lemma step_quiet {p : Party} (reach : Reaches w (w.start limiter files) s)
    (settled : s.AllSettled) (later : s.stage ≠ .dispatching) (h : s.step? w p = some t) :
    ∃ events, t.trace = s.trace ++ events ∧ ∀ e ∈ events, e.milestone? = none := by
  have sound := reach.sound (sound_start w limiter files)
  have deed : ∀ {j f f' events}, Does w s t j f f' events →
      ∃ events, t.trace = s.trace ++ events ∧ ∀ e ∈ events, e.milestone? = none := by
    intro j f f' events does
    obtain ⟨c, hc, rfl⟩ := sound.aligned.exists_cell does.seen.before
    exact ⟨events, does.seen.trace,
      does.deed.quiet (gone_of_isSettled (reach.consistent hc) (settled j c hc))⟩
  cases p with
  | caller =>
    obtain ⟨events, trace, callers⟩ := callerStep_trace h later
    exact ⟨events, trace, fun e he => milestone?_of_isCallers (callers e he)⟩
  | lane =>
    -- A job that leaves the lane would be of a feature that has its signal still to give.
    obtain ⟨lane, move, hl, hm, does⟩ := laneStep_does h
    have left := Lane.queued_eq_leaving hm
    have none_leaves : ∀ j, j ∉ move.leaving := by
      intro j leaves
      obtain ⟨c, hc, queued⟩ :=
        sound.queued lane hl j (by rw [left]; exact List.mem_append_left _ leaves)
      have consistent := reach.consistent hc
      exact consistent.not_armed (settled j c hc) (consistent.queued queued)
    cases does with
    | takes job take => exact ⟨[], (List.append_nil _).symm, by simp⟩
    | starts j start =>
      rw [start] at none_leaves
      exact absurd List.mem_cons_self (none_leaves j)
    | letsGo ends =>
      refine ⟨[], ?_, by simp⟩
      rw [List.eq_nil_iff_forall_not_mem.mpr none_leaves]
      exact (List.append_nil _).symm
  | feature j task =>
    obtain ⟨f, f', events, does⟩ := featureStep_does h
    exact deed does
  | pool j =>
    obtain ⟨f, f', events, does⟩ := poolStep_does h
    exact deed does

/-- **The wait is over for good**: no feature has a milestone after it. -/
lemma Reaches.tale_kept (reach : Reaches w (w.start limiter files) s)
    (settled : s.AllSettled) (late : s.stage.isEarly = false) (h : Reaches w s t) (i : Nat) :
    t.tale i = s.tale i := by
  induction h with
  | refl => rfl
  | @step t u p reaches next ih =>
    have reach_t := reach.trans reaches
    have settled_t := reach.allSettled reaches late settled
    have late_t := reaches.isEarly (reach.sound (sound_start w limiter files)) late
    obtain ⟨events, trace, quiet⟩ :=
      step_quiet reach_t settled_t (CallerStage.ne_dispatching late_t) next
    rw [tale_append trace, milestones_quiet quiet, List.append_nil, ih]

/-! ### Completions -/

/-- What has become of the completion of feature `i`, and what the trace tells of it. -/
structure Completes (w : Suite σ) (first s : RunState σ) (i : Nat) (f : FeatureRun) : Prop where
  armed : f.completion = .armed → s.tale i = [] ∨ s.tale i = [.started i]
  /-- It was dropped uninvoked: nothing is reported. -/
  dropped : f.completion = .dropped →
    s.tale i = [.abandoned i] ∨ s.tale i = [.started i, .abandoned i]
  /-- It was invoked: some calls have passed, and another one is under way, which will end. -/
  reporting : ∀ snapshot call rest, f.completion = .reporting snapshot call rest →
    (∃ made, s.tale i =
        .started i :: .invoked i snapshot :: (callEvents i made ++ [.callBegan i call]) ∧
      (∀ m ∈ made, m.2.error? = none) ∧
      reported w.config.outputs snapshot = made.map Prod.fst ++ call :: rest) ∧
    ∃ n t f', n ≤ 2 ∧ s.follow w (List.replicate n (.feature i 0)) = some t ∧
      t.features[i]? = some f' ∧ f'.completion = .used
  /-- It was invoked and has signalled, once all calls that were to be made had ended. -/
  used : f.completion = .used → ∃ snapshot made,
    s.tale i = .started i :: .invoked i snapshot :: (callEvents i made ++ [.signalled i]) ∧
      made.map Prod.fst = callsMade w.config.outputs snapshot made
  snapshot : ∀ snapshot, .invoked i snapshot ∈ s.trace → InvokedWith w first s i snapshot
  released : s.releases ≠ [] → (f.completion = .used ∨ f.completion = .dropped) ∧
    ∀ t, Reaches w s t → t.tale i = s.tale i

lemma calls_of_passed {done : List ReportCall} {made : List (ReportCall × CallOutcome)}
    (h : Passed ReportCall.Makes done made) :
    made.map Prod.fst = done ∧ ∀ m ∈ made, m.2.error? = none := by
  induction h with
  | nil => exact ⟨rfl, by simp⟩
  | cons first later ih =>
    refine ⟨by rw [List.map_cons, first.1, ih.1], ?_⟩
    intro m hm
    rw [List.mem_cons] at hm
    rcases hm with rfl | hm
    · exact first.2
    · exact ih.2 m hm

/-! ### Stories, read backwards -/

section Backwards

variable {outputs : OutputFormats} {tale : List RunEvent}

lemma Story.of_armed (story : Story outputs i f tale) (armed : f.completion = .armed) :
    tale = [] ∨ tale = [.started i] := by
  cases story with
  | queued phase _ => exact .inl rfl
  | discarded phase dropped => rw [armed] at dropped; cases dropped
  | started phase course =>
    rw [armed] at course
    cases course
    exact .inr rfl

lemma Story.of_dropped (story : Story outputs i f tale) (dropped : f.completion = .dropped) :
    tale = [.abandoned i] ∨ tale = [.started i, .abandoned i] := by
  cases story with
  | queued phase armed => rw [dropped] at armed; cases armed
  | discarded phase _ => exact .inl rfl
  | started phase course =>
    rw [dropped] at course
    cases course
    exact .inr rfl

lemma Story.of_reporting {snapshot : FeatureRecord} {call : ReportCall} {rest : List ReportCall}
    (story : Story outputs i f tale) (reports : f.completion = .reporting snapshot call rest) :
    (f.phase = .running ∨ f.phase = .ended) ∧ ∃ made,
      tale = .started i :: .invoked i snapshot :: (callEvents i made ++ [.callBegan i call]) ∧
      (∀ m ∈ made, m.2.error? = none) ∧
      reported outputs snapshot = made.map Prod.fst ++ call :: rest := by
  cases story with
  | queued phase armed => rw [reports] at armed; cases armed
  | discarded phase dropped => rw [reports] at dropped; cases dropped
  | started phase course =>
    rw [reports] at course
    cases course with
    | @reporting _ _ done _ made wanted passed =>
      obtain ⟨calls, fine⟩ := calls_of_passed passed
      exact ⟨phase, made, rfl, fine, by rw [wanted, calls]⟩

lemma Story.of_used (story : Story outputs i f tale) (used : f.completion = .used) :
    ∃ snapshot made,
      tale = .started i :: .invoked i snapshot :: (callEvents i made ++ [.signalled i]) ∧
      made.map Prod.fst = callsMade outputs snapshot made := by
  cases story with
  | queued phase armed => rw [used] at armed; cases armed
  | discarded phase dropped => rw [used] at dropped; cases dropped
  | started phase course =>
    rw [used] at course
    cases course with
    | used carried => exact ⟨_, _, rfl, carried_calls carried⟩

lemma length_reported (outputs : OutputFormats) (snapshot : FeatureRecord) :
    (reported outputs snapshot).length ≤ 2 := by
  unfold reported
  split
  · simp
  · exact length_wantedCalls _ _

end Backwards

/-- **A feature's completion reports and signals**: in every run, whatever its interleaving. The
report calls are of the record as it was when the completion was invoked, each is made once and only
if it is wanted and none has failed before it, and the signal comes once, after them. With the wait
over, none is under way, and none begins any more. -/
theorem completions_report {σ : Type} {w : Suite σ} {limiter : AdmissionLimiter} {files : σ}
    {s : RunState σ} (reach : Reaches w (w.start limiter files) s) {i : Nat} {f : FeatureRun}
    (hf : s.features[i]? = some f) : Completes w (w.start limiter files) s i f := by
  have start := sound_start w limiter files
  have story := (reach.tales start (tales_start w limiter files)).story i f hf
  obtain ⟨c, hc, rfl⟩ := (reach.sound start).aligned.exists_cell hf
  have consistent := reach.consistent hc
  refine ⟨Story.of_armed story, Story.of_dropped story, fun snapshot call rest reports => ?_,
    Story.of_used story, fun snapshot told => reach.invokedWith start rfl told,
    fun released => ?_⟩
  · obtain ⟨phase, made, told, fine, wanted⟩ := Story.of_reporting story reports
    have running : c.run.phase = .running := phase.resolve_right fun ended => by
      have settled := consistent.ended (.inl ended)
      rw [Cell.IsSettled, consistent.signal, reports] at settled
      exact settled rfl
    obtain ⟨n, t, f', few, soon⟩ := signals_soon (w := w) hf running reports
    refine ⟨⟨made, told, fine, wanted⟩, n, t, f', Nat.le_trans few ?_, soon⟩
    have bound := length_reported w.config.outputs snapshot
    rw [wanted, List.length_append, List.length_cons] at bound
    omega
  · obtain ⟨settled, late⟩ := reach.allSettled_of_releases released
    exact ⟨gone_of_isSettled consistent (settled i c hc),
      fun t ht => reach.tale_kept settled late ht i⟩

/-- A parallel batch of one feature that wants both reports, of which the second one gives up. -/
def reportingBatch : Suite Unit :=
  let w := smallSuite 2 two_threads false []
    [.made (.ofActs (smallFeature "f") [.work [.addScenario passing], .complete])]
  { w with
    config := { w.config with outputs := ⟨false, true, true⟩ }
    emitter := ⟨fun dir call files => match call with
      | .featureXml _ => (.panicked .noText, files)
      | _ => (.written dir, files)⟩ }

/-- The feature completes, with both calls made, and the wait ends. -/
def reportingRun : RunState Unit :=
  (reportingBatch.start smallLimiter ()).play reportingBatch
    ([.caller, .caller, .lane, .lane] ++ List.replicate 6 (.feature 0 0) ++ [.caller])

theorem reportingRun_reports :
    reportingRun.releases = [⟨1, 0⟩] ∧ reportingRun.featureCalls.length = 2 ∧
      ∃ f snapshot made, reportingRun.features[0]? = some f ∧ f.completion = .used ∧
        reportingRun.tale 0 =
          .started 0 :: .invoked 0 snapshot :: (callEvents 0 made ++ [.signalled 0]) ∧
        made.map Prod.fst = callsMade reportingBatch.config.outputs snapshot made := by
  have found : ∃ f, reportingRun.features[0]? = some f ∧ f.completion = .used := ⟨_, by rfl, by rfl⟩
  obtain ⟨f, hf, used⟩ := found
  have completes := completions_report (w := reportingBatch) (s := reportingRun)
    (reaches_play _ _ _) hf
  obtain ⟨snapshot, made, told, calls⟩ := completes.used used
  exact ⟨by rfl, by rfl, f, snapshot, made, hf, used, told, calls⟩

end RunState

end FeatureBatch
