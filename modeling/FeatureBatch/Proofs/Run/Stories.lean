import FeatureBatch.Proofs.Run.Carried
import FeatureBatch.Proofs.Run.Deeds
import FeatureBatch.Proofs.Run.Verdicts

/-!
Stories. The milestones of a feature in the trace tell its story: it is let go unstarted, or it is
started and its completion is dropped or invoked, reports what is to be reported, and signals. Every
step of a run tells the story of each feature a little further, or leaves it.
-/

namespace FeatureBatch

/-- What is to be reported when a completion is invoked. -/
def RunState.reported (outputs : OutputFormats) (snapshot : FeatureRecord) : List ReportCall :=
  if snapshot.isEmpty then [] else RunState.wantedCalls outputs snapshot

/-- `made` is a call and its outcome, with that error. -/
def ReportCall.Makes (call : ReportCall) (made : ReportCall × CallOutcome)
    (error : Option SuiteError) : Prop :=
  made.1 = call ∧ made.2.error? = error

/-- The report calls of feature `i` in the trace, each begun and ended. -/
def callEvents (i : Nat) (made : List (ReportCall × CallOutcome)) : List RunEvent :=
  made.flatMap fun m => [.callBegan i m.1, .callEnded i m.1 m.2]

lemma callEvents_snoc (i : Nat) (made : List (ReportCall × CallOutcome)) (call : ReportCall)
    (outcome : CallOutcome) : callEvents i (made ++ [(call, outcome)]) =
      callEvents i made ++ [.callBegan i call, .callEnded i call outcome] := by
  simp [callEvents]

/-- What the milestones tell of a completion. -/
inductive Course (outputs : OutputFormats) (i : Nat) : CompletionState → List RunEvent → Prop where
  | armed : Course outputs i .armed []
  | dropped : Course outputs i .dropped [.abandoned i]
  /-- Some calls have passed, and another one has begun. -/
  | reporting {snapshot : FeatureRecord} {call : ReportCall} {done rest : List ReportCall}
      {made : List (ReportCall × CallOutcome)}
      (wanted : RunState.reported outputs snapshot = done ++ call :: rest)
      (passed : Passed ReportCall.Makes done made) :
      Course outputs i (.reporting snapshot call rest)
        (.invoked i snapshot :: callEvents i made ++ [.callBegan i call])
  /-- The calls were made up to the first that failed, and then it was signalled. -/
  | used {snapshot : FeatureRecord} {made : List (ReportCall × CallOutcome)}
      {error : Option SuiteError}
      (carried : Carried ReportCall.Makes (RunState.reported outputs snapshot) made error) :
      Course outputs i .used (.invoked i snapshot :: callEvents i made ++ [.signalled i])

/-- What the milestones tell of a feature. -/
inductive Story (outputs : OutputFormats) (i : Nat) (f : FeatureRun) : List RunEvent → Prop where
  | queued (phase : f.phase = .queued) (armed : f.completion = .armed) : Story outputs i f []
  | discarded (phase : f.phase = .discarded) (dropped : f.completion = .dropped) :
      Story outputs i f [.abandoned i]
  | started {tale : List RunEvent} (phase : f.phase = .running ∨ f.phase = .ended)
      (course : Course outputs i f.completion tale) : Story outputs i f (.started i :: tale)

/-! ### Deeds -/

section Telling

variable {σ : Type} {w : Suite σ} {s t : RunState σ} {i : Nat} {f f' : FeatureRun}
variable {events tale : List RunEvent} {outputs : OutputFormats}

/-- The milestones of feature `i` among the events. -/
def milestones (i : Nat) (events : List RunEvent) : List RunEvent :=
  events.filter fun e => e.milestone? = some i

lemma milestones_append (i : Nat) (before after : List RunEvent) :
    milestones i (before ++ after) = milestones i before ++ milestones i after :=
  List.filter_append ..

lemma milestones_quiet (quiet : ∀ e ∈ events, e.milestone? = none) :
    milestones i events = [] := by
  rw [milestones, List.filter_eq_nil_iff]
  intro e he
  simp [quiet e he]

lemma milestones_farewell (f : FeatureRun) (i : Nat) :
    milestones i (f.farewell i) = f.farewell i := by
  unfold FeatureRun.farewell
  split <;> simp [milestones, RunEvent.milestone?]

lemma Course.drop (h : Course outputs i f.completion tale) :
    Course outputs i f.drop.completion (tale ++ f.farewell i) := by
  unfold FeatureRun.drop FeatureRun.farewell
  split
  · rename_i armed
    rw [armed] at h
    cases h
    exact .dropped
  · rw [List.append_nil]
    exact h

lemma Course.end_call {snapshot : FeatureRecord} {call : ReportCall} {rest : List ReportCall}
    {outcome : CallOutcome} (h : Course outputs i (.reporting snapshot call rest) tale) :
    (outcome.error? ≠ none ∨ rest = [] →
      Course outputs i .used (tale ++ [.callEnded i call outcome, .signalled i])) ∧
    ∀ next rest', rest = next :: rest' → outcome.error? = none →
      Course outputs i (.reporting snapshot next rest')
        (tale ++ [.callEnded i call outcome, .callBegan i next]) := by
  cases h with
  | @reporting _ _ done _ made wanted passed =>
    have told : ∀ e : RunEvent,
        .invoked i snapshot :: callEvents i made ++ [.callBegan i call] ++
            [.callEnded i call outcome, e] =
          .invoked i snapshot :: callEvents i (made ++ [(call, outcome)]) ++ [e] := fun e => by
      simp [callEvents_snoc]
    refine ⟨fun last => ?_, fun next rest' more fine => ?_⟩
    · rw [told]
      cases failed : outcome.error? with
      | some e =>
        have carried : Carried ReportCall.Makes (RunState.reported outputs snapshot)
            (made ++ [(call, outcome)]) (some e) := by
          rw [wanted]
          exact passed.carried (.failed ⟨rfl, failed⟩)
        exact .used carried
      | none =>
        have none_left : rest = [] := last.resolve_left fun h => h failed
        have carried : Carried ReportCall.Makes (RunState.reported outputs snapshot)
            (made ++ [(call, outcome)]) none := by
          rw [wanted, none_left]
          exact passed.carried (.next ⟨rfl, failed⟩ .all)
        exact .used carried
    · rw [told]
      have left : RunState.reported outputs snapshot = (done ++ [call]) ++ next :: rest' := by
        rw [wanted, more, List.append_assoc]
        rfl
      exact .reporting left (passed.snoc ⟨rfl, fine⟩)

lemma RunState.Deed.course (deed : RunState.Deed w s i f f' events)
    (h : Course w.config.outputs i f.completion tale) :
    Course w.config.outputs i f'.completion (tale ++ milestones i events) := by
  cases deed with
  | passes phase completion quiet =>
    rw [completion, milestones_quiet quiet, List.append_nil]
    exact h
  | ends idle =>
    rw [milestones_farewell]
    exact Course.drop (f := f.ended) h
  | abandons rest idle =>
    rw [milestones_farewell]
    exact Course.drop (f := { f with acts := rest }) h
  | @completes rest snapshot armed found nothing =>
    rw [armed] at h
    cases h
    have nothing_reported : RunState.reported w.config.outputs snapshot = [] := by
      unfold RunState.reported
      rcases nothing with empty | none_wanted
      · rw [if_pos empty]
      · rw [none_wanted, ite_self]
    have course : Course w.config.outputs i .used
        (.invoked i snapshot :: callEvents i [] ++ [.signalled i]) :=
      .used (by rw [nothing_reported]; exact .all)
    simpa [milestones, RunEvent.milestone?, callEvents] using course
  | @reports rest snapshot call calls armed found some_ran wanted =>
    rw [armed] at h
    cases h
    have course : Course w.config.outputs i (.reporting snapshot call calls)
        (.invoked i snapshot :: callEvents i [] ++ [.callBegan i call]) := by
      have left : RunState.reported w.config.outputs snapshot = [] ++ call :: calls := by
        simp [RunState.reported, some_ran, wanted]
      exact .reporting left .nil
    simpa [milestones, RunEvent.milestone?, callEvents] using course
  | @goesOn snapshot call next rest outcome completion fine =>
    rw [completion] at h
    have course := h.end_call.2 next rest rfl fine
    simpa [milestones, RunEvent.milestone?] using course
  | @signals snapshot call rest outcome completion last =>
    rw [completion] at h
    have course := h.end_call.1 last
    simpa [milestones, RunEvent.milestone?] using course

lemma RunState.Deed.phase (deed : RunState.Deed w s i f f' events) (running : f.phase = .running) :
    f'.phase = .running ∨ f'.phase = .ended := by
  cases deed with
  | passes phase completion quiet => exact .inl phase
  | ends idle => exact .inr (FeatureRun.drop_phase _)
  | abandons rest idle => exact .inl ((FeatureRun.drop_phase _).trans running)
  | completes rest armed found nothing => exact .inl running
  | reports rest armed found some_ran wanted => exact .inl running
  | goesOn completion fine => exact .inl running
  | signals completion last => exact .inl running

lemma farewell_own : ∀ e ∈ f.farewell i, ∀ j, e.milestone? = some j → j = i := by
  intro e he j told
  unfold FeatureRun.farewell at he
  split at he
  · rw [List.mem_singleton] at he
    subst he
    exact (Option.some.inj told).symm
  · cases he

lemma RunState.Deed.own (deed : RunState.Deed w s i f f' events) :
    ∀ e ∈ events, ∀ j, e.milestone? = some j → j = i := by
  cases deed with
  | passes phase completion quiet =>
    intro e he j told
    rw [quiet e he] at told
    cases told
  | ends idle => exact farewell_own
  | abandons rest idle => exact farewell_own
  | completes rest armed found nothing => simp +contextual [RunEvent.milestone?, eq_comm]
  | reports rest armed found some_ran wanted =>
    simp +contextual [RunEvent.milestone?, eq_comm]
  | goesOn completion fine => simp +contextual [RunEvent.milestone?, eq_comm]
  | signals completion last => simp +contextual [RunEvent.milestone?, eq_comm]

lemma RunState.Deed.story (deed : RunState.Deed w s i f f' events) (running : f.phase = .running)
    (h : Story w.config.outputs i f tale) :
    Story w.config.outputs i f' (tale ++ milestones i events) := by
  cases h with
  | queued phase armed => rw [running] at phase; cases phase
  | discarded phase dropped => rw [running] at phase; cases phase
  | started phase course => exact .started (deed.phase running) (deed.course course)

lemma Story.discard (h : Story outputs i f tale) (queued : f.phase = .queued) :
    Story outputs i ({ f with phase := .discarded } : FeatureRun).drop (tale ++ f.farewell i) := by
  cases h with
  | queued phase armed =>
    have told : f.farewell i = [.abandoned i] := by
      unfold FeatureRun.farewell
      rw [armed]
    rw [told]
    refine .discarded (FeatureRun.drop_phase _) ?_
    unfold FeatureRun.drop
    dsimp only
    rw [armed]
  | discarded phase dropped => rw [queued] at phase; cases phase
  | started phase course =>
    rw [queued] at phase
    rcases phase with phase | phase <;> cases phase

lemma Story.start (h : Story outputs i f tale) (queued : f.phase = .queued) :
    Story outputs i { f with phase := .running } (tale ++ [.started i]) := by
  cases h with
  | queued phase armed =>
    exact .started (.inl rfl) (by rw [show _ = f.completion from rfl, armed]; exact .armed)
  | discarded phase dropped => rw [queued] at phase; cases phase
  | started phase course =>
    rw [queued] at phase
    rcases phase with phase | phase <;> cases phase

end Telling

namespace RunState

variable {σ : Type} {w : Suite σ} {a s t u : RunState σ} {i : Nat} {f f' : FeatureRun}
variable {events : List RunEvent}

/-- The milestones of feature `i` so far. -/
def tale (s : RunState σ) (i : Nat) : List RunEvent := milestones i s.trace

/-- The trace tells the story of every feature, and of nothing else. -/
structure Tales (w : Suite σ) (s : RunState σ) : Prop where
  story : ∀ i f, s.features[i]? = some f → Story w.config.outputs i f (s.tale i)
  known : ∀ e ∈ s.trace, ∀ i, e.milestone? = some i → i < s.features.length

lemma tale_append (h : t.trace = s.trace ++ events) (i : Nat) :
    t.tale i = s.tale i ++ milestones i events := by
  unfold tale
  rw [h, milestones_append]

lemma Tales.quiet (tales : Tales w s) (features : t.features = s.features)
    (trace : t.trace = s.trace ++ events) (quiet : ∀ e ∈ events, e.milestone? = none) :
    Tales w t where
  story i f hf := by
    rw [tale_append trace, milestones_quiet quiet, List.append_nil]
    exact tales.story i f (features ▸ hf)
  known e he i told := by
    rw [trace, List.mem_append] at he
    rw [features]
    rcases he with he | he
    · exact tales.known e he i told
    · rw [quiet e he] at told
      cases told

lemma Tales.same (tales : Tales w s) (features : t.features = s.features)
    (trace : t.trace = s.trace) : Tales w t := by
  have untold : t.trace = s.trace ++ [] := by rw [trace, List.append_nil]
  exact tales.quiet features untold (by simp)

lemma Tales.further (tales : Tales w s) (h : Shows s t i f f' events)
    (own : ∀ e ∈ events, ∀ j, e.milestone? = some j → j = i)
    (story : ∀ tale, Story w.config.outputs i f tale →
      Story w.config.outputs i f' (tale ++ milestones i events)) : Tales w t where
  story j g hg := by
    rw [tale_append h.trace]
    by_cases hj : j = i
    · subst hj
      rw [h.after, Option.some.injEq] at hg
      subst hg
      exact story _ (tales.story j f h.before)
    · have others : milestones j events = [] := by
        rw [milestones, List.filter_eq_nil_iff]
        intro e he
        rw [decide_eq_true_eq]
        exact fun told => hj (own e he j told)
      rw [h.features, List.getElem?_set_ne (Ne.symm hj)] at hg
      rw [others, List.append_nil]
      exact tales.story j g hg
  known e he j told := by
    rw [h.features, List.length_set]
    rw [h.trace, List.mem_append] at he
    rcases he with he | he
    · exact tales.known e he j told
    · rw [own e he j told]
      exact (List.getElem?_eq_some_iff.mp h.before).1

lemma Tales.does (tales : Tales w s) (h : Does w s t i f f' events) : Tales w t :=
  tales.further h.seen h.deed.own fun _ story => h.deed.story h.running story

lemma Tales.discard (tales : Tales w s) (hf : s.features[i]? = some f)
    (queued : f.phase = .queued) : Tales w (s.discard i) := by
  refine tales.further (.discard hf) farewell_own fun tale h => ?_
  rw [milestones_farewell]
  exact h.discard queued

lemma Tales.start (tales : Tales w s) (hf : s.features[i]? = some f)
    (queued : f.phase = .queued) : Tales w (s.begin i) := by
  refine tales.further (.start hf) (by simp [RunEvent.milestone?]) fun tale h => ?_
  rw [show milestones i [.started i] = [.started i] by simp [milestones, RunEvent.milestone?]]
  exact h.start queued

lemma Tales.discardAll {is : List Nat} (nodup : is.Nodup) (tales : Tales w s)
    (queued : ∀ i ∈ is, ∃ f, s.features[i]? = some f ∧ f.phase = .queued) :
    Tales w (s.discardAll is) := by
  induction is generalizing s with
  | nil => exact tales
  | cons i is ih =>
    rw [List.nodup_cons] at nodup
    obtain ⟨f, hf, phase⟩ := queued i List.mem_cons_self
    refine ih nodup.2 (tales.discard hf phase) fun j hj => ?_
    obtain ⟨g, hg, phase⟩ := queued j (List.mem_cons_of_mem i hj)
    refine ⟨g, ?_, phase⟩
    have other : i ≠ j := fun same => nodup.1 (same ▸ hj)
    rw [(Shows.discard hf).features, List.getElem?_set_ne other, hg]

lemma laneStep_tales (sound : Sound w s) (tales : Tales w s) (h : s.laneStep? = some t) :
    Tales w t := by
  obtain ⟨lane, move, hl, hm, does⟩ := laneStep_does h
  have left := Lane.queued_eq_leaving hm
  have nodup := sound.nodup lane hl
  rw [left] at nodup
  have put : Tales w { s with lane := some (lane.after move) } := tales.same rfl rfl
  have queued : ∀ i ∈ move.leaving, ∃ f, s.features[i]? = some f ∧ f.phase = .queued := by
    intro i hi
    obtain ⟨c, hc, phase⟩ := sound.queued lane hl i (by rw [left]; exact List.mem_append_left _ hi)
    exact ⟨c.run, (cells_eq_some hc).1, phase⟩
  cases does with
  | takes job take => exact put
  | starts i start =>
    obtain ⟨f, hf, phase⟩ := queued i (by rw [start]; exact List.mem_cons_self)
    exact put.start hf phase
  | letsGo ends => exact put.discardAll (List.nodup_append.mp nodup).1 queued

/-! ### Dispatching -/

/-- What becomes of a feature `i` that has just been registered. -/
inductive Enters (i : Nat) (f : FeatureRun) : FeatureRun → List RunEvent → Prop where
  | waits : Enters i f f []
  | starts : Enters i f { f with phase := .running } [.started i]
  | letGo : Enters i f ({ f with phase := .discarded } : FeatureRun).drop (f.farewell i)

/-- `t` has the features of `s`, its trace and its limiter. -/
structure Unseen (s t : RunState σ) : Prop where
  features : t.features = s.features
  trace : t.trace = s.trace
  limiter : t.limiter = s.limiter

lemma Shows.unseen (h : Shows s t i f f' events) (k : Unseen t u) : Shows s u i f f' events :=
  ⟨h.before, k.features.trans h.features, k.trace.trans h.trace,
    (congrArg _ k.limiter).trans h.closed⟩

lemma unseen_turnToWaiting (s : RunState σ) (error : Option SuiteError) :
    Unseen s (s.turnToWaiting error) := by
  unfold turnToWaiting
  dsimp only
  split <;> exact ⟨rfl, rfl, rfl⟩

lemma submitRuntime_enters (hf : s.features[i]? = some f) (r : Runtime) :
    ∃ f' events, Shows s (s.submitRuntime i r) i f f' events ∧ Enters i f f' events := by
  unfold submitRuntime
  split
  · split
    · exact ⟨_, _, (Shows.discard hf).unseen ⟨rfl, rfl, rfl⟩, .letGo⟩
    · have turned : Shows s { s with stage := .executing i } i f f [] := .share hf rfl rfl rfl
      exact ⟨_, _, turned.trans (.start turned.after), .starts⟩
  · split
    · exact ⟨_, _, .share hf rfl rfl rfl, .waits⟩
    · rename_i lane' _
      have put : Shows s { s with lane := some lane' } i f f [] := .share hf rfl rfl rfl
      exact ⟨_, _, (put.trans (.discard put.after)).unseen (unseen_turnToWaiting _ _), .letGo⟩

/-- **A step of dispatching** shows nothing, or a feature that enters behind the others. -/
theorem dispatchNext_enters (al : s.Aligned) : Unseen s (s.dispatchNext w) ∨
    ∃ feature r rest f events, s.pending = (feature, .made r) :: rest ∧
      Shows (s.withRegistered rest r) (s.dispatchNext w) s.features.length
        (Cell.fresh s.features.length r).run f events ∧
      Enters s.features.length (Cell.fresh s.features.length r).run f events := by
  unfold dispatchNext
  split
  · exact .inl (unseen_turnToWaiting s none)
  · rename_i feature creation rest next
    split
    · exact .inl (unseen_turnToWaiting s _)
    · exact .inl ⟨rfl, rfl, rfl⟩
    · rename_i r
      unfold takeIn
      split
      · exact .inl ⟨rfl, rfl, rfl⟩
      · right
        have registered : (s.withRegistered rest r).features[s.features.length]? =
            some (Cell.fresh s.features.length r).run := by
          simp [withRegistered, RunState.registerRuntime, RecordStore.add, Cell.fresh, al.records]
        dsimp only
        split
        · exact ⟨feature, r, rest, _, _, next, (Shows.discard registered).unseen ⟨rfl, rfl, rfl⟩,
            .letGo⟩
        · obtain ⟨f, events, shows', enters⟩ := submitRuntime_enters (s := (s.withRegistered rest
            r).report .trace ("submitting " ++ placeText w s.features.length feature.display))
            registered r
          have told : Shows (s.withRegistered rest r) ((s.withRegistered rest r).report .trace
              ("submitting " ++ placeText w s.features.length feature.display)) s.features.length
              (Cell.fresh s.features.length r).run _ [] := .share registered rfl rfl rfl
          exact ⟨feature, r, rest, f, events, next, told.trans shows', enters⟩

lemma Tales.registered (tales : Tales w s) (al : s.Aligned) (rest : List (Feature × Creation))
    (r : Runtime) : Tales w (s.withRegistered rest r) := by
  have features : (s.withRegistered rest r).features =
      s.features ++ [(Cell.fresh s.features.length r).run] := by
    simp [withRegistered, RunState.registerRuntime, RecordStore.add, Cell.fresh, al.records]
  refine ⟨fun i f hf => ?_, fun e he i told => ?_⟩
  · rw [features, List.getElem?_append] at hf
    split at hf
    · exact tales.story i f hf
    · rename_i beyond
      -- No milestone so far is of a feature that was not there.
      have no_tale : s.tale i = [] := by
        rw [tale, milestones, List.filter_eq_nil_iff]
        intro e he
        rw [decide_eq_true_eq]
        exact fun told => beyond (tales.known e he i told)
      have fresh : f = (Cell.fresh s.features.length r).run := by
        rw [List.getElem?_singleton] at hf
        split at hf <;> cases hf
        rfl
      show Story w.config.outputs i f (s.tale i)
      rw [no_tale, fresh]
      exact .queued rfl rfl
  · rw [features, List.length_append]
    exact Nat.lt_add_right _ (tales.known e he i told)

lemma dispatchNext_tales (sound : Sound w s) (tales : Tales w s) : Tales w (s.dispatchNext w) := by
  rcases dispatchNext_enters (w := w) sound.aligned with
    unseen | ⟨feature, r, rest, f, events, -, seen, enters⟩
  · exact tales.same unseen.features unseen.trace
  · have registered := tales.registered sound.aligned rest r
    cases enters with
    | waits => exact registered.further seen (by simp) fun tale h => by simpa [milestones] using h
    | starts =>
      refine registered.further seen (by simp [RunEvent.milestone?]) fun tale h => ?_
      rw [show milestones s.features.length [.started s.features.length] =
        [.started s.features.length] by simp [milestones, RunEvent.milestone?]]
      exact h.start rfl
    | letGo =>
      refine registered.further seen farewell_own fun tale h => ?_
      rw [milestones_farewell]
      exact h.discard rfl

/-! ### Runs -/

lemma callerStep_trace (h : s.callerStep? w = some t) (later : s.stage ≠ .dispatching) :
    ∃ events, t.trace = s.trace ++ events ∧ ∀ e ∈ events, e.isCallers = true := by
  have no_more : s.trace = s.trace ++ [] := (List.append_nil _).symm
  by_cases late : s.stage.isEarly = false
  · obtain ⟨events, trace, told⟩ := (callerStep_late h late).1.exists_events
    refine ⟨events, trace, fun e he => ?_⟩
    rcases told e he with ⟨verdict, told⟩ | told <;> cases e <;> first | rfl | cases told
  · cases hs : s.stage with
    | dispatching => exact absurd hs later
    | executing i =>
      rw [(callerStep_executing h hs).2]
      exact ⟨[], no_more, by simp⟩
    | awaiting error =>
      rw [(callerStep_awaiting h hs).2]
      exact ⟨_, leaveWaiting_trace w s error, by simp [RunEvent.isCallers]⟩
    | _ => rw [hs] at late; exact absurd rfl late

lemma milestone?_of_isCallers {e : RunEvent} (h : e.isCallers = true) : e.milestone? = none := by
  cases e <;> first | rfl | cases h

/-- **Every step tells the stories further.** -/
theorem Tales.step {p : Party} (tales : Tales w s) (sound : Sound w s)
    (h : s.step? w p = some t) : Tales w t := by
  cases p with
  | caller =>
    by_cases dispatching : s.stage = .dispatching
    · have ht : t = s.dispatchNext w := by
        simpa [step?, callerStep?, dispatching, eq_comm] using h
      rw [ht]
      exact dispatchNext_tales sound tales
    · obtain ⟨events, trace, callers⟩ := callerStep_trace h dispatching
      exact tales.quiet (callerStep_rests h dispatching).features trace fun e he =>
        milestone?_of_isCallers (callers e he)
  | lane => exact laneStep_tales sound tales h
  | feature i task =>
    obtain ⟨f, f', events, does⟩ := featureStep_does h
    exact tales.does does
  | pool i =>
    obtain ⟨f, f', events, does⟩ := poolStep_does h
    exact tales.does does

lemma tales_start (w : Suite σ) (limiter : AdmissionLimiter) (files : σ) :
    Tales w (w.start limiter files) :=
  ⟨(fun i f hf => by cases hf), (fun e he => by cases he)⟩

theorem Reaches.tales (h : Reaches w a s) (sound : Sound w a) (first : Tales w a) : Tales w s := by
  induction h with
  | refl => exact first
  | step p reach next ih => exact ih.step (reach.sound sound) next

end RunState

end FeatureBatch
