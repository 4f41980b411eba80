import FeatureBatch.Proofs.Records.Totals
import FeatureBatch.Proofs.Run.Dispatch

/-!
Steps of the caller outside dispatching. They leave features, records and signals alone, and once
the wait is over, or dispatching has given up, the caller does not come back to it.
-/

namespace FeatureBatch

namespace CallerStage

/-- The wait for the features is not over, and dispatching has not given up. -/
def isEarly : CallerStage → Bool
  | .dispatching => true
  | .executing _ => true
  | .awaiting _ => true
  | _ => false

/-- All calls are made, and what the run fails of is recorded. -/
def isFinal : CallerStage → Bool
  | .closing => true
  | .tearingDown _ => true
  | .done => true
  | .unwinding _ => true
  | .panicked _ => true
  | _ => false

/-- What the caller has given up of. -/
def gaveUpOf? : CallerStage → Option PanicPayload
  | .unwinding payload => some payload
  | .panicked payload => some payload
  | _ => none

/-- The caller takes everything down. -/
def takesDown : CallerStage → Bool
  | .tearingDown _ => true
  | .unwinding _ => true
  | _ => false

variable {stage : CallerStage}

lemma isOver_of_takesDown (taking : stage.takesDown = true) : stage.isOver = false := by
  cases stage <;> first | rfl | cases taking

lemma isOver_of_not_isFinal (going : stage.isFinal = false) : stage.isOver = false := by
  cases stage <;> first | rfl | cases going

lemma ne_dispatching (late : stage.isEarly = false) :
    stage ≠ .dispatching := by
  rintro rfl
  cases late

end CallerStage

namespace RunEvent

/-- What a call about the whole suite came to: no error, or the one that the run fails of. -/
def verdict? : RunEvent → Option (Option SuiteError)
  | .suiteCall _ outcome _ => some outcome.error?
  | .hookCall name _ outcome => some (outcome.error? name)
  | _ => none

/-- The event is one of taking down. -/
def isTeardown : RunEvent → Bool
  | .laneStopped => true
  | .poolStopped => true
  | .limiterClosed => true
  | _ => false

end RunEvent

namespace Lane

lemma stopStep?_eq {lane lane' : Lane Nat} (h : lane.stopStep? = some lane') :
    ∃ owner, owner ≠ .serving ∧ lane' = { lane with owner } := by
  unfold stopStep? at h
  split at h
  · cases h
    exact ⟨.flagged, by simp, rfl⟩
  · cases h
    exact ⟨.closed, by simp, rfl⟩
  · split at h
    · cases h
    · cases h
      exact ⟨.joined, by simp, rfl⟩
  · cases h

end Lane

namespace RunState

variable {σ : Type} {w : Suite σ} {s t : RunState σ}

/-- The wait is over: the signals are told, the end is stamped and the totals are these. -/
structure Stamped (w : Suite σ) (s t : RunState σ) (totals : Totals) : Prop where
  rests : Rests s t
  results : t.results = { s.results.finish w.endedAt with totals }
  trace : t.trace = s.trace ++ [.released s.barrier.arrivals]
  pending : t.pending = s.pending
  lane : t.lane = s.lane
  poolStopped : t.poolStopped = s.poolStopped

lemma stampEnd_stamped (w : Suite σ) (s : RunState σ) :
    Stamped w s (s.stampEnd w) s.results.totals := by
  unfold stampEnd
  dsimp only
  split <;> exact ⟨⟨rfl, rfl, rfl, rfl⟩, rfl, rfl, rfl, rfl, rfl⟩

lemma Stamped.count {totals : Totals} (h : Stamped w s t totals) (totals' : Totals) :
    Stamped w s { t with results := { t.results with totals := totals' } } totals' where
  rests := ⟨h.rests.features, h.rests.records, h.rests.signals, h.rests.registered⟩
  results := by rw [h.results]
  trace := h.trace
  pending := h.pending
  lane := h.lane
  poolStopped := h.poolStopped

lemma Stamped.turn {totals : Totals} (h : Stamped w s t totals) (stage : CallerStage) (log : Log) :
    Stamped w s { t with stage, log } totals :=
  ⟨⟨h.rests.features, h.rests.records, h.rests.signals, h.rests.registered⟩, h.results, h.trace,
    h.pending, h.lane, h.poolStopped⟩

lemma Stamped.registered {totals : Totals} (h : Stamped w s t totals) :
    t.book.registered = s.book.registered := by
  rw [book, ResultsBook.registered, h.rests.registered, h.rests.records]
  rfl

lemma turnToReports_eq (w : Suite σ) (s : RunState σ) (error : Option SuiteError) :
    ∃ stage log, s.turnToReports w error = { s with stage, log } := by
  unfold turnToReports turnToHooks
  split
  · exact ⟨_, s.log, rfl⟩
  · split
    · exact ⟨_, s.log, rfl⟩
    · exact ⟨_, _, rfl⟩

lemma leaveWaiting_cases (w : Suite σ) (s : RunState σ) (error : Option SuiteError) :
    ∃ u totals, Stamped w s u totals ∧
      ((Totals.ofRecords s.book.registered = .ok totals ∧
          s.leaveWaiting w error = u.turnToReports w error) ∨
        ∃ payload, Totals.ofRecords s.book.registered = .error payload ∧
          s.leaveWaiting w error = { u with stage := .failing (.panic payload.message) }) := by
  have stamped := stampEnd_stamped w s
  unfold leaveWaiting
  dsimp only
  split
  · rename_i results counts
    obtain ⟨totals, counted, rfl⟩ := Results.finalize_eq_ok.mp counts
    have records := (stamped.count totals).registered
    exact ⟨_, totals, stamped.count totals, .inl ⟨records ▸ counted, rfl⟩⟩
  · rename_i payload gaveUp
    have overflows := Results.finalize_eq_error.mp gaveUp
    exact ⟨_, _, stamped, .inr ⟨payload, stamped.registered ▸ overflows, rfl⟩⟩

lemma leaveWaiting_stamped (w : Suite σ) (s : RunState σ) (error : Option SuiteError) :
    ∃ totals, Stamped w s (s.leaveWaiting w error) totals := by
  obtain ⟨u, totals, stamped, ⟨-, eq⟩ | ⟨payload, -, eq⟩⟩ := leaveWaiting_cases w s error
  · obtain ⟨stage, log, turned⟩ := turnToReports_eq w u error
    rw [eq, turned]
    exact ⟨totals, stamped.turn stage log⟩
  · rw [eq]
    exact ⟨totals, stamped.turn _ u.log⟩

lemma leaveWaiting_rests (w : Suite σ) (s : RunState σ) (error : Option SuiteError) :
    Rests s (s.leaveWaiting w error) := by
  obtain ⟨totals, stamped⟩ := leaveWaiting_stamped w s error
  exact stamped.rests

lemma leaveWaiting_trace (w : Suite σ) (s : RunState σ) (error : Option SuiteError) :
    (s.leaveWaiting w error).trace = s.trace ++ [.released s.barrier.arrivals] := by
  obtain ⟨totals, stamped⟩ := leaveWaiting_stamped w s error
  exact stamped.trace

lemma turnToReports_stage (w : Suite σ) (s : RunState σ) (error : Option SuiteError) :
    (s.turnToReports w error).stage.isEarly = false ∧
      (s.turnToReports w error).stage.isFinal = false := by
  unfold turnToReports turnToHooks
  split
  · exact ⟨rfl, rfl⟩
  · split <;> exact ⟨rfl, rfl⟩

lemma leaveWaiting_between (w : Suite σ) (s : RunState σ) (error : Option SuiteError) :
    (s.leaveWaiting w error).stage.isEarly = false ∧
      (s.leaveWaiting w error).stage.isFinal = false := by
  obtain ⟨u, totals, -, ⟨-, eq⟩ | ⟨payload, -, eq⟩⟩ := leaveWaiting_cases w s error <;> rw [eq]
  · exact turnToReports_stage w u error
  · exact ⟨rfl, rfl⟩

lemma leaveWaiting_stage (w : Suite σ) (s : RunState σ) (error : Option SuiteError) :
    (s.leaveWaiting w error).stage.isEarly = false :=
  (leaveWaiting_between w s error).1

lemma callerStep_executing {i : Nat} (h : s.callerStep? w = some t)
    (executing : s.stage = .executing i) :
    s.hasEnded i = true ∧ t = { s with stage := .dispatching } := by
  simp only [callerStep?, executing] at h
  split at h
  · rename_i ended
    exact ⟨ended, (Option.some.inj h).symm⟩
  · cases h

lemma callerStep_awaiting {error : Option SuiteError} (h : s.callerStep? w = some t)
    (waiting : s.stage = .awaiting error) :
    s.barrier.isComplete = true ∧ t = s.leaveWaiting w error := by
  simp only [callerStep?, waiting] at h
  split at h
  · rename_i complete
    exact ⟨complete, (Option.some.inj h).symm⟩
  · cases h

/-! ### Late steps -/

/-- What a step of the caller does once the wait is over, or dispatching has given up. -/
inductive LateStep (w : Suite σ) (s t : RunState σ) : Prop where
  /-- A report about the suite is written, or the run fails of it. -/
  | report {report : SuiteReport} {rest : List SuiteReport} {page : Option Path} {event : RunEvent}
      {verdict : Option SuiteError} (stage : s.stage = .reporting (report :: rest) page)
      (told : event.verdict? = some verdict) (trace : t.trace = s.trace ++ [event])
      (results : t.results = s.results)
      (next : (verdict = none ∧ ∃ page', t.stage = .reporting rest page') ∨
        ∃ e, verdict = some e ∧ t.stage = .failing e)
  | reported {page : Option Path} (stage : s.stage = .reporting [] page) (trace : t.trace = s.trace)
      (results : t.results = s.results) (next : t.stage = .hooks w.config.hooks)
  /-- A hook is called, and the run may fail of it. -/
  | hook {hook : Hook} {rest : List Hook} {event : RunEvent} {verdict : Option SuiteError}
      (stage : s.stage = .hooks (hook :: rest)) (told : event.verdict? = some verdict)
      (trace : t.trace = s.trace ++ [event]) (results : t.results = s.results)
      (next : (verdict = none ∧ t.stage = .hooks rest) ∨
        ∃ e, verdict = some e ∧ t.stage = .failing e)
  | hooked (stage : s.stage = .hooks []) (trace : t.trace = s.trace)
      (results : t.results = s.results) (next : t.stage = .closing)
  | fail {error : SuiteError} {totals : Totals} (stage : s.stage = .failing error)
      (trace : t.trace = s.trace) (counts : Totals.ofRecords s.book.registered = .ok totals)
      (results : t.results = { (s.results.recordFailure error).2 with totals })
      (next : t.stage = .closing)
  /-- The run gives up in counting. -/
  | giveUp {error : SuiteError} {payload : PanicPayload} (stage : s.stage = .failing error)
      (trace : t.trace = s.trace)
      (overflows : Totals.ofRecords s.book.registered = .error payload)
      (results : t.results = (s.results.recordFailure error).2)
      (next : t.stage = .unwinding payload)
  | close (stage : s.stage = .closing) (trace : t.trace = s.trace)
      (results : t.results = s.results ∨ t.results = s.results.finish w.endedAt)
      (next : t.stage = .tearingDown false)
  | tearDown (events : List RunEvent) {guard : Bool} (stage : s.stage = .tearingDown guard)
      (trace : t.trace = s.trace ++ events) (told : ∀ e ∈ events, e.isTeardown = true)
      (results : t.results = s.results)
      (next : t.stage = .done ∨ ∃ guard', t.stage = .tearingDown guard')
  | unwind (events : List RunEvent) {payload : PanicPayload} (stage : s.stage = .unwinding payload)
      (trace : t.trace = s.trace ++ events) (told : ∀ e ∈ events, e.isTeardown = true)
      (results : t.results = s.results)
      (next : t.stage = .unwinding payload ∨ t.stage = .panicked payload)

lemma tearDownStep?_cases {next : CallerStage} (h : s.tearDownStep? next = some t) :
    (∃ events, t.trace = s.trace ++ events ∧ ∀ e ∈ events, e.isTeardown = true) ∧
      t.results = s.results ∧ (t.stage = s.stage ∨ t.stage = next) ∧ Rests s t := by
  unfold tearDownStep? at h
  split at h
  · cases h
    exact ⟨⟨[], (List.append_nil _).symm, by simp⟩, rfl, .inr rfl, ⟨rfl, rfl, rfl, rfl⟩⟩
  · have told : ∃ events, s.stopPool.trace = s.trace ++ events ∧
        ∀ e ∈ events, e.isTeardown = true :=
      ⟨[.poolStopped, .limiterClosed],
        List.append_assoc s.trace [.poolStopped] [.limiterClosed], by simp [RunEvent.isTeardown]⟩
    have pool_rests : Rests s s.stopPool := ⟨rfl, rfl, rfl, rfl⟩
    split at h
    · split at h
      · cases h
        exact ⟨told, rfl, .inl rfl, pool_rests⟩
      · rw [Option.map_eq_some_iff] at h
        obtain ⟨lane, -, rfl⟩ := h
        split
        · unfold noteLaneStopped
          dsimp only
          split <;> exact ⟨⟨[.laneStopped], rfl, by simp [RunEvent.isTeardown]⟩, rfl, .inl rfl,
            ⟨rfl, rfl, rfl, rfl⟩⟩
        · exact ⟨⟨[], (List.append_nil _).symm, by simp⟩, rfl, .inl rfl, ⟨rfl, rfl, rfl, rfl⟩⟩
    · cases h
      exact ⟨told, rfl, .inl rfl, pool_rests⟩

lemma tearingDown_late {guard : Bool} (hs : s.stage = .tearingDown guard)
    (h : s.tearDownStep? (if guard then .done else .tearingDown true) = some t) :
    LateStep w s t ∧ Rests s t := by
  obtain ⟨⟨events, trace, told⟩, results, moved, rests⟩ := tearDownStep?_cases h
  refine ⟨.tearDown events hs trace told results ?_, rests⟩
  rcases moved with stays | moved
  · exact .inr ⟨guard, stays.trans hs⟩
  · cases guard
    · exact .inr ⟨true, moved⟩
    · exact .inl moved

lemma unwinding_late {payload : PanicPayload} (hs : s.stage = .unwinding payload)
    (h : s.tearDownStep? (.panicked payload) = some t) : LateStep w s t ∧ Rests s t := by
  obtain ⟨⟨events, trace, told⟩, results, moved, rests⟩ := tearDownStep?_cases h
  exact ⟨.unwind events hs trace told results (moved.imp_left fun stays => stays.trans hs), rests⟩

lemma writeReport_late {report : SuiteReport} {rest : List SuiteReport} {page : Option Path}
    (hs : s.stage = .reporting (report :: rest) page) (ht : t = s.writeReport w report rest page) :
    LateStep w s t ∧ Rests s t := by
  subst ht
  unfold writeReport
  dsimp only
  split
  · rename_i h
    exact ⟨.report hs rfl rfl rfl (.inr ⟨_, h, rfl⟩), ⟨rfl, rfl, rfl, rfl⟩⟩
  · rename_i h _
    exact ⟨.report hs rfl rfl rfl (.inl ⟨h, _, rfl⟩), ⟨rfl, rfl, rfl, rfl⟩⟩
  · rename_i h _
    exact ⟨.report hs rfl rfl rfl (.inl ⟨h, _, rfl⟩), ⟨rfl, rfl, rfl, rfl⟩⟩

lemma callHook_late {hook : Hook} {rest : List Hook} (hs : s.stage = .hooks (hook :: rest))
    (ht : t = s.callHook hook rest) : LateStep w s t ∧ Rests s t := by
  subst ht
  unfold callHook
  dsimp only
  split <;> rename_i h
  · exact ⟨.hook hs rfl rfl rfl (.inr ⟨_, h, rfl⟩), ⟨rfl, rfl, rfl, rfl⟩⟩
  · exact ⟨.hook hs rfl rfl rfl (.inl ⟨h, rfl⟩), ⟨rfl, rfl, rfl, rfl⟩⟩

lemma fail_cases (s : RunState σ) (error : SuiteError) :
    (∃ totals log, Totals.ofRecords s.book.registered = .ok totals ∧ s.fail error =
      { s with stage := .closing, results := { (s.results.recordFailure error).2 with totals },
               log }) ∨
    ∃ payload log, Totals.ofRecords s.book.registered = .error payload ∧ s.fail error =
      { s with stage := .unwinding payload, results := (s.results.recordFailure error).2, log } := by
  have registered := Results.recordFailure_registered s.results error
  unfold RunState.fail
  dsimp only [report]
  cases counts : (s.results.recordFailure error).2.finalize s.records with
  | ok results =>
    obtain ⟨totals, counted, rfl⟩ := Results.finalize_eq_ok.mp counts
    rw [registered] at counted
    exact .inl ⟨totals, _, counted, rfl⟩
  | error payload =>
    have overflows := Results.finalize_eq_error.mp counts
    rw [registered] at overflows
    exact .inr ⟨payload, _, overflows, rfl⟩

lemma fail_late {error : SuiteError} (hs : s.stage = .failing error) (ht : t = s.fail error) :
    LateStep w s t ∧ Rests s t := by
  subst ht
  have registered := Results.recordFailure_registered s.results error
  obtain ⟨totals, log, counted, eq⟩ | ⟨payload, log, overflows, eq⟩ := fail_cases s error <;> rw [eq]
  · exact ⟨.fail hs rfl counted rfl rfl, ⟨rfl, rfl, rfl, registered⟩⟩
  · exact ⟨.giveUp hs rfl overflows rfl rfl, ⟨rfl, rfl, rfl, registered⟩⟩

lemma close_late (hs : s.stage = .closing) (ht : t = s.close w) : LateStep w s t ∧ Rests s t := by
  subst ht
  unfold RunState.close
  by_cases finished : s.results.isFinished = true
  · rw [if_pos finished]
    exact ⟨.close hs rfl (.inl rfl) rfl, ⟨rfl, rfl, rfl, rfl⟩⟩
  · rw [if_neg finished]
    exact ⟨.close hs rfl (.inr rfl) rfl, ⟨rfl, rfl, rfl, rfl⟩⟩

lemma callerStep_late (h : s.callerStep? w = some t) (late : s.stage.isEarly = false) :
    LateStep w s t ∧ Rests s t := by
  cases hs : s.stage with
  | dispatching => rw [hs] at late; cases late
  | executing i => rw [hs] at late; cases late
  | awaiting error => rw [hs] at late; cases late
  | reporting reports page =>
    simp only [callerStep?, hs] at h
    cases reports with
    | nil =>
      cases h
      unfold leaveReporting
      split <;> exact ⟨.reported hs rfl rfl rfl, ⟨rfl, rfl, rfl, rfl⟩⟩
    | cons report rest =>
      cases h
      exact writeReport_late hs rfl
  | hooks hooks =>
    simp only [callerStep?, hs] at h
    cases hooks with
    | nil =>
      cases h
      exact ⟨.hooked hs rfl rfl rfl, ⟨rfl, rfl, rfl, rfl⟩⟩
    | cons hook rest =>
      cases h
      exact callHook_late hs rfl
  | failing error =>
    simp only [callerStep?, hs, Option.some.injEq] at h
    exact fail_late hs h.symm
  | closing =>
    simp only [callerStep?, hs, Option.some.injEq] at h
    exact close_late hs h.symm
  | tearingDown guard =>
    simp only [callerStep?, hs] at h
    exact tearingDown_late hs h
  | unwinding payload =>
    simp only [callerStep?, hs] at h
    exact unwinding_late hs h
  | done | panicked =>
    simp only [callerStep?, hs] at h
    cases h

lemma callerStep_rests (h : s.callerStep? w = some t) (later : s.stage ≠ .dispatching) :
    Rests s t := by
  cases hs : s.stage with
  | dispatching => exact absurd hs later
  | executing i =>
    rw [(callerStep_executing h hs).2]
    exact ⟨rfl, rfl, rfl, rfl⟩
  | awaiting error =>
    rw [(callerStep_awaiting h hs).2]
    exact leaveWaiting_rests w s error
  | _ => exact (callerStep_late h (by rw [hs]; rfl)).2

lemma LateStep.isEarly (h : LateStep w s t) : t.stage.isEarly = false := by
  cases h with
  | report stage told trace results next =>
    rcases next with ⟨-, page', next⟩ | ⟨e, -, next⟩ <;> rw [next] <;> rfl
  | hook stage told trace results next =>
    rcases next with ⟨-, next⟩ | ⟨e, -, next⟩ <;> rw [next] <;> rfl
  | tearDown events stage trace told results next =>
    rcases next with next | ⟨guard', next⟩ <;> rw [next] <;> rfl
  | reported stage trace results next => rw [next]; rfl
  | hooked stage trace results next => rw [next]; rfl
  | fail stage trace counts results next => rw [next]; rfl
  | giveUp stage trace overflows results next => rw [next]; rfl
  | unwind events stage trace told results next =>
    rcases next with next | next <;> rw [next] <;> rfl
  | close stage trace results next => rw [next]; rfl

lemma LateStep.exists_events (h : LateStep w s t) : ∃ events, t.trace = s.trace ++ events ∧
    ∀ e ∈ events, (∃ verdict, e.verdict? = some verdict) ∨ e.isTeardown = true := by
  have silent : t.trace = s.trace → ∃ events, t.trace = s.trace ++ events ∧
      ∀ e ∈ events, (∃ verdict, e.verdict? = some verdict) ∨ e.isTeardown = true :=
    fun trace => ⟨[], trace.trans (List.append_nil _).symm, by simp⟩
  cases h with
  | report stage told trace => exact ⟨_, trace, by simp [told]⟩
  | hook stage told trace => exact ⟨_, trace, by simp [told]⟩
  | reported stage trace => exact silent trace
  | hooked stage trace => exact silent trace
  | fail stage trace => exact silent trace
  | giveUp stage trace => exact silent trace
  | close stage trace => exact silent trace
  | tearDown events stage trace told => exact ⟨events, trace, fun e he => .inr (told e he)⟩
  | unwind events stage trace told => exact ⟨events, trace, fun e he => .inr (told e he)⟩

lemma LateStep.gives_up (h : LateStep w s t) {payload : PanicPayload}
    (gave_up : t.stage.gaveUpOf? = some payload) : s.stage = .unwinding payload ∨
      (∃ error, s.stage = .failing error) ∧
        Totals.ofRecords s.book.registered = .error payload := by
  cases h with
  | giveUp stage trace overflows results next =>
    rw [next] at gave_up
    cases gave_up
    exact .inr ⟨⟨_, stage⟩, overflows⟩
  | unwind events stage trace told results next =>
    rcases next with next | next <;> rw [next] at gave_up <;> cases gave_up <;> exact .inl stage
  | report stage told trace results next =>
    rcases next with ⟨-, page', next⟩ | ⟨e, -, next⟩ <;> rw [next] at gave_up <;> cases gave_up
  | hook stage told trace results next =>
    rcases next with ⟨-, next⟩ | ⟨e, -, next⟩ <;> rw [next] at gave_up <;> cases gave_up
  | tearDown events stage trace told results next =>
    rcases next with next | ⟨guard', next⟩ <;> rw [next] at gave_up <;> cases gave_up
  | reported stage trace results next => rw [next] at gave_up; cases gave_up
  | hooked stage trace results next => rw [next] at gave_up; cases gave_up
  | fail stage trace counts results next => rw [next] at gave_up; cases gave_up
  | close stage trace results next => rw [next] at gave_up; cases gave_up

lemma callerStep_isEarly (h : s.callerStep? w = some t) (late : s.stage.isEarly = false) :
    t.stage.isEarly = false :=
  (callerStep_late h late).1.isEarly

lemma callerStep_early (h : s.callerStep? w = some t) (early : t.stage.isEarly = true)
    (later : s.stage ≠ .dispatching) : ∃ i, s.stage = .executing i ∧ s.hasEnded i = true ∧
      t = { s with stage := .dispatching } := by
  have s_early : s.stage.isEarly = true := by
    by_contra late
    rw [callerStep_isEarly h (by simpa using late)] at early
    cases early
  cases hs : s.stage with
  | dispatching => exact absurd hs later
  | executing i => exact ⟨i, rfl, callerStep_executing h hs⟩
  | awaiting error =>
    rw [(callerStep_awaiting h hs).2, leaveWaiting_stage] at early
    cases early
  | _ =>
    rw [hs] at s_early
    cases s_early

lemma Dispatches.unwinds (h : Dispatches s t) (late : t.stage.isEarly = false) :
    ∃ payload, Unwinds s payload ∧ t.stage = .failing (.panic payload.message) := by
  cases h with
  | ended why stage lane rests => rw [stage] at late; cases late
  | gaveUp why stage lane rests => exact ⟨_, .before why, stage⟩
  | took next asked submits pending aligned length cells =>
    cases submits with
    | inline serial calm stage lane => rw [stage] at late; cases late
    | queued parallel accepts stage put => rw [stage] at late; cases late
    | rejected parallel rejects stage put => rw [stage] at late; cases late
    | gaveUp why stage lane => exact ⟨_, .after next why, stage⟩

/-! ### The lane -/

lemma tearDownStep?_lane {next : CallerStage} (h : s.tearDownStep? next = some t) :
    t.lane = s.lane ∨
      ∃ lane owner, s.lane = some lane ∧ owner ≠ .serving ∧ t.lane = some { lane with owner } := by
  unfold tearDownStep? at h
  split at h
  · cases h
    exact .inl rfl
  · split at h
    · rename_i lane hl
      split at h
      · cases h
        exact .inl rfl
      · rw [Option.map_eq_some_iff] at h
        obtain ⟨lane', hstop, rfl⟩ := h
        obtain ⟨owner, stopping, rfl⟩ := Lane.stopStep?_eq hstop
        refine .inr ⟨lane, owner, hl, stopping, ?_⟩
        split
        · unfold noteLaneStopped
          dsimp only
          split <;> rfl
        · rfl
    · cases h
      exact .inl rfl

lemma callerStep_lane (h : s.callerStep? w = some t) (later : s.stage ≠ .dispatching) :
    t.lane = s.lane ∨ s.stage.isEarly = false ∧ ∃ lane owner, s.lane = some lane ∧
      owner ≠ .serving ∧ t.lane = some { lane with owner } := by
  cases hs : s.stage with
  | dispatching => exact absurd hs later
  | executing i =>
    rw [(callerStep_executing h hs).2]
    exact .inl rfl
  | awaiting error =>
    rw [(callerStep_awaiting h hs).2]
    obtain ⟨totals, stamped⟩ := leaveWaiting_stamped w s error
    exact .inl stamped.lane
  | tearingDown guard =>
    simp only [callerStep?, hs] at h
    exact (tearDownStep?_lane h).imp_right fun moved => ⟨rfl, moved⟩
  | unwinding payload =>
    simp only [callerStep?, hs] at h
    exact (tearDownStep?_lane h).imp_right fun moved => ⟨rfl, moved⟩
  | reporting reports page =>
    left
    simp only [callerStep?, hs] at h
    cases reports with
    | nil =>
      cases h
      unfold leaveReporting
      split <;> rfl
    | cons report rest =>
      cases h
      unfold writeReport
      dsimp only
      split <;> rfl
  | hooks hooks =>
    left
    simp only [callerStep?, hs] at h
    cases hooks with
    | nil =>
      cases h
      rfl
    | cons hook rest =>
      cases h
      unfold callHook
      dsimp only
      split <;> rfl
  | failing error =>
    left
    simp only [callerStep?, hs, Option.some.injEq] at h
    subst h
    unfold RunState.fail
    dsimp only
    split <;> rfl
  | closing =>
    left
    simp only [callerStep?, hs, Option.some.injEq] at h
    subst h
    rfl
  | done | panicked =>
    simp only [callerStep?, hs] at h
    cases h

end RunState

end FeatureBatch
