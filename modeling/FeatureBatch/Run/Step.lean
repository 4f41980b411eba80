import FeatureBatch.Run.State

/-!
The steps of a run. Each party, the caller, the lane, every feature and the pool, has at most one
next step in a state, save that a feature picks which of its open tasks writes next. A run is any
order of such steps; `play` follows a schedule, and passes over parties that cannot step.
-/

namespace FeatureBatch

/-- Who takes a step. -/
inductive Party where
  | caller
  | lane
  /-- A feature; if it has tasks open, the one at that place writes. -/
  | feature (number task : Nat)
  /-- The pool, once stopped, gives up a feature that still runs. -/
  | pool (feature : Nat)
  deriving DecidableEq, Repr

namespace RunState

variable {σ : Type}

/-! ### Dispatching -/

/-- Dispatching has ended; the caller turns to waiting. -/
def turnToWaiting (s : RunState σ) (error : Option SuiteError) : RunState σ :=
  let s := { s with stage := .awaiting error, pending := [] }
  if 1 < s.barrier.size then
    s.report .debug s!"waiting for {s.barrier.size} features to complete ..."
  else s

/-- Dispatching gave up: nobody waits for the features that were submitted. -/
def unwind (s : RunState σ) (payload : PanicPayload) : RunState σ :=
  { s with stage := .failing (.panic payload.message), pending := [], barrier := s.barrier.forget }

/-- Registers a runtime's record and a signal for it. -/
def registerRuntime (s : RunState σ) (runtime : Runtime) : RunState σ :=
  let (record, records) := s.records.add runtime.record
  let feature : FeatureRun :=
    { feature := runtime.feature, record, startPanics := runtime.startPanics, acts := runtime.acts
      completion := .armed, phase := .queued, permits := [], waiter := none }
  { s with records, results := s.results.register record, barrier := s.barrier.register
           features := s.features ++ [feature] }

/-- Submits the runtime that was registered last. -/
def submitRuntime (s : RunState σ) (i : Nat) (runtime : Runtime) : RunState σ :=
  match s.lane with
  | none =>
    match runtime.startPanics with
    | some payload => (s.discard i).unwind payload
    | none => { s with stage := .executing i }.begin i
  | some lane =>
    match lane.submit i with
    | (true, lane) => { s with lane := some lane }
    | (false, lane) =>
      ({ s with lane := some lane }.discard i).turnToWaiting
        (some (.dispatcherStopped runtime.feature.display))

/-- A feature's place in the batch, with a text for the feature. -/
def placeText (w : Suite σ) (i : Nat) (feature : String) : String :=
  s!"feature {i + 1} of {w.config.features.length}: {feature}"

/-- Takes in the runtime that was made for a feature. -/
def takeIn (w : Suite σ) (s : RunState σ) (feature : Feature) (runtime : Runtime) : RunState σ :=
  match runtime.recordPanics with
  | some payload => s.unwind payload
  | none =>
    let i := s.features.length
    let s := s.registerRuntime runtime
    match runtime.completionPanics with
    | some payload => (s.discard i).unwind payload
    | none =>
      (s.report .trace ("submitting " ++ placeText w i feature.display)).submitRuntime i runtime

/-- Makes the next runtime and submits it. -/
def dispatchNext (w : Suite σ) (s : RunState σ) : RunState σ :=
  match s.pending with
  | [] => s.turnToWaiting none
  | (feature, creation) :: rest =>
    match creation with
    | .refused reason => s.turnToWaiting (some (.runtime feature.display reason))
    | .panicked payload => s.unwind payload
    | .made runtime => { s with pending := rest }.takeIn w feature runtime

/-! ### After the last signal -/

/-- All signals have come: the end is stamped. -/
def stampEnd (w : Suite σ) (s : RunState σ) : RunState σ :=
  let arrivals := s.barrier.arrivals
  let s := { s with barrier := s.barrier.forget }.note (.released arrivals)
  let s := if 0 < arrivals.abandoned then
    s.report .warn s!"{arrivals.abandoned} feature(s) ended without reporting completion" else s
  { s with results := s.results.finish w.endedAt }

/-- The statistics are printed and the hooks follow. -/
def turnToHooks (w : Suite σ) (s : RunState σ) : RunState σ :=
  { s with stage := .hooks w.config.hooks, log := s.log ++ s.results.statsLog }

/-- What is to be written about the suite: a page for each feature that ran, and the summaries. -/
def suiteReports (s : RunState σ) : List SuiteReport :=
  (s.results.executed s.records).map .page ++ [.summary, .stats, .timeline]

/-- What follows the wait, if the totals could be computed. -/
def turnToReports (w : Suite σ) (s : RunState σ) : Option SuiteError → RunState σ
  | some e => { s with stage := .failing e }
  | none =>
    if w.config.outputs.html then { s with stage := .reporting s.suiteReports none }
    else s.turnToHooks w

/-- What follows the wait. The totals are computed first; if that gives up, the run fails of it,
whatever became of dispatching. -/
def leaveWaiting (w : Suite σ) (s : RunState σ) (error : Option SuiteError) : RunState σ :=
  let s := s.stampEnd w
  match s.results.finalize s.records with
  | .ok results => { s with results }.turnToReports w error
  | .error payload => { s with stage := .failing (.panic payload.message) }

def reportCall (s : RunState σ) : SuiteReport → ReportCall
  | .page record => .featureHtml record
  | .summary => .summary s.book
  | .stats => .stats s.book
  | .timeline => .timeline s.book

/-- Has one report about the suite written. -/
def writeReport (w : Suite σ) (s : RunState σ) (report : SuiteReport) (rest : List SuiteReport)
    (page : Option Path) : RunState σ :=
  let call := s.reportCall report
  let (outcome, files) := w.emitter.perform w.config.reportDir call s.files
  let s := { s with files }.note (.suiteCall call outcome s.results)
  match outcome.error?, outcome, report with
  | some e, _, _ => { s with stage := .failing e }
  | none, .written path, .summary => { s with stage := .reporting rest (some path) }
  | none, _, _ => { s with stage := .reporting rest page }

/-- All reports about the suite are written. -/
def leaveReporting (w : Suite σ) (s : RunState σ) (page : Option Path) : RunState σ :=
  (match page with
    | some path => s.report .info ("html report: " ++ path.display)
    | none => s).turnToHooks w

/-- Calls one hook. -/
def callHook (s : RunState σ) (hook : Hook) (rest : List Hook) : RunState σ :=
  let view : HookView := ⟨s.book, s.limiter.closed⟩
  let outcome := hook.call view
  let s := s.note (.hookCall hook.name view outcome)
  match outcome.error? hook.name with
  | some e => { s with stage := .failing e }
  | none => { s with stage := .hooks rest }

/-- The run has failed. Registered features still count, whatever failed; nothing holds back what
computing the totals may give up with. -/
def fail (s : RunState σ) (error : SuiteError) : RunState σ :=
  let s := s.report .error ("runner failed: " ++ error.message)
  let results := (s.results.recordFailure error).2
  match results.finalize s.records with
  | .ok results => { s with stage := .closing, results }
  | .error payload => { s with stage := .unwinding payload, results }

/-- Stamps the end if it is not stamped yet. -/
def close (w : Suite σ) (s : RunState σ) : RunState σ :=
  { s with
    stage := .tearingDown false
    results := if s.results.isFinished then s.results else s.results.finish w.endedAt }

/-! ### Taking down -/

/-- The lane has been stopped. -/
def noteLaneStopped (s : RunState σ) (lane : Lane Nat) : RunState σ :=
  let s := { s with lane := some lane }
  let s := if lane.status = .died then
    s.report .warn "dispatch lane panicked before shutdown" else s
  (s.report .debug "dispatch lane stopped").note .laneStopped

/-- The pool is stopped and the limiter closed. -/
def stopPool (s : RunState σ) : RunState σ :=
  let s := ({ s with poolStopped := true }.report .debug "execution pool stopped").note .poolStopped
  let s := { s with limiter := s.limiter.close }.note .limiterClosed
  s.report .debug "suite primitives torn down"

/-- The next step in taking down: first the lane, step by step, then pool and limiter. Once the pool
is stopped there is nothing left to do, and the caller goes on to what is next. None while the lane's
thread is waited for. -/
def tearDownStep? (s : RunState σ) (next : CallerStage) : Option (RunState σ) :=
  if s.poolStopped then some { s with stage := next }
  else match s.lane with
    | some lane =>
      if lane.isStopped then some s.stopPool
      else (lane.stopStep?).map fun lane =>
        if lane.isStopped then s.noteLaneStopped lane else { s with lane := some lane }
    | none => some s.stopPool

/-! ### The caller -/

def hasEnded (s : RunState σ) (i : Nat) : Bool :=
  match s.features[i]? with
  | some f => f.phase = .ended
  | none => true

/-- The caller's next step; none while it waits, and after the end. -/
def callerStep? (w : Suite σ) (s : RunState σ) : Option (RunState σ) :=
  match s.stage with
  | .dispatching => some (s.dispatchNext w)
  | .executing i => if s.hasEnded i then some { s with stage := .dispatching } else none
  | .awaiting error => if s.barrier.isComplete then some (s.leaveWaiting w error) else none
  | .reporting (report :: rest) page => some (s.writeReport w report rest page)
  | .reporting [] page => some (s.leaveReporting w page)
  | .hooks (hook :: rest) => some (s.callHook hook rest)
  | .hooks [] => some { s with stage := .closing }
  | .failing error => some (s.fail error)
  | .closing => some (s.close w)
  | .tearingDown guard => s.tearDownStep? (if guard then .done else .tearingDown true)
  | .unwinding payload => s.tearDownStep? (.panicked payload)
  | .done | .panicked _ => none

/-! ### The lane -/

/-- Starting the feature's runtime brings the lane's thread down. -/
def crashesLane (s : RunState σ) (i : Nat) : Bool :=
  match s.features[i]? with
  | some f => f.startPanics.isSome
  | none => false

def discardAll (s : RunState σ) (is : List Nat) : RunState σ := is.foldl discard s

/-- The next step of the lane's thread. -/
def laneStep? (s : RunState σ) : Option (RunState σ) :=
  match s.lane with
  | none => none
  | some lane =>
    (lane.move? s.crashesLane).map fun move =>
      let s := { s with lane := some (lane.after move) }
      match move with
      | .take _ => s
      | .start i => s.begin i
      | .crash i unstarted => s.discardAll (i :: unstarted)
      | .leave unstarted => s.discardAll unstarted

/-! ### Features -/

/-- The calls that report a feature when it completes: JSON and then XML, as wanted. -/
def wantedCalls (outputs : OutputFormats) (snapshot : FeatureRecord) : List ReportCall :=
  (if outputs.cucumberJson then [.featureJson snapshot] else []) ++
    (if outputs.junitXml then [.featureXml snapshot] else [])

/-- A completion that was invoked signals, and is used up. -/
def signal (s : RunState σ) (i : Nat) : RunState σ :=
  ({ s with barrier := s.barrier.fire i }.updateFeature i
    ({ · with completion := .used })).note (.signalled i)

/-- The feature's reports are written, or one of them failed. -/
def endCompletion (w : Suite σ) (s : RunState σ) (i : Nat) (snapshot : FeatureRecord)
    (error : Option SuiteError) : RunState σ :=
  let event : LogEvent := match error with
    | none =>
      let verdict := if snapshot.isFailed then "fail" else "pass"
      ⟨.info, s!"<<{verdict}>> {placeText w i snapshot.path}"⟩
    | some e =>
      ⟨.error, s!"<<error>> unable to write report file(s): {snapshot.path} - {e.message}"⟩
  (s.reportInside [event, snapshot.statsEvent]).signal i

/-- The next report call of a completion begins; without one, the completion is at its end. -/
def nextCall (w : Suite σ) (s : RunState σ) (i : Nat) (snapshot : FeatureRecord) :
    List ReportCall → RunState σ
  | [] => s.endCompletion w i snapshot none
  | call :: rest =>
    (s.updateFeature i ({ · with completion := .reporting snapshot call rest })).note
      (.callBegan i call)

/-- Invokes a feature's completion. A record without scenarios is not reported. -/
def invoke (w : Suite σ) (s : RunState σ) (i : Nat) (snapshot : FeatureRecord) : RunState σ :=
  let s := s.note (.invoked i snapshot)
  if snapshot.isEmpty then
    (s.reportInside [⟨.trace, s!"<<skip>> {placeText w i snapshot.path}"⟩]).signal i
  else s.nextCall w i snapshot (wantedCalls w.config.outputs snapshot)

/-- A report call of a completion ends. After a failed one, no other is made. -/
def endCall (w : Suite σ) (s : RunState σ) (i : Nat) (snapshot : FeatureRecord) (call : ReportCall)
    (rest : List ReportCall) : RunState σ :=
  let (outcome, files) := w.emitter.perform w.config.reportDir call s.files
  let s := { s with files }.note (.callEnded i call outcome)
  match outcome.error? with
  | some e => s.endCompletion w i snapshot (some e)
  | none => s.nextCall w i snapshot rest

/-- A feature's runtime gives up. -/
def crash (s : RunState σ) (i : Nat) (f : FeatureRun) : RunState σ :=
  (s.finishFeature i).reportInside
    [⟨.warn, s!"feature {f.feature.display} panicked before completing"⟩]

def givePermit (s : RunState σ) (i : Nat) : Admission → RunState σ
  | .permit p => s.updateFeature i fun f => { f with permits := f.permits ++ [p], waiter := none }
  | .waiting w => s.updateFeature i ({ · with waiter := some w })
  | .closed => s.updateFeature i ({ · with waiter := none })

/-- A feature takes its next act; `task` picks among its open tasks. -/
def act (w : Suite σ) (s : RunState σ) (i task : Nat) (f : FeatureRun) (next : Act)
    (rest : List Act) : Option (RunState σ) :=
  let goOn := s.updateFeature i ({ · with acts := rest })
  match next with
  | .work [] => some goOn
  | .work (t :: ts) =>
    ((t :: ts)[task]?).map fun update =>
      { s with records := s.records.update f.record update }.updateFeature i
        ({ · with acts := .work ((t :: ts).eraseIdx task) :: rest })
  | .obtain key init =>
    let (reply, cache) := s.cache.answer (.getOrInsert key init)
    match reply with
    | .obtained value _ => some ({ goOn with cache }.note (.obtained i value))
    | _ => some ({ s with cache }.crash i f)
  | .acquire =>
    let (admission, limiter) := s.limiter.acquire
    some ({ goOn with limiter }.givePermit i admission)
  | .release =>
    match f.permits.getLast? with
    | none => some goOn
    | some p =>
      some ({ goOn with limiter := (s.limiter.release p).2 }.updateFeature i
        ({ · with permits := f.permits.dropLast }))
  | .complete =>
    match f.completion, s.records.get? f.record with
    | .armed, some snapshot => some (goOn.invoke w i snapshot)
    | _, _ => some goOn
  | .abandon => some (goOn.dropCompletion i)
  | .panic _ => some (s.crash i f)

/-- The next step of a feature; none if it does not run, or waits for a permit. -/
def featureStep? (w : Suite σ) (s : RunState σ) (i task : Nat) : Option (RunState σ) :=
  match s.features[i]? with
  | none => none
  | some f =>
    if f.phase ≠ .running then none
    else match f.completion, f.waiter, f.acts with
      | .reporting snapshot call rest, _, _ => some (s.endCall w i snapshot call rest)
      | _, some waiter, _ =>
        if s.limiter.isReady waiter then
          (s.limiter.poll? waiter).map fun (admission, limiter) =>
            { s with limiter }.givePermit i admission
        else none
      | _, none, next :: rest => s.act w i task f next rest
      | _, none, [] => some (s.finishFeature i)

/-! ### The pool -/

/-- A stopped pool gives up a feature, though not in the midst of its completion. -/
def poolStep? (s : RunState σ) (i : Nat) : Option (RunState σ) :=
  match s.poolStopped && s.isParallel, s.features[i]? with
  | true, some f =>
    if f.phase ≠ .running then none
    else match f.completion with
      | .reporting _ _ _ => none
      | _ => some (s.finishFeature i)
  | _, _ => none

/-! ### All parties -/

/-- The next step of a party; none if it cannot step. -/
def step? (w : Suite σ) (s : RunState σ) : Party → Option (RunState σ)
  | .caller => s.callerStep? w
  | .lane => s.laneStep?
  | .feature i task => s.featureStep? w i task
  | .pool i => s.poolStep? i

/-- The state after a schedule. -/
def play (w : Suite σ) (s : RunState σ) (schedule : List Party) : RunState σ :=
  schedule.foldl (fun s party => (s.step? w party).getD s) s

@[simp] theorem play_nil (w : Suite σ) (s : RunState σ) : s.play w [] = s := rfl

@[simp] theorem play_cons (w : Suite σ) (s : RunState σ) (p : Party) (ps : List Party) :
    s.play w (p :: ps) = ((s.step? w p).getD s).play w ps := rfl

/-- A run in any order of steps. -/
inductive Reaches (w : Suite σ) : RunState σ → RunState σ → Prop where
  | refl (s : RunState σ) : Reaches w s s
  | step {s t u : RunState σ} (party : Party) (reaches : Reaches w s t)
      (next : t.step? w party = some u) : Reaches w s u

end RunState

end FeatureBatch
