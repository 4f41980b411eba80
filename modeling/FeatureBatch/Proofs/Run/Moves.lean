import FeatureBatch.Proofs.Run.Frame

/-!
The moves of a cell: what one step of a feature, of the pool or of the lane can do to a feature, its
record and its signal. Each such step is turned into a move here, so that a property of a feature's
own course is shown by going through the moves, without another look at the step functions.
-/

namespace FeatureBatch

/-- The cache has an answer for a feature: the value is there, or computing it does not give up. -/
def SuiteCache.provides (cache : SuiteCache Json) (key : String) (init : Initializer Json) : Bool :=
  match (cache.answer (.getOrInsert key init)).1 with
  | .obtained _ _ => true
  | _ => false

/-- A report call of the completion is under way. -/
def CompletionState.isReporting : CompletionState → Bool
  | .reporting _ _ _ => true
  | _ => false

lemma CompletionState.isReporting_eq_false {k : CompletionState}
    (h : ∀ snapshot call rest, k = .reporting snapshot call rest → False) :
    k.isReporting = false := by
  cases k with
  | reporting snapshot call rest => exact (h snapshot call rest rfl).elim
  | _ => rfl

/-- The next step of the lane's thread is its last. -/
def RunState.LaneEnds {σ : Type} (s : RunState σ) : Prop :=
  ∃ lane move, s.lane = some lane ∧ lane.move? s.crashesLane = some move ∧
    (lane.after move).status ≠ .serving

namespace Cell

variable {σ : Type}

/-- The feature runs and is about to take the act `next`. -/
structure IsAt (c : Cell) (next : Act) (rest : List Act) : Prop where
  running : c.run.phase = .running
  idle : c.run.completion.isReporting = false
  acts : c.run.acts = next :: rest

/-- The feature's next act changes neither its record nor its completion. -/
def Passes (s : RunState σ) (c : Cell) : Act → Prop
  | .work tasks => tasks = []
  | .obtain key init => s.cache.provides key init
  | .acquire => True
  | .release => True
  | .complete => c.run.completion ≠ .armed
  | .abandon => False
  | .panic _ => False

/-- Why a running feature ends. -/
inductive Ends (s : RunState σ) (c : Cell) : Prop where
  | last (acts : c.run.acts = [])
  | panic (payload : PanicPayload) (rest : List Act) (acts : c.run.acts = .panic payload :: rest)
  | obtain (key : String) (init : Initializer Json) (rest : List Act)
      (acts : c.run.acts = .obtain key init :: rest) (fails : s.cache.provides key init = false)
  | pool (stopped : s.poolStopped = true)

/-- What can happen to cell `i` of a run in the state `s`. -/
inductive Move (s : RunState σ) (i : Nat) : Cell → Cell → Prop where
  | start {c : Cell} (queued : c.run.phase = .queued) : Move s i c c.start
  | discard {c : Cell} (queued : c.run.phase = .queued) (why : s.LaneEnds) : Move s i c c.discard
  | pass {c : Cell} {next : Act} {rest : List Act} (here : c.IsAt next rest)
      (passes : Passes s c next) (permits : List Nat) (waiter : Option Nat) :
      Move s i c (c.withActs rest permits waiter)
  /-- The feature waits for a permit, or gets one. -/
  | look {c : Cell} (running : c.run.phase = .running) (permits : List Nat) (waiter : Option Nat) :
      Move s i c (c.withActs c.run.acts permits waiter)
  | write {c : Cell} {tasks : List RecordUpdate} {rest : List Act} {task : Nat} {u : RecordUpdate}
      (here : c.IsAt (.work tasks) rest) (writes : tasks[task]? = some u) :
      Move s i c (c.write u (.work (tasks.eraseIdx task) :: rest))
  /-- The completion is invoked, and has nothing to report. -/
  | complete {c : Cell} {rest : List Act} (here : c.IsAt .complete rest)
      (armed : c.run.completion = .armed) :
      Move s i c (c.withActs rest c.run.permits c.run.waiter).fire
  /-- The completion is invoked, and its first report call begins. -/
  | report {c : Cell} {rest : List Act} (here : c.IsAt .complete rest)
      (armed : c.run.completion = .armed) (call : ReportCall) (calls : List ReportCall) :
      Move s i c ((c.withActs rest c.run.permits c.run.waiter).reporting c.record call calls)
  /-- One report call of the completion ends, the next one begins. -/
  | reportNext {c : Cell} {snapshot : FeatureRecord} {call : ReportCall} {calls : List ReportCall}
      (running : c.run.phase = .running) (reports : c.run.completion.isReporting = true) :
      Move s i c (c.reporting snapshot call calls)
  | signal {c : Cell} (running : c.run.phase = .running)
      (reports : c.run.completion.isReporting = true) : Move s i c c.fire
  | abandon {c : Cell} {rest : List Act} (here : c.IsAt .abandon rest) :
      Move s i c (c.withActs rest c.run.permits c.run.waiter).drop
  | finish {c : Cell} (running : c.run.phase = .running)
      (idle : c.run.completion.isReporting = false) (why : Ends s c) : Move s i c c.finish

end Cell

namespace RunState

variable {σ : Type} {w : Suite σ} {s t : RunState σ} {i : Nat} {c : Cell}

/-- `t` is `s` after a move of the cell `i`, whose feature runs, up to what features share. -/
def MovesOne (s t : RunState σ) (i : Nat) (c : Cell) : Prop :=
  ∃ φ, Touches s t i φ ∧ c.run.phase = .running ∧ Cell.Move s i c (φ c)

/-! ### The completion -/

lemma Touches.endCompletion (w : Suite σ) (s : RunState σ) (i : Nat) (snapshot : FeatureRecord)
    (error : Option SuiteError) : Touches s (s.endCompletion w i snapshot error) i Cell.fire :=
  (reportInside s i _).trans (signal _ i)

lemma Touches.nextCall (w : Suite σ) (s : RunState σ) (i : Nat) (snapshot : FeatureRecord)
    (calls : List ReportCall) :
    Touches s (s.nextCall w i snapshot calls) i Cell.fire ∨
      ∃ call rest,
        Touches s (s.nextCall w i snapshot calls) i (·.reporting snapshot call rest) := by
  cases calls with
  | nil => exact .inl (endCompletion w s i snapshot none)
  | cons call rest =>
    refine .inr ⟨call, rest, ?_⟩
    refine (updateFeature s i ?_).trans (note _ i ?_)
    · exact fun _ => rfl
    · rfl

lemma Touches.invoke (w : Suite σ) (s : RunState σ) (i : Nat) (snapshot : FeatureRecord) :
    Touches s (s.invoke w i snapshot) i Cell.fire ∨
      ∃ call rest, Touches s (s.invoke w i snapshot) i (·.reporting snapshot call rest) := by
  have invoked : Touches s (s.note (.invoked i snapshot)) i id := note s i rfl
  unfold RunState.invoke
  dsimp only
  split
  · exact .inl ((invoked.trans (reportInside _ i _)).trans (signal _ i))
  · rcases nextCall w (s.note (.invoked i snapshot)) i snapshot
      (wantedCalls w.config.outputs snapshot) with h | ⟨call, rest, h⟩
    · exact .inl (invoked.trans h)
    · exact .inr ⟨call, rest, invoked.trans h⟩

lemma Touches.endCall (w : Suite σ) (s : RunState σ) (i : Nat) (snapshot : FeatureRecord)
    (call : ReportCall) (calls : List ReportCall) :
    Touches s (s.endCall w i snapshot call calls) i Cell.fire ∨
      ∃ call' rest,
        Touches s (s.endCall w i snapshot call calls) i (·.reporting snapshot call' rest) := by
  unfold RunState.endCall
  dsimp only
  have noted : Touches s (({ s with
      files := (w.emitter.perform w.config.reportDir call s.files).2 } : RunState σ).note
        (.callEnded i call (w.emitter.perform w.config.reportDir call s.files).1)) i id :=
    (share s i s.limiter s.cache _ s.log).trans (note _ i rfl)
  split
  · exact .inl (noted.trans (endCompletion w _ i snapshot _))
  · rcases nextCall w _ i snapshot calls with h | ⟨call', rest, h⟩
    · exact .inl (noted.trans h)
    · exact .inr ⟨call', rest, noted.trans h⟩

/-! ### Acts -/

lemma Touches.givePermit (s : RunState σ) (i : Nat) (admission : Admission) :
    ∃ (permits : FeatureRun → List Nat) (waiter : Option Nat),
      Touches s (s.givePermit i admission) i
        fun c => c.withActs c.run.acts (permits c.run) waiter := by
  cases admission with
  | permit p => exact ⟨fun f => f.permits ++ [p], none, updateFeature s i fun _ => rfl⟩
  | waiting n => exact ⟨FeatureRun.permits, some n, updateFeature s i fun _ => rfl⟩
  | closed => exact ⟨FeatureRun.permits, none, updateFeature s i fun _ => rfl⟩

lemma Touches.goOn (s : RunState σ) (i : Nat) (rest : List Act) :
    Touches s (s.updateFeature i ({ · with acts := rest })) i
      fun c => c.withActs rest c.run.permits c.run.waiter :=
  updateFeature s i fun _ => rfl

lemma Touches.crash (s : RunState σ) (i : Nat) (f : FeatureRun) :
    Touches s (s.crash i f) i Cell.finish :=
  (finishFeature s i).trans (reportInside _ i _)

lemma act_moves {task : Nat} {next : Act} {rest : List Act} (al : s.Aligned)
    (hc : s.cells[i]? = some c) (here : c.IsAt next rest)
    (h : s.act w i task c.run next rest = some t) :
    ∃ φ, Touches s t i φ ∧ Cell.Move s i c (φ c) := by
  obtain ⟨hrun, hrecord, -⟩ := cells_eq_some hc
  have hi : c.run.record = i := al.record_eq hrun
  unfold RunState.act at h
  cases next with
  | work tasks =>
    cases tasks with
    | nil =>
      simp only [Option.some.injEq] at h
      subst h
      exact ⟨_, .goOn s i rest, .pass here rfl _ _⟩
    | cons u us =>
      simp only [Option.map_eq_some_iff] at h
      obtain ⟨u', hu, rfl⟩ := h
      rw [hi]
      refine ⟨_, (Touches.updateRecord s i u').trans (.updateFeature _ i ?_), .write here hu⟩
      exact fun _ => rfl
  | obtain key init =>
    dsimp only at h
    split at h
    · rename_i value computed answered
      simp only [Option.some.injEq] at h
      subst h
      refine ⟨_, ((Touches.goOn s i rest).trans (.share _ i s.limiter _ s.files s.log)).trans
        (.note _ i rfl), .pass here ?_ _ _⟩
      simp [Cell.Passes, SuiteCache.provides, answered]
    · rename_i refused
      simp only [Option.some.injEq] at h
      subst h
      refine ⟨_, (Touches.share s i s.limiter _ s.files s.log).trans (.crash _ i _),
        .finish here.running here.idle (.obtain key init rest here.acts ?_)⟩
      unfold SuiteCache.provides
      split
      · rename_i value computed answered
        exact absurd answered (refused value computed)
      · rfl
  | acquire =>
    dsimp only at h
    simp only [Option.some.injEq] at h
    subst h
    obtain ⟨permits, waiter, given⟩ := Touches.givePermit
      ({ s.updateFeature i ({ · with acts := rest }) with limiter := s.limiter.acquire.2 })
      i s.limiter.acquire.1
    exact ⟨_, ((Touches.goOn s i rest).trans (.share _ i _ s.cache s.files s.log)).trans given,
      .pass here trivial _ _⟩
  | release =>
    dsimp only at h
    split at h
    · simp only [Option.some.injEq] at h
      subst h
      exact ⟨_, .goOn s i rest, .pass here trivial _ _⟩
    · simp only [Option.some.injEq] at h
      subst h
      refine ⟨_, ((Touches.goOn s i rest).trans (.share _ i _ s.cache s.files s.log)).trans
        (.updateFeature _ i (f := fun f => { f with permits := c.run.permits.dropLast }) ?_),
        .pass here trivial _ _⟩
      exact fun _ => rfl
  | complete =>
    dsimp only at h
    split at h
    · rename_i snapshot armed found
      simp only [Option.some.injEq] at h
      subst h
      rw [hi, RecordStore.get?, hrecord, Option.some.injEq] at found
      subst found
      rcases Touches.invoke w (s.updateFeature i ({ · with acts := rest })) i c.record with
        fired | ⟨call, calls, reports⟩
      · exact ⟨_, (Touches.goOn s i rest).trans fired, .complete here armed⟩
      · exact ⟨_, (Touches.goOn s i rest).trans reports, .report here armed call calls⟩
    · rename_i gone
      simp only [Option.some.injEq] at h
      subst h
      refine ⟨_, .goOn s i rest, .pass here (fun armed => ?_) _ _⟩
      exact gone c.record armed (by rw [hi, RecordStore.get?, hrecord])
  | abandon =>
    simp only [Option.some.injEq] at h
    subst h
    exact ⟨_, (Touches.goOn s i rest).trans (.dropCompletion _ i), .abandon here⟩
  | panic payload =>
    simp only [Option.some.injEq] at h
    subst h
    exact ⟨_, .crash s i _, .finish here.running here.idle (.panic payload rest here.acts)⟩

/-! ### Steps -/

lemma featureStep_moves {task : Nat} (al : s.Aligned) (h : s.featureStep? w i task = some t) :
    ∃ c, s.cells[i]? = some c ∧ MovesOne s t i c := by
  unfold featureStep? at h
  split at h
  · cases h
  · rename_i f hf
    obtain ⟨c, hc, rfl⟩ := al.exists_cell hf
    refine ⟨c, hc, ?_⟩
    split at h
    · cases h
    · rename_i hphase
      have running : c.run.phase = .running := by simpa using hphase
      split at h
      · rename_i snapshot call calls reports
        simp only [Option.some.injEq] at h
        subst h
        have reports' : c.run.completion.isReporting = true := by rw [reports]; rfl
        rcases Touches.endCall w s i snapshot call calls with fired | ⟨call', rest, next⟩
        · exact ⟨_, fired, running, .signal running reports'⟩
        · exact ⟨_, next, running, .reportNext running reports'⟩
      · split at h
        · simp only [Option.map_eq_some_iff] at h
          obtain ⟨⟨admission, limiter⟩, -, rfl⟩ := h
          obtain ⟨permits, waiter, given⟩ := Touches.givePermit { s with limiter } i admission
          exact ⟨_, (Touches.share s i limiter s.cache s.files s.log).trans given, running,
            .look running _ _⟩
        · cases h
      · rename_i acts idle
        have idle' := CompletionState.isReporting_eq_false idle
        obtain ⟨φ, touches, move⟩ := act_moves al hc ⟨running, idle', acts⟩ h
        exact ⟨φ, touches, running, move⟩
      · rename_i acts idle
        simp only [Option.some.injEq] at h
        subst h
        exact ⟨_, .finishFeature s i, running,
          .finish running (CompletionState.isReporting_eq_false idle) (.last acts)⟩

lemma poolStep_moves (al : s.Aligned) (h : s.poolStep? i = some t) :
    ∃ c, s.cells[i]? = some c ∧ MovesOne s t i c := by
  unfold poolStep? at h
  split at h
  · rename_i stopped hf
    obtain ⟨c, hc, rfl⟩ := al.exists_cell hf
    refine ⟨c, hc, ?_⟩
    split at h
    · cases h
    · rename_i hphase
      have running : c.run.phase = .running := by simpa using hphase
      split at h
      · cases h
      · rename_i idle
        simp only [Option.some.injEq] at h
        subst h
        simp only [Bool.and_eq_true] at stopped
        exact ⟨_, .finishFeature s i, running,
          .finish running (CompletionState.isReporting_eq_false idle) (.pool stopped.1)⟩
  · cases h

end RunState

end FeatureBatch
