import FeatureBatch.Proofs.Run.Deeds
import FeatureBatch.Proofs.Run.Waiting

/-!
How long a run goes on. Each step takes something off what is left to do, so that no schedule can go
on beyond a bound that is known before the run begins.
-/

namespace FeatureBatch

/-- The steps that the caller has before it, with so many features and hooks. -/
def CallerStage.toGo (features hooks : Nat) : CallerStage → Nat
  | .executing _ => features + hooks + 11
  | .dispatching => features + hooks + 10
  | .awaiting _ => features + hooks + 9
  | .reporting rest _ => rest.length + hooks + 5
  | .hooks rest => rest.length + 4
  | .failing _ => 4
  | .closing => 3
  | .tearingDown false => 2
  | .tearingDown true => 1
  | .unwinding _ => 1
  | .done => 0
  | .panicked _ => 0

def LaneOwner.toGo : LaneOwner → Nat
  | .serving => 3
  | .flagged => 2
  | .closed => 1
  | .joined => 0

namespace Lane

/-- The jobs that the thread has to take, and its end. -/
def toGo (lane : Lane Nat) : Nat :=
  lane.queue.length + if lane.status = .serving then 1 else 0

lemma stopStep?_toGo {lane lane' : Lane Nat} (h : lane.stopStep? = some lane') :
    lane'.owner.toGo < lane.owner.toGo ∧ lane'.toGo = lane.toGo := by
  unfold stopStep? at h
  split at h
  · rename_i owner
    cases h
    exact ⟨by simp [owner, LaneOwner.toGo], rfl⟩
  · rename_i owner
    cases h
    exact ⟨by simp [owner, LaneOwner.toGo], rfl⟩
  · rename_i owner
    split at h
    · cases h
    · cases h
      exact ⟨by simp [owner, LaneOwner.toGo], rfl⟩
  · cases h

lemma toGo_after {crashes : Nat → Bool} {lane : Lane Nat} {move : LaneMove Nat}
    (h : lane.move? crashes = some move) : (lane.after move).owner = lane.owner ∧
      ((∃ i, move = .start i ∧ (lane.after move).toGo = lane.toGo) ∨
        (lane.after move).toGo < lane.toGo) := by
  unfold move? at h
  split at h
  · rename_i hs _
    split at h
    · cases h
      exact ⟨rfl, .inr (by simp [toGo, after, hs])⟩
    · split at h <;> cases h
      · exact ⟨rfl, .inr (by simp [toGo, after, hs])⟩
      · exact ⟨rfl, .inl ⟨_, rfl, rfl⟩⟩
  · rename_i hs _ hq
    cases h
    exact ⟨rfl, .inr (by simp [toGo, after, hs, hq])⟩
  · rename_i hs _ hq
    split at h
    · cases h
      exact ⟨rfl, .inr (by simp [toGo, after, hs])⟩
    · cases h
  · cases h

end Lane

lemma sum_map_set {α : Type} {l : List α} {i : Nat} {a : α} (g : α → Nat) (h : l[i]? = some a)
    (b : α) : ((l.set i b).map g).sum + g a = (l.map g).sum + g b := by
  induction l generalizing i with
  | nil => cases h
  | cons x l ih =>
    cases i with
    | zero =>
      cases h
      simp only [List.set_cons_zero, List.map_cons, List.sum_cons]
      omega
    | succ i =>
      have := ih h
      simp only [List.set_cons_succ, List.map_cons, List.sum_cons]
      omega

lemma foldr_weight {α : Type} (g : α → Nat) (l : List α) (b : Nat) :
    l.foldr (g · + ·) b = (l.map g).sum + b := by
  induction l with
  | nil => simp
  | cons x l ih =>
    rw [List.foldr_cons, ih, List.map_cons, List.sum_cons]
    omega

lemma Suite.creationWeight_made (r : Runtime) :
    creationWeight (.made r) = (r.acts.map actWeight).sum + 8 := foldr_weight ..

namespace RunState

variable {σ : Type} {w : Suite σ} {a s t u : RunState σ} {limiter : AdmissionLimiter} {files : σ}

/-- The state after a schedule of which every party can step when its turn comes. -/
def follow (w : Suite σ) (s : RunState σ) : List Party → Option (RunState σ)
  | [] => some s
  | p :: ps => (s.step? w p).bind fun t => t.follow w ps

def featuresToGo (s : RunState σ) : Nat := (s.features.map FeatureRun.effort).sum

def pendingToGo (s : RunState σ) : Nat := (s.pending.map fun c => Suite.creationWeight c.2).sum

/-- What the lane and its owner have before them. -/
def laneToGo (s : RunState σ) : Nat :=
  match s.lane with
  | some lane => lane.toGo + if s.poolStopped then 0 else lane.owner.toGo
  | none => 0

/-- More steps than are left of a run. -/
def toGo (w : Suite σ) (s : RunState σ) : Nat :=
  s.stage.toGo s.features.length w.config.hooks.length + s.pendingToGo + s.laneToGo +
    s.featuresToGo + if s.poolStopped then 0 else 1

/-! ### Features and the lane -/

lemma Shows.featuresToGo {i : Nat} {f f' : FeatureRun} {events : List RunEvent}
    (h : Shows s t i f f' events) : t.featuresToGo + f.effort = s.featuresToGo + f'.effort := by
  unfold RunState.featuresToGo
  rw [h.features]
  exact sum_map_set _ h.before f'

lemma toGo_of_keeps (keeps : Keeps s t)
    (less : t.laneToGo + t.featuresToGo < s.laneToGo + s.featuresToGo) : t.toGo w < s.toGo w := by
  unfold toGo pendingToGo
  rw [keeps.stage, keeps.features, keeps.pending, keeps.poolStopped]
  omega

lemma does_toGo {i : Nat} {f f' : FeatureRun} {events : List RunEvent}
    (h : Does w s t i f f' events) (keeps : Keeps s t) (lane : t.lane = s.lane) :
    t.toGo w < s.toGo w := by
  have sum := h.seen.featuresToGo
  have less := h.effort
  have same : t.laneToGo = s.laneToGo := by
    unfold laneToGo
    rw [lane, keeps.poolStopped]
  exact toGo_of_keeps keeps (by omega)

lemma discard_toGo (s : RunState σ) (i : Nat) :
    (s.discard i).featuresToGo ≤ s.featuresToGo := by
  cases hf : s.features[i]? with
  | none =>
    have absent : s.features.length ≤ i := List.getElem?_eq_none_iff.mp hf
    have same : (s.discard i).features = s.features := by
      simp [RunState.discard, RunState.updateFeature, dropCompletion,
        List.modify_eq_self absent, hf]
    have sums : (s.discard i).featuresToGo = s.featuresToGo := by
      unfold RunState.featuresToGo
      rw [same]
    exact Nat.le_of_eq sums
  | some f =>
    have sum := (Shows.discard hf).featuresToGo
    have ended : ({ f with phase := .discarded } : FeatureRun).drop.effort = 0 :=
      FeatureRun.effort_over (.inr (FeatureRun.drop_phase { f with phase := .discarded }))
    omega

lemma discardAll_toGo (s : RunState σ) (is : List Nat) :
    (s.discardAll is).featuresToGo ≤ s.featuresToGo := by
  induction is generalizing s with
  | nil => exact Nat.le_refl _
  | cons i is ih => exact Nat.le_trans (ih (s.discard i)) (discard_toGo s i)

lemma laneStep_toGo (sound : Sound w s) (h : s.laneStep? = some t) : t.toGo w < s.toGo w := by
  obtain ⟨-, -, -, -, keeps, -⟩ := laneStep_inv h
  obtain ⟨lane, move, hl, hm, does⟩ := laneStep_does h
  obtain ⟨owner, less⟩ := Lane.toGo_after hm
  have left := Lane.queued_eq_leaving hm
  have lane_s : s.laneToGo = lane.toGo + if s.poolStopped then 0 else lane.owner.toGo := by
    simp only [laneToGo, hl]
  have lane_put : ∀ u : RunState σ, u.lane = some (lane.after move) → Keeps s u →
      u.laneToGo = (lane.after move).toGo + if s.poolStopped then 0 else lane.owner.toGo :=
    fun u hl' keeps => by simp only [laneToGo, hl', keeps.poolStopped, owner]
  have features : ({ s with lane := some (lane.after move) } : RunState σ).featuresToGo =
    s.featuresToGo := rfl
  refine toGo_of_keeps keeps ?_
  cases does with
  | takes job take =>
    rw [lane_s, lane_put _ rfl keeps, features]
    rcases less with ⟨i, start, -⟩ | less
    · rw [take] at start
      cases start
    · omega
  | starts i start =>
    rw [lane_s, lane_put _ rfl keeps]
    obtain ⟨c, hc, phase⟩ := sound.queued lane hl i
      (by rw [left, start]; exact List.mem_cons_self)
    have sum := (Shows.start (s := { s with lane := some (lane.after move) })
      (cells_eq_some hc).1).featuresToGo
    have lighter := FeatureRun.effort_start phase
    rw [features] at sum
    rcases less with ⟨j, -, same⟩ | less <;> omega
  | letsGo ends =>
    have fewer := discardAll_toGo { s with lane := some (lane.after move) } move.leaving
    rw [features] at fewer
    rw [lane_s, lane_put _ (discardAll_keeps _ move.leaving).2 keeps]
    rcases less with ⟨j, start, -⟩ | less
    · rw [start] at ends
      exact absurd (Lane.status_after hm).1 ends
    · omega

/-! ### The caller -/

/-- `t` has before it what `s` has, but for the caller. -/
structure OthersStay (s t : RunState σ) : Prop where
  pending : t.pending = s.pending
  features : t.features = s.features
  lane : t.lane = s.lane
  poolStopped : t.poolStopped = s.poolStopped

lemma OthersStay.toGo (h : OthersStay s t)
    (less : t.stage.toGo s.features.length w.config.hooks.length <
      s.stage.toGo s.features.length w.config.hooks.length) : t.toGo w < s.toGo w := by
  unfold RunState.toGo pendingToGo laneToGo featuresToGo
  rw [h.pending, h.features, h.lane, h.poolStopped]
  omega

lemma leaveWaiting_stays (w : Suite σ) (s : RunState σ) (error : Option SuiteError) :
    OthersStay s (s.leaveWaiting w error) := by
  obtain ⟨totals, stamped⟩ := leaveWaiting_stamped w s error
  exact ⟨stamped.pending, stamped.rests.features, stamped.lane, stamped.poolStopped⟩

lemma writeReport_stays (w : Suite σ) (s : RunState σ) (report : SuiteReport)
    (rest : List SuiteReport) (page : Option Path) :
    OthersStay s (s.writeReport w report rest page) := by
  unfold writeReport
  dsimp only
  split <;> exact ⟨rfl, rfl, rfl, rfl⟩

lemma callHook_stays (s : RunState σ) (hook : Hook) (rest : List Hook) :
    OthersStay s (s.callHook hook rest) := by
  unfold callHook
  dsimp only
  split <;> exact ⟨rfl, rfl, rfl, rfl⟩

lemma suiteReports_length (al : s.Aligned) : s.suiteReports.length ≤ s.features.length + 3 := by
  have pages : (s.results.executed s.records).length ≤ s.features.length := by
    unfold Results.executed
    refine Nat.le_trans (List.length_filter_le ..) ?_
    have registered := congrArg List.length al.registered_eq
    rw [List.length_map, al.length_cells] at registered
    exact Nat.le_of_eq registered
  simp only [suiteReports, List.length_append, List.length_map]
  simpa using pages

lemma turnToReports_toGo (al : s.Aligned) (error : Option SuiteError) :
    (s.turnToReports w error).stage.toGo s.features.length w.config.hooks.length <
      s.features.length + w.config.hooks.length + 9 := by
  have reports := suiteReports_length al
  unfold turnToReports turnToHooks
  split
  · simp only [CallerStage.toGo]
    omega
  · split
    · simp only [CallerStage.toGo]
      omega
    · simp only [CallerStage.toGo]
      omega

lemma leaveWaiting_toGo (al : s.Aligned) (error : Option SuiteError) :
    (s.leaveWaiting w error).stage.toGo s.features.length w.config.hooks.length <
      s.features.length + w.config.hooks.length + 9 := by
  obtain ⟨u, totals, stamped, ⟨-, eq⟩ | ⟨payload, -, eq⟩⟩ := leaveWaiting_cases w s error <;>
    rw [eq]
  · have less := turnToReports_toGo (w := w) (stamped.rests.aligned al) error
    rw [stamped.rests.features] at less
    exact less
  · simp only [CallerStage.toGo]
    omega

lemma LateStep.stage_toGo (h : LateStep w s t) (going : s.stage.takesDown = false) (n : Nat) :
    t.stage.toGo n w.config.hooks.length < s.stage.toGo n w.config.hooks.length := by
  cases h with
  | report stage told trace results next =>
    rcases next with ⟨-, page', next⟩ | ⟨e, -, next⟩ <;>
    · rw [stage, next]
      simp only [CallerStage.toGo, List.length_cons]
      omega
  | reported stage trace results next =>
    rw [stage, next]
    simp only [CallerStage.toGo, List.length_nil]
    omega
  | hook stage told trace results next =>
    rcases next with ⟨-, next⟩ | ⟨e, -, next⟩ <;>
    · rw [stage, next]
      simp only [CallerStage.toGo, List.length_cons]
      omega
  | hooked stage trace results next =>
    rw [stage, next]
    simp [CallerStage.toGo]
  | fail stage trace counts results next =>
    rw [stage, next]
    simp [CallerStage.toGo]
  | giveUp stage trace overflows results next =>
    rw [stage, next]
    simp [CallerStage.toGo]
  | close stage trace results next =>
    rw [stage, next]
    simp [CallerStage.toGo]
  | tearDown events stage => rw [stage] at going; cases going
  | unwind events stage => rw [stage] at going; cases going

lemma callerStep_stays (h : s.callerStep? w = some t) (later : s.stage ≠ .dispatching)
    (going : s.stage.takesDown = false) : OthersStay s t := by
  cases hs : s.stage with
  | dispatching => exact absurd hs later
  | tearingDown guard => rw [hs] at going; cases going
  | unwinding payload => rw [hs] at going; cases going
  | executing i =>
    rw [(callerStep_executing h hs).2]
    exact ⟨rfl, rfl, rfl, rfl⟩
  | awaiting error =>
    rw [(callerStep_awaiting h hs).2]
    exact leaveWaiting_stays w s error
  | reporting reports page =>
    simp only [callerStep?, hs] at h
    cases reports with
    | nil =>
      cases h
      unfold leaveReporting
      split <;> exact ⟨rfl, rfl, rfl, rfl⟩
    | cons report rest =>
      cases h
      exact writeReport_stays w s report rest page
  | hooks hooks =>
    simp only [callerStep?, hs] at h
    cases hooks with
    | nil =>
      cases h
      exact ⟨rfl, rfl, rfl, rfl⟩
    | cons hook rest =>
      cases h
      exact callHook_stays s hook rest
  | failing error =>
    simp only [callerStep?, hs, Option.some.injEq] at h
    subst h
    unfold RunState.fail
    dsimp only
    split <;> exact ⟨rfl, rfl, rfl, rfl⟩
  | closing =>
    simp only [callerStep?, hs, Option.some.injEq] at h
    subst h
    exact ⟨rfl, rfl, rfl, rfl⟩
  | done | panicked =>
    simp only [callerStep?, hs] at h
    cases h

lemma tearDownStep_toGo {next : CallerStage}
    (fewer : next.toGo s.features.length w.config.hooks.length <
      s.stage.toGo s.features.length w.config.hooks.length)
    (h : s.tearDownStep? next = some t) : t.toGo w < s.toGo w := by
  have stopped : s.poolStopped = false → s.stopPool.toGo w < s.toGo w := by
    intro serving
    have lane : s.stopPool.laneToGo ≤ s.laneToGo := by
      unfold laneToGo
      rw [show s.stopPool.lane = s.lane from rfl, show s.stopPool.poolStopped = true from rfl]
      split <;> simp
    unfold RunState.toGo
    rw [show s.stopPool.stage = s.stage from rfl, show s.stopPool.features = s.features from rfl,
      show s.stopPool.pendingToGo = s.pendingToGo from rfl,
      show s.stopPool.featuresToGo = s.featuresToGo from rfl,
      show s.stopPool.poolStopped = true from rfl, serving]
    simp
    omega
  unfold tearDownStep? at h
  split at h
  · cases h
    exact OthersStay.toGo ⟨rfl, rfl, rfl, rfl⟩ fewer
  · rename_i serving
    have serving : s.poolStopped = false := by simpa using serving
    split at h
    · rename_i lane hl
      split at h
      · cases h
        exact stopped serving
      · rw [Option.map_eq_some_iff] at h
        obtain ⟨lane', stopping, rfl⟩ := h
        obtain ⟨owner, same⟩ := Lane.stopStep?_toGo stopping
        have put : ∀ u : RunState σ, u.stage = s.stage → u.pending = s.pending →
            u.features = s.features → u.lane = some lane' → u.poolStopped = s.poolStopped →
            u.toGo w < s.toGo w := by
          intro u hstage hpending hfeatures hlane hpool
          unfold RunState.toGo pendingToGo laneToGo featuresToGo
          rw [hstage, hpending, hfeatures, hlane, hpool, hl, serving]
          dsimp only
          rw [same]
          simp only [Bool.false_eq_true, if_false]
          omega
        split
        · unfold noteLaneStopped
          dsimp only
          split <;> exact put _ rfl rfl rfl rfl rfl
        · exact put _ rfl rfl rfl rfl rfl
    · cases h
      exact stopped serving

/-! ### Dispatching -/

lemma turnToWaiting_pending (s : RunState σ) (error : Option SuiteError) :
    (s.turnToWaiting error).pending = [] := by
  unfold turnToWaiting
  dsimp only
  split <;> rfl

lemma submitRuntime_pending (s : RunState σ) (i : Nat) (r : Runtime) :
    (s.submitRuntime i r).pending = [] ∨ (s.submitRuntime i r).pending = s.pending := by
  unfold submitRuntime
  split
  · split
    · exact .inl rfl
    · exact .inr rfl
  · split
    · exact .inr rfl
    · exact .inl (turnToWaiting_pending _ _)

lemma takeIn_pending (w : Suite σ) (s : RunState σ) (feature : Feature) (r : Runtime) :
    (takeIn w s feature r).pending = [] ∨ (takeIn w s feature r).pending = s.pending := by
  unfold takeIn
  split
  · exact .inl rfl
  · dsimp only
    split
    · exact .inl rfl
    · exact submitRuntime_pending _ _ _

lemma dispatchNext_pending (w : Suite σ) (s : RunState σ) : (s.dispatchNext w).pending = [] ∨
    ∃ c, s.pending = c :: (s.dispatchNext w).pending := by
  unfold dispatchNext
  split
  · exact .inl (turnToWaiting_pending _ _)
  · rename_i feature creation rest next
    split
    · exact .inl (turnToWaiting_pending _ _)
    · exact .inl rfl
    · rename_i r
      rcases takeIn_pending w { s with pending := rest } feature r with none_left | same
      · exact .inl none_left
      · exact .inr ⟨_, next.trans (congrArg _ same.symm)⟩

lemma Submits.toGo {r : Runtime} {d : Cell} (h : Submits s t r d) (n : Nat)
    (same : t.poolStopped = s.poolStopped) :
    t.stage.toGo (n + 1) w.config.hooks.length + t.laneToGo + d.run.effort <
      n + w.config.hooks.length + 10 + s.laneToGo + Suite.creationWeight (.made r) := by
  have dropped : (Cell.fresh s.features.length r).discard.run.effort = 0 :=
    FeatureRun.effort_over (.inr (Cell.drop_phase _))
  have lane_eq : t.lane = s.lane → t.laneToGo = s.laneToGo := fun lane => by
    unfold laneToGo
    rw [lane, same]
  rw [Suite.creationWeight_made]
  cases h with
  | inline serial calm stage lane =>
    rw [stage, lane_eq (lane.trans serial.symm)]
    simp [CallerStage.toGo, FeatureRun.effort, Cell.fresh, Cell.start, CompletionState.effort]
    omega
  | queued parallel accepts stage put =>
    have more : t.laneToGo = s.laneToGo + 1 := by
      simp only [laneToGo, put, parallel, same, Lane.toGo, List.length_append, List.length_singleton]
      omega
    rw [stage, more]
    simp [CallerStage.toGo, FeatureRun.effort, Cell.fresh, CompletionState.effort]
    omega
  | rejected parallel rejects stage put =>
    have as_before : t.laneToGo = s.laneToGo := by
      simp only [laneToGo, put, parallel, same, Lane.toGo]
    rw [stage, as_before, dropped]
    simp only [CallerStage.toGo]
    omega
  | gaveUp why stage lane =>
    rw [stage, lane_eq lane, dropped]
    simp only [CallerStage.toGo]
    omega

lemma dispatchNext_toGo (al : s.Aligned) (dispatching : s.stage = .dispatching) :
    (s.dispatchNext w).toGo w < s.toGo w := by
  obtain ⟨dispatches, still⟩ := dispatchNext_dispatches (w := w) al dispatching
  have pending := dispatchNext_pending w s
  generalize s.dispatchNext w = t at dispatches still pending ⊢
  have fewer : t.pendingToGo ≤ s.pendingToGo := by
    unfold pendingToGo
    rcases pending with none_left | ⟨c, taken⟩
    · rw [none_left]
      exact Nat.zero_le _
    · rw [taken, List.map_cons, List.sum_cons]
      exact Nat.le_add_left _ _
  have stage_s : s.stage.toGo s.features.length w.config.hooks.length =
      s.features.length + w.config.hooks.length + 10 := by
    rw [dispatching]
    rfl
  cases dispatches with
  | ended why stage lane rests =>
    unfold RunState.toGo laneToGo featuresToGo
    rw [rests.features, lane, still.poolStopped, stage_s, stage]
    simp only [CallerStage.toGo]
    omega
  | gaveUp why stage lane rests =>
    unfold RunState.toGo laneToGo featuresToGo
    rw [rests.features, lane, still.poolStopped, stage_s, stage]
    simp only [CallerStage.toGo]
    omega
  | @took feature r rest d next asked submits _ aligned length cells =>
    have features : t.featuresToGo = s.featuresToGo + d.run.effort := by
      unfold RunState.featuresToGo
      rw [← aligned.map_run, ← al.map_run, cells, List.map_append, List.map_append, List.sum_append]
      simp
    have before : s.pendingToGo = Suite.creationWeight (.made r) +
        (rest.map fun c => Suite.creationWeight c.2).sum := by
      rw [pendingToGo, next, List.map_cons, List.sum_cons]
    have taken : t.pendingToGo + Suite.creationWeight (.made r) ≤ s.pendingToGo := by
      rw [before]
      rcases pending with none_left | ⟨c, taken⟩
      · rw [pendingToGo, none_left]
        simp
      · rw [next, List.cons.injEq] at taken
        rw [pendingToGo, ← taken.2]
        omega
    have new := submits.toGo (w := w) s.features.length still.poolStopped
    unfold RunState.toGo
    rw [features, length, still.poolStopped, stage_s]
    omega

/-! ### Runs -/

theorem step_toGo {p : Party} (sound : Sound w s) (h : s.step? w p = some t) :
    t.toGo w < s.toGo w := by
  cases p with
  | caller =>
    by_cases dispatching : s.stage = .dispatching
    · have ht : t = s.dispatchNext w := by
        simpa [step?, callerStep?, dispatching, eq_comm] using h
      rw [ht]
      exact dispatchNext_toGo sound.aligned dispatching
    · cases hs : s.stage with
      | dispatching => exact absurd hs dispatching
      | tearingDown guard =>
        simp only [step?, callerStep?, hs] at h
        refine tearDownStep_toGo ?_ h
        rw [hs]
        cases guard <;> simp [CallerStage.toGo]
      | unwinding payload =>
        simp only [step?, callerStep?, hs] at h
        refine tearDownStep_toGo ?_ h
        rw [hs]
        simp [CallerStage.toGo]
      | executing i =>
        have stays := callerStep_stays h dispatching (by rw [hs]; rfl)
        refine stays.toGo ?_
        rw [(callerStep_executing h hs).2, hs]
        simp only [CallerStage.toGo]
        omega
      | awaiting error =>
        have stays := callerStep_stays h dispatching (by rw [hs]; rfl)
        refine stays.toGo ?_
        rw [(callerStep_awaiting h hs).2, hs]
        exact leaveWaiting_toGo sound.aligned error
      | _ =>
        have stays := callerStep_stays h dispatching (by rw [hs]; rfl)
        have late := (callerStep_late h (by rw [hs]; rfl)).1
        exact stays.toGo (late.stage_toGo (by rw [hs]; rfl) _)
  | lane => exact laneStep_toGo sound h
  | feature i task =>
    obtain ⟨f, f', events, does⟩ := featureStep_does h
    obtain ⟨_, _, _, touches, _⟩ := featureStep_moves sound.aligned h
    exact does_toGo does touches.keeps touches.lane
  | pool i =>
    obtain ⟨f, f', events, does⟩ := poolStep_does h
    obtain ⟨_, _, _, touches, _⟩ := poolStep_moves sound.aligned h
    exact does_toGo does touches.keeps touches.lane

lemma toGo_start (w : Suite σ) (limiter : AdmissionLimiter) (files : σ) :
    (w.start limiter files).toGo w ≤ w.weight := by
  have lane : (w.start limiter files).laneToGo ≤ 4 := by
    unfold laneToGo Suite.start
    dsimp only
    split
    · rename_i lane hl
      split at hl <;> cases hl
      simp [Lane.toGo, Lane.fresh, LaneOwner.toGo]
    · exact Nat.zero_le _
  unfold RunState.toGo
  rw [show (w.start limiter files).stage = .dispatching from rfl,
    show (w.start limiter files).features = [] from rfl,
    show (w.start limiter files).featuresToGo = 0 from rfl,
    show (w.start limiter files).poolStopped = false from rfl]
  have weight : w.weight = (w.creations.map fun c => Suite.creationWeight c.2).sum +
      (w.config.hooks.length + 32) := foldr_weight ..
  have pending : (w.start limiter files).pendingToGo =
      (w.creations.map fun c => Suite.creationWeight c.2).sum := rfl
  simp only [CallerStage.toGo, List.length_nil, weight, pending, Bool.false_eq_true, if_false]
  omega

/-- **Runs end**: no schedule goes on for longer than what is left to do. -/
theorem follow_length {ps : List Party} (sound : Sound w s) (h : s.follow w ps = some t) :
    ps.length + t.toGo w ≤ s.toGo w := by
  induction ps generalizing s with
  | nil =>
    cases h
    simp
  | cons p ps ih =>
    simp only [follow, Option.bind_eq_some_iff] at h
    obtain ⟨u, next, h⟩ := h
    have less := step_toGo sound next
    have later := ih (sound.step next).1 h
    rw [List.length_cons]
    omega

end RunState

end FeatureBatch
