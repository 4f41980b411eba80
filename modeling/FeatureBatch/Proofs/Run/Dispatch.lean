import FeatureBatch.Proofs.Run.Lane

/-!
Steps of the caller while it dispatches. A step ends the dispatching, or takes in a runtime, which
puts one more cell behind the others; how the cell looks depends on what became of the submission.
-/

namespace FeatureBatch

namespace Suite

variable {σ : Type} {w : Suite σ}

/-- The runtime that is made for a feature, if one is. -/
def runtime? (w : Suite σ) (i : Nat) : Option Runtime :=
  match w.creations[i]? with
  | some (_, .made r) => some r
  | _ => none

lemma creations_eq_some {i : Nat} {f : Feature} {c : Creation} :
    w.creations[i]? = some (f, c) ↔ w.config.features[i]? = some f ∧ w.runtimes i f = c := by
  simp only [creations, List.getElem?_map, List.getElem?_zipIdx, Option.map_map,
    Option.map_eq_some_iff, Function.comp_apply, Prod.mk.injEq, Nat.zero_add]
  constructor
  · rintro ⟨g, hg, rfl, rfl⟩
    exact ⟨hg, rfl⟩
  · rintro ⟨hf, rfl⟩
    exact ⟨f, hf, rfl, rfl⟩

lemma runtime?_eq_some {i : Nat} {r : Runtime} :
    w.runtime? i = some r ↔ ∃ f, w.config.features[i]? = some f ∧ w.runtimes i f = .made r := by
  unfold runtime?
  constructor
  · intro h
    split at h
    · rename_i f made found
      cases h
      exact ⟨f, creations_eq_some.mp found⟩
    · cases h
  · rintro ⟨f, found⟩
    rw [creations_eq_some.mpr found]

end Suite

namespace RunState

variable {σ : Type} {w : Suite σ} {s t : RunState σ}

/-- `t` has the features of `s`, with their records, signals and registrations. -/
structure Rests (s t : RunState σ) : Prop where
  features : t.features = s.features
  records : t.records = s.records
  signals : t.barrier.signals = s.barrier.signals
  registered : t.results.registered = s.results.registered

lemma Rests.cells (h : Rests s t) : t.cells = s.cells := by
  unfold RunState.cells
  rw [h.features, h.records, h.signals]

lemma Rests.aligned (h : Rests s t) (al : s.Aligned) : t.Aligned where
  records := by rw [h.records, h.features, al.records]
  signals := by rw [h.signals, h.features, al.signals]
  ids := by rw [h.features, al.ids]
  registered := by rw [h.registered, h.features, al.registered]

lemma Rests.trans {u : RunState σ} (h : Rests s t) (k : Rests t u) : Rests s u where
  features := k.features.trans h.features
  records := k.records.trans h.records
  signals := k.signals.trans h.signals
  registered := k.registered.trans h.registered

/-- What a step of dispatching leaves as it was. -/
structure StillDispatching (s t : RunState σ) : Prop where
  poolStopped : t.poolStopped = s.poolStopped
  callerTrace : t.callerTrace = s.callerTrace
  totals : t.results.totals = s.results.totals
  failureReason : t.results.failureReason = s.results.failureReason

lemma StillDispatching.trans {u : RunState σ} (h : StillDispatching s t)
    (k : StillDispatching t u) : StillDispatching s u where
  poolStopped := k.poolStopped.trans h.poolStopped
  callerTrace := k.callerTrace.trans h.callerTrace
  totals := k.totals.trans h.totals
  failureReason := k.failureReason.trans h.failureReason

/-- Why dispatching ends without giving up. -/
inductive Stops (s : RunState σ) : Option SuiteError → Prop where
  | all (none_left : s.pending = []) : Stops s none
  | refused {feature : Feature} {reason : String} {rest : List (Feature × Creation)}
      (next : s.pending = (feature, .refused reason) :: rest) :
      Stops s (some (.runtime feature.display reason))

/-- Why dispatching gives up before a runtime is registered. -/
inductive GivesUp (s : RunState σ) : PanicPayload → Prop where
  | create {feature : Feature} {payload : PanicPayload} {rest : List (Feature × Creation)}
      (next : s.pending = (feature, .panicked payload) :: rest) : GivesUp s payload
  | record {feature : Feature} {r : Runtime} {payload : PanicPayload}
      {rest : List (Feature × Creation)} (next : s.pending = (feature, .made r) :: rest)
      (panics : r.recordPanics = some payload) : GivesUp s payload

/-- Why dispatching gives up at all: before a runtime is registered, or with one that is. -/
inductive Unwinds (s : RunState σ) (payload : PanicPayload) : Prop where
  | before (why : GivesUp s payload)
  | after {feature : Feature} {r : Runtime} {rest : List (Feature × Creation)}
      (next : s.pending = (feature, .made r) :: rest)
      (why : r.completionPanics = some payload ∨
        (r.completionPanics = none ∧ s.lane = none ∧ r.startPanics = some payload))

/-- What becomes of the submission of the runtime `r`, by the cell that it leaves. -/
inductive Submits (s t : RunState σ) (r : Runtime) : Cell → Prop where
  | inline (serial : s.lane = none) (calm : r.startPanics = none)
      (stage : t.stage = .executing s.features.length) (lane : t.lane = none) :
      Submits s t r (Cell.fresh s.features.length r).start
  | queued {lane : Lane Nat} (parallel : s.lane = some lane) (accepts : lane.accepts = true)
      (stage : t.stage = .dispatching)
      (put : t.lane = some { lane with queue := lane.queue ++ [s.features.length] }) :
      Submits s t r (Cell.fresh s.features.length r)
  | rejected {lane : Lane Nat} (parallel : s.lane = some lane) (rejects : lane.accepts = false)
      (stage : t.stage = .awaiting (some (.dispatcherStopped r.feature.display)))
      (put : t.lane = some { lane with rejected := lane.rejected ++ [s.features.length] }) :
      Submits s t r (Cell.fresh s.features.length r).discard
  | gaveUp {payload : PanicPayload}
      (why : r.completionPanics = some payload ∨
        (r.completionPanics = none ∧ s.lane = none ∧ r.startPanics = some payload))
      (stage : t.stage = .failing (.panic payload.message)) (lane : t.lane = s.lane) :
      Submits s t r (Cell.fresh s.features.length r).discard

/-- What a step of dispatching comes to. -/
inductive Dispatches (s t : RunState σ) : Prop where
  | ended {error : Option SuiteError} (why : Stops s error) (stage : t.stage = .awaiting error)
      (lane : t.lane = s.lane) (rests : Rests s t)
  | gaveUp {payload : PanicPayload} (why : GivesUp s payload)
      (stage : t.stage = .failing (.panic payload.message)) (lane : t.lane = s.lane)
      (rests : Rests s t)
  | took {feature : Feature} {r : Runtime} {rest : List (Feature × Creation)} {d : Cell}
      (next : s.pending = (feature, .made r) :: rest) (asked : r.recordPanics = none)
      (submits : Submits s t r d)
      (pending : t.stage = .dispatching ∨ (∃ i, t.stage = .executing i) → t.pending = rest)
      (aligned : t.Aligned) (length : t.features.length = s.features.length + 1)
      (cells : t.cells = s.cells ++ [d])

/-! ### Registering -/

lemma Aligned.registerRuntime (al : s.Aligned) (r : Runtime) : (s.registerRuntime r).Aligned where
  records := by simp [RunState.registerRuntime, RecordStore.add, al.records]
  signals := by simp [RunState.registerRuntime, CompletionBarrier.register, al.signals]
  ids := by
    simp [RunState.registerRuntime, RecordStore.add, al.records, al.ids, List.range_succ]
  registered := by
    simp [RunState.registerRuntime, RecordStore.add, Results.register, al.records, al.registered,
      List.range_succ]

lemma cells_registerRuntime (al : s.Aligned) (r : Runtime) :
    (s.registerRuntime r).cells = s.cells ++ [Cell.fresh s.features.length r] := by
  unfold cells RunState.registerRuntime RecordStore.add CompletionBarrier.register
  dsimp only
  rw [List.zip_append (by rw [al.records, al.signals]),
    List.zip_append (by simp [al.records, al.signals]), List.map_append, al.records]
  rfl

lemma Touches.registered {u : RunState σ} {r : Runtime} {φ : Cell → Cell} (al : s.Aligned)
    (h : Touches (s.registerRuntime r) u s.features.length φ) :
    u.Aligned ∧ u.features.length = s.features.length + 1 ∧
      u.cells = s.cells ++ [φ (Cell.fresh s.features.length r)] := by
  refine ⟨(al.registerRuntime r).keeps h.keeps, ?_, ?_⟩
  · rw [h.keeps.features]
    simp [RunState.registerRuntime]
  · rw [h.cells, cells_registerRuntime al, ← al.length_cells, modify_length_append]

/-! ### Turning -/

/-- The caller turns to another stage, and perhaps to another state of the lane. -/
structure Turns (s t : RunState σ) (stage : CallerStage) (lane : Option (Lane Nat)) : Prop where
  stage : t.stage = stage
  lane : t.lane = lane
  rests : Rests s t
  still : StillDispatching s t

lemma Turns.trans {u : RunState σ} {stage stage' : CallerStage} {lane lane' : Option (Lane Nat)}
    (h : Turns s t stage lane) (k : Turns t u stage' lane') : Turns s u stage' lane' where
  stage := k.stage
  lane := k.lane
  rests := h.rests.trans k.rests
  still := h.still.trans k.still

lemma turns_to (s : RunState σ) (stage : CallerStage) (lane : Option (Lane Nat)) :
    Turns s { s with stage, lane } stage lane :=
  ⟨rfl, rfl, ⟨rfl, rfl, rfl, rfl⟩, ⟨rfl, rfl, rfl, rfl⟩⟩

lemma turns_unwind (s : RunState σ) (payload : PanicPayload) :
    Turns s (s.unwind payload) (.failing (.panic payload.message)) s.lane :=
  ⟨rfl, rfl, ⟨rfl, rfl, rfl, rfl⟩, ⟨rfl, rfl, rfl, rfl⟩⟩

lemma turns_turnToWaiting (s : RunState σ) (error : Option SuiteError) :
    Turns s (s.turnToWaiting error) (.awaiting error) s.lane := by
  unfold turnToWaiting
  dsimp only
  split <;> exact ⟨rfl, rfl, ⟨rfl, rfl, rfl, rfl⟩, ⟨rfl, rfl, rfl, rfl⟩⟩

/-! ### Taking in -/

section TakingIn

variable {feature : Feature} {r : Runtime} {rest : List (Feature × Creation)}

/-- The state in which a runtime has just been registered. -/
def withRegistered (s : RunState σ) (rest : List (Feature × Creation)) (r : Runtime) : RunState σ :=
  { s with pending := rest }.registerRuntime r

lemma took {u : RunState σ} {φ : Cell → Cell} {stage : CallerStage} {lane : Option (Lane Nat)}
    (al : s.Aligned) (next : s.pending = (feature, .made r) :: rest) (asked : r.recordPanics = none)
    (touches : Touches (s.withRegistered rest r) u s.features.length φ)
    (turns : Turns u t stage lane)
    (submits : Submits s t r (φ (Cell.fresh s.features.length r)))
    (pending : t.stage = .dispatching ∨ (∃ i, t.stage = .executing i) → t.pending = rest) :
    Dispatches s t ∧ StillDispatching s t := by
  have al' : ({ s with pending := rest } : RunState σ).Aligned := ⟨al.1, al.2, al.3, al.4⟩
  obtain ⟨aligned, length, hcells⟩ := touches.registered al'
  refine ⟨.took next asked submits pending (turns.rests.aligned aligned) ?_ ?_, ?_⟩
  · rw [turns.rests.features, length]
  · rw [turns.rests.cells, hcells]
    rfl
  · have registered : StillDispatching s (s.withRegistered rest r) := ⟨rfl, rfl, rfl, rfl⟩
    refine ⟨?_, ?_, ?_, ?_⟩
    · rw [turns.still.poolStopped, touches.keeps.poolStopped, registered.poolStopped]
    · rw [turns.still.callerTrace, touches.keeps.callerTrace, registered.callerTrace]
    · rw [turns.still.totals, touches.keeps.results, registered.totals]
    · rw [turns.still.failureReason, touches.keeps.results, registered.failureReason]

lemma discard_setLane (s : RunState σ) (i : Nat) (lane : Option (Lane Nat)) :
    ({ s with lane } : RunState σ).discard i = { s.discard i with stage := s.stage, lane } := by
  unfold RunState.discard dropCompletion RunState.updateFeature
  dsimp only
  split <;> rfl

lemma submit_dispatches {v : RunState σ} (al : s.Aligned) (dispatching : s.stage = .dispatching)
    (next : s.pending = (feature, .made r) :: rest) (asked : r.recordPanics = none)
    (completed : r.completionPanics = none)
    (noted : Touches (s.withRegistered rest r) v s.features.length id)
    (ht : t = v.submitRuntime s.features.length r) : Dispatches s t ∧ StillDispatching s t := by
  have lane_v : v.lane = s.lane := noted.lane
  have stage_v : v.stage = .dispatching := noted.keeps.stage.trans dispatching
  have pending_v : v.pending = rest := noted.keeps.pending
  unfold submitRuntime at ht
  split at ht
  · rename_i no_lane
    have serial : s.lane = none := lane_v.symm.trans no_lane
    split at ht
    · rename_i payload panics
      subst ht
      have turns := turns_unwind (v.discard s.features.length) payload
      refine took al next asked (noted.trans (.discard v _)) turns
        (.gaveUp (.inr ⟨completed, serial, panics⟩) rfl ?_) ?_
      · exact turns.lane.trans ((Touches.discard v _).lane.trans lane_v)
      · rintro (h | ⟨i, h⟩) <;> cases h
    · rename_i calm
      subst ht
      have started := noted.trans (Touches.start v s.features.length)
      have turns := turns_to (v.begin s.features.length) (.executing s.features.length) none
      have same : ({ v with stage := .executing s.features.length } : RunState σ).begin
          s.features.length =
          { v.begin s.features.length with
            stage := .executing s.features.length
            lane := none } := by
        unfold RunState.begin RunState.updateFeature RunState.note
        simp [no_lane]
      rw [same]
      exact took al next asked started turns (.inline serial calm rfl rfl)
        fun _ => started.keeps.pending
  · rename_i lane some_lane
    have parallel : s.lane = some lane := lane_v.symm.trans some_lane
    unfold Lane.submit at ht
    split at ht
    · rename_i lane' submitted
      split at submitted
      · rename_i accepts
        cases submitted
        subst ht
        have turns := turns_to v v.stage
          (some { lane with queue := lane.queue ++ [s.features.length] })
        exact took al next asked noted turns (.queued parallel accepts stage_v rfl)
          fun _ => pending_v
      · cases submitted
    · rename_i lane' submitted
      split at submitted
      · cases submitted
      · rename_i rejects
        cases submitted
        subst ht
        rw [discard_setLane]
        have discarded := noted.trans (Touches.discard v s.features.length)
        have put := turns_to (v.discard s.features.length) v.stage
          (some { lane with rejected := lane.rejected ++ [s.features.length] })
        have waits := turns_turnToWaiting { v.discard s.features.length with
          stage := v.stage
          lane := some { lane with rejected := lane.rejected ++ [s.features.length] } }
          (some (.dispatcherStopped r.feature.display))
        refine took al next asked discarded (put.trans waits)
          (.rejected parallel (by simpa using rejects) waits.stage waits.lane) ?_
        rintro (h | ⟨i, h⟩) <;> cases waits.stage.symm.trans h

lemma takeIn_dispatches (al : s.Aligned) (dispatching : s.stage = .dispatching)
    (next : s.pending = (feature, .made r) :: rest)
    (ht : t = takeIn w { s with pending := rest } feature r) :
    Dispatches s t ∧ StillDispatching s t := by
  unfold takeIn at ht
  split at ht
  · rename_i payload panics
    subst ht
    have turns := turns_unwind { s with pending := rest } payload
    exact ⟨.gaveUp (.record next panics) turns.stage turns.lane ⟨rfl, rfl, rfl, rfl⟩,
      ⟨rfl, rfl, rfl, rfl⟩⟩
  · rename_i asked
    dsimp only at ht
    split at ht
    · rename_i payload panics
      have turns := turns_unwind ((s.withRegistered rest r).discard s.features.length) payload
      have discarded := Touches.discard (s.withRegistered rest r) s.features.length
      subst ht
      refine took al next asked discarded turns (.gaveUp (.inl panics) rfl ?_) ?_
      · exact turns.lane.trans discarded.lane
      · rintro (h | ⟨i, h⟩) <;> cases h
    · rename_i completed
      exact submit_dispatches al dispatching next asked completed
        (.share (s.withRegistered rest r) s.features.length s.limiter s.cache s.files _) ht

end TakingIn

/-- **A step of dispatching** comes to one of its outcomes. -/
theorem dispatchNext_dispatches (al : s.Aligned) (dispatching : s.stage = .dispatching) :
    Dispatches s (s.dispatchNext w) ∧ StillDispatching s (s.dispatchNext w) := by
  unfold dispatchNext
  split
  · rename_i none_left
    have turns := turns_turnToWaiting s none
    exact ⟨.ended (.all none_left) turns.stage turns.lane turns.rests, turns.still⟩
  · rename_i feature creation rest next
    split
    · rename_i reason
      have turns := turns_turnToWaiting s (some (.runtime feature.display reason))
      exact ⟨.ended (.refused next) turns.stage turns.lane turns.rests, turns.still⟩
    · rename_i payload
      have turns := turns_unwind s payload
      exact ⟨.gaveUp (.create next) turns.stage turns.lane turns.rests, turns.still⟩
    · exact takeIn_dispatches al dispatching next rfl

lemma callerStep_dispatches (al : s.Aligned) (h : s.callerStep? w = some t)
    (dispatching : s.stage = .dispatching) : Dispatches s t ∧ StillDispatching s t := by
  have ht : t = s.dispatchNext w := by
    simpa [callerStep?, dispatching, eq_comm] using h
  rw [ht]
  exact dispatchNext_dispatches al dispatching

end RunState

end FeatureBatch
