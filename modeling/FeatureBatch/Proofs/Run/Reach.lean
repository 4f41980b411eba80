import FeatureBatch.Proofs.Run.Caller

/-!
Runs, step by step. `Sound` holds along every run, and from it every step is seen to move cells and
to add at most one; a property of cells that the moves preserve then holds along every run.
-/

namespace FeatureBatch

namespace Cell

variable {σ : Type} {s : RunState σ} {i : Nat} {c d : Cell}

@[simp] lemma drop_startPanics (c : Cell) : c.drop.run.startPanics = c.run.startPanics := by
  unfold drop
  split <;> rfl

lemma Move.startPanics (h : Move s i c d) : d.run.startPanics = c.run.startPanics := by
  cases h <;> first | rfl | exact drop_startPanics _

end Cell

namespace LaneMove

@[simp] lemma fate_startPanics (move : LaneMove Nat) (j : Nat) (c : Cell) :
    (move.fate j c).run.startPanics = c.run.startPanics := by
  unfold fate
  split
  · split
    · rfl
    · exact Cell.drop_startPanics _
  · rfl

end LaneMove

namespace RunState

variable {σ : Type} {w : Suite σ} {s t : RunState σ}

/-- The cells go with the runtimes of the suite, in its order, and the lane has just the features
that are queued in it. -/
structure Sound (w : Suite σ) (s : RunState σ) : Prop where
  aligned : s.Aligned
  made : ∀ i c, s.cells[i]? = some c → ∃ r, w.runtime? i = some r ∧ r.recordPanics = none ∧
    c.run.startPanics = r.startPanics
  pending : (s.stage = .dispatching ∨ ∃ i, s.stage = .executing i) →
    s.pending = w.creations.drop s.features.length
  nodup : ∀ lane, s.lane = some lane → lane.queued.Nodup
  queued : ∀ lane, s.lane = some lane → ∀ i ∈ lane.queued, ∃ c,
    s.cells[i]? = some c ∧ c.run.phase = .queued

/-- What a step does to the cells: each may make a move, and one may come behind them. -/
structure Advances (w : Suite σ) (s t : RunState σ) : Prop where
  kept : ∀ i c, s.cells[i]? = some c → ∃ d, t.cells[i]? = some d ∧ (d = c ∨ Cell.Move s i c d)
  new : ∀ i d, s.cells[i]? = none → t.cells[i]? = some d → i = s.features.length ∧
    s.stage = .dispatching ∧ ∃ r, w.runtime? i = some r ∧ r.recordPanics = none ∧ Submits s t r d

lemma Rests.advances (h : Rests s t) : Advances w s t := by
  refine ⟨fun i c hc => ⟨c, by rw [h.cells, hc], .inl rfl⟩, fun i d none_there some_there => ?_⟩
  rw [h.cells, none_there] at some_there
  cases some_there

lemma Sound.next (sound : Sound w s) (dispatching : s.stage = .dispatching) {feature : Feature}
    {creation : Creation} {rest : List (Feature × Creation)}
    (next : s.pending = (feature, creation) :: rest) :
    w.creations[s.features.length]? = some (feature, creation) ∧
      rest = w.creations.drop (s.features.length + 1) := by
  have dropped := sound.pending (.inl dispatching)
  rw [next] at dropped
  have here := congrArg List.head? dropped
  rw [List.head?_cons, List.head?_drop] at here
  have tail := congrArg List.tail dropped
  rw [List.tail_cons, List.tail_drop] at tail
  exact ⟨here.symm, tail⟩

lemma Sound.runtime?_next (sound : Sound w s) (dispatching : s.stage = .dispatching)
    {feature : Feature} {r : Runtime} {rest : List (Feature × Creation)}
    (next : s.pending = (feature, .made r) :: rest) : w.runtime? s.features.length = some r := by
  rw [Suite.runtime?, (sound.next dispatching next).1]

lemma Sound.exists_runtime (sound : Sound w s) (i : Nat) (hi : i < s.features.length) :
    ∃ r, w.runtime? i = some r := by
  rw [← sound.aligned.length_cells] at hi
  obtain ⟨r, hr, -⟩ := sound.made i _ (List.getElem?_eq_getElem hi)
  exact ⟨r, hr⟩

/-! ### One party -/

lemma MovesOne.sound {i : Nat} {c : Cell} (sound : Sound w s) (hc : s.cells[i]? = some c)
    (h : MovesOne s t i c) : Sound w t ∧ Advances w s t := by
  obtain ⟨φ, touches, running, move⟩ := h
  have hset := touches.set hc
  have hi : i < s.cells.length := (List.getElem?_eq_some_iff.mp hc).1
  have here : t.cells[i]? = some (φ c) := by simp [hset, hi]
  have there : ∀ j, j ≠ i → t.cells[j]? = s.cells[j]? := fun j hj => by
    rw [hset, List.getElem?_set_ne (Ne.symm hj)]
  refine ⟨⟨sound.aligned.keeps touches.keeps, ?_, ?_, ?_, ?_⟩, ⟨?_, ?_⟩⟩
  · intro j d hd
    by_cases hj : j = i
    · subst hj
      rw [here, Option.some.injEq] at hd
      subst hd
      rw [move.startPanics]
      exact sound.made _ _ hc
    · rw [there j hj] at hd
      exact sound.made j d hd
  · rw [touches.keeps.stage, touches.keeps.pending, touches.keeps.features]
    exact sound.pending
  · rw [touches.lane]
    exact sound.nodup
  · rw [touches.lane]
    intro lane hl j hj
    obtain ⟨d, hd, phase⟩ := sound.queued lane hl j hj
    by_cases hji : j = i
    · subst hji
      rw [hc, Option.some.injEq] at hd
      subst hd
      rw [running] at phase
      cases phase
    · exact ⟨d, by rw [there j hji, hd], phase⟩
  · intro j d hd
    by_cases hj : j = i
    · subst hj
      rw [hc, Option.some.injEq] at hd
      subst hd
      exact ⟨_, here, .inr move⟩
    · exact ⟨d, by rw [there j hj, hd], .inl rfl⟩
  · intro j d none_there some_there
    by_cases hj : j = i
    · subst hj
      rw [hc] at none_there
      cases none_there
    · rw [there j hj, none_there] at some_there
      cases some_there

lemma laneStep_sound (sound : Sound w s) (h : s.laneStep? = some t) :
    Sound w t ∧ Advances w s t := by
  obtain ⟨lane, move, hl, hm, keeps, hl', fates⟩ := laneStep_inv h
  have hcells := fates (sound.nodup lane hl)
  have left := Lane.queued_eq_leaving hm
  have nodup := sound.nodup lane hl
  rw [left] at nodup
  refine ⟨⟨sound.aligned.keeps keeps, ?_, ?_, ?_, ?_⟩, ⟨?_, ?_⟩⟩
  · intro i d hd
    rw [hcells, Option.map_eq_some_iff] at hd
    obtain ⟨c, hc, rfl⟩ := hd
    rw [LaneMove.fate_startPanics]
    exact sound.made i c hc
  · rw [keeps.stage, keeps.pending, keeps.features]
    exact sound.pending
  · intro lane' h'
    rw [hl', Option.some.injEq] at h'
    subst h'
    exact (List.nodup_append.mp nodup).2.1
  · intro lane' h' i hi
    rw [hl', Option.some.injEq] at h'
    subst h'
    obtain ⟨c, hc, phase⟩ := sound.queued lane hl i (by rw [left]; exact List.mem_append_right _ hi)
    have stays : i ∉ move.leaving := fun leaves =>
      (List.nodup_append.mp nodup).2.2 i leaves i hi rfl
    exact ⟨c, by rw [hcells, hc]; simp [LaneMove.fate, stays], phase⟩
  · intro i c hc
    refine ⟨move.fate i c, by rw [hcells, hc]; rfl, ?_⟩
    by_cases leaves : i ∈ move.leaving
    · right
      obtain ⟨c', hc', phase⟩ :=
        sound.queued lane hl i (by rw [left]; exact List.mem_append_left _ leaves)
      rw [hc, Option.some.injEq] at hc'
      subst hc'
      simp only [LaneMove.fate, leaves, if_true]
      cases move with
      | take job => cases leaves
      | start job => exact .start phase
      | crash job unstarted => exact .discard phase ⟨lane, _, hl, hm, by simp [Lane.after]⟩
      | leave unstarted => exact .discard phase ⟨lane, _, hl, hm, by simp [Lane.after]⟩
    · left
      simp [LaneMove.fate, leaves]
  · intro i d none_there some_there
    rw [hcells, none_there] at some_there
    cases some_there

/-! ### The caller -/

lemma Submits.startPanics {r : Runtime} {d : Cell} (h : Submits s t r d) :
    d.run.startPanics = r.startPanics := by
  cases h <;> rfl

lemma Submits.lane {r : Runtime} {d : Cell} (h : Submits s t r d) {lane' : Lane Nat}
    (hl' : t.lane = some lane') : ∃ lane, s.lane = some lane ∧ (lane'.queued = lane.queued ∨
      (lane'.queued = lane.queued ++ [s.features.length] ∧ d.run.phase = .queued)) := by
  cases h with
  | inline serial calm stage none_after => rw [none_after] at hl'; cases hl'
  | queued parallel accepts stage put =>
    rw [put, Option.some.injEq] at hl'
    subst hl'
    exact ⟨_, parallel, .inr ⟨by simp [Lane.queued], rfl⟩⟩
  | rejected parallel rejects stage put =>
    rw [put, Option.some.injEq] at hl'
    subst hl'
    exact ⟨_, parallel, .inl rfl⟩
  | gaveUp why stage same => exact ⟨lane', same ▸ hl', .inl rfl⟩

lemma Rests.sound (sound : Sound w s) (h : Rests s t)
    (pending : (t.stage = .dispatching ∨ ∃ i, t.stage = .executing i) →
      t.pending = w.creations.drop s.features.length)
    (lane : ∀ lane', t.lane = some lane' → ∃ lane, s.lane = some lane ∧
      lane'.queued = lane.queued) : Sound w t where
  aligned := h.aligned sound.aligned
  made := by rw [h.cells]; exact sound.made
  pending := by rw [h.features]; exact pending
  nodup lane' hl' := by
    obtain ⟨lane, hl, same⟩ := lane lane' hl'
    exact same ▸ sound.nodup lane hl
  queued lane' hl' i hi := by
    obtain ⟨lane, hl, same⟩ := lane lane' hl'
    rw [h.cells]
    exact sound.queued lane hl i (same ▸ hi)

lemma dispatches_sound (sound : Sound w s) (dispatching : s.stage = .dispatching)
    (h : Dispatches s t) : Sound w t ∧ Advances w s t := by
  cases h with
  | ended why stage lane rests =>
    refine ⟨rests.sound sound ?_ fun lane' hl' => ⟨lane', lane ▸ hl', rfl⟩, rests.advances⟩
    rintro (h | ⟨i, h⟩) <;> cases stage.symm.trans h
  | gaveUp why stage lane rests =>
    refine ⟨rests.sound sound ?_ fun lane' hl' => ⟨lane', lane ▸ hl', rfl⟩, rests.advances⟩
    rintro (h | ⟨i, h⟩) <;> cases stage.symm.trans h
  | @took feature r rest d next asked submits pending aligned length cells =>
    have hr := sound.runtime?_next dispatching next
    obtain ⟨-, hrest⟩ := sound.next dispatching next
    -- The new cell comes behind the others, under a number that no job of the lane has.
    have fresh_number : s.cells[s.features.length]? = none :=
      List.getElem?_eq_none_iff.mpr (Nat.le_of_eq sound.aligned.length_cells)
    have old : ∀ i c, s.cells[i]? = some c → t.cells[i]? = some c := fun i c hc => by
      rw [cells, List.getElem?_append_left (List.getElem?_eq_some_iff.mp hc).1, hc]
    have split : ∀ i c, t.cells[i]? = some c →
        s.cells[i]? = some c ∨ (i = s.features.length ∧ c = d) := fun i c hc => by
      rw [cells, List.getElem?_append, sound.aligned.length_cells] at hc
      split at hc
      · exact .inl hc
      · right
        rw [List.getElem?_singleton] at hc
        split at hc
        · cases hc
          exact ⟨by omega, rfl⟩
        · cases hc
    have not_queued : ∀ lane, s.lane = some lane → s.features.length ∉ lane.queued :=
      fun lane hl hi => by
        obtain ⟨c, hc, -⟩ := sound.queued lane hl _ hi
        rw [fresh_number] at hc
        cases hc
    refine ⟨⟨aligned, ?_, ?_, ?_, ?_⟩, ⟨?_, ?_⟩⟩
    · intro i c hc
      rcases split i c hc with hc | ⟨rfl, rfl⟩
      · exact sound.made i c hc
      · exact ⟨r, hr, asked, submits.startPanics⟩
    · intro going
      rw [pending going, hrest, length]
    · intro lane' hl'
      obtain ⟨lane, hl, same | ⟨more, -⟩⟩ := submits.lane hl'
      · exact same ▸ sound.nodup lane hl
      · rw [more, List.nodup_append]
        refine ⟨sound.nodup lane hl, by simp, ?_⟩
        rintro i hi j hj rfl
        rw [List.mem_singleton] at hj
        exact not_queued lane hl (hj ▸ hi)
    · intro lane' hl' i hi
      obtain ⟨lane, hl, same | ⟨more, phase⟩⟩ := submits.lane hl'
      · obtain ⟨c, hc, phase⟩ := sound.queued lane hl i (same ▸ hi)
        exact ⟨c, old i c hc, phase⟩
      · rw [more, List.mem_append, List.mem_singleton] at hi
        rcases hi with hi | rfl
        · obtain ⟨c, hc, phase⟩ := sound.queued lane hl i hi
          exact ⟨c, old i c hc, phase⟩
        · refine ⟨d, ?_, phase⟩
          rw [cells, ← sound.aligned.length_cells]
          exact List.getElem?_concat_length
    · exact fun i c hc => ⟨c, old i c hc, .inl rfl⟩
    · intro i c none_there some_there
      rcases split i c some_there with hc | ⟨rfl, rfl⟩
      · rw [none_there] at hc
        cases hc
      · exact ⟨rfl, dispatching, r, hr, asked, submits⟩

lemma callerStep_sound (sound : Sound w s) (h : s.callerStep? w = some t) :
    Sound w t ∧ Advances w s t := by
  by_cases dispatching : s.stage = .dispatching
  · exact dispatches_sound sound dispatching (callerStep_dispatches sound.aligned h dispatching).1
  · have rests := callerStep_rests h dispatching
    refine ⟨rests.sound sound (fun going => ?_) fun lane' hl' => ?_, rests.advances⟩
    · have early : t.stage.isEarly = true := by
        rcases going with hs | ⟨i, hs⟩ <;> rw [hs] <;> rfl
      obtain ⟨i, executing, -, rfl⟩ := callerStep_early h early dispatching
      exact sound.pending (.inr ⟨i, executing⟩)
    · rcases callerStep_lane h dispatching with same | ⟨-, lane, owner, hl, -, set⟩
      · exact ⟨lane', same ▸ hl', rfl⟩
      · rw [set, Option.some.injEq] at hl'
        subst hl'
        exact ⟨lane, hl, rfl⟩

/-! ### Runs -/

/-- **Every step of a sound run advances it soundly.** -/
theorem Sound.step {p : Party} (sound : Sound w s) (h : s.step? w p = some t) :
    Sound w t ∧ Advances w s t := by
  cases p with
  | caller => exact callerStep_sound sound h
  | lane => exact laneStep_sound sound h
  | feature i task =>
    obtain ⟨c, hc, moves⟩ := featureStep_moves sound.aligned h
    exact moves.sound sound hc
  | pool i =>
    obtain ⟨c, hc, moves⟩ := poolStep_moves sound.aligned h
    exact moves.sound sound hc

lemma sound_start (w : Suite σ) (limiter : AdmissionLimiter) (files : σ) :
    Sound w (w.start limiter files) where
  aligned := ⟨rfl, rfl, rfl, rfl⟩
  made i c hc := by cases hc
  pending _ := rfl
  nodup lane hl := by
    unfold Suite.start at hl
    dsimp only at hl
    split at hl <;> cases hl
    exact List.nodup_nil
  queued lane hl i hi := by
    unfold Suite.start at hl
    dsimp only at hl
    split at hl <;> cases hl
    cases hi

variable {a : RunState σ}

lemma Reaches.trans (h : Reaches w a s) (k : Reaches w s t) : Reaches w a t := by
  induction k with
  | refl => exact h
  | step p _ next ih => exact .step p ih next

lemma Reaches.sound (h : Reaches w a s) (sound : Sound w a) : Sound w s := by
  induction h with
  | refl => exact sound
  | step p _ next ih => exact (ih.step next).1

/-- **Cells by their moves.** What holds of the cells at first, of every new cell and after every
move holds along the run. -/
theorem Reaches.cells_induction {P : Nat → Runtime → Cell → Prop} (h : Reaches w a s)
    (sound : Sound w a)
    (first : ∀ {i r c}, a.cells[i]? = some c → w.runtime? i = some r → P i r c)
    (new : ∀ {t u r d}, Reaches w a t → t.stage = .dispatching → Reaches w a u → Reaches w u s →
      w.runtime? t.features.length = some r → Submits t u r d → P t.features.length r d)
    (move : ∀ {t i r c d}, Reaches w a t → Reaches w t s → t.cells[i]? = some c →
      w.runtime? i = some r → Cell.Move t i c d → P i r c → P i r d) :
    ∀ {i r c}, s.cells[i]? = some c → w.runtime? i = some r → P i r c := by
  induction h with
  | refl => exact first
  | @step s t p reach next ih =>
    intro i r d hd hr
    have sound_s := reach.sound sound
    obtain ⟨-, advances⟩ := sound_s.step next
    have last : Reaches w s t := .step p (.refl s) next
    have before : ∀ {c}, s.cells[i]? = some c → P i r c := fun hc =>
      ih (fun ht dispatching hu hus => new ht dispatching hu (hus.trans last))
        (fun ht hts => move ht (hts.trans last)) hc hr
    -- The last step made this cell, moved it or left it.
    cases hc : s.cells[i]? with
    | none =>
      obtain ⟨rfl, dispatching, r', hr', -, submits⟩ := advances.new i d hc hd
      rw [hr, Option.some.injEq] at hr'
      exact new reach dispatching (.step p reach next) (.refl t) hr (hr' ▸ submits)
    | some c =>
      obtain ⟨d', hd', same | moves⟩ := advances.kept i c hc
      · rw [hd, Option.some.injEq] at hd'
        rw [hd', same]
        exact before hc
      · rw [hd, Option.some.injEq] at hd'
        exact move reach last hc hr (hd' ▸ moves) (before hc)

lemma Reaches.cells_kept (h : Reaches w a s) (sound : Sound w a) {i : Nat} {c : Cell}
    (hc : a.cells[i]? = some c) : ∃ d, s.cells[i]? = some d := by
  induction h with
  | refl => exact ⟨c, hc⟩
  | step p reaches next ih =>
    obtain ⟨d, hd⟩ := ih
    obtain ⟨d', hd', -⟩ := ((reaches.sound sound).step next).2.kept i d hd
    exact ⟨d', hd'⟩

/-! ### Early and late -/

lemma step_keeps {p : Party} (sound : Sound w s) (h : s.step? w p = some t) (hp : p ≠ .caller) :
    Keeps s t := by
  cases p with
  | caller => exact absurd rfl hp
  | lane =>
    obtain ⟨_, _, _, _, keeps, _⟩ := laneStep_inv h
    exact keeps
  | feature i task =>
    obtain ⟨_, _, _, touches, _⟩ := featureStep_moves sound.aligned h
    exact touches.keeps
  | pool i =>
    obtain ⟨_, _, _, touches, _⟩ := poolStep_moves sound.aligned h
    exact touches.keeps

lemma step_isEarly {p : Party} (sound : Sound w s) (h : s.step? w p = some t)
    (late : s.stage.isEarly = false) : t.stage.isEarly = false := by
  by_cases hp : p = .caller
  · subst hp
    exact callerStep_isEarly h late
  · rw [(step_keeps sound h hp).stage, late]

lemma Reaches.isEarly (h : Reaches w a s) (sound : Sound w a) (late : a.stage.isEarly = false) :
    s.stage.isEarly = false := by
  induction h with
  | refl => exact late
  | step p reaches next ih => exact step_isEarly (reaches.sound sound) next ih

lemma Reaches.isEarly_before (h : Reaches w a s) (sound : Sound w a)
    (early : s.stage.isEarly = true) : a.stage.isEarly = true := by
  by_contra late
  rw [h.isEarly sound (by simpa using late)] at early
  cases early

lemma step_turns {p : Party} (sound : Sound w s) (h : s.step? w p = some t)
    (early : s.stage.isEarly = true) (late : t.stage.isEarly = false) :
    p = .caller ∧ ((∃ error, s.stage = .awaiting error ∧ s.barrier.isComplete = true ∧
        t = s.leaveWaiting w error) ∨
      (s.stage = .dispatching ∧ ∃ payload, Unwinds s payload ∧
        t.stage = .failing (.panic payload.message))) := by
  have hp : p = .caller := by
    by_contra hp
    rw [(step_keeps sound h hp).stage, early] at late
    cases late
  subst hp
  refine ⟨rfl, ?_⟩
  cases hs : s.stage with
  | dispatching =>
    exact .inr ⟨rfl, (callerStep_dispatches sound.aligned h hs).1.unwinds late⟩
  | executing i =>
    rw [(callerStep_executing h hs).2] at late
    cases late
  | awaiting error => exact .inl ⟨error, rfl, callerStep_awaiting h hs⟩
  | _ => rw [hs] at early; cases early

end RunState

end FeatureBatch
