import FeatureBatch.Proofs.Run.Moves

/-!
Steps of the lane's thread. A job that leaves the lane was waiting in it; what becomes of it is its
fate, and a step of the thread gives each feature the fate of its job.
-/

namespace FeatureBatch

namespace LaneMove

/-- The jobs that leave the lane. -/
def leaving : LaneMove Nat → List Nat
  | .take _ => []
  | .start i => [i]
  | .crash i unstarted => i :: unstarted
  | .leave unstarted => unstarted

/-- What becomes of a feature. -/
def fate (move : LaneMove Nat) (j : Nat) : Cell → Cell :=
  if j ∈ move.leaving then
    match move with
    | .start _ => Cell.start
    | _ => Cell.discard
  else id

end LaneMove

namespace Lane

variable {crashes : Nat → Bool} {lane : Lane Nat} {move : LaneMove Nat}

lemma queued_eq_leaving (h : lane.move? crashes = some move) :
    lane.queued = move.leaving ++ (lane.after move).queued := by
  unfold move? at h
  split at h
  · rename_i job _ hand
    split at h
    · cases h
      simp [queued, hand, LaneMove.leaving, after]
    · split at h <;> cases h <;> simp [queued, hand, LaneMove.leaving, after]
  · rename_i hand hq
    cases h
    simp [queued, hand, hq, LaneMove.leaving, after]
  · rename_i hand hq
    split at h
    · cases h
      simp [queued, hand, hq, LaneMove.leaving, after]
    · cases h
  · cases h

lemma status_after (h : lane.move? crashes = some move) :
    lane.status = .serving ∧ (lane.after move).owner = lane.owner ∧
      ((lane.after move).status = .serving ∨
        ((lane.after move).status = .finished ∧ lane.owner ≠ .serving) ∨
        ((lane.after move).status = .died ∧ ∃ i ∈ lane.queued, crashes i = true)) := by
  unfold move? at h
  split at h
  · rename_i job hs hand
    split at h
    · rename_i flagged
      cases h
      refine ⟨hs, rfl, .inr (.inl ⟨rfl, ?_⟩)⟩
      simpa [flagRaised] using flagged
    · split at h
      · rename_i crash
        cases h
        exact ⟨hs, rfl, .inr (.inr ⟨rfl, job, by simp [queued, hand], crash⟩)⟩
      · cases h
        exact ⟨hs, rfl, .inl hs⟩
  · rename_i hs _ _
    cases h
    exact ⟨hs, rfl, .inl hs⟩
  · rename_i hs _ _
    split at h
    · rename_i closed
      cases h
      refine ⟨hs, rfl, .inr (.inl ⟨rfl, fun serving => ?_⟩)⟩
      simp [queueClosed, serving] at closed
    · cases h
  · cases h

end Lane

namespace RunState

variable {σ : Type} {s t : RunState σ}

lemma Keeps.setLane (s : RunState σ) (lane : Option (Lane Nat)) : Keeps s { s with lane } :=
  ⟨rfl, rfl, rfl, rfl, rfl, rfl, rfl, rfl, rfl⟩

lemma discardAll_keeps (s : RunState σ) (is : List Nat) :
    Keeps s (s.discardAll is) ∧ (s.discardAll is).lane = s.lane := by
  induction is generalizing s with
  | nil => exact ⟨.refl s, rfl⟩
  | cons i is ih =>
    have first := Touches.discard s i
    obtain ⟨keeps, lane⟩ := ih (s.discard i)
    exact ⟨first.keeps.trans keeps, lane.trans first.lane⟩

lemma getElem?_discardAll {is : List Nat} (h : is.Nodup) (s : RunState σ) (j : Nat) :
    (s.discardAll is).cells[j]? =
      (s.cells[j]?).map (if j ∈ is then Cell.discard else id) := by
  induction is generalizing s with
  | nil => simp [discardAll]
  | cons i is ih =>
    rw [List.nodup_cons] at h
    have hcons : s.discardAll (i :: is) = (s.discard i).discardAll is := rfl
    rw [hcons, ih h.2, (Touches.discard s i).cells, List.getElem?_modify]
    by_cases hj : i = j
    · subst hj
      simp [h.1]
    · have hj' : j ≠ i := fun e => hj e.symm
      simp [hj, hj']

/-- **A step of the lane's thread** gives every feature its fate. -/
lemma laneStep_inv (h : s.laneStep? = some t) :
    ∃ lane move, s.lane = some lane ∧ lane.move? s.crashesLane = some move ∧ Keeps s t ∧
      t.lane = some (lane.after move) ∧
      (lane.queued.Nodup → ∀ j, t.cells[j]? = (s.cells[j]?).map (move.fate j)) := by
  unfold laneStep? at h
  split at h
  · cases h
  · rename_i lane hl
    rw [Option.map_eq_some_iff] at h
    obtain ⟨move, hm, rfl⟩ := h
    refine ⟨lane, move, hl, hm, ?_⟩
    have left := Lane.queued_eq_leaving hm
    have laneSet := Keeps.setLane s (some (lane.after move))
    cases move with
    | take job =>
      exact ⟨laneSet, rfl, fun _ j => by simp [LaneMove.fate, LaneMove.leaving, cells]⟩
    | start i =>
      have started := Touches.start { s with lane := some (lane.after (.start i)) } i
      refine ⟨laneSet.trans started.keeps, started.lane, fun _ j => ?_⟩
      dsimp only
      rw [started.cells, List.getElem?_modify]
      by_cases hj : i = j
      · subst hj
        simp [LaneMove.fate, LaneMove.leaving, cells]
      · have hj' : j ≠ i := fun e => hj e.symm
        simp [LaneMove.fate, LaneMove.leaving, hj, hj', cells]
    | crash i unstarted =>
      obtain ⟨keeps, kept⟩ := discardAll_keeps
        { s with lane := some (lane.after (.crash i unstarted)) } (i :: unstarted)
      refine ⟨laneSet.trans keeps, kept, fun nodup j => ?_⟩
      rw [left] at nodup
      exact getElem?_discardAll (List.nodup_append.mp nodup).1 _ j
    | leave unstarted =>
      obtain ⟨keeps, kept⟩ := discardAll_keeps
        { s with lane := some (lane.after (.leave unstarted)) } unstarted
      refine ⟨laneSet.trans keeps, kept, fun nodup j => ?_⟩
      rw [left] at nodup
      exact getElem?_discardAll (List.nodup_append.mp nodup).1 _ j

end RunState

end FeatureBatch
