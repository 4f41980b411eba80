import Mathlib.Data.List.Perm.Basic
import FeatureBatch.Proofs.Run.Early
import FeatureBatch.Proofs.Run.Writes

/-!
Plays. A play of a runtime is one way in which its acts can go: the writes that they make, in their
order, and whether the completion is invoked. What a feature of a run has done by the time it has
settled is a play of its runtime, be it run on the caller's thread or on the pool: a runtime that
gives up while it runs ends its own play, and nobody else's.
-/

namespace FeatureBatch

namespace Act

/-- What may be written after the completion was invoked or dropped. How far it goes is open. -/
def Late : List Act → List RecordUpdate → Prop
  | [], us => us = []
  | .work tasks :: rest, us =>
    us.Subperm tasks ∨ ∃ ts vs, ts.Perm tasks ∧ us = ts ++ vs ∧ Late rest vs
  | .panic _ :: _, us => us = []
  | _ :: rest, us => Late rest us

/-- A way in which acts can go: the writes, and whether the completion is invoked. `answers n b`
tells whether the request to the cache that has `n` acts behind it may have an answer, or none. -/
def Plays (answers : Nat → Bool → Prop) : List Act → List RecordUpdate → Bool → Prop
  | [], us, invoked => us = [] ∧ invoked = false
  | .work tasks :: rest, us, invoked =>
    ∃ ts vs, ts.Perm tasks ∧ us = ts ++ vs ∧ Plays answers rest vs invoked
  | .obtain _ _ :: rest, us, invoked =>
    (answers rest.length true ∧ Plays answers rest us invoked) ∨
      (answers rest.length false ∧ us = [] ∧ invoked = false)
  | .acquire :: rest, us, invoked => Plays answers rest us invoked
  | .release :: rest, us, invoked => Plays answers rest us invoked
  | .complete :: rest, us, invoked => invoked = true ∧ Late rest us
  | .abandon :: rest, us, invoked => invoked = false ∧ Late rest us
  | .panic _ :: _, us, invoked => us = [] ∧ invoked = false

lemma late_nil : ∀ acts : List Act, Late acts []
  | [] => rfl
  | .work _ :: _ => .inl List.nil_subperm
  | .panic _ :: _ => rfl
  | .obtain _ _ :: rest => late_nil rest
  | .acquire :: rest => late_nil rest
  | .release :: rest => late_nil rest
  | .complete :: rest => late_nil rest
  | .abandon :: rest => late_nil rest

/-- A runtime that gives up before it comes to its completion does not invoke it in any play. -/
def CrashesFirst : List Act → Prop
  | [] => False
  | .panic _ :: _ => True
  | .complete :: _ => False
  | .abandon :: _ => False
  | _ :: rest => CrashesFirst rest

lemma CrashesFirst.not_invoked {answers : Nat → Bool → Prop} {acts : List Act}
    {us : List RecordUpdate} {invoked : Bool} (h : CrashesFirst acts)
    (play : Plays answers acts us invoked) : invoked = false := by
  induction acts generalizing us with
  | nil => exact h.elim
  | cons a rest ih =>
    cases a with
    | work tasks =>
      obtain ⟨ts, vs, -, -, play⟩ := play
      exact ih h play
    | obtain key init =>
      rcases play with ⟨-, play⟩ | ⟨-, -, none_invoked⟩
      · exact ih h play
      · exact none_invoked
    | acquire => exact ih h play
    | release => exact ih h play
    | complete => exact h.elim
    | abandon => exact h.elim
    | panic payload => exact play.2

end Act

/-- What the cache can say to feature `i` when that asks with `n` acts to come, in some run. -/
def Suite.Answers {σ : Type} (w : Suite σ) (a : RunState σ) (i n : Nat) (answer : Bool) : Prop :=
  ∃ s c key init rest, RunState.Reaches w a s ∧ s.cells[i]? = some c ∧
    c.IsAt (.obtain key init) rest ∧ c.run.completion = .armed ∧ rest.length = n ∧
    s.cache.provides key init = answer

/-- The completion was invoked. -/
def CompletionState.invoked : CompletionState → Bool
  | .reporting _ _ _ => true
  | .used => true
  | _ => false

lemma CompletionState.invoked_of_isReporting {k : CompletionState} (h : k.isReporting = true) :
    k ≠ .armed ∧ k.invoked = true := by
  cases k with
  | reporting snapshot call rest => exact ⟨by simp, rfl⟩
  | _ => cases h

namespace Cell

variable {σ : Type} {s : RunState σ} {i : Nat} {r : Runtime} {c d : Cell}
variable {answers : Nat → Bool → Prop} {us : List RecordUpdate} {invoked : Bool}

/-- How the feature can go on from here: with its completion or, once that is gone, without. -/
def Remains (answers : Nat → Bool → Prop) (c : Cell) (us : List RecordUpdate) (invoked : Bool) :
    Prop :=
  (c.run.completion = .armed ∧ Act.Plays answers c.run.acts us invoked) ∨
    (c.run.completion ≠ .armed ∧ invoked = c.run.completion.invoked ∧ Act.Late c.run.acts us)

/-- What the feature has done and any way to go on make a play of its runtime. -/
def Playing (answers : Nat → Bool → Prop) (r : Runtime) (c : Cell) : Prop :=
  ∃ us, c.record = r.record.applyAll us ∧
    ∀ vs invoked, c.Remains answers vs invoked → Act.Plays answers r.acts (us ++ vs) invoked

lemma playing_fresh (answers : Nat → Bool → Prop) (i : Nat) (r : Runtime) :
    (fresh i r).Playing answers r := by
  refine ⟨[], rfl, fun vs invoked remains => ?_⟩
  rcases remains with ⟨-, play⟩ | ⟨gone, -⟩
  · exact play
  · exact absurd rfl gone

lemma Playing.settled (h : c.Playing answers r) (consistent : c.Consistent)
    (settled : c.IsSettled) :
    ∃ us, c.record = r.record.applyAll us ∧
      Act.Plays answers r.acts us (decide (c.signal = .fired)) := by
  obtain ⟨us, record, plays⟩ := h
  refine ⟨us, record, ?_⟩
  rw [← List.append_nil us]
  refine plays [] _ (.inr ⟨consistent.not_armed settled, ?_, Act.late_nil _⟩)
  have signal := consistent.signal
  cases hk : c.run.completion with
  | armed => exact absurd hk (consistent.not_armed settled)
  | reporting snapshot call rest => exact absurd (by rw [signal, hk]; rfl) settled
  | used => rw [signal, hk]; rfl
  | dropped => rw [signal, hk]; rfl

/-! ### Moves -/

lemma Playing.stay (h : c.Playing answers r) (record : d.record = c.record)
    (remains : ∀ vs invoked, d.Remains answers vs invoked → c.Remains answers vs invoked) :
    d.Playing answers r := by
  obtain ⟨us, hus, plays⟩ := h
  exact ⟨us, record.trans hus, fun vs invoked left => plays vs invoked (remains vs invoked left)⟩

lemma Remains.pass {next : Act} {rest : List Act} {permits : List Nat} {waiter : Option Nat}
    (here : c.IsAt next rest) (passes : Passes s c next)
    (asks : ∀ key init rest, c.IsAt (.obtain key init) rest → c.run.completion = .armed →
      answers rest.length (s.cache.provides key init))
    (remains : (c.withActs rest permits waiter).Remains answers us invoked) :
    c.Remains answers us invoked := by
  unfold Remains at remains ⊢
  rw [here.acts]
  rcases remains with ⟨armed, play⟩ | ⟨gone, told, late⟩
  · refine .inl ⟨armed, ?_⟩
    cases next with
    | work tasks => exact ⟨[], us, passes ▸ List.Perm.refl _, rfl, play⟩
    | obtain key init =>
      have answer := asks key init rest here armed
      rw [show s.cache.provides key init = true from passes] at answer
      exact .inl ⟨answer, play⟩
    | acquire => exact play
    | release => exact play
    | complete => exact absurd armed passes
    | abandon => exact passes.elim
    | panic payload => exact passes.elim
  · refine .inr ⟨gone, told, ?_⟩
    cases next with
    | work tasks => exact .inr ⟨[], us, passes ▸ List.Perm.refl _, rfl, late⟩
    | panic payload => exact passes.elim
    | _ => exact late

lemma Remains.write {tasks : List RecordUpdate} {rest : List Act} {task : Nat} {u : RecordUpdate}
    (here : c.IsAt (.work tasks) rest) (writes : tasks[task]? = some u)
    (remains : (c.write u (.work (tasks.eraseIdx task) :: rest)).Remains answers us invoked) :
    c.Remains answers (u :: us) invoked := by
  obtain ⟨ht, rfl⟩ := List.getElem?_eq_some_iff.mp writes
  have taken := List.getElem_cons_eraseIdx_perm ht
  unfold Remains at remains ⊢
  rw [here.acts]
  rcases remains with ⟨armed, ts, vs, perm, rfl, play⟩ | ⟨gone, told, late⟩
  · exact .inl ⟨armed, _ :: ts, vs, (perm.cons _).trans taken, rfl, play⟩
  · refine .inr ⟨gone, told, ?_⟩
    rcases late with part | ⟨ts, vs, perm, rfl, late⟩
    · exact .inl ((List.subperm_cons _).mpr part |>.trans taken.subperm)
    · exact .inr ⟨_ :: ts, vs, (perm.cons _).trans taken, rfl, late⟩

lemma Remains.abandon {rest : List Act} (here : c.IsAt .abandon rest)
    (remains : (c.withActs rest c.run.permits c.run.waiter).drop.Remains answers us invoked) :
    c.Remains answers us invoked := by
  unfold Remains at remains ⊢
  rw [here.acts]
  rcases remains with ⟨armed, -⟩ | ⟨-, told, late⟩
  · exact absurd armed (drop_not_armed _)
  · rw [drop_acts] at late
    by_cases armed : c.run.completion = .armed
    · refine .inl ⟨armed, ?_, late⟩
      rw [told, drop_of_armed (c := c.withActs rest c.run.permits c.run.waiter) armed]
      rfl
    · refine .inr ⟨armed, ?_, late⟩
      rw [told, drop_of_gone (c := c.withActs rest c.run.permits c.run.waiter) armed]
      rfl

lemma Remains.finish (idle : c.run.completion.isReporting = false) (why : Ends s c)
    (pool : c.run.completion = .armed → s.poolStopped = false)
    (running : c.run.phase = .running)
    (asks : ∀ key init rest, c.IsAt (.obtain key init) rest → c.run.completion = .armed →
      answers rest.length (s.cache.provides key init))
    (remains : c.finish.Remains answers us invoked) : c.Remains answers us invoked := by
  unfold Remains at remains ⊢
  rcases remains with ⟨armed, -⟩ | ⟨-, told, late⟩
  · exact absurd armed (drop_not_armed _)
  · rw [Cell.finish, drop_acts] at late
    have nothing : us = [] := late
    subst nothing
    by_cases armed : c.run.completion = .armed
    · refine .inl ⟨armed, ?_⟩
      have not_invoked : invoked = false := by
        rw [told, Cell.finish, drop_of_armed (c := c.ended) armed]
        rfl
      cases why with
      | last acts => rw [acts]; exact ⟨rfl, not_invoked⟩
      | panic payload rest acts => rw [acts]; exact ⟨rfl, not_invoked⟩
      | obtain key init rest acts fails =>
        have answer := asks key init rest ⟨running, idle, acts⟩ armed
        rw [fails] at answer
        rw [acts]
        exact .inr ⟨answer, rfl, not_invoked⟩
      | pool stopped =>
        rw [pool armed] at stopped
        cases stopped
    · -- What stands after the completion may be left undone.
      refine .inr ⟨armed, ?_, Act.late_nil _⟩
      rw [told, Cell.finish, drop_of_gone (c := c.ended) armed]
      rfl

/-- **A move is a part of a play**, unless it lets the feature go unstarted, or the pool is stopped
while the feature still has its completion. -/
lemma Playing.move (h : c.Playing answers r) (m : Move s i c d)
    (kept : c.run.phase = .queued → ¬ s.LaneEnds)
    (pool : c.run.completion = .armed → s.poolStopped = false)
    (asks : ∀ key init rest, c.IsAt (.obtain key init) rest → c.run.completion = .armed →
      answers rest.length (s.cache.provides key init)) : d.Playing answers r := by
  cases m with
  | start queued => exact h.stay rfl fun _ _ remains => remains
  | discard queued why => exact absurd why (kept queued)
  | pass here passes permits waiter => exact h.stay rfl fun _ _ => Remains.pass here passes asks
  | look running permits waiter => exact h.stay rfl fun _ _ remains => remains
  | @write tasks rest task u here writes =>
    obtain ⟨us, hus, plays⟩ := h
    refine ⟨us ++ [u], ?_, fun vs invoked remains => ?_⟩
    · rw [FeatureRecord.applyAll_append, ← hus]
      rfl
    · rw [List.append_assoc]
      exact plays (u :: vs) invoked (Remains.write here writes remains)
  | complete here armed =>
    refine h.stay rfl fun vs invoked remains => ?_
    rcases remains with ⟨armed', -⟩ | ⟨-, told, late⟩
    · cases armed'
    · refine .inl ⟨armed, ?_⟩
      rw [here.acts]
      exact ⟨told, late⟩
  | report here armed call calls =>
    refine h.stay rfl fun vs invoked remains => ?_
    rcases remains with ⟨armed', -⟩ | ⟨-, told, late⟩
    · cases armed'
    · refine .inl ⟨armed, ?_⟩
      rw [here.acts]
      exact ⟨told, late⟩
  | reportNext running reports =>
    obtain ⟨gone, invoked⟩ := CompletionState.invoked_of_isReporting reports
    refine h.stay rfl fun _ _ remains => ?_
    rcases remains with ⟨armed, -⟩ | ⟨-, told, late⟩
    · cases armed
    · exact .inr ⟨gone, told.trans invoked.symm, late⟩
  | signal running reports =>
    obtain ⟨gone, invoked⟩ := CompletionState.invoked_of_isReporting reports
    refine h.stay rfl fun _ _ remains => ?_
    rcases remains with ⟨armed, -⟩ | ⟨-, told, late⟩
    · cases armed
    · exact .inr ⟨gone, told.trans invoked.symm, late⟩
  | abandon here => exact h.stay (drop_record _) fun _ _ => Remains.abandon here
  | finish running idle why =>
    exact h.stay (drop_record _) fun _ _ => Remains.finish idle why pool running asks

end Cell

namespace RunState

variable {σ : Type} {w : Suite σ} {a s t : RunState σ} {limiter : AdmissionLimiter} {files : σ}

lemma Reaches.playing (h : Reaches w (w.start limiter files) s) (starts : w.StartsAll)
    (early : s.stage.isEarly = true) {i : Nat} {r : Runtime} {c : Cell}
    (hc : s.cells[i]? = some c) (hr : w.runtime? i = some r) :
    c.Playing (w.Answers (w.start limiter files) i) r := by
  have sound := sound_start w limiter files
  refine h.cells_induction
    (P := fun i r c => c.Playing (w.Answers (w.start limiter files) i) r) sound ?_ ?_ ?_ hc hr
  · intro i r c hc
    cases hc
  · intro t u r d reach dispatching hu hus _ submits
    have early_t : t.stage.isEarly = true := by rw [dispatching]; rfl
    have early_u := hus.isEarly_before (hu.sound sound) early
    have fresh := Cell.playing_fresh (w.Answers (w.start limiter files) t.features.length)
      t.features.length r
    cases submits with
    | inline serial calm stage lane => exact fresh.stay rfl fun _ _ remains => remains
    | queued parallel accepts stage put => exact fresh
    | rejected parallel rejects stage put =>
      rw [(reach.laneServes starts early_t).accepts parallel] at rejects
      cases rejects
    | gaveUp why stage lane => rw [stage] at early_u; cases early_u
  · intro t i r c d reach hts hc hr m playing
    have early_t := hts.isEarly_before (reach.sound sound) early
    refine playing.move m (fun _ => ?_) (fun _ => (reach.undisturbed early_t).poolStopped) ?_
    · exact (reach.laneServes starts early_t).not_laneEnds starts (reach.sound sound)
    · exact fun key init rest here armed =>
        ⟨t, c, key, init, rest, reach, hc, here, armed, rfl, rfl⟩

/-- What a feature has come to, once all signals have come in the state `a`: it was started and has
made a play of its runtime, what it may still do belongs to that play, and its signal stays. -/
structure Played (w : Suite σ) (first a : RunState σ) (i : Nat) (r : Runtime) (c : Cell) :
    Prop where
  playing : c.Playing (w.Answers first i) r
  settled : c.IsSettled
  started : c.run.phase = .running ∨ c.run.phase = .ended
  signal : a.barrier.signals[i]? = some c.signal

lemma Played.move {first : RunState σ} {i : Nat} {r : Runtime} {c d : Cell}
    (h : Played w first a i r c) (consistent : c.Consistent) (m : Cell.Move s i c d) :
    Played w first a i r d := by
  have gone := consistent.not_armed h.settled
  have same := m.signal_eq consistent h.settled
  refine ⟨h.playing.move m (fun queued => ?_) (fun armed => ?_) (fun _ _ _ _ armed => ?_), ?_, ?_,
    ?_⟩
  · exact absurd (consistent.queued queued) gone
  · exact absurd armed gone
  · exact absurd armed gone
  · rw [Cell.IsSettled, same]
    exact h.settled
  · cases m with
    | start queued => exact .inl rfl
    | discard queued why => exact absurd (consistent.queued queued) gone
    | finish running idle why => exact .inr (Cell.drop_phase _)
    | abandon here => exact .inl ((Cell.drop_phase _).trans here.running)
    | _ => exact h.started
  · rw [same]
    exact h.signal

lemma Reaches.played {error : Option SuiteError} (reach : Reaches w (w.start limiter files) a)
    (starts : w.StartsAll) (waiting : a.stage = .awaiting error) (settled : a.AllSettled)
    (h : Reaches w a s) {i : Nat} {r : Runtime} {c : Cell} (hc : s.cells[i]? = some c)
    (hr : w.runtime? i = some r) : Played w (w.start limiter files) a i r c := by
  have sound := reach.sound (sound_start w limiter files)
  have early : a.stage.isEarly = true := by rw [waiting]; rfl
  refine h.cells_induction (P := fun i r c => Played w (w.start limiter files) a i r c) sound
    ?_ ?_ ?_ hc hr
  · intro i r c hc hr
    have here := settled i c hc
    refine ⟨reach.playing starts early hc hr, here, ?_, (cells_eq_some hc).2.2⟩
    have consistent := reach.consistent hc
    cases hp : c.run.phase with
    | queued => exact absurd (by rw [consistent.signal, consistent.queued hp]; rfl) here
    | running => exact .inl rfl
    | ended => exact .inr rfl
    | discarded => exact absurd hp (reach.not_discarded starts early hc)
  · intro t u r d ht dispatching _ _ _ _
    rcases reach.waits waiting ht with awaiting | ⟨late, -⟩
    · rw [dispatching] at awaiting
      cases awaiting
    · rw [dispatching] at late
      cases late
  · exact fun ht _ hc _ m played => played.move ((reach.trans ht).consistent hc) m

lemma Reaches.signals_eq {error : Option SuiteError} (reach : Reaches w (w.start limiter files) a)
    (starts : w.StartsAll) (waiting : a.stage = .awaiting error) (settled : a.AllSettled)
    (h : Reaches w a s) : s.barrier.signals = a.barrier.signals := by
  have sound := reach.sound (sound_start w limiter files)
  have sound_s := h.sound sound
  apply List.ext_getElem?
  intro i
  rw [← sound_s.aligned.map_signal, List.getElem?_map]
  cases hc : s.cells[i]? with
  | none =>
    rw [← sound.aligned.map_signal, List.getElem?_map]
    cases hd : a.cells[i]? with
    | none => rfl
    | some d =>
      obtain ⟨c, hc'⟩ := h.cells_kept sound hd
      rw [hc] at hc'
      cases hc'
  | some c =>
    obtain ⟨r, hr, -⟩ := sound_s.made i c hc
    rw [(reach.played starts waiting settled h hc hr).signal]
    rfl

/-! ### The end of the wait -/

lemma Awaited.release (waits : Awaited w (w.start limiter files) s)
    (late : s.stage.isEarly = false) :
    ∃ t error, Reaches w (w.start limiter files) t ∧ t.stage = .awaiting error ∧ t.AllSettled ∧
      Reaches w t (t.leaveWaiting w error) ∧ Reaches w (t.leaveWaiting w error) s := by
  obtain ⟨t, error, reach, waiting, reaches⟩ := waits
  induction reaches with
  | refl =>
    rw [waiting] at late
    cases late
  | @step s u p reaches next ih =>
    have reach_s := reach.trans reaches
    have sound := reach_s.sound (sound_start w limiter files)
    rcases reach.waits waiting reaches with awaiting | ⟨late_s, -⟩
    · obtain ⟨-, ⟨error', waiting', complete, rfl⟩ | ⟨dispatching, -⟩⟩ :=
        step_turns sound next (by rw [awaiting]; rfl) late
      · exact ⟨s, error', reach_s, waiting', (isComplete_iff sound.aligned).mp complete,
          .step _ (.refl s) next, .refl _⟩
      · rw [dispatching] at awaiting
        cases awaiting
    · obtain ⟨t', error', reach', waiting', settled, release, released⟩ := ih late_s
      exact ⟨t', error', reach', waiting', settled, release, .step p released next⟩

end RunState

end FeatureBatch
