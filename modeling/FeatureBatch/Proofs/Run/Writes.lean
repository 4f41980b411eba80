import Mathlib.Data.List.Perm.Basic
import FeatureBatch.Proofs.Run.Waiting

/-!
What a feature writes to its record. The record is what the runtime was made with, after some of the
runtime's own writes; and a runtime that writes in time leaves its record alone once its completion
was invoked or dropped.
-/

namespace FeatureBatch

namespace Act

/-- The writes of a runtime, in the order in which it is written down. -/
def writes : List Act → List RecordUpdate
  | [] => []
  | .work tasks :: rest => tasks ++ writes rest
  | _ :: rest => writes rest

/-- Nothing is written any more. What stands behind a panic is never done. -/
def Quiet : List Act → Prop
  | [] => True
  | .work tasks :: rest => tasks = [] ∧ Quiet rest
  | .panic _ :: _ => True
  | _ :: rest => Quiet rest

/-- Nothing is written any more once the completion was invoked or dropped. -/
def WritesInTime : List Act → Prop
  | [] => True
  | .complete :: rest => Quiet rest
  | .abandon :: rest => Quiet rest
  | .panic _ :: _ => True
  | _ :: rest => WritesInTime rest

lemma writes_tail (a : Act) (rest : List Act) : (writes rest).Sublist (writes (a :: rest)) := by
  cases a with
  | work tasks => exact List.sublist_append_right tasks (writes rest)
  | _ => exact List.Sublist.refl _

end Act

/-- The record is that of the runtime, after some of the runtime's writes. -/
def Runtime.Wrote (r : Runtime) (record : FeatureRecord) : Prop :=
  ∃ us, us.Subperm (Act.writes r.acts) ∧ record = r.record.applyAll us

/-- The runtimes of the suite write in time. -/
def Suite.WritesInTime {σ : Type} (w : Suite σ) : Prop :=
  ∀ i r, w.runtime? i = some r → Act.WritesInTime r.acts

namespace Cell

variable {σ : Type} {s : RunState σ} {i : Nat} {r : Runtime} {c d : Cell}

@[simp] lemma drop_record (c : Cell) : c.drop.record = c.record := by
  unfold drop
  split <;> rfl

@[simp] lemma drop_acts (c : Cell) : c.drop.run.acts = c.run.acts := by
  unfold drop
  split <;> rfl

/-! ### Writes done and to be done -/

/-- The record holds some of the runtime's writes, and those to come are others. -/
def Written (r : Runtime) (c : Cell) : Prop :=
  ∃ us, c.record = r.record.applyAll us ∧
    (us ++ Act.writes c.run.acts).Subperm (Act.writes r.acts)

lemma Written.wrote (h : c.Written r) : r.Wrote c.record := by
  obtain ⟨us, record, own⟩ := h
  exact ⟨us, (List.sublist_append_left us _).subperm.trans own, record⟩

lemma written_fresh (i : Nat) (r : Runtime) : (fresh i r).Written r :=
  ⟨[], rfl, List.Subperm.refl _⟩

lemma Written.mono (h : c.Written r) (record : d.record = c.record)
    (acts : (Act.writes d.run.acts).Sublist (Act.writes c.run.acts)) : d.Written r := by
  obtain ⟨us, hus, own⟩ := h
  exact ⟨us, record.trans hus, ((List.Sublist.refl us).append acts).subperm.trans own⟩

lemma Written.write {u : RecordUpdate} {tasks : List RecordUpdate} {rest : List Act} {task : Nat}
    (h : c.Written r) (acts : c.run.acts = .work tasks :: rest) (writes : tasks[task]? = some u) :
    (c.write u (.work (tasks.eraseIdx task) :: rest)).Written r := by
  obtain ⟨us, hus, own⟩ := h
  obtain ⟨ht, rfl⟩ := List.getElem?_eq_some_iff.mp writes
  refine ⟨us ++ [tasks[task]], ?_, List.Perm.subperm_right ?_ |>.mp own⟩
  · rw [FeatureRecord.applyAll_append, ← hus]
    rfl
  · rw [acts]
    simp only [Act.writes, Cell.write, List.append_assoc, List.singleton_append]
    refine List.Perm.append_left us ?_
    rw [← List.cons_append]
    exact ((List.getElem_cons_eraseIdx_perm ht).symm).append_right _

/-! ### Writing in time -/

/-- A feature with its completion will write in time, and one without it writes no more. -/
structure Tame (c : Cell) : Prop where
  armed : c.run.completion = .armed → Act.WritesInTime c.run.acts
  gone : c.run.completion ≠ .armed → c.run.phase = .discarded ∨ Act.Quiet c.run.acts

lemma Tame.quiet (h : c.Tame) (gone : c.run.completion ≠ .armed)
    (running : c.run.phase = .running) : Act.Quiet c.run.acts := by
  refine (h.gone gone).resolve_left fun discarded => ?_
  rw [running] at discarded
  cases discarded

lemma tame_of_gone (gone : c.run.completion ≠ .armed)
    (quiet : c.run.phase = .discarded ∨ Act.Quiet c.run.acts) : c.Tame :=
  ⟨fun armed => absurd armed gone, fun _ => quiet⟩

lemma drop_not_armed (c : Cell) : c.drop.run.completion ≠ .armed := by
  unfold drop
  split
  · simp
  · assumption

lemma Tame.pass {next : Act} {rest : List Act} (h : c.Tame) (here : c.IsAt next rest)
    (passes : Passes s c next) (permits : List Nat) (waiter : Option Nat) :
    (c.withActs rest permits waiter).Tame := by
  refine ⟨fun armed => ?_, fun gone => .inr ?_⟩
  · have inTime := h.armed armed
    rw [here.acts] at inTime
    cases next with
    | complete => exact absurd armed passes
    | abandon => exact passes.elim
    | panic payload => exact passes.elim
    | _ => exact inTime
  · have quiet := h.quiet gone here.running
    rw [here.acts] at quiet
    cases next with
    | work tasks => exact quiet.2
    | panic payload => exact passes.elim
    | _ => exact quiet

lemma Tame.move (h : c.Tame) (consistent : c.Consistent) (m : Move s i c d) : d.Tame := by
  cases m with
  | start queued =>
    have armed := consistent.queued queued
    exact ⟨fun _ => h.armed armed, fun gone => absurd armed gone⟩
  | discard queued why =>
    exact tame_of_gone (drop_not_armed _) (.inl (drop_phase _))
  | pass here passes permits waiter => exact h.pass here passes permits waiter
  | look running permits waiter => exact ⟨h.armed, h.gone⟩
  | write here writes =>
    refine ⟨fun armed => ?_, fun gone => ?_⟩
    · have inTime := h.armed armed
      rw [here.acts] at inTime
      exact inTime
    · have quiet := h.quiet gone here.running
      rw [here.acts] at quiet
      rw [quiet.1] at writes
      cases writes
  | complete here armed =>
    have inTime := h.armed armed
    rw [here.acts] at inTime
    exact tame_of_gone (by simp [fire]) (.inr inTime)
  | report here armed call calls =>
    have inTime := h.armed armed
    rw [here.acts] at inTime
    exact tame_of_gone (by simp [reporting]) (.inr inTime)
  | reportNext running reports =>
    refine tame_of_gone (by simp [reporting]) (.inr (h.quiet (fun armed => ?_) running))
    rw [armed] at reports
    cases reports
  | signal running reports =>
    refine tame_of_gone (by simp [fire]) (.inr (h.quiet (fun armed => ?_) running))
    rw [armed] at reports
    cases reports
  | abandon here =>
    refine tame_of_gone (drop_not_armed _) (.inr ?_)
    rw [drop_acts]
    by_cases armed : c.run.completion = .armed
    · have inTime := h.armed armed
      rw [here.acts] at inTime
      exact inTime
    · have quiet := h.quiet armed here.running
      rw [here.acts] at quiet
      exact quiet
  | finish running idle why =>
    refine tame_of_gone (drop_not_armed _) (.inr ?_)
    rw [Cell.finish, drop_acts]
    trivial

lemma Written.move (h : c.Written r) (m : Move s i c d) : d.Written r := by
  cases m with
  | start queued => exact h.mono rfl (.refl _)
  | discard queued why => exact h.mono (drop_record _) (by rw [Cell.discard, drop_acts])
  | pass here passes permits waiter =>
    refine h.mono rfl ?_
    rw [here.acts]
    exact Act.writes_tail _ _
  | look running permits waiter => exact h.mono rfl (.refl _)
  | write here writes => exact h.write here.acts writes
  | complete here armed =>
    refine h.mono rfl ?_
    rw [here.acts]
    exact .refl _
  | report here armed call calls =>
    refine h.mono rfl ?_
    rw [here.acts]
    exact .refl _
  | reportNext running reports => exact h.mono rfl (.refl _)
  | signal running reports => exact h.mono rfl (.refl _)
  | abandon here =>
    refine h.mono (drop_record _) ?_
    rw [drop_acts, here.acts]
    exact .refl _
  | finish running idle why =>
    refine h.mono (drop_record _) ?_
    rw [Cell.finish, drop_acts]
    exact List.nil_sublist _

lemma Move.record_eq (m : Move s i c d) (tame : c.Tame) (consistent : c.Consistent)
    (settled : c.IsSettled) : d.record = c.record := by
  cases m with
  | write here writes =>
    have quiet := tame.quiet (consistent.not_armed settled) here.running
    rw [here.acts] at quiet
    rw [quiet.1] at writes
    cases writes
  | discard queued why => exact drop_record _
  | abandon here => exact drop_record _
  | finish running idle why => exact drop_record _
  | _ => rfl

end Cell

namespace RunState

variable {σ : Type} {w : Suite σ} {s t : RunState σ} {limiter : AdmissionLimiter} {files : σ}

lemma Submits.written {r : Runtime} {d : Cell} (h : Submits s t r d) : d.Written r := by
  have fresh := Cell.written_fresh s.features.length r
  cases h with
  | inline serial calm stage lane => exact fresh.mono rfl (.refl _)
  | queued parallel accepts stage put => exact fresh
  | rejected parallel rejects stage put => exact fresh.mono rfl (.refl _)
  | gaveUp why stage lane => exact fresh.mono rfl (.refl _)

lemma Submits.tame {r : Runtime} {d : Cell} (h : Submits s t r d)
    (inTime : Act.WritesInTime r.acts) : d.Tame := by
  cases h with
  | inline serial calm stage lane => exact ⟨fun _ => inTime, fun gone => absurd rfl gone⟩
  | queued parallel accepts stage put => exact ⟨fun _ => inTime, fun gone => absurd rfl gone⟩
  | rejected parallel rejects stage put =>
    exact Cell.tame_of_gone (Cell.drop_not_armed _) (.inl rfl)
  | gaveUp why stage lane => exact Cell.tame_of_gone (Cell.drop_not_armed _) (.inl rfl)

theorem Reaches.written (h : Reaches w (w.start limiter files) s) {i : Nat} {r : Runtime} {c : Cell}
    (hc : s.cells[i]? = some c) (hr : w.runtime? i = some r) : c.Written r := by
  refine h.cells_induction (P := fun _ r c => c.Written r) (sound_start w limiter files) ?_ ?_ ?_
    hc hr
  · intro i r c hc
    cases hc
  · exact fun _ _ _ _ _ submits => submits.written
  · exact fun _ _ _ _ m written => written.move m

lemma Reaches.tame (h : Reaches w (w.start limiter files) s) (inTime : w.WritesInTime) {i : Nat}
    {c : Cell} (hc : s.cells[i]? = some c) : c.Tame := by
  obtain ⟨r, hr, -⟩ := (h.sound (sound_start w limiter files)).made i c hc
  refine h.cells_induction (P := fun _ _ c => c.Tame) (sound_start w limiter files) ?_ ?_ ?_ hc hr
  · intro i r c hc
    cases hc
  · exact fun _ _ _ _ hr submits => submits.tame (inTime _ _ hr)
  · exact fun reach _ hc _ m tame => tame.move (reach.consistent hc) m

lemma step_records {p : Party} (reach : Reaches w (w.start limiter files) s)
    (inTime : w.WritesInTime) (settled : s.AllSettled) (later : s.stage ≠ .dispatching)
    (h : s.step? w p = some t) : t.book.registered = s.book.registered := by
  have sound := reach.sound (sound_start w limiter files)
  obtain ⟨sound_t, advances⟩ := sound.step h
  rw [sound.aligned.registered_eq, sound_t.aligned.registered_eq]
  apply List.ext_getElem?
  intro i
  rw [List.getElem?_map, List.getElem?_map]
  cases hd : t.cells[i]? with
  | none =>
    cases hc : s.cells[i]? with
    | none => rfl
    | some c =>
      obtain ⟨d, hd', -⟩ := advances.kept i c hc
      rw [hd] at hd'
      cases hd'
  | some d =>
    obtain ⟨c, hc, same | move⟩ := step_cells sound h later hd
    · rw [hc, same]
    · rw [hc, Option.map_some, Option.map_some,
        move.record_eq (reach.tame inTime hc) (reach.consistent hc) (settled i c hc)]

end RunState

end FeatureBatch
