import FeatureBatch.Proofs.Exec.Cache
import FeatureBatch.Proofs.Interleaving

/-!
Callers that use one cache at the same time. In whatever order they step, they are answered as one
map answers their requests one after the other, in the order in which they had the lock; a value is
computed only for a key that is absent, and whoever gives up leaves the cache as it was and as usable
as before.
-/

namespace FeatureBatch

namespace CacheCallers

variable {α : Type} {s s' : CacheCallers α} {caller : Nat} {programs : List (List (CacheRequest α))}

/-! ### What a step does -/

lemma request?_eq_some {request : CacheRequest α} :
    s.request? caller = some request ↔ ∃ rest, s.waiting[caller]? = some (request :: rest) := by
  simp [request?, Option.bind_eq_some_iff, List.head?_eq_some_iff]

lemma step?_cases (step : s.step? caller = some s') :
    ∃ request, s.request? caller = some request ∧
      ((s.holder = none ∧ s' = { s with holder := some ⟨caller, false⟩ }) ∨
        (s.holder = some ⟨caller, false⟩ ∧ mustCompute s.cache request = true ∧
          s' = { s with holder := some ⟨caller, true⟩ }) ∨
        ∃ computing, s.holder = some ⟨caller, computing⟩ ∧ s' = s.serve caller request) := by
  unfold step? at step
  split at step
  · cases step
  · rename_i request asks free
    cases step
    exact ⟨request, asks, .inl ⟨free, rfl⟩⟩
  · rename_i request holder asks held
    obtain ⟨who, computing⟩ := holder
    refine ⟨request, asks, ?_⟩
    split at step
    · cases step
    · rename_i own
      obtain rfl : who = caller := by simpa using own
      split at step
      · rename_i must
        simp only [Bool.and_eq_true, Bool.not_eq_true'] at must
        obtain ⟨rfl, must⟩ := must
        cases step
        exact .inr (.inl ⟨held, must, rfl⟩)
      · cases step
        exact .inr (.inr ⟨computing, held, rfl⟩)

lemma play_cons (s : CacheCallers α) (caller : Nat) (schedule : List Nat) :
    s.play (caller :: schedule) = ((s.step? caller).getD s).play schedule := rfl

lemma play_induction {P : CacheCallers α → Prop} (start : P s)
    (keeps : ∀ {s s' caller}, P s → s.step? caller = some s' → P s') (schedule : List Nat) :
    P (s.play schedule) := by
  induction schedule generalizing s with
  | nil => exact start
  | cons caller schedule ih =>
    rw [play_cons]
    cases step : s.step? caller with
    | none => exact ih start
    | some s' => exact ih (keeps start step)

/-! ### One after the other -/

/-- The requests of a caller that have been answered, in order. -/
def answeredTo (caller : Nat) (served : List (CacheServed α)) : List (CacheRequest α) :=
  (served.filter (·.caller = caller)).map CacheServed.request

/-- The callers have been answered one after the other. -/
structure InTurn (programs : List (List (CacheRequest α))) (s : CacheCallers α) : Prop where
  serves : MapServes (fun _ => none) s.served s.cache.get?
  stored : ∀ key, key ∈ s.cache.keys ↔ key ∈ s.served.filterMap CacheServed.stored?
  /-- Each caller has been answered as far as it has come, in its own order. -/
  programs : ∀ caller, programs[caller]? =
    s.waiting[caller]?.map fun left => answeredTo caller s.served ++ left
  /-- Whoever computes a value has the lock, and the key is absent. -/
  computing : ∀ caller, s.holder = some ⟨caller, true⟩ →
    ∃ key init, s.request? caller = some (.getOrInsert key init) ∧ s.cache.get? key = none
  asks : ∀ holder, s.holder = some holder → (s.request? holder.caller).isSome

lemma serve_served (s : CacheCallers α) (caller : Nat) (request : CacheRequest α) :
    (s.serve caller request).served =
      s.served ++ [⟨caller, request, (s.cache.answer request).1⟩] := rfl

lemma serve_cache (s : CacheCallers α) (caller : Nat) (request : CacheRequest α) :
    (s.serve caller request).cache = (s.cache.answer request).2 := rfl

lemma InTurn.step (h : InTurn programs s) (step : s.step? caller = some s') : InTurn programs s' := by
  obtain ⟨request, asks, ⟨-, rfl⟩ | ⟨-, must, rfl⟩ | ⟨computing, -, rfl⟩⟩ := step?_cases step
  · exact { h with
      computing := fun who held => by simp at held
      asks := by
        rintro holder ⟨⟩
        exact Option.isSome_iff_exists.mpr ⟨request, asks⟩ }
  · refine { h with computing := ?_, asks := ?_ }
    · rintro who ⟨⟩
      cases request with
      | getOrInsert key init =>
        refine ⟨key, init, asks, ?_⟩
        simpa [mustCompute, SuiteCache.contains] using must
      | get | insert | contains => cases must
    · rintro holder ⟨⟩
      exact Option.isSome_iff_exists.mpr ⟨request, asks⟩
  · obtain ⟨rest, waiting⟩ := request?_eq_some.mp asks
    refine ⟨?_, fun key => ?_, fun who => ?_, fun who held => ?_, fun holder held => ?_⟩
    · exact .snoc h.serves (s.cache.answer_answers request)
    · rw [serve_cache, serve_served, s.cache.mem_keys_answer caller, h.stored, List.filterMap_append,
        List.mem_append]
      refine or_congr_right ?_
      simp [List.mem_filterMap]
    · rw [h.programs, serve_served]
      show _ = (s.waiting.modify caller List.tail)[who]?.map _
      rw [modify_tail waiting]
      by_cases same : who = caller
      · subst same
        have there := (List.getElem?_eq_some_iff.mp waiting).1
        rw [List.getElem?_set_self there, waiting]
        simp [answeredTo]
      · rw [List.getElem?_set_ne (Ne.symm same)]
        simp [answeredTo, Ne.symm same]
    · cases held
    · cases held

lemma inTurn_start (programs : List (List (CacheRequest α))) :
    InTurn programs (start .empty programs) where
  serves := .nil
  stored key := by simp [start, SuiteCache.empty, SuiteCache.keys]
  programs caller := by simp [start, answeredTo]
  computing caller held := by cases held
  asks holder held := by cases held

lemma InTurn.play (h : InTurn programs s) (schedule : List Nat) : InTurn programs (s.play schedule) :=
  play_induction h (fun h step => h.step step) schedule

lemma InTurn.size_eq (h : InTurn programs s) :
    s.cache.size = (s.served.filterMap CacheServed.stored?).dedup.length := by
  have perm : s.cache.keys.Perm (s.served.filterMap CacheServed.stored?).dedup := by
    have nodup : s.cache.keys.Nodup := s.cache.keys_nodup
    rw [List.perm_ext_iff_of_nodup nodup (List.nodup_dedup _)]
    intro key
    rw [h.stored, List.mem_dedup]
  rw [← perm.length_eq, SuiteCache.keys, List.length_map, SuiteCache.size]

lemma get?_step {key : String} (there : (s.cache.get? key).isSome) (step : s.step? caller = some s') :
    (s'.cache.get? key).isSome := by
  obtain ⟨request, -, ⟨-, rfl⟩ | ⟨-, -, rfl⟩ | ⟨computing, -, rfl⟩⟩ := step?_cases step
  · exact there
  · exact there
  · exact (s.cache.answer_answers request).keeps there

/-! ### Nobody is kept out -/

/-- All requests are answered, and the lock is free. -/
def IsDone (s : CacheCallers α) : Prop := s.holder = none ∧ ∀ l ∈ s.waiting, l = []

/-- How many steps are left. -/
def toGo (s : CacheCallers α) : Nat :=
  3 * s.waiting.flatten.length + match s.holder with
    | none => 2
    | some ⟨_, false⟩ => 1
    | some ⟨_, true⟩ => 0

lemma toGo_step (step : s.step? caller = some s') : s'.toGo < s.toGo := by
  obtain ⟨request, asks, ⟨free, rfl⟩ | ⟨held, -, rfl⟩ | ⟨computing, held, rfl⟩⟩ := step?_cases step
  · simp [toGo, free]
  · simp [toGo, held]
  · obtain ⟨rest, waiting⟩ := request?_eq_some.mp asks
    have shorter := length_flatten_set waiting
    simp only [toGo, serve, modify_tail waiting, held]
    cases computing <;> dsimp only <;> omega

/-- Where requests are left, some caller can go on: the lock is free, or its holder has a step to
make, whether the lock is marked or not. -/
lemma InTurn.exists_step (h : InTurn programs s) (undone : ¬ s.IsDone) :
    ∃ caller s', s.step? caller = some s' := by
  cases held : s.holder with
  | none =>
    have ⟨l, mem, filled⟩ : ∃ l ∈ s.waiting, l ≠ [] := by
      by_contra none_left
      push Not at none_left
      exact undone ⟨held, none_left⟩
    obtain ⟨caller, there⟩ := List.getElem?_of_mem mem
    obtain ⟨request, rest, rfl⟩ := List.exists_cons_of_ne_nil filled
    have asks : s.request? caller = some request := request?_eq_some.mpr ⟨rest, there⟩
    exact ⟨caller, { s with holder := some ⟨caller, false⟩ }, by simp only [step?, asks, held]⟩
  | some holder =>
    obtain ⟨request, asks⟩ := Option.isSome_iff_exists.mp (h.asks holder held)
    refine ⟨holder.caller, ?_⟩
    simp only [step?, asks, held, ne_eq, not_true_eq_false, if_false]
    split <;> exact ⟨_, rfl⟩

/-- **All requests can still be answered**, at any time and whoever has given up. -/
lemma InTurn.exists_done (h : InTurn programs s) : ∃ more, (s.play more).IsDone := by
  generalize length : s.toGo = n
  induction n using Nat.strongRecOn generalizing s with
  | ind n ih =>
    subst length
    by_cases undone : s.IsDone
    · exact ⟨[], undone⟩
    · obtain ⟨caller, s', step⟩ := h.exists_step undone
      obtain ⟨more, done⟩ := ih s'.toGo (toGo_step step) (h.step step) rfl
      refine ⟨caller :: more, ?_⟩
      rw [play_cons, step]
      exact done

lemma panicked_step {payload : PanicPayload} {request : CacheRequest α}
    (step : s.step? caller = some s')
    (panicked : s'.served = s.served ++ [⟨caller, request, .panicked payload⟩]) :
    s'.cache = s.cache ∧ s'.holder = none := by
  obtain ⟨request, -, ⟨-, rfl⟩ | ⟨-, -, rfl⟩ | ⟨computing, -, rfl⟩⟩ := step?_cases step
  · simp at panicked
  · simp at panicked
  · rw [serve_served, List.append_cancel_left_eq, List.cons.injEq, CacheServed.mk.injEq] at panicked
    obtain ⟨⟨-, -, reply⟩, -⟩ := panicked
    exact ⟨SuiteCache.answer_of_panicked reply, rfl⟩

/-! ### The main result -/

/-- **Callers of one cache.** Whatever the schedule, the answers are those of one map to the requests
in the order in which their callers had the lock, each caller's in its own order, and as many values
are stored as there are keys under which one was. A key that is there stays. A value is computed only
while its key is absent; a caller that gives up leaves the cache as it was and the lock free, and all
requests that are left can be answered. For a key that nobody puts a value under, at most one
computing returns, and everybody who gets a value gets that one. -/
theorem callers_share_one_map (programs : List (List (CacheRequest α))) (schedule : List Nat) :
    let s := (start .empty programs).play schedule
    MapServes (fun _ => none) s.served s.cache.get? ∧
      (∀ caller, programs[caller]? =
        s.waiting[caller]?.map fun left => answeredTo caller s.served ++ left) ∧
      s.cache.size = (s.served.filterMap CacheServed.stored?).dedup.length ∧
      (∀ key, (s.cache.get? key).isSome → ∀ more, ((s.play more).cache.get? key).isSome) ∧
      (∀ caller, s.holder = some ⟨caller, true⟩ →
        ∃ key init, s.request? caller = some (.getOrInsert key init) ∧ s.cache.get? key = none) ∧
      (∀ caller s' request payload, s.step? caller = some s' →
        s'.served = s.served ++ [⟨caller, request, .panicked payload⟩] →
        s'.cache = s.cache ∧ s'.holder = none) ∧
      (∃ more, (s.play more).IsDone) ∧
      ∀ key, (∀ r ∈ s.served, r.inserts key = false) →
        s.served.countP (CacheServed.computes key) ≤ 1 ∧
          ∀ r ∈ s.served, ∀ value, r.obtained? key = some value →
            ∃ first ∈ s.served, first.request = .getOrInsert key (.ok value) ∧
              first.reply = .obtained value true := by
  intro s
  have turns : InTurn programs s := (inTurn_start programs).play schedule
  refine ⟨turns.serves, turns.programs, turns.size_eq,
    fun key there => play_induction there get?_step, turns.computing,
    fun caller s' request payload step panicked => panicked_step step panicked,
    turns.exists_done, fun key unput => ?_⟩
  have once := turns.serves.computedOnce rfl unput
  refine ⟨?_, fun r mem value got => (once.present value (once.obtained r mem value got)).2⟩
  cases there : s.cache.get? key with
  | none => exact Nat.le_trans (Nat.le_of_eq (once.absent there)) (Nat.zero_le 1)
  | some value => exact Nat.le_of_eq (once.present value there).1

end CacheCallers

end FeatureBatch
