import FeatureBatch.Proofs.Exec.Limiter

/-!
Where the permits of a limiter are: free, in use, or handed to a waiter that has not looked since.
No event makes or loses one, nobody waits while one is free, and waiters are handed permits in the
order in which they came, whoever leaves in between and whenever the limiter is closed.
-/

namespace FeatureBatch

namespace AdmissionLimiter

variable {l l' rest : AdmissionLimiter} {c w v : Nat} {handed : Option Nat}

/-! ### What an event does -/

/-- The limiter without a permit that was in use or had been handed to a waiter. -/
inductive Frees (l : AdmissionLimiter) : AdmissionLimiter → Prop
  | held {p : Nat} (mem : p ∈ l.held) : Frees l { l with held := l.held.erase p }
  | granted {w : Nat} (mem : w ∈ l.granted) : Frees l { l with granted := l.granted.erase w }

/-- What an event can do to a limiter, with the waiter that it hands a permit to. -/
inductive Move (l : AdmissionLimiter) : Option Nat → AdmissionLimiter → Prop
  | stay : Move l none l
  /-- A free permit is taken. -/
  | take (opened : l.closed = false) (free : 0 < l.available) :
      Move l none { l with available := l.available - 1 }.handOut.2
  | lineUp (opened : l.closed = false) (busy : l.available = 0) :
      Move l none { l with queue := l.queue ++ [l.nextWaiter], nextWaiter := l.nextWaiter + 1 }
  /-- A waiter takes the permit that it was handed. -/
  | collect {w : Nat} (mem : w ∈ l.granted) :
      Move l none { l with granted := l.granted.erase w }.handOut.2
  | leave (w : Nat) : Move l none { l with queue := l.queue.erase w }
  | passOn {rest : AdmissionLimiter} {w : Nat} {ws : List Nat} (freed : Frees l rest)
      (opened : l.closed = false) (first : l.queue = w :: ws) :
      Move l (some w) { rest with queue := ws, granted := rest.granted ++ [w] }
  | putBack {rest : AdmissionLimiter} (freed : Frees l rest)
      (unasked : l.closed = true ∨ l.queue = []) :
      Move l none { rest with available := rest.available + 1 }
  | close : Move l none l.close

lemma Frees.closed_eq (freed : Frees l rest) : rest.closed = l.closed := by
  cases freed <;> rfl

lemma Frees.queue_eq (freed : Frees l rest) : rest.queue = l.queue := by
  cases freed <;> rfl

lemma Frees.giveBack_moves (freed : Frees l rest) : ∃ handed, Move l handed rest.giveBack := by
  unfold giveBack
  split
  · rename_i opened first
    exact ⟨_, .passOn freed (freed.closed_eq ▸ opened) (freed.queue_eq ▸ first)⟩
  · rename_i unasked
    refine ⟨_, .putBack freed ?_⟩
    rw [← freed.closed_eq, ← freed.queue_eq]
    cases shut : rest.closed with
    | true => exact .inl rfl
    | false =>
      cases waiting : rest.queue with
      | nil => exact .inr rfl
      | cons w ws => exact absurd waiting (unasked w ws shut)

lemma cancel_moves (l : AdmissionLimiter) (w : Nat) : ∃ handed, Move l handed (l.cancel w) := by
  unfold cancel
  split
  · rename_i mem
    exact Frees.giveBack_moves (.granted (List.contains_iff_mem.mp mem))
  · exact ⟨_, .leave w⟩

lemma after_moves (l : AdmissionLimiter) (e : Event) : ∃ handed, Move l handed (l.after e) := by
  cases e with
  | tryAcquire =>
    show ∃ handed, Move l handed l.tryAcquire.2
    unfold tryAcquire
    split
    · exact ⟨_, .stay⟩
    · rename_i admitted
      simp only [Bool.or_eq_true, decide_eq_true_eq, not_or, Bool.not_eq_true] at admitted
      exact ⟨_, .take admitted.1 (Nat.pos_of_ne_zero admitted.2)⟩
  | acquire =>
    show ∃ handed, Move l handed l.acquire.2
    unfold acquire
    split
    · exact ⟨_, .stay⟩
    · rename_i opened
      rw [Bool.not_eq_true] at opened
      split
      · rename_i busy
        exact ⟨_, .lineUp opened busy⟩
      · rename_i free
        exact ⟨_, .take opened (Nat.pos_of_ne_zero free)⟩
  | poll w =>
    show ∃ handed, Move l handed (((l.poll? w).map Prod.snd).getD l)
    unfold poll?
    split
    · exact ⟨_, .stay⟩
    · split
      · exact cancel_moves l w
      · split
        · rename_i mem
          exact ⟨_, .collect (List.contains_iff_mem.mp mem)⟩
        · exact ⟨_, .stay⟩
  | cancel w => exact cancel_moves l w
  | release p =>
    show ∃ handed, Move l handed (l.release p).2
    unfold release
    split
    · rename_i mem
      exact Frees.giveBack_moves (.held (List.contains_iff_mem.mp mem))
    · exact ⟨_, .stay⟩
  | close => exact ⟨_, .close⟩

lemma Move.eq_handed (move : Move l handed l') (before : w ∉ l.granted) (now : w ∈ l'.granted) :
    handed = some w := by
  have kept {rest : AdmissionLimiter} (freed : Frees l rest) : w ∉ rest.granted := by
    cases freed with
    | held => exact before
    | granted => exact fun mem => before (List.mem_of_mem_erase mem)
  cases move with
  | passOn freed _ _ =>
    rcases List.mem_append.mp now with old | new
    · exact absurd old (kept freed)
    · rw [List.mem_singleton.mp new]
  | putBack freed _ => exact (kept freed now).elim
  | collect => exact absurd (List.mem_of_mem_erase now) before
  | stay | take | lineUp | leave | close => exact absurd now before

/-! ### What holds at any time -/

/-- Each permit is in one place, and those who wait stand in the order in which they came, behind
whoever has been handed a permit. -/
structure Sound (c : Nat) (l : AdmissionLimiter) : Prop where
  capacity : l.capacity = c
  conserved : l.available + l.held.length + l.granted.length = c
  busy : l.closed = false → l.queue ≠ [] → l.available = 0
  in_order : l.queue.Pairwise (· < ·)
  known : ∀ v ∈ l.queue, v < l.nextWaiter

lemma Frees.total (freed : Frees l rest) : rest.available + 1 + rest.held.length +
    rest.granted.length = l.available + l.held.length + l.granted.length := by
  cases freed with
  | held mem =>
    have fewer := List.length_erase_of_mem mem
    have some_ := List.length_pos_of_mem mem
    dsimp only
    omega
  | granted mem =>
    have fewer := List.length_erase_of_mem mem
    have some_ := List.length_pos_of_mem mem
    dsimp only
    omega

lemma Frees.keeps (freed : Frees l rest) : rest.capacity = l.capacity ∧
    rest.available = l.available ∧ rest.nextWaiter = l.nextWaiter := by
  cases freed <;> exact ⟨rfl, rfl, rfl⟩

lemma Sound.move (h : l.Sound c) (move : Move l handed l') : l'.Sound c := by
  obtain ⟨capacity, conserved, busy, in_order, known⟩ := h
  cases move with
  | stay => exact ⟨capacity, conserved, busy, in_order, known⟩
  | close =>
    exact ⟨capacity, conserved, fun opened => absurd opened (by simp [close]), in_order, known⟩
  | take opened free =>
    refine ⟨capacity, ?_, fun _ waited => ?_, in_order, known⟩
    · simp only [handOut, List.length_append, List.length_singleton]
      omega
    · exact absurd (busy opened waited) (Nat.ne_of_gt free)
  | lineUp opened none_free =>
    refine ⟨capacity, conserved, fun _ _ => none_free, ?_, fun v mem => ?_⟩
    · rw [List.pairwise_append]
      refine ⟨in_order, List.pairwise_singleton _ _, fun v mem u new => ?_⟩
      rw [List.mem_singleton.mp new]
      exact known v mem
    · rcases List.mem_append.mp mem with old | new
      · exact Nat.lt_succ_of_lt (known v old)
      · rw [List.mem_singleton.mp new]
        exact Nat.lt_succ_self _
  | collect mem =>
    refine ⟨capacity, ?_, busy, in_order, known⟩
    have fewer := List.length_erase_of_mem mem
    have some_ := List.length_pos_of_mem mem
    simp only [handOut, List.length_append, List.length_singleton]
    omega
  | leave w =>
    refine ⟨capacity, conserved, fun opened waited => busy opened ?_,
      in_order.sublist List.erase_sublist, fun v mem => known v (List.mem_of_mem_erase mem)⟩
    rintro nobody
    exact waited (by simp [nobody])
  | passOn freed opened first =>
    have total := freed.total
    obtain ⟨same, free, next⟩ := freed.keeps
    rw [first] at in_order known
    refine ⟨same.trans capacity, ?_, fun _ _ => ?_, in_order.of_cons, fun v mem => ?_⟩
    · simp only [List.length_append, List.length_singleton]
      omega
    · exact free.trans (busy opened (by simp [first]))
    · exact next ▸ known v (List.mem_cons_of_mem _ mem)
  | putBack freed unasked =>
    have total := freed.total
    obtain ⟨same, -, next⟩ := freed.keeps
    have queue := freed.queue_eq
    refine ⟨same.trans capacity, by dsimp only; omega, fun opened waited => ?_,
      queue ▸ in_order, fun v mem => next ▸ known v (queue ▸ mem)⟩
    rcases unasked with shut | nobody
    · exact absurd (freed.closed_eq.symm.trans opened) (by simp [shut])
    · exact absurd (queue.trans nobody) waited

lemma Sound.after (h : l.Sound c) (e : Event) : (l.after e).Sound c := by
  obtain ⟨handed, move⟩ := after_moves l e
  exact h.move move

lemma Sound.afterAll (h : l.Sound c) (events : List Event) : (l.afterAll events).Sound c := by
  induction events generalizing l with
  | nil => exact h
  | cons e es ih => exact ih (h.after e)

lemma exists_create? (fits : c ≤ maxCapacity) :
    ∃ l, create? c = some l ∧ l.Sound (max c 1) ∧ l.available = max c 1 ∧ l.closed = false :=
  ⟨_, if_pos (Nat.max_le.mpr ⟨fits, by decide⟩),
    ⟨rfl, rfl, fun _ nobody => absurd rfl nobody, .nil, by simp⟩, rfl, rfl⟩

/-! ### First come, first served -/

/-- An event hands a permit to a waiter. -/
def Hands (l : AdmissionLimiter) (e : Event) (w : Nat) : Prop :=
  w ∉ l.granted ∧ w ∈ (l.after e).granted

/-- The waiter came before all that wait now and all that will. -/
def CameBefore (w : Nat) (l : AdmissionLimiter) : Prop :=
  (∀ v ∈ l.queue, w < v) ∧ w < l.nextWaiter

lemma CameBefore.move (h : CameBefore w l) (move : Move l handed l') : CameBefore w l' := by
  obtain ⟨queue, next⟩ := h
  cases move with
  | stay | take | collect | close => exact ⟨queue, next⟩
  | lineUp =>
    refine ⟨fun v mem => ?_, Nat.lt_succ_of_lt next⟩
    rcases List.mem_append.mp mem with old | new
    · exact queue v old
    · rw [List.mem_singleton.mp new]
      exact next
  | leave u => exact ⟨fun v mem => queue v (List.mem_of_mem_erase mem), next⟩
  | passOn freed _ first =>
    exact ⟨fun v mem => queue v (first ▸ List.mem_cons_of_mem _ mem), freed.keeps.2.2 ▸ next⟩
  | putBack freed => exact ⟨freed.queue_eq ▸ queue, freed.keeps.2.2 ▸ next⟩

lemma CameBefore.afterAll (h : CameBefore w l) (events : List Event) :
    CameBefore w (l.afterAll events) := by
  induction events generalizing l with
  | nil => exact h
  | cons e es ih =>
    obtain ⟨handed, move⟩ := after_moves l e
    exact ih (h.move move)

lemma Hands.first {e : Event} (hands : l.Hands e w) :
    l.closed = false ∧ ∃ ws, l.queue = w :: ws ∧ (l.after e).queue = ws := by
  obtain ⟨handed, move⟩ := after_moves l e
  obtain rfl := move.eq_handed hands.1 hands.2
  generalize l.after e = l' at move
  cases move with
  | passOn _ opened first => exact ⟨opened, _, first, rfl⟩

lemma Hands.cameBefore {e : Event} (hands : l.Hands e w) (h : l.Sound c) :
    CameBefore w (l.after e) := by
  obtain ⟨-, ws, first, queue⟩ := hands.first
  obtain ⟨handed, move⟩ := after_moves l e
  have order := h.in_order
  rw [first, List.pairwise_cons] at order
  have next : w < l.nextWaiter := h.known w (first ▸ List.mem_cons_self)
  refine ⟨queue ▸ order.1, ?_⟩
  obtain rfl := move.eq_handed hands.1 hands.2
  generalize l.after e = l' at move
  cases move with
  | passOn freed => exact freed.keeps.2.2 ▸ next

lemma Hands.in_order {e e' : Event} {between : List Event} (h : l.Sound c) (hands : l.Hands e w)
    (later : ((l.after e).afterAll between).Hands e' v) : w < v := by
  obtain ⟨queue, -⟩ := (hands.cameBefore h).afterAll between
  obtain ⟨-, ws, first, -⟩ := later.first
  exact queue v (first ▸ List.mem_cons_self)

lemma Move.nextWaiter_le (move : Move l handed l') : l.nextWaiter ≤ l'.nextWaiter := by
  cases move with
  | stay | take | collect | leave | close => exact Nat.le_refl _
  | lineUp => exact Nat.le_succ _
  | passOn freed => exact Nat.le_of_eq freed.keeps.2.2.symm
  | putBack freed => exact Nat.le_of_eq freed.keeps.2.2.symm

lemma nextWaiter_le_afterAll (l : AdmissionLimiter) (events : List Event) :
    l.nextWaiter ≤ (l.afterAll events).nextWaiter := by
  induction events generalizing l with
  | nil => exact Nat.le_refl _
  | cons e es ih =>
    obtain ⟨handed, move⟩ := after_moves l e
    exact Nat.le_trans move.nextWaiter_le (ih (l.after e))

lemma acquire_waiting (lines : l.acquire.1 = .waiting w) :
    w = l.nextWaiter ∧ (l.after .acquire).nextWaiter = l.nextWaiter + 1 := by
  show _ ∧ l.acquire.2.nextWaiter = _
  unfold acquire at lines ⊢
  split_ifs at lines ⊢
  exact ⟨(Admission.waiting.inj lines).symm, rfl⟩

lemma acquire_in_order {between : List Event} (lines : l.acquire.1 = .waiting w)
    (later : ((l.after .acquire).afterAll between).acquire.1 = .waiting v) : w < v := by
  obtain ⟨rfl, next⟩ := acquire_waiting lines
  obtain ⟨rfl, -⟩ := acquire_waiting later
  have grown := nextWaiter_le_afterAll (l.after .acquire) between
  omega

/-! ### Answers at any time -/

/-- How a limiter of a capacity stands and answers. -/
structure Fair (c : Nat) (l : AdmissionLimiter) : Prop where
  conserved : l.available + l.held.length + l.granted.length = c
  busy : l.closed = false → l.queue ≠ [] → l.available = 0
  tryAcquire_iff : l.tryAcquire.1.isSome = true ↔ l.closed = false ∧ 0 < l.available
  /-- Nobody who comes is admitted before those who wait without a permit. -/
  not_overtaken : l.closed = false → l.queue ≠ [] →
    l.tryAcquire = (none, l) ∧ ∃ w, l.acquire.1 = .waiting w
  /-- A waiter finds a permit when it looks exactly if it has been handed one. -/
  collects : l.closed = false → ∀ w, l.isWaiting w = true →
    ((∃ p l', l.poll? w = some (.permit p, l')) ↔ w ∈ l.granted)
  /-- A permit is handed to the waiter that came first, by an open limiter. -/
  first : ∀ e w, l.Hands e w → l.closed = false ∧ w ∈ l.queue ∧ ∀ v ∈ l.queue, w ≤ v

lemma Sound.fair (h : l.Sound c) : l.Fair c where
  conserved := h.conserved
  busy := h.busy
  tryAcquire_iff := by
    unfold tryAcquire
    cases l.closed <;> by_cases free : l.available = 0 <;> simp [free, Nat.pos_iff_ne_zero]
  not_overtaken opened waited := by
    have busy := h.busy opened waited
    simp [tryAcquire, acquire, opened, busy]
  collects opened w waits := by
    unfold poll?
    by_cases mem : w ∈ l.granted <;> simp [waits, opened, mem]
  first e w hands := by
    obtain ⟨opened, ws, first, -⟩ := hands.first
    have order := h.in_order
    rw [first, List.pairwise_cons] at order
    refine ⟨opened, first ▸ List.mem_cons_self, fun v mem => ?_⟩
    rw [first] at mem
    rcases List.mem_cons.mp mem with rfl | mem
    · exact Nat.le_refl _
    · exact Nat.le_of_lt (order.1 v mem)

/-- A closed limiter gives nothing, and what is given back is free again. -/
structure TakesBack (l : AdmissionLimiter) : Prop where
  nothing : l.GivesNothing
  release : ∀ p ∈ l.held, (l.release p).1 = true ∧ (l.release p).2.available = l.available + 1
  /-- A waiter that leaves, or that looks and is told, gives up what it had been handed. -/
  cancel : ∀ w ∈ l.granted, (l.cancel w).available = l.available + 1

lemma takesBack_of_closed (closed : l.closed = true) : l.TakesBack where
  nothing := givesNothing_of_closed closed
  release p mem := by simp [AdmissionLimiter.release, giveBack, mem, closed]
  cancel w mem := by simp [AdmissionLimiter.cancel, giveBack, mem, closed]

lemma afterAll_closed {events : List Event} (mem : Event.close ∈ events) :
    (l.afterAll events).closed = true := by
  obtain ⟨before, later, rfl⟩ := List.append_of_mem mem
  have closed := givesNothing_of_closed (l := (l.afterAll before).close) rfl
  rw [afterAll, List.foldl_append]
  exact (closed.afterAll later).closed

/-- **No permit is made or lost, and nobody is overtaken.** Whatever is done with a limiter and its
clones, every permit is free, in use or handed to a waiter that has not looked since; while it is
open nobody waits beside a free permit, and waiters are handed permits in the order in which they
came; after the closing nobody gets one, and what is given back is free again. -/
theorem permits_kept_and_given_in_order (c : Nat) (fits : c ≤ maxCapacity) :
    ∃ l, create? c = some l ∧ l.capacity = max c 1 ∧ l.available = max c 1 ∧ l.closed = false ∧
      (∀ events, (l.afterAll events).Fair (max c 1)) ∧
      (∀ past e between e' w v, (l.afterAll past).Hands e w →
        (l.afterAll (past ++ e :: between)).Hands e' v → w < v) ∧
      (∀ past between w v, (l.afterAll past).acquire.1 = .waiting w →
        (l.afterAll (past ++ .acquire :: between)).acquire.1 = .waiting v → w < v) ∧
      ∀ events, .close ∈ events → (l.afterAll events).TakesBack := by
  obtain ⟨l, created, sound, free, opened⟩ := exists_create? fits
  have split (past between : List Event) (e : Event) :
      l.afterAll (past ++ e :: between) = ((l.afterAll past).after e).afterAll between :=
    List.foldl_append
  refine ⟨l, created, sound.capacity, free, opened, fun events => (sound.afterAll events).fair,
    fun past e between e' w v hands later => ?_, fun past between w v lines later => ?_,
    fun events mem => takesBack_of_closed (afterAll_closed mem)⟩
  · rw [split] at later
    exact hands.in_order (sound.afterAll past) later
  · rw [split] at later
    exact acquire_in_order lines later

/-- One permit: its holder gives it back, the first waiter leaves with it in hand, and the second is
told of the closing before it looks. -/
def handedOn : List Event := [.acquire, .acquire, .acquire, .release 0, .cancel 0]

theorem handedOn_in_order :
    0 ≤ maxCapacity ∧ ∃ l, create? 0 = some l ∧
      (l.afterAll (handedOn.take 3)).Hands (.release 0) 0 ∧
      (l.afterAll (handedOn.take 4)).Hands (.cancel 0) 1 ∧ 0 < 1 ∧
      (l.afterAll handedOn).Fair 1 ∧ (l.afterAll handedOn).granted = [1] ∧
      (l.afterAll handedOn).tryAcquire.1 = none ∧
      (l.afterAll (handedOn ++ [.close])).TakesBack ∧
      (l.afterAll (handedOn ++ [.close, .poll 1])).available = 1 := by
  have fits : 0 ≤ maxCapacity := Nat.zero_le _
  obtain ⟨l, created, -, -, -, fair, in_order, -, closed⟩ := permits_kept_and_given_in_order 0 fits
  obtain rfl := Option.some.inj (created.symm.trans rfl)
  refine ⟨fits, _, created, ⟨by decide, by decide⟩, ⟨by decide, by decide⟩, ?_, fair handedOn,
    by decide, by decide, closed _ (by decide), by decide⟩
  exact in_order (handedOn.take 3) (.release 0) [] (.cancel 0) 0 1 ⟨by decide, by decide⟩
    ⟨by decide, by decide⟩

end AdmissionLimiter

end FeatureBatch
