import FeatureBatch.Records.RecordWriters
import FeatureBatch.Proofs.Interleaving
import FeatureBatch.Proofs.Records.Book
import FeatureBatch.Proofs.Time.Instant

/-!
Scenarios that several writers add to one record. Whatever the order in which the writers get the
lock, and whoever gives up with the lock in hand, the scenarios are a merge of what the writers add;
the start of the record is the earliest of their starts, and everything that is counted over them is
the same in every order.
-/

namespace FeatureBatch

/-! ### The earliest start -/

/-- The earliest of some instants; none if there are none. -/
def IsEarliest (earliest : Option Instant) (instants : List Instant) : Prop :=
  match earliest with
  | none => instants = []
  | some t => t ∈ instants ∧ ∀ u ∈ instants, u.before t = false

lemma IsEarliest.unique {a b : Option Instant} {ts us : List Instant} (perm : ts.Perm us)
    (ha : IsEarliest a ts) (hb : IsEarliest b us) : a = b := by
  cases a with
  | none =>
    obtain rfl : ts = [] := ha
    obtain rfl := perm.nil_eq
    cases b with
    | none => rfl
    | some t => exact absurd hb.1 List.not_mem_nil
  | some t =>
    cases b with
    | none =>
      obtain rfl : us = [] := hb
      exact absurd (perm.subset ha.1) List.not_mem_nil
    | some u =>
      have first := hb.2 t (perm.subset ha.1)
      have second := ha.2 u (perm.symm.subset hb.1)
      rw [Instant.eq_of_not_before first second]

lemma IsEarliest.snoc {a : Option Instant} {ts : List Instant} (h : IsEarliest a ts) (u : Instant) :
    IsEarliest (some (a.elim u (·.earlier u))) (ts ++ [u]) := by
  have self : u.before u = false := by
    rw [← Bool.not_eq_true, Instant.before_eq_true]
    omega
  cases a with
  | none =>
    obtain rfl : ts = [] := h
    exact ⟨List.mem_singleton_self u, fun v mem => by rw [List.mem_singleton.mp mem]; exact self⟩
  | some t =>
    obtain ⟨there, least⟩ := h
    simp only [Option.elim_some, Instant.earlier]
    split
    · rename_i sooner
      refine ⟨by simp, fun v mem => ?_⟩
      rcases List.mem_append.mp mem with old | new
      · have later := least v old
        rw [Instant.before_eq_true] at sooner
        rw [← Bool.not_eq_true, Instant.before_eq_true] at later ⊢
        omega
      · rw [List.mem_singleton.mp new]
        exact self
    · rename_i later
      refine ⟨by simp [there], fun v mem => ?_⟩
      rcases List.mem_append.mp mem with old | new
      · exact least v old
      · rw [List.mem_singleton.mp new]
        simpa using later

namespace FeatureRecord

/-- The record starts when the earliest of its scenarios does. -/
def StartsRight (r : FeatureRecord) : Prop :=
  IsEarliest r.startedAt (r.scenarios.map Scenario.startedAt)

lemma startsRight_ofFeature (f : Feature) : (ofFeature f).StartsRight := rfl

lemma startedAt_applyAll (r : FeatureRecord) (us : List RecordUpdate) :
    (r.applyAll us).startedAt = (us.filterMap RecordUpdate.scenario?).foldl
      (fun start s => some (start.elim s.startedAt (·.earlier s.startedAt))) r.startedAt := by
  induction us generalizing r with
  | nil => rfl
  | cons u us ih =>
    rw [applyAll_cons, ih]
    cases u with
    | setDuration ms => rfl
    | addScenario s | addThenPanic s =>
      simp only [RecordUpdate.apply, RecordUpdate.scenario?, List.filterMap_cons, List.foldl_cons]
      cases start : r.startedAt <;> simp [addScenario, start]

lemma isEarliest_applyAll (r : FeatureRecord) {before : List Instant}
    (h : IsEarliest r.startedAt before) (us : List RecordUpdate) :
    IsEarliest (r.applyAll us).startedAt
      (before ++ (us.filterMap RecordUpdate.scenario?).map Scenario.startedAt) := by
  rw [startedAt_applyAll]
  generalize us.filterMap RecordUpdate.scenario? = added
  generalize r.startedAt = start at h
  induction added generalizing start before with
  | nil => simpa using h
  | cons s added ih => simpa using ih _ (h.snoc s.startedAt)

lemma StartsRight.applyAll {r : FeatureRecord} (h : r.StartsRight) (us : List RecordUpdate) :
    (r.applyAll us).StartsRight := by
  rw [StartsRight, applyAll_scenarios, List.map_append]
  exact isEarliest_applyAll r h us

/-- Whether two records start at the same time and come to the same counts, with the same messages
up to their order. -/
structure SameTally (r s : FeatureRecord) : Prop where
  startedAt : r.startedAt = s.startedAt
  scenarios : r.scenarioCount = s.scenarioCount
  passed : r.passedCount = s.passedCount
  failed : r.failedCount = s.failedCount
  messages : r.errorMessages.Perm s.errorMessages

/-- **The order of additions** makes no difference to what is counted. -/
lemma sameTally_applyAll (r : FeatureRecord) {us vs : List RecordUpdate}
    (perm : (us.filterMap RecordUpdate.scenario?).Perm (vs.filterMap RecordUpdate.scenario?)) :
    SameTally (r.applyAll us) (r.applyAll vs) := by
  have all : (r.applyAll us).scenarios.Perm (r.applyAll vs).scenarios := by
    rw [applyAll_scenarios, applyAll_scenarios]
    exact perm.append_left r.scenarios
  have scenarios := all.length_eq
  have failed := all.countP_eq (·.failed)
  have started : IsEarliest r.startedAt r.startedAt.toList := by
    cases start : r.startedAt with
    | none => rfl
    | some t => exact (show IsEarliest none [] from rfl).snoc t
  exact {
    startedAt := (isEarliest_applyAll r started us).unique
      ((perm.map Scenario.startedAt).append_left _) (isEarliest_applyAll r started vs)
    scenarios := scenarios
    passed := by rw [passedCount, passedCount, scenarioCount, scenarioCount, scenarios, failedCount,
      failedCount, failed]
    failed := failed
    messages := (all.filter _).map _ }

lemma passedCount_add_failedCount (r : FeatureRecord) :
    r.passedCount + r.failedCount = r.scenarioCount :=
  Nat.sub_add_cancel (Totals.failedCount_le r)

end FeatureRecord

/-! ### The writers -/

namespace RecordWriters

variable {s s' : RecordWriters} {writer : Nat} {us : List RecordUpdate}

lemma next?_eq_some {u : RecordUpdate} :
    s.next? writer = some u ↔ ∃ rest, s.waiting[writer]? = some (u :: rest) := by
  simp [next?, Option.bind_eq_some_iff, List.head?_eq_some_iff]

lemma step?_cases (h : s.step? writer = some s') :
    (s.holder = none ∧ (s.next? writer).isSome ∧ s' = s.enter writer) ∨
      (∃ u, s.holder = some ⟨writer, .entered⟩ ∧ s.next? writer = some u ∧
        s' = s.change writer u) ∨
      (∃ panics, s.holder = some ⟨writer, .leaving panics⟩ ∧ s' = s.leave panics) := by
  unfold step? at h
  split at h
  · rename_i free
    obtain ⟨u, next, rfl⟩ := Option.map_eq_some_iff.mp h
    exact .inl ⟨free, by rw [next]; rfl, rfl⟩
  · rename_i holder held
    obtain ⟨w, stage⟩ := holder
    split at h
    · cases h
    · rename_i own
      obtain rfl : w = writer := by simpa using own
      cases stage with
      | entered =>
        obtain ⟨u, next, rfl⟩ := Option.map_eq_some_iff.mp h
        exact .inr (.inl ⟨u, held, next, rfl⟩)
      | leaving panics =>
        cases h
        exact .inr (.inr ⟨panics, held, rfl⟩)

lemma play_cons (s : RecordWriters) (writer : Nat) (schedule : List Nat) :
    s.play (writer :: schedule) = ((s.step? writer).getD s).play schedule := rfl

lemma isDone_iff : s.isDone ↔ s.holder = none ∧ ∀ l ∈ s.waiting, l = [] := by
  simp [isDone]

/-- The holder is about to mark the lock. -/
def marking (s : RecordWriters) : Bool :=
  match s.holder with
  | some ⟨_, .leaving panics⟩ => panics
  | _ => false

/-- The updates were made one after the other, and the lock is marked if one of them gave up. -/
structure Made (s : RecordWriters) (us : List RecordUpdate) (s' : RecordWriters) : Prop where
  merge : IsMerge s.waiting us
  record : s'.record = s.record
  records : s'.records = us.foldl (fun store u => store.update s.record u) s.records
  marked : s'.marked = (s.marked || s.marking || us.any RecordUpdate.panics)

/-- **Whenever all updates are made**, they were made one after the other, in an order that is a merge
of the writers' own. -/
lemma exists_made (schedule : List Nat) (done : (s.play schedule).isDone) :
    ∃ us, Made s us (s.play schedule) := by
  induction schedule generalizing s with
  | nil =>
    obtain ⟨free, empty⟩ := (isDone_iff (s := s)).mp done
    exact ⟨[], .nil empty, rfl, rfl, by simp [play, marking, free]⟩
  | cons writer schedule ih =>
    rw [play_cons] at done ⊢
    cases step : s.step? writer with
    | none =>
      rw [step] at done
      exact ih done
    | some s' =>
      rw [step, Option.getD_some] at done
      rw [Option.getD_some]
      obtain ⟨us, made⟩ := ih done
      obtain ⟨free, -, rfl⟩ | ⟨u, held, next, rfl⟩ | ⟨panics, held, rfl⟩ := step?_cases step
      · refine ⟨us, made.merge, made.record, made.records, ?_⟩
        rw [made.marked]
        simp [enter, marking, free]
      · obtain ⟨rest, waiting⟩ := next?_eq_some.mp next
        have later : IsMerge (s.waiting.set writer rest) us := modify_tail waiting ▸ made.merge
        refine ⟨u :: us, .cons waiting later, made.record, made.records, ?_⟩
        rw [made.marked]
        simp [change, marking, held, Bool.or_assoc]
      · refine ⟨us, made.merge, made.record, made.records, ?_⟩
        rw [made.marked]
        simp [leave, marking, held]

/-! ### Nobody is kept out -/

/-- How many steps are left. -/
def toGo (s : RecordWriters) : Nat :=
  3 * s.waiting.flatten.length + match s.holder with
    | none => 1
    | some ⟨_, .entered⟩ => 0
    | some ⟨_, .leaving _⟩ => 2

/-- A writer that has entered has an update to make. -/
def Ready (s : RecordWriters) : Prop :=
  ∀ writer, s.holder = some ⟨writer, .entered⟩ → (s.next? writer).isSome

lemma Ready.step (step : s.step? writer = some s') : s'.Ready := by
  obtain ⟨-, next, rfl⟩ | ⟨u, -, -, rfl⟩ | ⟨panics, -, rfl⟩ := step?_cases step
  · intro w entered
    simp only [enter, Option.some.injEq, RecordHolder.mk.injEq, and_true] at entered
    exact entered ▸ next
  · intro w entered
    simp [change] at entered
  · intro w entered
    simp [leave] at entered

lemma Ready.play (ready : s.Ready) (schedule : List Nat) : (s.play schedule).Ready := by
  induction schedule generalizing s with
  | nil => exact ready
  | cons writer schedule ih =>
    rw [play_cons]
    cases step : s.step? writer with
    | none => exact ih ready
    | some s' => exact ih (Ready.step step)

lemma toGo_step (step : s.step? writer = some s') : s'.toGo < s.toGo := by
  obtain ⟨free, -, rfl⟩ | ⟨u, held, next, rfl⟩ | ⟨panics, held, rfl⟩ := step?_cases step
  · simp [toGo, enter, free]
  · obtain ⟨rest, waiting⟩ := next?_eq_some.mp next
    have shorter := length_flatten_set waiting
    simp only [toGo, change, modify_tail waiting, held]
    omega
  · simp [toGo, leave, held]

/-- Where updates are left, some writer can go on: the lock is free, or its holder has a step to
make, whether the lock is marked or not. -/
lemma exists_step (ready : s.Ready) (undone : s.isDone = false) :
    ∃ writer s', s.step? writer = some s' := by
  cases held : s.holder with
  | none =>
    have ⟨l, mem, some_left⟩ : ∃ l ∈ s.waiting, l ≠ [] := by
      by_contra none_left
      push Not at none_left
      rw [isDone_iff.mpr ⟨held, none_left⟩] at undone
      cases undone
    obtain ⟨writer, there⟩ := List.getElem?_of_mem mem
    obtain ⟨u, rest, rfl⟩ := List.exists_cons_of_ne_nil some_left
    have next : s.next? writer = some u := next?_eq_some.mpr ⟨rest, there⟩
    exact ⟨writer, s.enter writer, by simp [step?, held, next]⟩
  | some holder =>
    obtain ⟨writer, stage⟩ := holder
    cases stage with
    | entered =>
      obtain ⟨u, next⟩ := Option.isSome_iff_exists.mp (ready writer held)
      exact ⟨writer, s.change writer u, by simp [step?, held, next]⟩
    | leaving panics => exact ⟨writer, s.leave panics, by simp [step?, held]⟩

/-- **All updates can still be made**, at any time and whoever has given up. -/
lemma exists_done (ready : s.Ready) : ∃ more, (s.play more).isDone := by
  generalize length : s.toGo = n
  induction n using Nat.strong_induction_on generalizing s with
  | _ n ih =>
    subst length
    cases undone : s.isDone with
    | true => exact ⟨[], undone⟩
    | false =>
      obtain ⟨writer, s', step⟩ := exists_step ready undone
      obtain ⟨more, done⟩ := ih s'.toGo (toGo_step step) (Ready.step step) rfl
      refine ⟨writer :: more, ?_⟩
      rw [play_cons, step]
      exact done

/-! ### The main result -/

lemma get?_updates {store : RecordStore} {id : RecordId} {r : FeatureRecord}
    (here : store.get? id = some r) (us : List RecordUpdate) :
    (us.foldl (fun store u => store.update id u) store).get? id = some (r.applyAll us) := by
  induction us generalizing store r with
  | nil => exact here
  | cons u us ih =>
    rw [List.foldl_cons, FeatureRecord.applyAll_cons]
    refine ih ?_
    simp only [RecordStore.get?, RecordStore.update] at here ⊢
    rw [List.getElem?_modify_eq, here]
    rfl

/-- What a writer adds. -/
def additions (program : List RecordUpdate) : List Scenario :=
  program.filterMap RecordUpdate.scenario?

lemma get?_start (store : RecordStore) (r : FeatureRecord) (programs : List (List RecordUpdate)) :
    (start store r programs).records.get? (start store r programs).record = some r := by
  simp [start, RecordStore.add, RecordStore.get?]

/-- A record to which scenarios were added in some order. -/
structure Gathered (r : FeatureRecord) (added : List Scenario) (r' : FeatureRecord) : Prop where
  scenarios : r'.scenarios = r.scenarios ++ added
  /-- The start is the earliest, if it was the earliest of what the record had at first. -/
  starts : r.StartsRight → r'.StartsRight
  counts : r'.scenarioCount = r'.passedCount + r'.failedCount
  /-- A message for each failed scenario, in their order. -/
  messages : r'.errorMessages = r'.scenarios.filterMap Scenario.outcome
  messages_length : r'.errorMessages.length = r'.failedCount

lemma gathered_applyAll (r : FeatureRecord) (us : List RecordUpdate) :
    Gathered r (additions us) (r.applyAll us) where
  scenarios := r.applyAll_scenarios us
  starts h := h.applyAll us
  counts := (FeatureRecord.passedCount_add_failedCount _).symm
  messages := by rw [FeatureRecord.errorMessages_eq, List.filterMap_map]; rfl
  messages_length := Totals.length_errorMessages _

/-- **Writers that share a record.** Whatever the schedule, the updates that are left can be made,
also after a writer gave up and the lock is marked for it. When all are made, the record has a merge
of what the writers added, all of it once and each writer's in its order, and starts with the
earliest of its scenarios if it did at first, as a new record does. Each scenario is counted as
passed or as failed, and each failed one has its message, in their order. In every other order of the
updates the start, the counts and the messages, up to their order, are the same. -/
theorem additions_merge (store : RecordStore) (r : FeatureRecord)
    (programs : List (List RecordUpdate)) (schedule : List Nat) :
    let begun := start store r programs
    let s := begun.play schedule
    (∃ more, (s.play more).isDone) ∧
      (s.isDone → ∃ r' added, s.records.get? begun.record = some r' ∧
        IsMerge (programs.map additions) added ∧
        added.Perm (programs.map additions).flatten ∧
        (∀ program ∈ programs, (additions program).Sublist added) ∧
        Gathered r added r' ∧
        s.marked = programs.flatten.any RecordUpdate.panics ∧
        ∀ other, (begun.play other).isDone → ∃ r'',
          (begun.play other).records.get? begun.record = some r'' ∧ r''.SameTally r') := by
  intro begun s
  have ready : begun.Ready := fun writer entered => by cases entered
  have made (order : List Nat) (done : (begun.play order).isDone) :
      ∃ us, Made begun us (begun.play order) ∧
        (begun.play order).records.get? begun.record = some (r.applyAll us) := by
    obtain ⟨us, made⟩ := exists_made order done
    exact ⟨us, made, made.records ▸ get?_updates (get?_start store r programs) us⟩
  refine ⟨exists_done (ready.play schedule), fun done => ?_⟩
  obtain ⟨us, ⟨merge, -, -, marked⟩, here⟩ := made schedule done
  have added : IsMerge (programs.map additions) (additions us) := merge.filterMap _
  refine ⟨_, additions us, here, added, added.perm_flatten,
    fun program mem => added.sublist _ (List.mem_map_of_mem mem), gathered_applyAll r us, ?_,
    fun other done => ?_⟩
  · rw [marked, merge.perm_flatten.any_eq]
    rfl
  · obtain ⟨vs, made', here'⟩ := made other done
    have perm : vs.Perm us := made'.merge.perm_flatten.trans merge.perm_flatten.symm
    exact ⟨_, here', FeatureRecord.sameTally_applyAll r (perm.filterMap _)⟩

/-- A writer that gives up after its only addition, which starts first, and one that adds twice. -/
def crashingWriters : List (List RecordUpdate) :=
  let later := (Instant.ofMillis? 60000).getD .epoch
  [[.addThenPanic (.fail "broken" 1 5 "status 500" .epoch)],
    [.addScenario (.fail "refused" 2 5 "status 403" later), .addScenario (.pass "fine" 3 5 later)]]

/-- The second writer waits while the first one is inside, or comes in before and after it. -/
theorem crashingWriters_merge :
    let begun := start .empty (.ofFeature ⟨⟨[]⟩, "f", []⟩) crashingWriters
    let s := begun.play [0, 1, 0, 1, 0, 1, 1, 1, 1, 1, 1]
    let s' := begun.play [1, 1, 1, 0, 0, 0, 1, 1, 1]
    s.isDone ∧ s'.isDone ∧ s.marked ∧ ∃ r r',
      s.records.get? begun.record = some r ∧ s'.records.get? begun.record = some r' ∧
        r.errorMessages = ["status 500", "status 403"] ∧
        r'.errorMessages = ["status 403", "status 500"] ∧
        r.startedAt = some .epoch ∧ r.StartsRight ∧ r'.SameTally r := by
  intro begun s s'
  obtain ⟨-, result⟩ := additions_merge .empty (.ofFeature ⟨⟨[]⟩, "f", []⟩) crashingWriters
    [0, 1, 0, 1, 0, 1, 1, 1, 1, 1, 1]
  have done : s.isDone := by decide +kernel
  have done' : s'.isDone := by decide +kernel
  obtain ⟨r, added, here, -, -, -, gathered, marked, same⟩ := result done
  obtain ⟨r', here', tally⟩ := same _ done'
  have messages : (s.records.get? begun.record).map FeatureRecord.errorMessages =
      some ["status 500", "status 403"] := by decide +kernel
  have messages' : (s'.records.get? begun.record).map FeatureRecord.errorMessages =
      some ["status 403", "status 500"] := by decide +kernel
  have start : (s.records.get? begun.record).bind FeatureRecord.startedAt = some .epoch := by
    decide +kernel
  rw [here] at messages start
  rw [here'] at messages'
  exact ⟨done, done', marked.trans rfl, r, r', here, here', Option.some.inj messages,
    Option.some.inj messages', start, gathered.starts (FeatureRecord.startsRight_ofFeature _), tally⟩

end RecordWriters

end FeatureBatch
