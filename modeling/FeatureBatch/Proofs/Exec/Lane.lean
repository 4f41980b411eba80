import Mathlib.Data.List.Nodup
import Mathlib.Tactic.Common
import FeatureBatch.Exec.JobBoard

/-!
What becomes of the jobs that are given to a lane, in every order of the steps of its owner and its
thread. The accepted jobs, in the order of submission, are first those that were started, then those
that are queued, then those that were let go; a lane whose stopping is over has let go of all that
it had not started, and takes nothing more.

In a lane in detail the thread looks at the flag and starts the job in two steps, so that the flag
may go up in between. It is a lane in which a job counts as started from the look on.
-/

namespace FeatureBatch

namespace Lane

variable {ρ : Type} {crashes : ρ → Bool} {l : Lane ρ}

/-- The jobs that an event adds to those the lane has accepted. -/
def admitted (l : Lane ρ) : Event ρ → List ρ
  | .submit job => if l.accepts then [job] else []
  | _ => []

/-- The jobs that the lane accepts in a course of events, in the order of submission. -/
def accepted (crashes : ρ → Bool) : Lane ρ → List (Event ρ) → List ρ
  | _, [] => []
  | l, e :: es => l.admitted e ++ accepted crashes (l.step crashes e) es

/-- The jobs that are submitted in a course of events. -/
def submitted (events : List (Event ρ)) : List ρ :=
  events.filterMap fun
    | .submit job => some job
    | _ => none

lemma accepted_sublist (crashes : ρ → Bool) (l : Lane ρ) (events : List (Event ρ)) :
    (l.accepted crashes events).Sublist (submitted events) := by
  induction events generalizing l with
  | nil => exact .slnil
  | cons e es ih =>
    have later := ih (l.step crashes e)
    cases e with
    | submit job =>
      by_cases takes : l.accepts
      · simpa [accepted, admitted, takes, submitted] using later
      · simpa [accepted, admitted, takes, submitted] using later.cons job
    | stop => simpa [accepted, admitted, submitted] using later
    | thread => simpa [accepted, admitted, submitted] using later

lemma run_append (crashes : ρ → Bool) (l : Lane ρ) (es fs : List (Event ρ)) :
    l.run crashes (es ++ fs) = (l.run crashes es).run crashes fs := by
  simp [run, List.foldl_append]

/-! ### One step -/

lemma move?_cases {move : LaneMove ρ} (h : l.move? crashes = some move) :
    l.status = .serving ∧
      ((∃ job rest, l.inHand = none ∧ l.queue = job :: rest ∧ move = .take job) ∨
        (∃ job, l.inHand = some job ∧ l.owner = .serving ∧ crashes job = false ∧
          move = .start job) ∨
        (∃ job, l.inHand = some job ∧ l.owner = .serving ∧ crashes job = true ∧
          move = .crash job l.queue) ∨
        (l.owner ≠ .serving ∧ move = .leave l.queued)) := by
  unfold move? at h
  split at h
  · rename_i job serving hand
    refine ⟨serving, .inr ?_⟩
    split at h
    · rename_i flagged
      cases h
      exact .inr (.inr ⟨by simpa [flagRaised] using flagged, by simp [queued, hand]⟩)
    · rename_i unflagged
      have owner : l.owner = .serving := by simpa [flagRaised] using unflagged
      split at h
      · rename_i crash
        cases h
        exact .inr (.inl ⟨job, hand, owner, crash, rfl⟩)
      · rename_i calm
        cases h
        exact .inl ⟨job, hand, owner, by simpa using calm, rfl⟩
  · rename_i job rest serving hand queue
    cases h
    exact ⟨serving, .inl ⟨job, rest, hand, queue, rfl⟩⟩
  · rename_i serving hand queue
    split at h
    · rename_i closed
      cases h
      refine ⟨serving, .inr (.inr (.inr ⟨fun owner => ?_, by simp [queued, hand, queue]⟩))⟩
      simp [queueClosed, owner] at closed
    · cases h
  · cases h

lemma stopStep?_cases {l' : Lane ρ} (h : l.stopStep? = some l') :
    ∃ owner, l' = { l with owner } ∧ owner ≠ .serving ∧
      (owner = .joined → l.status ≠ .serving) := by
  unfold stopStep? at h
  split at h
  · cases h
    exact ⟨_, rfl, nofun, nofun⟩
  · cases h
    exact ⟨_, rfl, nofun, nofun⟩
  · split at h
    · cases h
    · rename_i ended
      cases h
      exact ⟨_, rfl, nofun, fun _ => ended⟩
  · cases h

/-! ### Where the jobs are -/

/-- What holds of a lane that has accepted these jobs and that no job has brought down. -/
structure Accounts (l : Lane ρ) (jobs : List ρ) : Prop where
  jobs_eq : jobs = l.started ++ l.queued ++ l.dropped
  serving : l.status = .serving → l.dropped = []
  ended : l.status ≠ .serving → l.queued = [] ∧ l.owner ≠ .serving
  joined : l.owner = .joined → l.status ≠ .serving

lemma accounts_fresh : Accounts (fresh : Lane ρ) [] := ⟨rfl, fun _ => rfl, nofun, nofun⟩

variable {jobs : List ρ}

lemma Accounts.submit (h : l.Accounts jobs) (job : ρ) :
    (l.submit job).2.Accounts (jobs ++ l.admitted (.submit job)) := by
  unfold Lane.submit admitted
  by_cases takes : l.accepts
  · simp only [takes, if_true]
    have ⟨owner, serving⟩ : l.owner = .serving ∧ l.status = .serving := by
      simpa [accepts] using takes
    refine ⟨?_, h.serving, fun ended => absurd serving ended, h.joined⟩
    simp [h.jobs_eq, queued, h.serving serving]
  · simp only [takes, Bool.false_eq_true, if_false, List.append_nil]
    exact ⟨h.jobs_eq, h.serving, h.ended, h.joined⟩

lemma Accounts.after (h : l.Accounts jobs) {move : LaneMove ρ} (hm : l.move? crashes = some move)
    (calm : ∀ job ∈ jobs, crashes job = false) : (l.after move).Accounts jobs := by
  obtain ⟨serving, ⟨job, rest, hand, queue, rfl⟩ | ⟨job, hand, -, -, rfl⟩ |
    ⟨job, hand, -, crash, rfl⟩ | ⟨owner, rfl⟩⟩ := move?_cases hm
  · refine ⟨?_, h.serving, fun ended => absurd serving ended, h.joined⟩
    simp [h.jobs_eq, Lane.after, queued, hand, queue]
  · refine ⟨?_, h.serving, fun ended => absurd serving ended, h.joined⟩
    simp [h.jobs_eq, Lane.after, queued, hand]
  · have mem : job ∈ jobs := by simp [h.jobs_eq, queued, hand]
    rw [calm job mem] at crash
    cases crash
  · refine ⟨?_, nofun, fun _ => ⟨rfl, owner⟩, fun _ => nofun⟩
    simp [h.jobs_eq, Lane.after, h.serving serving, queued]

lemma Accounts.stop {l' : Lane ρ} (h : l.Accounts jobs) (hs : l.stopStep? = some l') :
    l'.Accounts jobs := by
  obtain ⟨owner, rfl, stopping, joined⟩ := stopStep?_cases hs
  exact ⟨h.jobs_eq, h.serving, fun ended => ⟨(h.ended ended).1, stopping⟩, joined⟩

lemma Accounts.step (h : l.Accounts jobs) (calm : ∀ job ∈ jobs, crashes job = false)
    (e : Event ρ) : (l.step crashes e).Accounts (jobs ++ l.admitted e) := by
  cases e with
  | submit job => exact h.submit job
  | stop =>
    have none : l.admitted .stop = [] := rfl
    rw [none, List.append_nil, Lane.step]
    cases next : l.stopStep? with
    | none => exact h
    | some l' => exact h.stop next
  | thread =>
    have none : l.admitted .thread = [] := rfl
    rw [none, List.append_nil, Lane.step, threadStep?]
    cases next : l.move? crashes with
    | none => exact h
    | some move => exact h.after next calm

/-- **The accepted jobs** are the started ones, the queued ones and those let go, in this order. -/
lemma Accounts.run (h : l.Accounts jobs) (events : List (Event ρ))
    (calm : ∀ job ∈ jobs ++ l.accepted crashes events, crashes job = false) :
    (l.run crashes events).Accounts (jobs ++ l.accepted crashes events) := by
  induction events generalizing l jobs with
  | nil => simpa [accepted] using h
  | cons e es ih =>
    rw [accepted, ← List.append_assoc] at calm ⊢
    refine ih (h.step (fun job mem => calm job ?_) e) calm
    exact List.mem_append_left _ (List.mem_append_left _ mem)

lemma accounts_run (events : List (Event ρ))
    (calm : ∀ job ∈ submitted events, crashes job = false) :
    (fresh.run crashes events).Accounts (fresh.accepted crashes events) := by
  have := accounts_fresh.run events fun job mem =>
    calm job ((accepted_sublist crashes fresh events).subset mem)
  simpa using this

/-! ### After the stopping -/

lemma threadStep_of_ended (ended : l.status ≠ .serving) : l.step crashes .thread = l := by
  cases hm : l.move? crashes with
  | none => simp [step, threadStep?, hm]
  | some move => exact absurd (move?_cases hm).1 ended

lemma run_of_joined (joined : l.owner = .joined) (ended : l.status ≠ .serving)
    (later : List (Event ρ)) :
    l.run crashes later = { l with rejected := l.rejected ++ submitted later } := by
  induction later generalizing l with
  | nil => simp [submitted]
  | cons e es ih =>
    rw [run_cons]
    cases e with
    | submit job =>
      have turned : l.step crashes (.submit job) = { l with rejected := l.rejected ++ [job] } := by
        simp [step, submit, accepts, joined]
      rw [turned]
      simpa [submitted] using ih (l := { l with rejected := l.rejected ++ [job] }) joined ended
    | stop =>
      have stays : l.step crashes .stop = l := by simp [step, stopStep?, joined]
      rw [stays, ih joined ended]
      simp [submitted]
    | thread =>
      rw [threadStep_of_ended ended, ih joined ended]
      simp [submitted]

/-! ### Stopping comes to its end -/

lemma run_threads_owner (crashes : ρ → Bool) (l : Lane ρ) (n : Nat) :
    (l.run crashes (List.replicate n .thread)).owner = l.owner := by
  induction n generalizing l with
  | zero => rfl
  | succ n ih =>
    rw [List.replicate_succ, run_cons, ih]
    cases hm : l.move? crashes with
    | none => simp [step, threadStep?, hm]
    | some move => cases move <;> simp [step, threadStep?, hm, after]

lemma run_threads_of_ended (ended : l.status ≠ .serving) (n : Nat) :
    l.run crashes (List.replicate n .thread) = l := by
  induction n with
  | zero => rfl
  | succ n ih => rw [List.replicate_succ, run_cons, threadStep_of_ended ended, ih]

lemma two_threads_end (closed : l.owner = .closed) :
    ((l.step crashes .thread).step crashes .thread).status ≠ .serving := by
  obtain ⟨owner, status, queue, hand, started, crashed, dropped, rejected⟩ := l
  subst closed
  cases status with
  | finished => simp [step, threadStep?, move?]
  | died => simp [step, threadStep?, move?]
  | serving =>
    cases hand with
    | some job => simp [step, threadStep?, move?, flagRaised, after]
    | none => cases queue <;> simp [step, threadStep?, move?, flagRaised, queueClosed, after]

lemma settle_ends (closed : l.owner = .closed) : (l.settle crashes).status ≠ .serving := by
  have two : 2 * (l.queued.length + 1) = 2 * l.queued.length + 2 := by omega
  have ends : ((l.step crashes .thread).step crashes .thread).status ≠ .serving :=
    two_threads_end closed
  rw [settle, two, List.replicate_succ, List.replicate_succ, run_cons, run_cons,
    run_threads_of_ended ends]
  exact ends

lemma stop_joins (closing : l.owner = .closed ∨ l.owner = .joined)
    (ended : l.owner = .closed → l.status ≠ .serving) :
    (l.run crashes [.stop]).isStopped = true := by
  rcases closing with closed | joined
  · simp [step, stopStep?, closed, ended closed, isStopped]
  · simp [step, stopStep?, joined, isStopped]

/-- **Stopping a lane comes to its end**, whatever the lane is doing. -/
theorem shutdown_isStopped (crashes : ρ → Bool) (l : Lane ρ) :
    (l.shutdown crashes).isStopped = true := by
  have closing : (l.run crashes [.stop, .stop]).owner = .closed ∨
      (l.run crashes [.stop, .stop]).owner = .joined := by
    by_cases serving : l.status = .serving <;>
      cases owner : l.owner <;> simp [step, stopStep?, owner, serving]
  have waited : ((l.run crashes [.stop, .stop]).settle crashes).owner =
      (l.run crashes [.stop, .stop]).owner := run_threads_owner ..
  refine stop_joins (by rwa [waited]) fun closed => settle_ends ?_
  rw [← waited, closed]

lemma shutdown_eq_run (crashes : ρ → Bool) (l : Lane ρ) :
    ∃ n, l.shutdown crashes =
      l.run crashes ([.stop, .stop] ++ List.replicate n .thread ++ [.stop]) :=
  ⟨_, by rw [run_append, run_append]; rfl⟩

lemma shutdown_of_joined (joined : l.owner = .joined) (ended : l.status ≠ .serving) :
    l.shutdown crashes = l := by
  obtain ⟨n, h⟩ := shutdown_eq_run crashes l
  have none :
      submitted ([.stop, .stop] ++ List.replicate n .thread ++ [.stop]) = ([] : List ρ) := by
    simp [submitted, List.filterMap_append]
  rw [h, run_of_joined joined ended, none, List.append_nil]

/-! ### Jobs in their places -/

/-- Where the jobs are that were accepted, in the order of submission: each is in one of three
places, and the started ones are the first. -/
structure Orderly (jobs started queued dropped : List ρ) : Prop where
  started_first : started <+: jobs
  started_once : started.Nodup
  somewhere : ∀ job, job ∈ jobs ↔ job ∈ started ∨ job ∈ queued ∨ job ∈ dropped
  not_queued : started.Disjoint queued
  not_dropped : started.Disjoint dropped
  not_both : queued.Disjoint dropped

lemma orderly_of_eq {started queued dropped : List ρ} (h : jobs = started ++ queued ++ dropped)
    (distinct : jobs.Nodup) : Orderly jobs started queued dropped := by
  subst h
  obtain ⟨first, -, apart⟩ := List.nodup_append'.mp distinct
  obtain ⟨once, -, started_queued⟩ := List.nodup_append'.mp first
  rw [List.disjoint_append_left] at apart
  exact ⟨⟨queued ++ dropped, by simp⟩, once, by simp, started_queued, apart.1, apart.2⟩

end Lane

/-! ### Looking at the flag and starting a job, apart -/

/-- A lane whose thread looks at the flag and starts the job in two steps. -/
structure DetailedLane (ρ : Type) where
  lane : Lane ρ
  /-- The job for which the thread has found the flag down, and which it starts next. -/
  cleared : Option ρ

namespace DetailedLane

open Lane

variable {ρ : Type} {d : DetailedLane ρ}

def fresh : DetailedLane ρ := ⟨.fresh, none⟩

/-- No job brings the thread down. -/
def calm (_ : ρ) : Bool := false

def threadStep (d : DetailedLane ρ) : DetailedLane ρ :=
  match d.cleared, d.lane.move? calm with
  | some job, _ => ⟨{ d.lane with started := d.lane.started ++ [job] }, none⟩
  | none, some (.start job) => ⟨{ d.lane with inHand := none }, some job⟩
  | none, _ => ⟨d.lane.step calm .thread, none⟩

def step (d : DetailedLane ρ) : Event ρ → DetailedLane ρ
  | .submit job => { d with lane := d.lane.step calm (.submit job) }
  | .stop => { d with lane := d.lane.step calm .stop }
  | .thread => d.threadStep

def run (d : DetailedLane ρ) (events : List (Event ρ)) : DetailedLane ρ := events.foldl step d

def queued (d : DetailedLane ρ) : List ρ := d.cleared.toList ++ d.lane.queued

def accepted : DetailedLane ρ → List (Event ρ) → List ρ
  | _, [] => []
  | d, e :: es => d.lane.admitted e ++ (d.step e).accepted es

@[simp] lemma run_nil (d : DetailedLane ρ) : d.run [] = d := rfl

@[simp] lemma run_cons (d : DetailedLane ρ) (e : Event ρ) (es : List (Event ρ)) :
    d.run (e :: es) = (d.step e).run es := rfl

/-- The lane in which a job counts as started once the flag has been found down for it. -/
def view (d : DetailedLane ρ) : Lane ρ :=
  { d.lane with started := d.lane.started ++ d.cleared.toList }

lemma view_of_none (h : d.cleared = none) : d.view = d.lane := by simp [view, h]

lemma view_submit (d : DetailedLane ρ) (job : ρ) :
    (d.step (.submit job)).view = d.view.step calm (.submit job) := by
  have same : d.view.accepts = d.lane.accepts := rfl
  simp only [step, Lane.step, submit, same]
  cases d.lane.accepts <;> rfl

lemma view_stop (d : DetailedLane ρ) : (d.step .stop).view = d.view.step calm .stop := by
  have owner : d.view.owner = d.lane.owner := rfl
  have status : d.view.status = d.lane.status := rfl
  simp only [step, Lane.step, stopStep?, owner, status]
  split
  · rfl
  · rfl
  · split <;> rfl
  · rfl

lemma view_threadStep (d : DetailedLane ρ) :
    d.threadStep.view = d.view ∨ d.threadStep.view = d.view.step calm .thread := by
  unfold threadStep
  split
  · rename_i job cleared
    exact .inl (by simp [view, cleared])
  · rename_i job cleared look
    refine .inr ?_
    rw [view_of_none cleared]
    simp [view, Lane.step, threadStep?, look, after]
  · rename_i cleared _
    refine .inr ?_
    rw [view_of_none cleared]
    exact view_of_none rfl

/-- **A lane in detail is a lane**: its view goes through a course of events of the same jobs. -/
lemma exists_run_view (d : DetailedLane ρ) (events : List (Event ρ)) :
    ∃ es, submitted es = submitted events ∧ (d.run events).view = d.view.run calm es ∧
      d.accepted events = d.view.accepted calm es := by
  induction events generalizing d with
  | nil => exact ⟨[], rfl, rfl, rfl⟩
  | cons e events ih =>
    obtain ⟨es, same, run, taken⟩ := ih (d.step e)
    rw [run_cons, accepted, run, taken]
    cases e with
    | submit job =>
      refine ⟨.submit job :: es, ?_, ?_, ?_⟩
      · simpa [submitted] using same
      · rw [view_submit, Lane.run_cons]
      · rw [view_submit, Lane.accepted]
        rfl
    | stop =>
      refine ⟨.stop :: es, ?_, ?_, ?_⟩
      · simpa [submitted] using same
      · rw [view_stop, Lane.run_cons]
      · rw [view_stop, Lane.accepted]
        rfl
    | thread =>
      have step : d.step .thread = d.threadStep := rfl
      rw [step]
      rcases view_threadStep d with still | moved
      · refine ⟨es, ?_, by rw [still], by rw [still]; rfl⟩
        simpa [submitted] using same
      · refine ⟨.thread :: es, ?_, ?_, ?_⟩
        · simpa [submitted] using same
        · rw [moved, Lane.run_cons]
        · rw [moved, Lane.accepted]
          rfl

lemma view_accounts (events : List (Event ρ)) :
    (fresh.run events).view.Accounts (fresh.accepted events) := by
  obtain ⟨es, -, run, taken⟩ := exists_run_view (fresh : DetailedLane ρ) events
  rw [run, taken]
  exact accounts_run es fun _ _ => rfl

lemma accepted_sublist (events : List (Event ρ)) :
    (fresh.accepted events).Sublist (submitted events) := by
  obtain ⟨es, same, -, taken⟩ := exists_run_view (fresh : DetailedLane ρ) events
  rw [taken, ← same]
  exact Lane.accepted_sublist ..

/-- A job is cleared only while the thread serves. -/
def ClearedServing (d : DetailedLane ρ) : Prop := d.cleared.isSome → d.lane.status = .serving

lemma ClearedServing.step (h : d.ClearedServing) (e : Event ρ) : (d.step e).ClearedServing := by
  intro some_cleared
  cases e with
  | submit job =>
    have kept : (d.lane.step calm (.submit job)).status = d.lane.status := by
      simp only [Lane.step, submit]
      split <;> rfl
    exact kept.trans (h some_cleared)
  | stop =>
    have kept : (d.lane.step calm .stop).status = d.lane.status := by
      rw [Lane.step]
      cases next : d.lane.stopStep? with
      | none => rfl
      | some l' =>
        obtain ⟨_, rfl, -, -⟩ := stopStep?_cases next
        rfl
    exact kept.trans (h some_cleared)
  | thread =>
    simp only [DetailedLane.step, threadStep] at some_cleared ⊢
    split at some_cleared
    · cases some_cleared
    · rename_i look
      exact (move?_cases look).1
    · cases some_cleared

lemma clearedServing_run (events : List (Event ρ)) (h : d.ClearedServing) :
    (d.run events).ClearedServing := by
  induction events generalizing d with
  | nil => exact h
  | cons e es ih => exact ih (h.step e)

lemma cleared_of_joined {jobs : List ρ} (h : d.ClearedServing) (accounts : d.view.Accounts jobs)
    (joined : d.view.owner = .joined) : d.cleared = none := by
  cases cleared : d.cleared with
  | none => rfl
  | some job => exact absurd (h (by simp [cleared])) (accounts.joined joined)

lemma run_of_joined {jobs : List ρ} (h : d.ClearedServing) (accounts : d.view.Accounts jobs)
    (joined : d.lane.owner = .joined) (later : List (Event ρ)) :
    d.run later = ⟨{ d.lane with rejected := d.lane.rejected ++ submitted later }, none⟩ := by
  obtain ⟨es, same, run, -⟩ := exists_run_view d later
  rw [Lane.run_of_joined (l := d.view) joined (accounts.joined joined), same,
    view_of_none (cleared_of_joined h accounts joined)] at run
  have later_accounts : (d.run later).view.Accounts jobs := by
    rw [run, ← view_of_none (cleared_of_joined h accounts joined)]
    exact ⟨accounts.jobs_eq, accounts.serving, accounts.ended, accounts.joined⟩
  have later_joined : (d.run later).view.owner = .joined := by
    rw [run]
    exact joined
  have cleared := cleared_of_joined (clearedServing_run later h) later_accounts later_joined
  rw [← run, view_of_none cleared, ← cleared]

end DetailedLane

/-! ### The main result -/

/-- The stopping of the lane is over: nothing is queued, and whatever happens later, and also if the
lane is stopped once more, nothing changes but that jobs are turned away. A dispatcher with the lane
says so of each job, by the name of the job's feature. -/
structure Lane.Over (crashes : Nat → Bool) (l : Lane Nat) : Prop where
  nothing_queued : l.queued = []
  turns_away : ∀ later, l.run crashes later =
    { l with rejected := l.rejected ++ Lane.submitted later }
  stopped_again : l.shutdown crashes = l
  refuses : ∀ later jobs job, JobBoard.submit ⟨some (l.run crashes later), jobs⟩ job =
    (.error (.dispatcherStopped job.feature),
      ⟨some { l with rejected := l.rejected ++ Lane.submitted later ++ [jobs.length] }, jobs⟩)

lemma Lane.over_of_joined {crashes : Nat → Bool} {l : Lane Nat} {jobs : List Nat}
    (h : l.Accounts jobs) (joined : l.owner = .joined) : l.Over crashes where
  nothing_queued := (h.ended (h.joined joined)).1
  turns_away := run_of_joined joined (h.joined joined)
  stopped_again := shutdown_of_joined joined (h.joined joined)
  refuses later jobs job := by
    rw [run_of_joined joined (h.joined joined)]
    simp [JobBoard.submit, submit, accepts, joined]

/-- **Every job in its place.** Whatever the order in which jobs are submitted, the lane is stopped
and its thread steps, and no job brings the thread down: the accepted jobs, in their order, are the
started ones first, and each is started, queued or let go, and only one of these. Stopping ends, and
then the lane is over. All this holds as well where the flag may go up between the thread's look at
it and the start of the job. -/
theorem Lane.jobs_accounted (crashes : Nat → Bool) (events : List (Lane.Event Nat))
    (calm : ∀ job ∈ Lane.submitted events, crashes job = false)
    (distinct : (Lane.submitted events).Nodup) :
    let l := Lane.fresh.run crashes events
    let d := DetailedLane.fresh.run events
    ((Lane.fresh.accepted crashes events).Sublist (Lane.submitted events) ∧
        Lane.Orderly (Lane.fresh.accepted crashes events) l.started l.queued l.dropped ∧
        (l.isStopped = true → l.Over crashes) ∧ (l.shutdown crashes).isStopped = true) ∧
      ((DetailedLane.fresh.accepted events).Sublist (Lane.submitted events) ∧
        Lane.Orderly (DetailedLane.fresh.accepted events) d.lane.started d.queued d.lane.dropped ∧
        (d.lane.isStopped = true → d.lane.Over crashes ∧ d.queued = [] ∧
          ∀ later, d.run later = ⟨d.lane.run crashes later, none⟩)) := by
  intro l d
  have accounts : l.Accounts (Lane.fresh.accepted crashes events) := accounts_run events calm
  have detailed : d.view.Accounts (DetailedLane.fresh.accepted events) :=
    DetailedLane.view_accounts events
  have serving : d.ClearedServing := DetailedLane.clearedServing_run events nofun
  have taken := accepted_sublist crashes fresh events
  have taken' := DetailedLane.accepted_sublist events
  refine ⟨⟨taken, orderly_of_eq accounts.jobs_eq (taken.nodup distinct), fun stopped => ?_,
    shutdown_isStopped crashes l⟩, taken', orderly_of_eq ?_ (taken'.nodup distinct),
    fun stopped => ?_⟩
  · exact over_of_joined accounts (by simpa [isStopped] using stopped)
  · rw [detailed.jobs_eq, DetailedLane.view, DetailedLane.queued]
    simp [Lane.queued]
  · have joined : d.lane.owner = .joined := by simpa [isStopped] using stopped
    have cleared := DetailedLane.cleared_of_joined serving detailed joined
    have ended : d.lane.Over crashes := by
      rw [← DetailedLane.view_of_none cleared]
      exact over_of_joined detailed joined
    refine ⟨ended, by rw [DetailedLane.queued, cleared]; exact ended.nothing_queued, fun later => ?_⟩
    rw [DetailedLane.run_of_joined serving detailed joined, ended.turns_away]

/-- Three jobs of which the first is started and the second is in the thread's hand when the flag
goes up; two more come too late. -/
def Lane.race : List (Lane.Event Nat) :=
  [.submit 0, .submit 1, .submit 2, .thread, .thread, .thread, .stop, .submit 3, .stop, .thread,
    .stop, .submit 4]

theorem Lane.race_accounted :
    (∀ job ∈ Lane.submitted race, JobBoard.neverCrashes job = false) ∧
      (Lane.submitted race).Nodup ∧ Lane.Orderly [0, 1, 2] [0] [] [1, 2] ∧
      (Lane.fresh.run JobBoard.neverCrashes race).rejected = [3, 4] ∧
      (Lane.fresh.run JobBoard.neverCrashes race).Over JobBoard.neverCrashes :=
  have calm : ∀ job ∈ Lane.submitted race, JobBoard.neverCrashes job = false := fun _ _ => rfl
  have distinct : (Lane.submitted race).Nodup := by decide
  have accounted := Lane.jobs_accounted JobBoard.neverCrashes race calm distinct
  ⟨calm, distinct, accounted.1.2.1, rfl, accounted.1.2.2.1 rfl⟩

end FeatureBatch
