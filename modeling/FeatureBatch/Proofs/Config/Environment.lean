import FeatureBatch.Config.Environment
import FeatureBatch.Proofs.Config.Dictionary
import FeatureBatch.Proofs.Text.Utf8

/-!
Variables that are set for a while. A guard gives back what its variables held, whether they were set
or not and however often one of them is named, so that guards which are dropped in the reverse of the
order in which they were made act as a stack of environments.
-/

namespace FeatureBatch

namespace Environment

variable {env env' : Environment} {vars : List (String × String)}

/-- The variables that can belong to the suite hold texts. -/
def SuiteIsText (env : Environment) : Prop :=
  ∀ name bytes, env.get? (key (fullName name)) = some bytes → ∃ text, Text.utf8 text = bytes

/-- The system takes the name and the value of each variable. -/
def Accepts (vars : List (String × String)) : Prop :=
  ∀ v ∈ vars, fault? (fullName v.1) v.2 = none

instance (vars : List (String × String)) : Decidable (Accepts vars) :=
  inferInstanceAs (Decidable (∀ v ∈ vars, _ = _))

/-! ### Single variables -/

lemma key_inj {name name' : String} : key name = key name' ↔ name = name' := by
  rw [key, key, Text.utf8_inj, String.toList_inj]

lemma fullName_inj {name name' : String} : fullName name = fullName name' ↔ name = name' := by
  rw [fullName, fullName, ← String.toList_inj, String.toList_append, String.toList_append,
    List.append_cancel_left_eq, String.toList_inj]

lemma get?_insert (env : Environment) (name value : String) (k : List UInt8) :
    (env.insert name value).get? k = if k = key name then some (Text.utf8 value.toList) else env.get? k :=
  rfl

lemma get?_restore (env : Environment) (name : String) (value : Option String) (k : List UInt8) :
    (env.restore (name, value)).get? k =
      if k = key name then value.map fun v => Text.utf8 v.toList else env.get? k := by
  cases value <;> rfl

lemma text?_eq_some {name value : String} :
    env.text? name = some value ↔ env.get? (key name) = some (Text.utf8 value.toList) := by
  unfold text?
  cases env.get? (key name) with
  | none => simp
  | some bytes =>
    rw [Option.bind_some, Option.map_eq_some_iff, Option.some_inj, eq_comm (a := bytes),
      ← Text.ofUtf8?_eq_some]
    constructor
    · rintro ⟨text, read, rfl⟩
      rwa [String.toList_ofList]
    · exact fun read => ⟨_, read, String.ofList_toList⟩

lemma text?_insert (env : Environment) (k v name : String) :
    (env.insert k v).text? name = if name = k then some v else env.text? name := by
  split
  · rename_i same
    rw [text?_eq_some, get?_insert, if_pos (same ▸ rfl)]
  · rename_i differ
    rw [text?, get?_insert, if_neg (key_inj.not.mpr differ), text?]

lemma SuiteIsText.map_text? (h : env.SuiteIsText) (name : String) :
    (env.text? (fullName name)).map (fun v => Text.utf8 v.toList) = env.get? (key (fullName name)) := by
  cases there : env.get? (key (fullName name)) with
  | none => rw [text?, there, Option.bind_none, Option.map_none, Option.map_none]
  | some bytes =>
    obtain ⟨text, rfl⟩ := h name bytes there
    have read : env.text? (fullName name) = some (String.ofList text) := by
      rw [text?_eq_some, there, String.toList_ofList]
    rw [read, Option.map_some, String.toList_ofList]

/-! ### Setting variables -/

/-- The environment with variables of the suite set one after the other. -/
def withSuite (env : Environment) (vars : List (String × String)) : Environment :=
  (vars.map fun v => (fullName v.1, v.2)).foldl (fun env v => env.insert v.1 v.2) env

/-- What the variables that are to be set hold. -/
def guardOf (env : Environment) (vars : List (String × String)) : Guard :=
  ⟨vars.map fun v => (fullName v.1, env.text? (fullName v.1))⟩

lemma setAll_of_accepts (h : ∀ v ∈ vars, fault? v.1 v.2 = none) :
    setAll env vars = (none, vars.foldl (fun env v => env.insert v.1 v.2) env) := by
  induction vars generalizing env with
  | nil => rfl
  | cons v vars ih =>
    rw [setAll, h v List.mem_cons_self]
    exact ih fun w mem => h w (List.mem_cons_of_mem v mem)

lemma apply_of_accepts (env : Environment) (h : Accepts vars) :
    env.apply vars = (.ok (env.guardOf vars), env.withSuite vars) := by
  have taken : ∀ v ∈ vars.map (fun v => (fullName v.1, v.2)), fault? v.1 v.2 = none :=
    List.forall_mem_map.mpr h
  have guard : (vars.map fun v => (fullName v.1, v.2)).map (fun v => (v.1, env.text? v.1)) =
      vars.map fun v => (fullName v.1, env.text? (fullName v.1)) := List.map_map
  rw [apply, setAll_of_accepts taken]
  simp only [guard]
  rfl

lemma text?_withSuite (env : Environment) (vars : List (String × String)) (name : String) :
    (env.withSuite vars).text? (fullName name) =
      (lastValue? vars name).or (env.text? (fullName name)) := by
  have last : lastValue? (vars.map fun v => (fullName v.1, v.2)) (fullName name) =
      lastValue? vars name := by
    simp only [lastValue?, List.filter_map, Function.comp_def, fullName_inj, List.getLast?_map,
      Option.map_map]
  rw [withSuite, find_foldl_add text?_insert, last]

lemma get?_withSuite {k : List UInt8} (other : ∀ v ∈ vars, k ≠ key (fullName v.1)) :
    (env.withSuite vars).get? k = env.get? k := by
  unfold withSuite
  induction vars generalizing env with
  | nil => rfl
  | cons v vars ih =>
    rw [List.map_cons, List.foldl_cons, ih fun w mem => other w (List.mem_cons_of_mem v mem),
      get?_insert, if_neg (other v List.mem_cons_self)]

lemma SuiteIsText.withSuite (h : env.SuiteIsText) (vars : List (String × String)) :
    (env.withSuite vars).SuiteIsText := by
  intro name bytes there
  cases given : lastValue? vars name with
  | none =>
    have unnamed := lastValue?_eq_none.mp given
    refine h name bytes ?_
    rw [← there]
    refine (get?_withSuite fun v mem same => unnamed ?_).symm
    rw [fullName_inj.mp (key_inj.mp same)]
    exact List.mem_map_of_mem mem
  | some value =>
    have holds : (env.withSuite vars).text? (fullName name) = some value := by
      rw [text?_withSuite, given, Option.some_or]
    rw [text?_eq_some.mp holds, Option.some_inj] at there
    exact ⟨value.toList, there⟩

/-! ### Giving back -/

lemma get?_giveBack_of_not_mem {names : List String} (held : String → Option String)
    {k : List UInt8} (other : ∀ name ∈ names, k ≠ key name) :
    ((names.map fun name => (name, held name)).foldl restore env).get? k = env.get? k := by
  induction names generalizing env with
  | nil => rfl
  | cons name names ih =>
    rw [List.map_cons, List.foldl_cons, ih fun n mem => other n (List.mem_cons_of_mem name mem),
      get?_restore, if_neg (other name List.mem_cons_self)]

lemma get?_giveBack_of_mem {names : List String} (held : String → Option String) {name : String}
    (mem : name ∈ names) :
    ((names.map fun name => (name, held name)).foldl restore env).get? (key name) =
      (held name).map fun v => Text.utf8 v.toList := by
  induction names generalizing env with
  | nil => cases mem
  | cons first names ih =>
    rw [List.map_cons, List.foldl_cons]
    by_cases later : name ∈ names
    · exact ih later
    · obtain rfl := (List.mem_cons.mp mem).resolve_right later
      have other : ∀ n ∈ names, key name ≠ key n := fun n there same =>
        later (key_inj.mp same ▸ there)
      rw [get?_giveBack_of_not_mem held other, get?_restore, if_pos rfl]

/-- **A guard undoes what was set**: dropped where the variables are as they were set, it leads back
to the environment in which it was made. -/
lemma SuiteIsText.drop_withSuite (h : env.SuiteIsText) (vars : List (String × String)) :
    (env.withSuite vars).drop (env.guardOf vars) = env := by
  have previous : (env.guardOf vars).previous =
      (vars.map fun v => fullName v.1).map fun name => (name, env.text? name) := by
    rw [List.map_map]
    rfl
  ext1
  funext k
  rw [drop, previous]
  by_cases named : ∃ v ∈ vars, k = key (fullName v.1)
  · obtain ⟨v, mem, rfl⟩ := named
    rw [get?_giveBack_of_mem env.text? (List.mem_map_of_mem mem), h.map_text?]
  · have other : ∀ v ∈ vars, k ≠ key (fullName v.1) := fun v mem same => named ⟨v, mem, same⟩
    rw [get?_giveBack_of_not_mem env.text? (List.forall_mem_map.mpr other), get?_withSuite other]

end Environment

/-! ### Nested scopes -/

/-- What is done with guards of which always the latest is dropped first. -/
inductive ScopeEvent where
  /-- Sets variables of the suite, and keeps the guard. -/
  | enter (vars : List (String × String))
  /-- Drops the latest guard. -/
  | leave
  deriving DecidableEq, Repr

namespace ScopeEvent

def Accepted : ScopeEvent → Prop
  | enter vars => Environment.Accepts vars
  | leave => True

instance : DecidablePred Accepted
  | enter vars => inferInstanceAs (Decidable (Environment.Accepts vars))
  | leave => .isTrue trivial

/-- The number of guards after an event; none if there is no guard to drop. -/
def depthAfter? : Nat → ScopeEvent → Option Nat
  | n, enter _ => some (n + 1)
  | n + 1, leave => some n
  | 0, leave => none

/-- The number of guards that events add to `n` others which they leave alone. -/
def depth? (events : List ScopeEvent) : Option Nat := events.foldlM depthAfter? 0

end ScopeEvent

/-- An environment with the guards that live, the latest first. -/
structure Scopes where
  env : Environment
  guards : List Environment.Guard

namespace Scopes

variable {s s' base : Scopes} {n n' : Nat}

/-- What an event leads to, unless a variable cannot be set or there is no guard to drop. -/
def after? (s : Scopes) : ScopeEvent → Option Scopes
  | .enter vars =>
    match s.env.apply vars with
    | (.ok guard, env) => some ⟨env, guard :: s.guards⟩
    | (.error _, _) => none
  | .leave =>
    match s.guards with
    | guard :: guards => some ⟨s.env.drop guard, guards⟩
    | [] => none

def run? (s : Scopes) (events : List ScopeEvent) : Option Scopes := events.foldlM after? s

/-- The state has `n` guards more than `base`, and dropping them leads back there one by one. -/
inductive Above (base : Scopes) : Nat → Scopes → Prop
  | here (text : base.env.SuiteIsText) : Above base 0 base
  | scope {n : Nat} {s s' : Scopes} (below : Above base n s) (text : s'.env.SuiteIsText)
      (undone : s'.after? .leave = some s) : Above base (n + 1) s'

lemma Above.text (h : Above base n s) : s.env.SuiteIsText := by
  cases h with
  | here text => exact text
  | scope _ text _ => exact text

lemma exists_enter (text : s.env.SuiteIsText) {vars : List (String × String)}
    (accepted : Environment.Accepts vars) : ∃ s', s.after? (.enter vars) = some s' ∧
      s'.env = s.env.withSuite vars ∧ s'.after? .leave = some s := by
  refine ⟨⟨s.env.withSuite vars, s.env.guardOf vars :: s.guards⟩, ?_, rfl, ?_⟩
  · rw [after?, Environment.apply_of_accepts s.env accepted]
  · exact congrArg (fun env => some (Scopes.mk env s.guards)) (text.drop_withSuite vars)

lemma Above.step (h : Above base n s) {e : ScopeEvent} (accepted : e.Accepted)
    (depth : ScopeEvent.depthAfter? n e = some n') :
    ∃ s', s.after? e = some s' ∧ Above base n' s' := by
  cases e with
  | enter vars =>
    obtain ⟨s', entered, env, undone⟩ := exists_enter h.text accepted
    obtain rfl := Option.some.inj depth
    exact ⟨s', entered, .scope h (env ▸ h.text.withSuite vars) undone⟩
  | leave =>
    cases h with
    | here => cases depth
    | scope below _ undone =>
      obtain rfl := Option.some.inj depth
      exact ⟨_, undone, below⟩

lemma Above.run (h : Above base n s) {events : List ScopeEvent}
    (accepted : ∀ e ∈ events, e.Accepted)
    (depth : events.foldlM ScopeEvent.depthAfter? n = some n') :
    ∃ s', s.run? events = some s' ∧ Above base n' s' := by
  induction events generalizing s n with
  | nil =>
    obtain rfl := Option.some.inj depth
    exact ⟨s, rfl, h⟩
  | cons e events ih =>
    rw [List.foldlM_cons] at depth
    obtain ⟨m, first, rest⟩ := Option.bind_eq_some_iff.mp depth
    obtain ⟨s₁, step, above⟩ := h.step (accepted e List.mem_cons_self) first
    obtain ⟨s', run, there⟩ := ih above (fun f mem => accepted f (List.mem_cons_of_mem e mem)) rest
    exact ⟨s', by rw [run?, List.foldlM_cons, step]; exact run, there⟩

lemma run?_closed (text : s.env.SuiteIsText) {events : List ScopeEvent}
    (accepted : ∀ e ∈ events, e.Accepted) (closed : ScopeEvent.depth? events = some 0) :
    s.run? events = some s := by
  obtain ⟨s', run, above⟩ := (Above.here text).run accepted closed
  cases above
  exact run

lemma run?_append (s : Scopes) (events more : List ScopeEvent) :
    s.run? (events ++ more) = (s.run? events).bind (run? · more) := List.foldlM_append

lemma run?_cons (s : Scopes) (e : ScopeEvent) (events : List ScopeEvent) :
    s.run? (e :: events) = (s.after? e).bind (run? · events) := List.foldlM_cons

/-- **Guards in nested scopes** act as a stack of environments. Take an environment in which the
variables of the suite are texts, and any scopes that have been entered and left in it. In one more
scope, and in it after any scopes that have been left again, each of its variables holds the last
value given for it, and all other variables are as they were when it was entered. Once the scope is
left everything is as it was then. -/
theorem held_inside_restored_after {env : Environment} (text : env.SuiteIsText)
    {before inner : List ScopeEvent} {vars : List (String × String)}
    (accepted : ∀ e ∈ before ++ .enter vars :: inner, e.Accepted)
    (nested : (ScopeEvent.depth? before).isSome) (closed : ScopeEvent.depth? inner = some 0) :
    ∃ outside inside : Scopes,
      run? ⟨env, []⟩ before = some outside ∧
      run? ⟨env, []⟩ (before ++ .enter vars :: inner) = some inside ∧
      (∀ name ∈ vars.map Prod.fst, ∃ value, lastValue? vars name = some value ∧
        inside.env.text? (Environment.fullName name) = some value) ∧
      (∀ k, (∀ name ∈ vars.map Prod.fst, k ≠ Environment.key (Environment.fullName name)) →
        inside.env.get? k = outside.env.get? k) ∧
      run? ⟨env, []⟩ (before ++ .enter vars :: inner ++ [.leave]) = some outside := by
  obtain ⟨n, depth⟩ := Option.isSome_iff_exists.mp nested
  obtain ⟨now, ⟨enters, later⟩⟩ : (∀ e ∈ before, e.Accepted) ∧
      ScopeEvent.Accepted (.enter vars) ∧ ∀ e ∈ inner, e.Accepted := by
    simpa [or_imp, forall_and] using accepted
  have start : Above ⟨env, []⟩ 0 ⟨env, []⟩ := .here text
  obtain ⟨outside, run, above⟩ := start.run now depth
  obtain ⟨inside, entered, here, undone⟩ := exists_enter above.text enters
  have stays : inside.run? inner = some inside :=
    run?_closed (here ▸ above.text.withSuite vars) later closed
  have whole : run? ⟨env, []⟩ (before ++ .enter vars :: inner) = some inside := by
    rw [run?_append, run, Option.bind_some, run?_cons, entered, Option.bind_some, stays]
  refine ⟨outside, inside, run, whole, fun name mem => ?_, fun k other => ?_, ?_⟩
  · obtain ⟨value, last⟩ := Option.ne_none_iff_exists'.mp (lastValue?_eq_none.not_left.mpr mem)
    exact ⟨value, last, by rw [here, Environment.text?_withSuite, last, Option.some_or]⟩
  · rw [here, Environment.get?_withSuite fun v mem => other v.1 (List.mem_map_of_mem mem)]
  · rw [run?_append, whole, Option.bind_some, run?_cons, undone]
    rfl

/-- A variable that is named twice, one that was not set, scopes before and inside, and a variable of
others that is no text. -/
theorem nestedScopes_restored :
    let env : Environment := ⟨fun k =>
      if k = Environment.key "PATH" then some [0x2F, 0xFF]
      else if k = Environment.key "FEATURE_SUITE_ENV" then some (Text.utf8 "qa".toList) else none⟩
    let before : List ScopeEvent := [.enter [("TAGS", "@y")], .enter [("TAGS", "")], .leave]
    let vars := [("ENV", "a"), ("TAGS", "@x"), ("ENV", "b")]
    let inner : List ScopeEvent := [.enter [("ENV", "c"), ("THREADS", "2")], .leave]
    env.SuiteIsText ∧ ∃ outside inside : Scopes,
      run? ⟨env, []⟩ before = some outside ∧
      run? ⟨env, []⟩ (before ++ .enter vars :: inner) = some inside ∧
      inside.env.text? "FEATURE_SUITE_ENV" = some "b" ∧
      inside.env.text? "FEATURE_SUITE_TAGS" = some "@x" ∧
      inside.env.get? (Environment.key "PATH") = outside.env.get? (Environment.key "PATH") ∧
      run? ⟨env, []⟩ (before ++ .enter vars :: inner ++ [.leave]) = some outside := by
  intro env before vars inner
  have other (name : String) : Environment.key (Environment.fullName name) ≠ Environment.key "PATH" :=
    fun same => by
      have first := congrArg (·.toList.head?) (Environment.key_inj.mp same)
      simp [Environment.fullName] at first
  have text : env.SuiteIsText := by
    intro name bytes there
    simp only [env, other, if_false] at there
    split_ifs at there
    exact ⟨_, Option.some.inj there⟩
  refine ⟨text, ?_⟩
  have accepted : ∀ e ∈ before ++ .enter vars :: inner, e.Accepted := by decide +kernel
  have nested : (ScopeEvent.depth? before).isSome := by decide
  have closed : ScopeEvent.depth? inner = some 0 := by decide
  obtain ⟨outside, inside, start, entered, held, others, left⟩ :=
    held_inside_restored_after text accepted nested closed
  obtain ⟨value, last, env_held⟩ := held "ENV" (by decide)
  obtain ⟨value', last', tags_held⟩ := held "TAGS" (by decide)
  obtain rfl : "b" = value := Option.some.inj last
  obtain rfl : "@x" = value' := Option.some.inj last'
  exact ⟨outside, inside, start, entered, env_held, tags_held,
    others _ fun name _ => (other name).symm, left⟩

end Scopes

end FeatureBatch
