import Mathlib.Data.List.Dedup
import Mathlib.Logic.Function.Basic
import Mathlib.Tactic.Common
import FeatureBatch.Exec.CacheCallers

/-!
The cache as a map from keys to values. Every request is answered as the map answers it, so what can
be said of the answers is said of maps: a key that is there stays, and where nobody puts a value
under a key, the value that is computed first is the one that everybody gets.
-/

namespace FeatureBatch

variable {α : Type}

/-! ### A map that answers requests -/

/-- How a map answers a request, and the map afterwards. -/
inductive MapAnswers : (String → Option α) → CacheRequest α → CacheReply α → (String → Option α) → Prop
  | get (m : String → Option α) (key : String) : MapAnswers m (.get key) (.value (m key)) m
  | insert (m : String → Option α) (key : String) (value : α) :
      MapAnswers m (.insert key value) (.value (m key)) (Function.update m key (some value))
  | contains (m : String → Option α) (key : String) :
      MapAnswers m (.contains key) (.present (m key).isSome) m
  | found {m : String → Option α} {key : String} {value : α} (there : m key = some value)
      (init : Initializer α) : MapAnswers m (.getOrInsert key init) (.obtained value false) m
  | computed {m : String → Option α} {key : String} (absent : m key = none) (value : α) :
      MapAnswers m (.getOrInsert key (.ok value)) (.obtained value true)
        (Function.update m key (some value))
  | panicked {m : String → Option α} {key : String} (absent : m key = none)
      (payload : PanicPayload) :
      MapAnswers m (.getOrInsert key (.error payload)) (.panicked payload) m

/-- A map answers one request after the other. -/
inductive MapServes (m : String → Option α) : List (CacheServed α) → (String → Option α) → Prop
  | nil : MapServes m [] m
  | snoc {m' m'' : String → Option α} {served : List (CacheServed α)} {last : CacheServed α}
      (before : MapServes m served m') (next : MapAnswers m' last.request last.reply m'') :
      MapServes m (served ++ [last]) m''

namespace CacheServed

/-- The key under which a value was stored for the request. -/
def stored? (r : CacheServed α) : Option String :=
  match r.request, r.reply with
  | .insert key _, _ => some key
  | .getOrInsert key _, .obtained _ true => some key
  | _, _ => none

/-- The value was computed for this request to the key. -/
def computes (key : String) (r : CacheServed α) : Bool :=
  match r.request, r.reply with
  | .getOrInsert k _, .obtained _ true => k = key
  | _, _ => false

/-- The value that was got for the key by a request that would have computed it. -/
def obtained? (key : String) (r : CacheServed α) : Option α :=
  match r.request, r.reply with
  | .getOrInsert k _, .obtained value _ => if k = key then some value else none
  | _, _ => none

/-- The request put a value under the key. -/
def inserts (key : String) (r : CacheServed α) : Bool :=
  match r.request with
  | .insert k _ => k = key
  | _ => false

end CacheServed

variable {m m' : String → Option α} {served : List (CacheServed α)} {key : String}

lemma MapAnswers.keeps {request : CacheRequest α} {reply : CacheReply α}
    (h : MapAnswers m request reply m') (there : (m key).isSome) : (m' key).isSome := by
  have updated (k : String) (value : α) : (Function.update m k (some value) key).isSome := by
    by_cases same : key = k
    · simp [same]
    · simpa [same] using there
  cases h with
  | get | contains | found | panicked => exact there
  | insert | computed => exact updated _ _

/-- What has come of the requests to a key that nobody puts a value under. -/
structure ComputedOnce (key : String) (served : List (CacheServed α)) (m : String → Option α) :
    Prop where
  /-- While there is no value, none was computed. -/
  absent : m key = none → served.countP (CacheServed.computes key) = 0
  /-- The value is that of the only computing that returned. -/
  present : ∀ value, m key = some value → served.countP (CacheServed.computes key) = 1 ∧
    ∃ r ∈ served, r.request = .getOrInsert key (.ok value) ∧ r.reply = .obtained value true
  /-- Whoever got a value got that one. -/
  obtained : ∀ r ∈ served, ∀ value, r.obtained? key = some value → m key = some value

lemma ComputedOnce.snoc {r : CacheServed α} (once : ComputedOnce key served m)
    (same : m' key = m key) (idle : r.computes key = false)
    (got : ∀ value, r.obtained? key = some value → m key = some value) :
    ComputedOnce key (served ++ [r]) m' := by
  have count : (served ++ [r]).countP (CacheServed.computes key) =
      served.countP (CacheServed.computes key) := by
    simp [List.countP_append, idle]
  refine ⟨fun absent => ?_, fun value there => ?_, fun q mem value found => ?_⟩
  · rw [count]
    exact once.absent (same ▸ absent)
  · obtain ⟨one, q, mem, computed⟩ := once.present value (same ▸ there)
    exact ⟨count.trans one, q, List.mem_append_left _ mem, computed⟩
  · rw [same]
    rcases List.mem_append.mp mem with old | new
    · exact once.obtained q old value found
    · rw [List.mem_singleton.mp new] at found
      exact got value found

lemma ComputedOnce.first {r : CacheServed α} {value : α} (once : ComputedOnce key served m)
    (absent : m key = none) (request : r.request = .getOrInsert key (.ok value))
    (reply : r.reply = .obtained value true) :
    ComputedOnce key (served ++ [r]) (Function.update m key (some value)) := by
  have computes : r.computes key = true := by simp [CacheServed.computes, request, reply]
  have got : r.obtained? key = some value := by simp [CacheServed.obtained?, request, reply]
  refine ⟨fun none_there => ?_, fun other there => ?_, fun q mem other found => ?_⟩
  · simp at none_there
  · rw [Function.update_self, Option.some_inj] at there
    subst there
    refine ⟨?_, r, by simp, request, reply⟩
    simp [List.countP_append, once.absent absent, computes]
  · rcases List.mem_append.mp mem with old | new
    · have there := once.obtained q old other found
      rw [absent] at there
      cases there
    · rw [List.mem_singleton.mp new, got] at found
      rw [Function.update_self, found]

lemma MapServes.computedOnce (h : MapServes m served m') (absent : m key = none)
    (unput : ∀ r ∈ served, r.inserts key = false) : ComputedOnce key served m' := by
  induction h with
  | nil => exact ⟨fun _ => rfl, fun value there => by simp [absent] at there, by simp⟩
  | @snoc m' m'' served last before next ih =>
    have once := ih fun r mem => unput r (List.mem_append_left _ mem)
    have unput := unput last (by simp)
    obtain ⟨caller, request, reply⟩ := last
    dsimp only at next
    cases next with
    | get | contains | panicked => exact once.snoc rfl rfl (by simp [CacheServed.obtained?])
    | insert k value =>
      have other : key ≠ k := by
        rintro rfl
        simp [CacheServed.inserts] at unput
      exact once.snoc (Function.update_of_ne other _ _) rfl (by simp [CacheServed.obtained?])
    | @found k value there init =>
      refine once.snoc rfl rfl fun got found => ?_
      simp only [CacheServed.obtained?, Option.ite_none_right_eq_some, Option.some.injEq] at found
      obtain ⟨rfl, rfl⟩ := found
      exact there
    | @computed k missing value =>
      by_cases same : k = key
      · subst same
        exact once.first missing rfl rfl
      · exact once.snoc (Function.update_of_ne (Ne.symm same) _ _)
          (by simp [CacheServed.computes, same]) (by simp [CacheServed.obtained?, same])

namespace SuiteCache

variable {c : SuiteCache α}

/-! ### The cache as a map -/

lemma get?_eq_none : c.get? key = none ↔ key ∉ c.keys := by
  rw [get?, keys, List.lookup_eq_none_iff, List.mem_map, not_exists]
  refine forall_congr' fun e => ?_
  rw [bne_iff_ne, not_and, ne_comm]

lemma get?_isSome : (c.get? key).isSome ↔ key ∈ c.keys := by
  rw [← not_iff_not, ← get?_eq_none, Option.not_isSome_iff_eq_none]

lemma lookup_replaced (key k : String) (value : α) (entries : List (String × α)) :
    (replaced key value entries).lookup k =
      if k = key then (entries.lookup k).map fun _ => value else entries.lookup k := by
  induction entries with
  | nil => simp [replaced]
  | cons e es ih =>
    obtain ⟨here, old⟩ := e
    have step : replaced key value ((here, old) :: es) =
        (here, if here = key then value else old) :: replaced key value es := by
      by_cases same : here = key <;> simp [replaced, same]
    rw [step, List.lookup_cons, List.lookup_cons, ih]
    by_cases found : k = here
    · subst found
      by_cases same : k = key <;> simp [same]
    · have apart : (k == here) = false := beq_eq_false_iff_ne.mpr found
      rw [apart]

lemma get?_store (c : SuiteCache α) (key : String) (value : α) :
    (c.store key value).get? = Function.update c.get? key (some value) := by
  funext k
  unfold store
  split
  · rename_i there
    have found : (c.entries.lookup key).isSome := get?_isSome.mpr there
    rw [get?, lookup_replaced]
    by_cases same : k = key
    · subst same
      obtain ⟨old, here⟩ := Option.isSome_iff_exists.mp found
      simp [here]
    · simp [same, get?]
  · rename_i new
    have absent : c.entries.lookup key = none := get?_eq_none.mpr new
    rw [get?, List.lookup_append]
    by_cases same : k = key
    · subst same
      simp [absent]
    · simp [same, get?, List.lookup_cons, beq_eq_false_iff_ne.mpr same]

lemma keys_store (c : SuiteCache α) (key : String) (value : α) :
    (c.store key value).keys = if key ∈ c.keys then c.keys else c.keys ++ [key] := by
  by_cases there : key ∈ c.keys
  · have stays : key ∈ c.entries.map Prod.fst := there
    simp only [store, stays, dite_true, if_true, keys, keys_replaced]
  · have new : key ∉ c.entries.map Prod.fst := there
    simp [store, new, keys]

lemma mem_keys_store {k : String} {value : α} :
    k ∈ (c.store key value).keys ↔ k ∈ c.keys ∨ k = key := by
  rw [keys_store]
  split
  · exact ⟨.inl, fun h => h.elim id fun same => same ▸ ‹_›⟩
  · simp

lemma answer_of_some {value : α} (there : c.get? key = some value) (init : Initializer α) :
    c.answer (.getOrInsert key init) = (.obtained value false, c) := by
  simp [answer, there]

lemma answer_of_none_ok (absent : c.get? key = none) (value : α) :
    c.answer (.getOrInsert key (.ok value)) = (.obtained value true, c.store key value) := by
  simp [answer, absent]

lemma answer_of_none_error (absent : c.get? key = none) (payload : PanicPayload) :
    c.answer (.getOrInsert key (.error payload)) = (.panicked payload, c) := by
  simp [answer, absent]

lemma answer_answers (c : SuiteCache α) (request : CacheRequest α) :
    MapAnswers c.get? request (c.answer request).1 (c.answer request).2.get? := by
  cases request with
  | get key => exact .get _ key
  | contains key => exact .contains _ key
  | insert key value =>
    rw [answer, get?_store]
    exact .insert _ key value
  | getOrInsert key init =>
    cases there : c.get? key with
    | some value =>
      rw [answer_of_some there]
      exact .found there init
    | none =>
      cases init with
      | error payload =>
        rw [answer_of_none_error there]
        exact .panicked there payload
      | ok value =>
        rw [answer_of_none_ok there, get?_store]
        exact .computed there value

lemma answer_of_panicked {request : CacheRequest α} {payload : PanicPayload}
    (panicked : (c.answer request).1 = .panicked payload) : (c.answer request).2 = c := by
  cases request with
  | get | contains => rfl
  | insert key value => simp [answer] at panicked
  | getOrInsert key init =>
    cases there : c.get? key with
    | some value => rw [answer_of_some there]
    | none =>
      cases init with
      | error payload => rw [answer_of_none_error there]
      | ok value => simp [answer_of_none_ok there] at panicked

lemma mem_keys_answer (c : SuiteCache α) (caller : Nat) (request : CacheRequest α) {k : String} :
    k ∈ (c.answer request).2.keys ↔
      k ∈ c.keys ∨ (CacheServed.mk caller request (c.answer request).1).stored? = some k := by
  cases request with
  | get | contains => simp [answer, CacheServed.stored?]
  | insert key value => simp [answer, CacheServed.stored?, mem_keys_store, eq_comm]
  | getOrInsert key init =>
    cases there : c.get? key with
    | some value => simp [answer_of_some there, CacheServed.stored?]
    | none =>
      cases init with
      | error payload => simp [answer_of_none_error there, CacheServed.stored?]
      | ok value => simp [answer_of_none_ok there, CacheServed.stored?, mem_keys_store, eq_comm]

end SuiteCache

end FeatureBatch
