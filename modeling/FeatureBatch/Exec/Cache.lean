import FeatureBatch.Errors

/-!
The cache that all features of a run share: values under keys, each key at most once. A value can
be computed on first use; a computation that gives up leaves the cache as it was.
-/

namespace FeatureBatch

/-- Values of type `α` under distinct keys, in the order of their first storing. -/
structure SuiteCache (α : Type) where
  entries : List (String × α)
  keys_nodup : (entries.map Prod.fst).Nodup

/-- What computing a value comes to. -/
abbrev Initializer (α : Type) := Except PanicPayload α

/-- What a caller may ask of the cache. -/
inductive CacheRequest (α : Type) where
  | get (key : String)
  | insert (key : String) (value : α)
  | contains (key : String)
  /-- The value under the key, which is computed and stored if there is none. -/
  | getOrInsert (key : String) (init : Initializer α)

inductive CacheReply (α : Type) where
  /-- The value that is or was under the key. -/
  | value (found : Option α)
  | present (answer : Bool)
  /-- The value, and whether it was computed for this request. -/
  | obtained (value : α) (computed : Bool)
  /-- The computation gave up. -/
  | panicked (payload : PanicPayload)
  deriving DecidableEq, Repr

namespace SuiteCache

variable {α : Type}

def empty : SuiteCache α := ⟨[], by simp⟩

def keys (c : SuiteCache α) : List String := c.entries.map Prod.fst

def get? (c : SuiteCache α) (key : String) : Option α := c.entries.lookup key

def contains (c : SuiteCache α) (key : String) : Bool := (c.get? key).isSome

def size (c : SuiteCache α) : Nat := c.entries.length

def isEmpty (c : SuiteCache α) : Bool := c.entries.isEmpty

/-- Replaces the value under a key where the key is. -/
def replaced (key : String) (value : α) (entries : List (String × α)) : List (String × α) :=
  entries.map fun e => if e.1 = key then (key, value) else e

theorem keys_replaced (key : String) (value : α) (entries : List (String × α)) :
    (replaced key value entries).map Prod.fst = entries.map Prod.fst := by
  induction entries with
  | nil => rfl
  | cons e es ih =>
    by_cases h : e.1 = key
    · simp only [replaced, List.map_cons, h, if_true]
      exact congrArg (key :: ·) ih
    · simp only [replaced, List.map_cons, h, if_false]
      exact congrArg (e.1 :: ·) ih

/-- Puts a value under a key, at the key's place or at the end. -/
def store (c : SuiteCache α) (key : String) (value : α) : SuiteCache α :=
  if h : key ∈ c.entries.map Prod.fst then
    ⟨replaced key value c.entries, by rw [keys_replaced]; exact c.keys_nodup⟩
  else
    ⟨c.entries ++ [(key, value)], by
      rw [List.map_append, List.nodup_append]
      refine ⟨c.keys_nodup, by simp, ?_⟩
      rintro a ha b hb rfl
      simp only [List.map_cons, List.map_nil, List.mem_singleton] at hb
      exact h (hb ▸ ha)⟩

/-- Answers one request, with the cache after it. -/
def answer (c : SuiteCache α) : CacheRequest α → CacheReply α × SuiteCache α
  | .get key => (.value (c.get? key), c)
  | .insert key value => (.value (c.get? key), c.store key value)
  | .contains key => (.present (c.contains key), c)
  | .getOrInsert key init =>
    match c.get? key, init with
    | some value, _ => (.obtained value false, c)
    | none, .ok value => (.obtained value true, c.store key value)
    | none, .error payload => (.panicked payload, c)

/-- Answers requests one after the other. -/
def answerAll (c : SuiteCache α) : List (CacheRequest α) → List (CacheReply α) × SuiteCache α
  | [] => ([], c)
  | r :: rs =>
    let (reply, c) := c.answer r
    let (replies, c) := c.answerAll rs
    (reply :: replies, c)

end SuiteCache

end FeatureBatch
