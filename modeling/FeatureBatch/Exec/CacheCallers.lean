import FeatureBatch.Exec.Cache

/-!
Callers that use one cache at the same time. A lock admits one caller at a time; the caller that
holds it looks the key up, and if it has to compute a value it does so with the lock in hand. A
computation that gives up marks the lock, and the mark keeps nobody out.
-/

namespace FeatureBatch

/-- Who holds the lock, and whether it has found that it must compute a value. -/
structure LockHolder where
  caller : Nat
  computing : Bool
  deriving DecidableEq, Repr

/-- One answered request. -/
structure CacheServed (α : Type) where
  caller : Nat
  request : CacheRequest α
  reply : CacheReply α

structure CacheCallers (α : Type) where
  cache : SuiteCache α
  holder : Option LockHolder
  /-- A caller gave up with the lock in hand. -/
  marked : Bool
  /-- For each caller, the requests that it has still to make. -/
  waiting : List (List (CacheRequest α))
  /-- The requests answered so far, in the order in which the lock was given back. -/
  served : List (CacheServed α)

namespace CacheCallers

variable {α : Type}

def start (cache : SuiteCache α) (programs : List (List (CacheRequest α))) : CacheCallers α :=
  { cache, holder := none, marked := false, waiting := programs, served := [] }

/-- The next request of a caller. -/
def request? (s : CacheCallers α) (caller : Nat) : Option (CacheRequest α) :=
  s.waiting[caller]?.bind List.head?

/-- The request has to compute its value first. -/
def mustCompute (c : SuiteCache α) : CacheRequest α → Bool
  | .getOrInsert key _ => !c.contains key
  | _ => false

def replyPanicked : CacheReply α → Bool
  | .panicked _ => true
  | _ => false

/-- Answers the caller's request and gives the lock back. -/
def serve (s : CacheCallers α) (caller : Nat) (request : CacheRequest α) : CacheCallers α :=
  let (reply, cache) := s.cache.answer request
  { cache
    holder := none
    marked := s.marked || replyPanicked reply
    waiting := s.waiting.modify caller List.tail
    served := s.served ++ [⟨caller, request, reply⟩] }

/-- The caller's next step: it takes the lock if it is free, looks its key up, and answers. None if
it waits for the lock or has nothing left to ask. -/
def step? (s : CacheCallers α) (caller : Nat) : Option (CacheCallers α) :=
  match s.request? caller, s.holder with
  | none, _ => none
  | some _, none => some { s with holder := some ⟨caller, false⟩ }
  | some request, some holder =>
    if holder.caller ≠ caller then none
    else if !holder.computing && mustCompute s.cache request then
      some { s with holder := some ⟨caller, true⟩ }
    else some (s.serve caller request)

/-- Lets the callers step in the order of a schedule; one that cannot step is passed over. -/
def play (s : CacheCallers α) (schedule : List Nat) : CacheCallers α :=
  schedule.foldl (fun s caller => (s.step? caller).getD s) s

/-- A schedule that takes the callers in turn, each up to its last answer: no request takes more
than three steps. -/
def inTurn (programs : List (List (CacheRequest α))) : List Nat :=
  programs.zipIdx.flatMap fun (requests, caller) => List.replicate (3 * requests.length) caller

/-- Serves all callers, one after the other. -/
def serveInTurn (cache : SuiteCache α) (programs : List (List (CacheRequest α))) : CacheCallers α :=
  (start cache programs).play (inTurn programs)

end CacheCallers

end FeatureBatch
