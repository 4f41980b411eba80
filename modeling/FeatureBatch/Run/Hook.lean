import FeatureBatch.Run.Emitter

/-!
Hooks: what is called once every feature has finished and the suite's reports are written.
-/

namespace FeatureBatch

/-- What a hook sees. -/
structure HookView where
  book : ResultsBook
  limiterClosed : Bool

inductive HookOutcome where
  | ok
  | failed (reason : String)
  | panicked (payload : PanicPayload)
  deriving DecidableEq, Repr

structure Hook where
  name : String
  call : HookView → HookOutcome

/-- What the outcome of a hook means for the run. -/
def HookOutcome.error? (name : String) : HookOutcome → Option SuiteError
  | .ok => none
  | .failed reason => some (.hook name reason)
  | .panicked payload => some (.panic payload.message)

end FeatureBatch
