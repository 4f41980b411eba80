import FeatureBatch.Errors

/-!
What is to be done when a feature has finished. It is done once or never: whoever has it completes
it or drops it, and then has it no more.
-/

namespace FeatureBatch

/-- An action of type `α` that can be taken once. -/
inductive Completion (α : Type) where
  | armed (action : α)
  | spent
  deriving DecidableEq, Repr

namespace Completion

variable {α : Type}

/-- A completion as a diagnostic shows it: what it will do has no short form. -/
def debugText : String := "Completion \x7b .. \x7d"

/-- The action to take now, if it is still to be taken. -/
def complete : Completion α → Option α × Completion α
  | .armed action => (some action, .spent)
  | .spent => (none, .spent)

/-- Gives the action up; says whether it was still to be taken. -/
def drop : Completion α → Bool × Completion α
  | .armed _ => (true, .spent)
  | .spent => (false, .spent)

end Completion

end FeatureBatch
