/-!
# Outcomes

A call to the outside gives a value, fails for a reason, or is interrupted by the user. An interrupt
is not a failure: nobody who handles failures handles it.
-/

namespace IncludeTrace

/-- What becomes of a call: a value, a failure or an interrupt. -/
inductive Outcome (ε α : Type)
  | value (a : α)
  | failure (e : ε)
  | interrupted
  deriving DecidableEq

namespace Outcome

variable {ε ε' α : Type}

/-- The outcome of a computation that cannot be interrupted. -/
def ofExcept : Except ε α → Outcome ε α
  | .ok a => value a
  | .error e => failure e

/-- The outcome with its reason put differently. -/
def mapFailure (f : ε → ε') : Outcome ε α → Outcome ε' α
  | value a => value a
  | failure e => failure (f e)
  | interrupted => interrupted

end Outcome

end IncludeTrace
