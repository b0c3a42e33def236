import IncludeTrace.Log
import IncludeTrace.Outcome

/-!
# Collaborators

A trace relies on others for the flag that makes a compiler report includes, for the compiler run and
for the search directories. They share a state of any type; each call replies with an outcome, the
state after it and what was said. A failure carries its reason in words.

A compiler run has two halves, starting it and collecting its output, because a trace may rest between
them. While a compiler runs, further requests may come in; `requests` takes those that wait to be
made.
-/

namespace IncludeTrace

/-- The reply to a call. -/
structure Reply (σ α : Type) where
  outcome : Outcome Text α
  state : σ
  log : List Entry

/-- Those a trace relies on, with a shared state. -/
structure Collaborators (σ : Type) where
  flag : Text → σ → Reply σ Bool
  setFlag : Text → Bool → σ → Reply σ Unit
  start : Text → σ → Reply σ Unit
  collect : Text → σ → Reply σ Text
  directories : Text → σ → Reply σ (List Text)
  requests : σ → List Text × σ

end IncludeTrace
