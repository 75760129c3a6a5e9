import ResilientCalls.Retry.Deadline

/-!
# Options of a run

A run is given a policy, perhaps a deadline, and perhaps a token through
which it can be cancelled. Options exist only for a policy that breaks no
rule and a run that is bounded.
-/

namespace ResilientCalls

/-- What one run is given. -/
structure RetryOptions where
  policy : RetryPolicy
  /-- The deadline of the caller. -/
  deadline : Option Instant
  /-- The run watches a cancellation token. -/
  hasToken : Bool
deriving DecidableEq

namespace RetryOptions

/-- The options for a policy and a deadline, if the policy breaks no rule
and something bounds the run. -/
def new (policy : RetryPolicy) (deadline : Option Instant) :
    Except ConfigurationError RetryOptions := do
  policy.validate
  policy.validateBounded deadline.isSome
  return ⟨policy, deadline, false⟩

/-- The same options with a token. -/
def withToken (o : RetryOptions) : RetryOptions := { o with hasToken := true }

/-- The run that begins now. -/
def begin (o : RetryOptions) (now : Instant) : Invocation :=
  Invocation.begin o.policy o.deadline now

end RetryOptions

end ResilientCalls
