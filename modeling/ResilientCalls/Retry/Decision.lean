import ResilientCalls.Retry.Deadline
import ResilientCalls.Retry.Error

/-!
# The decision after a failed attempt

One rule decides what follows a failure, for blocking and non-blocking
runs alike: the do-not-retry table first, then cancellation, then a
deadline of the attempt after the deadline of the run, then the attempt
limit, then the time that is left.
-/

namespace ResilientCalls

/-- Why a run stops at a failure. -/
inductive Stop where
  | nonRetryable
  | attemptsExhausted
  | deadlineExceeded
  | cancelled
deriving DecidableEq

namespace Stop

/-- The name of a reason in a log record. -/
def name : Stop → String
  | .nonRetryable => "NonRetryable"
  | .attemptsExhausted => "AttemptsExhausted"
  | .deadlineExceeded => "DeadlineExceeded"
  | .cancelled => "Cancelled"

/-- The error of a run that stops at a failure. -/
def toError {ε : Type} (s : Stop) (e : ε) (attempts : Nat) (elapsed : Duration) : RetryError ε :=
  match s with
  | .nonRetryable => .nonRetryable e attempts elapsed
  | .attemptsExhausted => .attemptsExhausted e attempts elapsed
  | .deadlineExceeded => .deadlineExceeded (some e) attempts elapsed
  | .cancelled => .cancelled (some e) attempts elapsed

end Stop

/-- What follows a failed attempt. -/
inductive Decision where
  /-- Another attempt after a delay. -/
  | retry (delay : Duration)
  /-- The end of the run. -/
  | stop (reason : Stop)
  /-- The delay could not be computed. -/
  | overflow (reason : Duration.ConversionError)
deriving DecidableEq

/-- **The decision after a failure** of the current attempt, at the
reading `now` of the clock, with `draw` as the chance in the delay. -/
def afterFailure {ε : Type} [Failure ε] (policy : RetryPolicy) (i : Invocation) (e : ε)
    (now : Instant) (draw : Binary64) : Decision :=
  match classify policy.doNotRetry e (i.isExpired now) with
  | .nonRetryable => .stop .nonRetryable
  | .deadlineExceeded => .stop .deadlineExceeded
  | .cancelled => .stop .cancelled
  | .retryable =>
    if i.isExhausted policy then .stop .attemptsExhausted
    else match i.nextBackoff policy now with
      | .deadlineReached => .stop .deadlineExceeded
      | .sleep delay =>
        match policy.jittered draw delay with
        | .ok d => .retry d
        | .error reason => .overflow reason

end ResilientCalls
