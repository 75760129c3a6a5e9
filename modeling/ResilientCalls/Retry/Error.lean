import ResilientCalls.Retry.Policy

/-!
# How a run fails

The error of a run tells why it ended, how many attempts were made, how
long it took, and the last error of the work.
-/

namespace ResilientCalls

/-- The error a run ends with. -/
inductive RetryError (ε : Type) where
  /-- The last failure is one that must not be retried. -/
  | nonRetryable (source : ε) (attempts : Nat) (elapsed : Duration)
  /-- Every attempt that the policy allows has failed. -/
  | attemptsExhausted (source : ε) (attempts : Nat) (elapsed : Duration)
  /-- The deadline passed. -/
  | deadlineExceeded (last : Option ε) (attempts : Nat) (elapsed : Duration)
  /-- The run was cancelled. -/
  | cancelled (last : Option ε) (attempts : Nat) (elapsed : Duration)
  /-- The run never began. -/
  | configuration (reason : ConfigurationError)
deriving DecidableEq

namespace RetryError

variable {ε : Type}

/-- The number of attempts made. -/
def attempts : RetryError ε → Nat
  | .nonRetryable _ n _ | .attemptsExhausted _ n _ => n
  | .deadlineExceeded _ n _ | .cancelled _ n _ => n
  | .configuration _ => 0

/-- The time from the first attempt to the end. -/
def elapsed : RetryError ε → Duration
  | .nonRetryable _ _ t | .attemptsExhausted _ _ t => t
  | .deadlineExceeded _ _ t | .cancelled _ _ t => t
  | .configuration _ => .zero

/-- The last error of the work. -/
def lastError : RetryError ε → Option ε
  | .nonRetryable e _ _ | .attemptsExhausted e _ _ => some e
  | .deadlineExceeded e _ _ | .cancelled e _ _ => e
  | .configuration _ => none

/-- The disposition of the failure that ended the run. -/
def disposition : RetryError ε → Option Disposition
  | .nonRetryable _ _ _ => some .nonRetryable
  | .attemptsExhausted _ _ _ => some .retryable
  | .deadlineExceeded _ _ _ => some .deadlineExceeded
  | .cancelled _ _ _ => some .cancelled
  | .configuration _ => none

/-- The run was cancelled. -/
def isCancelled : RetryError ε → Bool
  | .cancelled _ _ _ => true
  | _ => false

/-- The deadline passed. -/
def isDeadlineExceeded : RetryError ε → Bool
  | .deadlineExceeded _ _ _ => true
  | _ => false

/-- The common end of the texts. -/
def tally (attempts : Nat) (elapsed : Duration) : String :=
  " after " ++ toString attempts ++ " attempt(s) in " ++ elapsed.text

/-- The text of the error. -/
def message [Failure ε] : RetryError ε → String
  | .nonRetryable e n t => "non-retryable failure" ++ tally n t ++ ": " ++ Failure.text e
  | .attemptsExhausted e n t => "retry attempts exhausted" ++ tally n t ++ ": " ++ Failure.text e
  | .deadlineExceeded _ n t => "retry deadline exceeded" ++ tally n t
  | .cancelled _ n t => "retry cancelled" ++ tally n t
  | .configuration reason => "invalid retry configuration: " ++ reason.message

/-- The text of what caused the error: the last error of the work, or the
rule that the policy breaks. -/
def sourceText [Failure ε] : RetryError ε → Option String
  | .configuration reason => some reason.message
  | e => e.lastError.map Failure.text

end RetryError

end ResilientCalls
