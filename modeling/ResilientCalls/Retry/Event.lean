import ResilientCalls.Log.Record
import ResilientCalls.Retry.Decision

/-!
# What a run reports

The events of a run, in the order in which they happen, and the log record
that each of them is.
-/

namespace ResilientCalls

/-- An event of a retry run. -/
inductive RetryEvent where
  /-- An attempt starts; `attempt` counts the attempts issued. -/
  | starting (attempt : Nat)
  /-- An attempt after the first one succeeded. -/
  | succeeded (attempt : Nat)
  /-- An attempt failed and another one follows after `delay`. -/
  | retrying (attempt : Nat) (delay : Duration) (error : String)
  /-- An attempt after the first one failed and none follows. -/
  | givingUp (attempt : Nat) (elapsed : Duration) (reason : Stop) (error : String)
  /-- The first attempt failed and none follows. -/
  | failed (reason : Stop) (error : String)
  /-- The run was cancelled. -/
  | cancelled (attempts : Nat) (elapsed : Duration)
  /-- A blocking run was cancelled while it waited. -/
  | cancelledInBackoff (attempt : Nat)
deriving DecidableEq

namespace RetryEvent

/-- The event of a failure that no attempt follows. -/
def stopped (attempt : Nat) (elapsed : Duration) (reason : Stop) (error : String) : RetryEvent :=
  if 1 < attempt then .givingUp attempt elapsed reason error else .failed reason error

/-- The log record of an event. -/
def record : RetryEvent → LogRecord
  | .starting n => ⟨.debug, "starting attempt", [("attempt", toString n)]⟩
  | .succeeded n => ⟨.debug, "call succeeded after retries", [("attempt", toString n)]⟩
  | .retrying n delay error =>
    ⟨.debug, "call failed, retrying",
      [("attempt", toString n), ("delay", delay.text), ("error", error)]⟩
  | .givingUp n elapsed reason error =>
    ⟨.warn, "giving up on call",
      [("attempt", toString n), ("elapsed", elapsed.text), ("stop", reason.name),
        ("error", error)]⟩
  | .failed reason error =>
    ⟨.debug, "call failed", [("stop", reason.name), ("error", error)]⟩
  | .cancelled n elapsed =>
    ⟨.debug, "retry cancelled", [("attempts", toString n), ("elapsed", elapsed.text)]⟩
  | .cancelledInBackoff n =>
    ⟨.debug, "retry cancelled during backoff", [("attempt", toString n)]⟩

end RetryEvent

end ResilientCalls
