import ResilientCalls.Retry.Backoff

/-!
# Deadlines and the time that is left

A run may be bounded by two clocks: a deadline of its caller, and the
policy's expiration, counted from the first attempt. Both are merged once,
when the run begins, into one effective deadline. Every delay is cut to
the time that is left, and where nothing is left there is no delay at all.
-/

namespace ResilientCalls

namespace Deadline

/-- The deadline a timeout sets, counted from an instant. -/
def after (start : Instant) (timeout : Duration) : Instant := start.ahead timeout

/-- The effective deadline of a run whose first attempt starts at `first`:
the earlier of the caller's deadline and the policy's expiration. -/
def effective (policy : RetryPolicy) (caller : Option Instant) (first : Instant) :
    Option Instant :=
  match caller, policy.expiration.map (after first) with
  | some c, some e => some (c.earlier e)
  | some c, none => some c
  | none, e => e

end Deadline

/-- The time that is left to a run. -/
inductive Budget where
  | unbounded
  | remaining (left : Duration)
  | expired
deriving DecidableEq

/-- What follows a failed attempt: a delay, or the deadline. -/
inductive Backoff where
  | sleep (delay : Duration)
  | deadlineReached
deriving DecidableEq

/-- A run in progress: the number of its current attempt, when the first
one started, and the deadline fixed then. -/
structure Invocation where
  attempt : Nat
  firstAttempt : Instant
  deadline : Option Instant
deriving DecidableEq

namespace Invocation

/-- A run that begins now, at its first attempt. -/
def begin (policy : RetryPolicy) (caller : Option Instant) (now : Instant) : Invocation :=
  ⟨1, now, Deadline.effective policy caller now⟩

/-- The time since the first attempt started. -/
def elapsed (i : Invocation) (now : Instant) : Duration := now.since i.firstAttempt

/-- The run at its next attempt; the number stays at the largest 32-bit
count. -/
def advance (i : Invocation) : Invocation :=
  { i with attempt := min (i.attempt + 1) maxCount32 }

/-- The time that is left before the deadline. -/
def budget (i : Invocation) (now : Instant) : Budget :=
  match i.deadline with
  | none => .unbounded
  | some d => if d.reached now then .expired else .remaining (d.since now)

/-- The deadline has passed. -/
def isExpired (i : Invocation) (now : Instant) : Bool := decide (i.budget now = .expired)

/-- The attempts of the policy are used up. -/
def isExhausted (i : Invocation) (policy : RetryPolicy) : Bool :=
  decide (0 < policy.maximumAttempts) && decide (policy.maximumAttempts ≤ i.attempt)

/-- **The delay after the current attempt:** the policy's, cut to the time
that is left. A cut that leaves nothing is the deadline. -/
def nextBackoff (i : Invocation) (policy : RetryPolicy) (now : Instant) : Backoff :=
  let delay := policy.baseDelay i.attempt
  match i.budget now with
  | .unbounded => .sleep delay
  | .expired => .deadlineReached
  | .remaining left =>
    let cut := delay.shorter left
    if cut.isZero then .deadlineReached else .sleep cut

end Invocation

end ResilientCalls
