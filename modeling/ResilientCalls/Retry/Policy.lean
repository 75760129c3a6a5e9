import ResilientCalls.Time.Duration
import ResilientCalls.Retry.Matcher

/-!
# Retry policies

A policy has a backoff shape (first interval, coefficient, longest
interval, jitter), two bounds (a number of attempts and an expiration) and
a do-not-retry table. `validate` names the first rule a policy breaks, in
a fixed order of rules. A run needs a bound: its own or a deadline of the
caller.
-/

namespace ResilientCalls

/-- The rule that a policy breaks. -/
inductive ConfigurationError where
  | zeroInitialInterval
  | invalidBackoffCoefficient (coefficient : Binary64)
  | maximumIntervalTooShort (initial maximum : Duration)
  | zeroExpiration
  | invalidJitter (jitter : Binary64)
  /-- No bound: neither attempts, nor an expiration, nor a deadline. -/
  | unbounded
deriving DecidableEq

/-- The text of a configuration error. -/
def ConfigurationError.message : ConfigurationError → String
  | .zeroInitialInterval => "initial interval must be greater than zero"
  | .invalidBackoffCoefficient c =>
    "backoff coefficient must be a finite value >= 1.0, got " ++ c.plainText
  | .maximumIntervalTooShort initial maximum =>
    "maximum interval " ++ maximum.text ++ " is shorter than initial interval " ++ initial.text
  | .zeroExpiration => "expiration must be greater than zero"
  | .invalidJitter j => "jitter must be within [0.0, 1.0], got " ++ j.plainText
  | .unbounded =>
    "configuration of the retries has to be finite: " ++
      "set maximum attempts, an expiration, or a deadline"

/-- How a unit of work is retried. -/
structure RetryPolicy where
  /-- The delay after the first attempt. -/
  initialInterval : Duration
  /-- What each further delay is multiplied by. -/
  backoffCoefficient : Binary64
  /-- The longest delay, if one is set. -/
  configuredMaximum : Option Duration
  /-- The most attempts a run makes; zero sets no limit. -/
  maximumAttempts : Nat
  /-- The time a run has from its first attempt, if it is limited. -/
  expiration : Option Duration
  /-- The failures that end a run at once. -/
  doNotRetry : List Matcher
  /-- The share of a delay that chance may take away. -/
  jitter : Binary64
deriving DecidableEq

namespace RetryPolicy

/-- The factor between the first and the longest delay when none is set. -/
def defaultMaximumFactor : Nat := 100

/-- One tenth of a delay may be taken away. -/
def defaultJitter : Binary64 := Numeral.toBinary64 ⟨false, 1, -1⟩

/-- The first delay when none is set. -/
def defaultInitialInterval : Duration := .ofMillis 100

/-- The coefficient when none is set. -/
def defaultCoefficient : Binary64 := .ofNat 2

/-- A policy to start from: the default shape, with no longest interval,
no bounds and an empty table. -/
def draft : RetryPolicy where
  initialInterval := defaultInitialInterval
  backoffCoefficient := defaultCoefficient
  configuredMaximum := none
  maximumAttempts := 0
  expiration := none
  doNotRetry := []
  jitter := defaultJitter

/-- The policy of a run that is given none: delays up to ten seconds, for
at most a minute. -/
def standard : RetryPolicy :=
  { draft with configuredMaximum := some (.ofSeconds 10), expiration := some (.ofSeconds 60) }

/-- The longest delay: the one set, or a hundred times the first. -/
def maximumInterval (p : RetryPolicy) : Duration :=
  p.configuredMaximum.getD (p.initialInterval.times defaultMaximumFactor)

/-- Adds a matcher at the end of the table unless it is already listed. -/
def withDoNotRetry (p : RetryPolicy) (m : Matcher) : RetryPolicy :=
  if m ∈ p.doNotRetry then p else { p with doNotRetry := p.doNotRetry ++ [m] }

/-- Adds matchers in order, each once. -/
def withDoNotRetryAll (p : RetryPolicy) (ms : List Matcher) : RetryPolicy :=
  ms.foldl withDoNotRetry p

/-- The policy bounds its runs by itself. -/
def isBounded (p : RetryPolicy) : Bool :=
  decide (0 < p.maximumAttempts) || p.expiration.isSome

/-- A usable jitter lies between zero and one. -/
def jitterInRange (j : Binary64) : Bool := Binary64.zero.le j && j.le Binary64.one

/-- A usable coefficient is finite and at least one. -/
def coefficientInRange (c : Binary64) : Bool := c.isFinite && !c.lt Binary64.one

/-- **The rules of a policy,** the first broken one reported. -/
def validate (p : RetryPolicy) : Except ConfigurationError Unit :=
  if p.initialInterval.isZero then .error .zeroInitialInterval
  else if !coefficientInRange p.backoffCoefficient then
    .error (.invalidBackoffCoefficient p.backoffCoefficient)
  else match p.configuredMaximum.filter (fun m => decide (m.nanos < p.initialInterval.nanos)) with
    | some maximum => .error (.maximumIntervalTooShort p.initialInterval maximum)
    | none =>
      if p.expiration.any Duration.isZero then .error .zeroExpiration
      else if !jitterInRange p.jitter then .error (.invalidJitter p.jitter)
      else .ok ()

/-- A run needs a bound: the policy's own or a deadline. -/
def validateBounded (p : RetryPolicy) (hasDeadline : Bool) : Except ConfigurationError Unit :=
  if p.isBounded || hasDeadline then .ok () else .error .unbounded

/-- The policy itself, if it breaks no rule. -/
def checked (p : RetryPolicy) : Except ConfigurationError RetryPolicy :=
  match p.validate with
  | .ok _ => .ok p
  | .error e => .error e

end RetryPolicy

end ResilientCalls
