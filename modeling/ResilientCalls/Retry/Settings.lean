import ResilientCalls.Retry.Policy

/-!
# The millisecond form of a policy

Policies are configured in whole milliseconds. Going to this form rounds
every duration up, so that a duration that is not zero stays so; coming
back builds a policy and checks it.
-/

namespace ResilientCalls

/-- A policy as it is configured. -/
structure PolicySettings where
  initialIntervalMs : Nat
  backoffCoefficient : Binary64
  maximumIntervalMs : Option Nat
  maximumAttempts : Nat
  expirationMs : Option Nat
  jitter : Binary64
  doNotRetry : List Matcher
deriving DecidableEq

namespace PolicySettings

/-- The millisecond form of a policy. -/
def ofPolicy (p : RetryPolicy) : PolicySettings where
  initialIntervalMs := p.initialInterval.millisUp
  backoffCoefficient := p.backoffCoefficient
  maximumIntervalMs := p.configuredMaximum.map Duration.millisUp
  maximumAttempts := p.maximumAttempts
  expirationMs := p.expiration.map Duration.millisUp
  jitter := p.jitter
  doNotRetry := p.doNotRetry

/-- The settings of the standard policy. -/
def standard : PolicySettings := ofPolicy .standard

/-- The policy that the settings describe, each matcher listed once, if it
breaks no rule. -/
def toPolicy (s : PolicySettings) : Except ConfigurationError RetryPolicy :=
  ({ RetryPolicy.draft with
      initialInterval := .ofMillis s.initialIntervalMs
      backoffCoefficient := s.backoffCoefficient
      configuredMaximum := s.maximumIntervalMs.map Duration.ofMillis
      maximumAttempts := s.maximumAttempts
      expiration := s.expirationMs.map Duration.ofMillis
      jitter := s.jitter }.withDoNotRetryAll s.doNotRetry).checked

end PolicySettings

end ResilientCalls
