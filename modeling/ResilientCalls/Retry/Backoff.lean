import ResilientCalls.Retry.Policy

/-!
# Backoff delays

The delay after attempt `n` is the first interval times the coefficient to
the power `n - 1`, cut at the longest interval. The product is computed in
binary64 nanoseconds. Jitter then takes away a share of the delay, chosen
by a draw between zero and one; the draw is an argument, so a delay is a
function of the policy, the attempt and the draw.
-/

namespace ResilientCalls

namespace RetryPolicy

/-- The largest exponent of the coefficient. -/
def maximumExponent : Nat := 2147483647

/-- **The delay after an attempt,** before jitter. Attempts count from
one, and attempt zero waits like the first. -/
def baseDelay (p : RetryPolicy) (attempt : Nat) : Duration :=
  let exponent := min (attempt - 1) maximumExponent
  let nanos :=
    (Binary64.ofNat p.initialInterval.nanos).mul (p.backoffCoefficient.pow exponent)
  if (Binary64.ofNat p.maximumInterval.nanos).le nanos then p.maximumInterval
  else ⟨nanos.truncate maxCount64⟩

/-- The part of a delay that is left for a draw. -/
def jitterFactor (p : RetryPolicy) (draw : Binary64) : Binary64 :=
  Binary64.one.sub (p.jitter.mul draw)

/-- **A delay with jitter.** Without jitter, and for no delay at all,
nothing is computed; otherwise the delay is scaled, which fails for the
very longest delays. -/
def jittered (p : RetryPolicy) (draw : Binary64) (delay : Duration) :
    Except Duration.ConversionError Duration :=
  if p.jitter.isZero || delay.isZero then .ok delay
  else delay.scale (p.jitterFactor draw)

end RetryPolicy

end ResilientCalls
