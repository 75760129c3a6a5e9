import ResilientCalls.Proofs.Numeric.Powers
import ResilientCalls.Proofs.Retry.Backoff
/-!
# Delays climb to the longest interval

The delay after an attempt is the first interval times a power of the
coefficient, cut at the longest interval and then to whole nanoseconds.
Powers, the product and both cuts keep the order, each with its own
rounding, so a later attempt waits at least as long (`Waits.baseDelay_mono`);
the exponent is cut too, and past that cut all delays are the same.
-/

namespace ResilientCalls

namespace RetryPolicy

section

-- the units of one are a number of a thousand bits, which nothing here may compute
attribute [local irreducible] unitsPerOne unitsLimit

open Binary64

variable {p : RetryPolicy}

/-- **A later attempt waits at least as long.** -/
theorem Waits.baseDelay_mono (hp : p.Waits) {m n : Nat} (h : m ≤ n) :
    (p.baseDelay m).nanos ≤ (p.baseDelay n).nanos := by
  have hfirst := atLeast_ofNat hp.initial_pos
  have hexponent : min (m - 1) maximumExponent ≤ min (n - 1) maximumExponent := by omega
  have hpower := pow_le_pow hp.coefficient hexponent
  rw [baseDelay_eq, baseDelay_eq]
  refine cut_mono (hfirst.mul representable_unitsPerOne unitsPerOne_pos (hp.atLeast_pow _))
    (hfirst.mul representable_unitsPerOne unitsPerOne_pos (hp.atLeast_pow _)) ?_
  exact mul_le_mul hfirst hfirst (hp.atLeast_pow _) (hp.atLeast_pow _) hfirst.le_refl hpower

end

end RetryPolicy

/-- **Delays climb.** Under a policy that breaks no rule the delay after
any attempt is positive, no longer than the longest interval and no longer
than the delay after the next attempt. -/
theorem delays_climb {p : RetryPolicy} (hp : p.validate = .ok ()) (attempt : Nat) :
    1 ≤ (p.baseDelay attempt).nanos ∧
    (p.baseDelay attempt).nanos ≤ p.maximumInterval.nanos ∧
    (p.baseDelay attempt).nanos ≤ (p.baseDelay (attempt + 1)).nanos := by
  have hwaits := RetryPolicy.waits_of_validate hp
  exact ⟨hwaits.baseDelay_pos attempt, hwaits.baseDelay_le attempt,
    hwaits.baseDelay_mono (Nat.le_succ attempt)⟩

/-- Delays that grow by a tenth: no power of the coefficient is exact. -/
def byATenth : RetryPolicy :=
  { RetryPolicy.draft with backoffCoefficient := Numeral.toBinary64 ⟨false, 11, -1⟩ }

/-- From the fifteenth power to the sixteenth the chain of products
changes, and the delays go on climbing. -/
theorem delays_climb_byATenth :
    byATenth.validate = .ok () ∧ byATenth.baseDelay 16 = ⟨417724816⟩ ∧
    byATenth.baseDelay 17 = ⟨459497298⟩ ∧
    1 ≤ (byATenth.baseDelay 16).nanos ∧
    (byATenth.baseDelay 16).nanos ≤ byATenth.maximumInterval.nanos ∧
    (byATenth.baseDelay 16).nanos ≤ (byATenth.baseDelay (16 + 1)).nanos := by
  have hvalid : byATenth.validate = .ok () := by decide +kernel
  exact ⟨hvalid, by decide +kernel, by decide +kernel, delays_climb hvalid 16⟩

end ResilientCalls
