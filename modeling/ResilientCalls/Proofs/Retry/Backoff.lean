import ResilientCalls.Proofs.Numeric.Order
import ResilientCalls.Proofs.Retry.Rules
import ResilientCalls.Retry.Backoff
/-!
# Delays grow from a positive first one

A policy that breaks no rule waits: its first delay is positive and no
later one is shorter. The delay is a binary64 product cut at the longest
interval and then cut to whole nanoseconds, and each of these steps keeps
the order; the coefficient is at least one, so every power of it is, and
the product never falls below the first interval however it is rounded.
-/

namespace ResilientCalls

namespace RetryPolicy

section

-- the units of one are a number of a thousand bits, which nothing here may compute
attribute [local irreducible] unitsPerOne unitsLimit

open Binary64

variable {p : RetryPolicy}

/-- What the rules of a policy say about its delays. -/
structure Waits (p : RetryPolicy) : Prop where
  initial_pos : 1 ≤ p.initialInterval.nanos
  maximum_pos : 1 ≤ p.maximumInterval.nanos
  coefficient : AtLeast unitsPerOne p.backoffCoefficient

/-- A usable coefficient is at least one. -/
theorem atLeast_of_coefficientInRange {c : Binary64} (h : coefficientInRange c = true) :
    AtLeast unitsPerOne c := by
  have hone := unitsPerOne_pos
  cases c with
  | nan => simp [coefficientInRange, isFinite] at h
  | infinite s => simp [coefficientInRange, isFinite] at h
  | finite s m =>
    have hlt : (finite s m).lt one = false := by
      simpa only [coefficientInRange, isFinite, Bool.true_and, Bool.not_eq_true'] using h
    rw [lt_one] at hlt
    cases s with
    | true =>
      simp only [if_true, decide_eq_false_iff_not] at hlt
      omega
    | false =>
      simp only [Bool.false_eq_true, if_false, decide_eq_false_iff_not] at hlt
      exact ⟨rfl, by omega⟩

/-- The longest interval is positive where the first one is, if it is not
set shorter. -/
theorem maximum_pos_of_initial_pos (hinitial : 1 ≤ p.initialInterval.nanos)
    (hmaximum : ∀ m, p.configuredMaximum = some m → p.initialInterval.nanos ≤ m.nanos) :
    1 ≤ p.maximumInterval.nanos := by
  unfold maximumInterval
  cases h : p.configuredMaximum with
  | some m => exact le_trans hinitial (hmaximum m h)
  | none =>
    have htimes : 1 ≤ p.initialInterval.nanos * defaultMaximumFactor :=
      Nat.mul_pos hinitial (by decide)
    exact Nat.le_min.2 ⟨htimes, by decide⟩

/-- **A policy that breaks no rule waits.** -/
theorem waits_of_validate (h : p.validate = .ok ()) : p.Waits := by
  have hrules := validate_eq_ok_iff.1 h
  have hpos : 1 ≤ p.initialInterval.nanos := by
    have hinitial := hrules.initial
    simp only [Duration.isZero, beq_eq_false_iff_ne] at hinitial
    omega
  exact ⟨hpos, maximum_pos_of_initial_pos hpos hrules.maximum,
    atLeast_of_coefficientInRange hrules.coefficient⟩

/-! ## The cut at the longest interval -/

/-- A number of nanoseconds as a delay, cut at the longest interval. -/
def cut (p : RetryPolicy) (nanos : Binary64) : Duration :=
  if (ofNat p.maximumInterval.nanos).le nanos then p.maximumInterval
  else ⟨nanos.truncate maxCount64⟩

theorem baseDelay_eq (p : RetryPolicy) (attempt : Nat) :
    p.baseDelay attempt = p.cut ((ofNat p.initialInterval.nanos).mul
      (p.backoffCoefficient.pow (min (attempt - 1) maximumExponent))) := rfl

/-- The cut keeps the order. -/
theorem cut_mono {u v : Nat} {x y : Binary64} (hx : AtLeast u x) (hy : AtLeast v y)
    (h : x.le y = true) : (p.cut x).nanos ≤ (p.cut y).nanos := by
  unfold cut
  -- the longest interval is compared as a rounded number, so it is no plain minimum
  by_cases hmy : (ofNat p.maximumInterval.nanos).le y = true
  · rw [if_pos hmy]
    split
    · exact le_rfl
    · rename_i hmx
      exact hx.truncate_le_of_not_le (by simpa using hmx)
  · rw [if_neg hmy, if_neg fun hmx => hmy (le_of_le_of_le hmx h)]
    exact hx.truncate_le hy h

/-- A number of at least one is cut to a positive delay. -/
theorem cut_pos (hp : p.Waits) {x : Binary64} (hx : AtLeast unitsPerOne x) :
    1 ≤ (p.cut x).nanos := by
  unfold cut
  split
  · exact hp.maximum_pos
  · exact hx.one_le_truncate (by decide)

/-! ## The delays of a policy -/

/-- The factor of any attempt is at least one. -/
theorem Waits.atLeast_pow (hp : p.Waits) (n : Nat) :
    AtLeast unitsPerOne (p.backoffCoefficient.pow n) :=
  Binary64.atLeast_pow hp.coefficient n

/-- **No attempt is followed at once by the next one.** -/
theorem Waits.baseDelay_pos (hp : p.Waits) (attempt : Nat) :
    1 ≤ (p.baseDelay attempt).nanos := by
  rw [baseDelay_eq]
  exact cut_pos hp ((atLeast_ofNat hp.initial_pos).mul representable_unitsPerOne
    unitsPerOne_pos (hp.atLeast_pow _))

/-- No delay is longer than the longest interval. -/
theorem Waits.baseDelay_le (hp : p.Waits) (attempt : Nat) :
    (p.baseDelay attempt).nanos ≤ p.maximumInterval.nanos := by
  have hpositive := (atLeast_ofNat hp.initial_pos).mul representable_unitsPerOne
    unitsPerOne_pos (hp.atLeast_pow (min (attempt - 1) maximumExponent))
  rw [baseDelay_eq]
  unfold cut
  split
  · exact le_rfl
  · rename_i hlong
    exact hpositive.truncate_le_of_not_le (by simpa using hlong)

/-- **No delay is shorter than the first one.** -/
theorem Waits.baseDelay_one_le (hp : p.Waits) (attempt : Nat) :
    (p.baseDelay 1).nanos ≤ (p.baseDelay attempt).nanos := by
  have hfirst := atLeast_ofNat hp.initial_pos
  have hone : p.backoffCoefficient.pow (min (1 - 1) maximumExponent) = one := by
    rw [Nat.sub_self, Nat.zero_min]
    exact Binary64.pow_zero _
  rw [baseDelay_eq, baseDelay_eq, hone, Binary64.mul_one]
  exact cut_mono hfirst (hfirst.mul representable_unitsPerOne unitsPerOne_pos (hp.atLeast_pow _))
    (le_mul_of_atLeast hfirst (hp.atLeast_pow _))

end

end RetryPolicy

end ResilientCalls
