import ResilientCalls.Proofs.Numeric.Whole
import ResilientCalls.Proofs.Retry.Backoff
/-!
# Delays of a whole-number coefficient are exact

Where the coefficient is a whole number, the delay after an attempt is the
first interval times a power of it, cut at the longest interval, to the
nanosecond. The power is computed in binary64 and is soon no longer exact,
and for great attempts it is infinite or its exponent is cut; but all that
is computed stands for the exact number, and a longest interval of at most
`2^53` nanoseconds lies below everything that is not exact.
-/

namespace ResilientCalls

namespace RetryPolicy

section

-- the units of one are a number of a thousand bits, which nothing here may compute
attribute [local irreducible] unitsPerOne unitsLimit maximumExponent

open Binary64

variable {p : RetryPolicy}

/-- **The cut of a number in the place of a whole one is exact.** -/
theorem cut_of_standsFor {x : Binary64} {n : Nat} (hx : x.StandsFor n)
    (hmaximum : p.maximumInterval.nanos ≤ pow2 53) :
    p.cut x = ⟨min n p.maximumInterval.nanos⟩ := by
  obtain ⟨k, hk, hunits⟩ := isWhole_ofNat hmaximum
  unfold cut
  rw [hk]
  rcases Nat.lt_or_ge (pow2 53) n with hlt | hle
  · -- past the exact numbers the longest interval is reached in any case
    have hpast := (standsFor_of_lt hlt).1 hx
    have hreached : (finite false k).le x = true := by
      have hmul := Nat.mul_le_mul_right unitsPerOne hmaximum
      rcases hpast.eq_infinite_or with rfl | ⟨m, rfl, hm⟩
      · exact le_finite_infinite k
      · rw [le_finite_finite, decide_eq_true_eq, hunits]
        exact le_trans hmul hm
    rw [if_pos hreached, Nat.min_eq_right (le_trans hmaximum (Nat.le_of_lt hlt))]
  · obtain ⟨m, rfl, hm⟩ := (standsFor_of_le hle).1 hx
    have horder : (finite false k).le (finite false m) = decide (p.maximumInterval.nanos ≤ n) := by
      rw [le_finite_finite, decide_eq_decide, hunits, hm]
      exact Nat.mul_le_mul_right_iff unitsPerOne_pos
    rw [horder]
    by_cases hreached : p.maximumInterval.nanos ≤ n
    · rw [if_pos (decide_eq_true hreached), Nat.min_eq_right hreached]
    · have hcount : n ≤ maxCount64 := le_trans hle (by decide)
      rw [if_neg (by simpa using hreached), Nat.min_eq_left (by omega)]
      simp only [truncate, hm, Nat.mul_div_cancel _ unitsPerOne_pos, Nat.min_eq_left hcount,
        Bool.false_eq_true, if_false]

/-- Where the exponent is cut, every power but those of one has long
reached the longest interval. -/
theorem min_pow_cut {first c longest : Nat} (hfirst : 1 ≤ first) (hc : 1 ≤ c)
    (hlongest : longest ≤ pow2 53) (exponent : Nat) :
    min (first * c ^ min exponent maximumExponent) longest =
      min (first * c ^ exponent) longest := by
  rcases Nat.lt_or_ge maximumExponent exponent with hlt | hle
  · rcases Nat.lt_or_ge 1 c with htwo | hone
    · have hreach : ∀ e, maximumExponent ≤ e → longest ≤ first * c ^ e := by
        intro e he
        have hbits : 53 ≤ e := le_trans (by unfold maximumExponent; decide) he
        calc longest ≤ 2 ^ 53 := hlongest
          _ ≤ c ^ 53 := Nat.pow_le_pow_left htwo 53
          _ ≤ c ^ e := Nat.pow_le_pow_right hc hbits
          _ ≤ first * c ^ e := Nat.le_mul_of_pos_left _ hfirst
      rw [Nat.min_eq_right (hreach _ (Nat.le_min.2 ⟨Nat.le_of_lt hlt, Nat.le_refl _⟩)),
        Nat.min_eq_right (hreach _ (Nat.le_of_lt hlt))]
    · obtain rfl : c = 1 := Nat.le_antisymm hone hc
      rw [Nat.one_pow, Nat.one_pow]
  · rw [Nat.min_eq_left hle]

/-- A whole coefficient from one on is the whole number one or more. -/
theorem one_le_of_isWhole {x : Binary64} {c : Nat} (hx : AtLeast unitsPerOne x)
    (hc : x.IsWhole c) : 1 ≤ c := by
  obtain ⟨m, rfl, hm⟩ := hc
  by_contra hzero
  obtain rfl : c = 0 := by omega
  have hpos := unitsPerOne_pos
  have hle : unitsPerOne ≤ m.units := hx.2
  omega

end

end RetryPolicy

/-- **Delays are exact** under a policy that breaks no rule, if its
coefficient is a whole number and its longest interval is at most `2^53`
nanoseconds, a hundred days: the delay after an attempt is the product of
the first interval and the power of the coefficient, computed without any
rounding, or the longest interval where that is less. -/
theorem delays_exact {p : RetryPolicy} (hp : p.validate = .ok ()) {c : Nat}
    (hc : p.backoffCoefficient.IsWhole c) (hmaximum : p.maximumInterval.nanos ≤ pow2 53)
    (attempt : Nat) :
    p.baseDelay attempt =
      ⟨min (p.initialInterval.nanos * c ^ (attempt - 1)) p.maximumInterval.nanos⟩ := by
  have hwaits := RetryPolicy.waits_of_validate hp
  have hone := RetryPolicy.one_le_of_isWhole hwaits.coefficient hc
  have hproduct := (Binary64.standsFor_ofNat p.initialInterval.nanos).mul
    (hc.standsFor.pow hone (min (attempt - 1) RetryPolicy.maximumExponent))
    hwaits.initial_pos (Nat.pow_pos hone)
  rw [RetryPolicy.baseDelay_eq, RetryPolicy.cut_of_standsFor hproduct hmaximum,
    RetryPolicy.min_pow_cut hwaits.initial_pos hone hmaximum]

/-- Delays that grow threefold from a nanosecond, up to the last number of
nanoseconds below which every one is a binary64 number. -/
def powersOfThree : RetryPolicy :=
  { RetryPolicy.draft with
    initialInterval := ⟨1⟩
    backoffCoefficient := .ofNat 3
    configuredMaximum := some ⟨9007199254740992⟩ }

/-- The thirty-third power of three is the last one that fits, with all
its digits; the next one is cut. -/
theorem delays_exact_powersOfThree :
    powersOfThree.validate = .ok () ∧ powersOfThree.backoffCoefficient.IsWhole 3 ∧
    powersOfThree.maximumInterval.nanos ≤ pow2 53 ∧
    powersOfThree.baseDelay 34 = ⟨5559060566555523⟩ ∧
    powersOfThree.baseDelay 35 = ⟨9007199254740992⟩ := by
  have hvalid : powersOfThree.validate = .ok () := by decide +kernel
  have hwhole : powersOfThree.backoffCoefficient.IsWhole 3 := by
    dsimp only [powersOfThree]
    exact Binary64.isWhole_ofNat (by decide)
  have hmaximum : powersOfThree.maximumInterval.nanos ≤ pow2 53 := by decide
  exact ⟨hvalid, hwhole, hmaximum,
    (delays_exact hvalid hwhole hmaximum 34).trans (by decide +kernel),
    (delays_exact hvalid hwhole hmaximum 35).trans (by decide +kernel)⟩

end ResilientCalls
