import ResilientCalls.Proofs.Numeric.Whole
/-!
# How far rounding goes up

A rounded ratio is at most half a step above the ratio, and the step is
the spacing of the numbers there. Below a power of two this is a fixed
length (`nearestUnits_mul_le_add`); for ratios of 53 bits and more it is one
part in `2^53` (`nearestUnits_mul_le_mul`). A ratio less than half a
spacing above a representable number does not get past it
(`nearestUnits_le_of_lt_half`).
-/

namespace ResilientCalls

variable {num den u : Nat}

/-- Rounding goes up by a half at most. -/
theorem two_mul_roundHalfEven_le (num den : Nat) :
    2 * (roundHalfEven num den * den) ≤ 2 * num + den := by
  have hsplit := Nat.div_add_mod num den
  rw [Nat.mul_comm] at hsplit
  simp only [roundHalfEven]
  split_ifs <;> simp only [Nat.succ_mul] <;> omega

/-- A ratio less than a half above a whole number is rounded to it or
below. -/
theorem roundHalfEven_le_of_lt_half {k : Nat} (hden : 0 < den)
    (h : 2 * num < 2 * (k * den) + den) : roundHalfEven num den ≤ k := by
  rcases Nat.lt_or_ge (k * den) num with hlt | hle
  · exact Nat.le_of_eq (roundHalfEven_eq (by omega) h)
  · exact roundHalfEven_le_of_le_mul hden hle

/-- Rounding to 53 bits goes up by half a spacing at most. -/
theorem two_mul_nearestUnits_le (num den : Nat) :
    2 * (nearestUnits num den * den) ≤ 2 * num + spacing (num / den) * den := by
  have hround := two_mul_roundHalfEven_le num (den * spacing (num / den))
  have hstep : roundHalfEven num (den * spacing (num / den)) * (den * spacing (num / den)) =
      nearestUnits num den * den := by
    rw [nearestUnits, Nat.mul_comm den, Nat.mul_assoc]
  rwa [hstep, Nat.mul_comm den] at hround

/-- **Below a power of two rounding goes up by a fixed length.** -/
theorem nearestUnits_mul_le_add {k : Nat} (hk : k < 2098) (hden : 0 < den)
    (h : num ≤ pow2 k * den) :
    2 * (nearestUnits num den * den) ≤ 2 * num + pow2 (k - 53) * den := by
  rcases Nat.lt_or_eq_of_le h with hlt | rfl
  · have hspacing : spacing (num / den) ≤ pow2 (k - 53) := by
      refine Nat.pow_le_pow_right (by decide) ?_
      rcases Nat.eq_zero_or_pos (num / den) with hzero | hpos
      · rw [hzero, Nat.log2_zero]
        omega
      · have hlog := (Nat.log2_lt (Nat.ne_of_gt hpos)).2 ((Nat.div_lt_iff_lt_mul hden).2 hlt)
        omega
    have hmul := Nat.mul_le_mul_right den hspacing
    have herror := two_mul_nearestUnits_le num den
    omega
  · rw [nearestUnits_mul_self hden (representable_pow2 hk)]
    omega

/-- **Rounding goes up by one part in `2^53` at most** from 53 bits on. -/
theorem nearestUnits_mul_le_mul (hden : 0 < den) (h : pow2 52 * den ≤ num) :
    nearestUnits num den * den * pow2 53 ≤ num * (pow2 53 + 1) := by
  have hquot : pow2 52 ≤ num / den := (Nat.le_div_iff_mul_le hden).2 h
  have hne : num / den ≠ 0 := Nat.ne_of_gt (Nat.lt_of_lt_of_le (pow2_pos 52) hquot)
  have hspacing : pow2 52 * spacing (num / den) ≤ num / den := by
    rw [pow2_mul_spacing ((Nat.le_log2 hne).2 hquot)]
    exact Nat.log2_self_le hne
  have hstep : pow2 52 * (spacing (num / den) * den) ≤ num := by
    rw [← Nat.mul_assoc]
    exact Nat.le_trans (Nat.mul_le_mul_right den hspacing) (Nat.div_mul_le_self num den)
  have herror := two_mul_nearestUnits_le num den
  generalize nearestUnits num den * den = rounded at *
  generalize spacing (num / den) * den = step at *
  simp only [pow2, Nat.pow_eq] at *
  omega

/-- Whole numbers of units are rounded up by one part in `2^53` at most. -/
theorem nearestUnits_one_mul_le (num : Nat) :
    nearestUnits num 1 * pow2 53 ≤ num * (pow2 53 + 1) := by
  rcases Nat.lt_or_ge num (pow2 53) with hlt | hge
  · have hexact := nearestUnits_mul_self Nat.one_pos (Magnitude.representable_of_lt hlt)
    rw [Nat.mul_one] at hexact
    rw [hexact]
    exact Nat.mul_le_mul_left _ (Nat.le_succ _)
  · have hlow : pow2 52 * 1 ≤ num := Nat.le_trans (by decide) hge
    have hle := nearestUnits_mul_le_mul Nat.one_pos hlow
    rwa [Nat.mul_one] at hle

/-- **A ratio less than half a spacing above a representable number is
rounded to it or below.** -/
theorem nearestUnits_le_of_lt_half (hden : 0 < den) (hu : Representable u)
    (h : 2 * num < 2 * (u * den) + spacing u * den) : nearestUnits num den ≤ u := by
  rcases Nat.lt_or_ge (u * den) num with hlt | hle
  · exact Nat.le_of_eq (nearestUnits_eq_of_le hden hu (Nat.le_of_lt hlt) h)
  · exact nearestUnits_le hden hu hle

/-- The spacing of a number of exactly 53 bits and a power of two. -/
theorem spacing_mul_pow2 {n e : Nat} (hlow : pow2 52 ≤ n) (hhigh : n < pow2 53) :
    spacing (n * pow2 e) = pow2 e := by
  have hne : n * pow2 e ≠ 0 :=
    Nat.ne_of_gt (Nat.mul_pos (Nat.lt_of_lt_of_le (pow2_pos 52) hlow) (pow2_pos e))
  have hlog : (n * pow2 e).log2 = 52 + e := by
    refine (Nat.log2_eq_iff hne).2 ⟨?_, ?_⟩
    · calc 2 ^ (52 + e) = pow2 52 * pow2 e := Nat.pow_add 2 52 e
        _ ≤ n * pow2 e := Nat.mul_le_mul_right _ hlow
    · calc n * pow2 e < pow2 53 * pow2 e := Nat.mul_lt_mul_of_pos_right hhigh (pow2_pos e)
        _ = 2 ^ (53 + e) := (Nat.pow_add 2 53 e).symm
        _ = 2 ^ (52 + e + 1) := by rw [Nat.add_right_comm]
  rw [spacing, hlog, Nat.add_sub_cancel_left]

/-- A ratio within a representable number is a magnitude within it. -/
theorem Binary64.ofUnits_of_le (negative : Bool) (hden : 0 < den) (hu : Representable u)
    (h : num ≤ u * den) : ∃ m : Magnitude, Binary64.ofUnits negative num den =
      .finite negative m ∧ m.units = nearestUnits num den ∧ m.units ≤ u := by
  have hle := nearestUnits_le hden hu h
  rcases Binary64.ofUnits_eq_or negative num den with ⟨-, hge⟩ | ⟨m, heq, hm⟩
  · exact absurd hu.1 (Nat.not_lt.2 (Nat.le_trans hge hle))
  · exact ⟨m, heq, hm, hm ▸ hle⟩

end ResilientCalls
