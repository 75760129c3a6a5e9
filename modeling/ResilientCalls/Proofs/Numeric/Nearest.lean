import ResilientCalls.Proofs.Numeric.Digits
import ResilientCalls.Proofs.Numeric.Order
/-!
# Ratios near a representable number

A ratio that lies less than half a spacing from a representable number is
rounded to it (`nearestUnits_eq_of_le`, `nearestUnits_eq_of_lt`); below a
power of two the spacing is the finer one. So rounding is known without
computing it.

The value of a numeral depends on the number it stands for alone: the
bounds on its leading digit are shortcuts (`Numeral.toBinary64_eq`), and
zeros at the end of its digits count as powers of ten
(`Numeral.toBinary64_mul_pow10`).
-/

namespace ResilientCalls

/-! ## Rounding to a whole number -/

/-- A ratio less than a half away from a whole number is rounded to it. -/
theorem roundHalfEven_eq {num den k : Nat} (hlow : 2 * (k * den) < 2 * num + den)
    (hhigh : 2 * num < 2 * (k * den) + den) : roundHalfEven num den = k := by
  have hden : 0 < den := by
    by_contra h
    obtain rfl : den = 0 := by omega
    omega
  have hsplit := Nat.div_add_mod num den
  have hrest := Nat.mod_lt num hden
  rw [Nat.mul_comm] at hsplit
  rcases Nat.lt_trichotomy (num / den) k with hlt | rfl | hgt
  · -- the floor is one step below, and more than a half is left
    have hmul := Nat.mul_le_mul_right den hlt
    rw [Nat.succ_mul] at hmul
    have hstep : num / den + 1 = k := by
      by_contra hne
      have hmul := Nat.mul_le_mul_right den (show num / den + 2 ≤ k by omega)
      rw [Nat.add_mul] at hmul
      omega
    subst hstep
    rw [Nat.succ_mul] at hlow
    simp only [roundHalfEven]
    rw [if_neg (by omega), if_pos (by omega)]
  · simp only [roundHalfEven]
    rw [if_pos (by omega)]
  · have hmul := Nat.mul_le_mul_right den hgt
    rw [Nat.succ_mul] at hmul
    omega

/-- Rounding depends on the ratio alone. -/
theorem roundHalfEven_mul {k : Nat} (hk : 0 < k) (num den : Nat) :
    roundHalfEven (num * k) (den * k) = roundHalfEven num den := by
  have hleft : 2 * (num % den * k) < den * k ↔ 2 * (num % den) < den := by
    rw [← Nat.mul_assoc, Nat.mul_lt_mul_right hk]
  have hright : den * k < 2 * (num % den * k) ↔ den < 2 * (num % den) := by
    rw [← Nat.mul_assoc, Nat.mul_lt_mul_right hk]
  simp only [roundHalfEven, Nat.mul_div_mul_right _ _ hk, Nat.mul_mod_mul_right, hleft, hright]

/-! ## The spacing -/

theorem spacing_pos (n : Nat) : 0 < spacing n := pow2_pos _

/-- A number counts fewer than `2^53` spacings. -/
theorem lt_mul_spacing (n : Nat) : n < pow2 53 * spacing n := by
  have h := div_spacing_lt n
  rwa [Nat.div_lt_iff_lt_mul (spacing_pos n)] at h

/-- The power of two below a number counts `2^52` of its spacings, unless
these are single units. -/
theorem pow2_mul_spacing {n : Nat} (h : 52 ≤ n.log2) : pow2 52 * spacing n = pow2 n.log2 := by
  have hlog : 52 + (n.log2 - 52) = n.log2 := by omega
  calc pow2 52 * spacing n = pow2 (52 + (n.log2 - 52)) := (Nat.pow_add 2 52 _).symm
    _ = pow2 n.log2 := by rw [hlog]

theorem spacing_eq_one {n : Nat} (h : n.log2 ≤ 52) : spacing n = 1 := by
  rw [spacing, Nat.sub_eq_zero_of_le h]

theorem spacing_dvd_spacing {m n : Nat} (h : m ≤ n) : spacing m ∣ spacing n := by
  refine Nat.pow_dvd_pow 2 (Nat.sub_le_sub_right ?_ 52)
  rcases Nat.eq_zero_or_pos m with rfl | hm
  · rw [Nat.log2_zero]
    exact Nat.zero_le _
  · have hlow := Nat.log2_self_le (Nat.ne_of_gt hm)
    exact (Nat.le_log2 (by omega)).2 (le_trans hlow h)

/-- A representable number is a whole number of its spacings. -/
theorem spacing_dvd {u : Nat} (hu : Representable u) : spacing u ∣ u := by
  obtain ⟨-, s, e, hs, rfl⟩ := hu
  rcases Nat.eq_zero_or_pos s with rfl | hpos
  · rw [Nat.zero_mul]
    exact Nat.dvd_zero _
  · have hlt : s * pow2 e < pow2 (53 + e) :=
      calc s * pow2 e < pow2 53 * pow2 e := Nat.mul_lt_mul_of_pos_right hs (pow2_pos e)
        _ = pow2 (53 + e) := (Nat.pow_add 2 53 e).symm
    have hlog : (s * pow2 e).log2 < 53 + e :=
      (Nat.log2_lt (Nat.ne_of_gt (Nat.mul_pos hpos (pow2_pos e)))).2 hlt
    exact Nat.dvd_trans (Nat.pow_dvd_pow 2 (by omega)) (Nat.dvd_mul_left _ _)

/-- The spacing is the same as far as the power of two below a number. -/
theorem spacing_eq_of_le {m n : Nat} (hle : m ≤ n) (h : 52 ≤ n.log2 → pow2 52 * spacing n ≤ m) :
    spacing m = spacing n := by
  rcases Nat.lt_or_ge n.log2 52 with hlow | hhigh
  · have hdvd := spacing_dvd_spacing hle
    rw [spacing_eq_one (Nat.le_of_lt hlow)] at hdvd ⊢
    exact Nat.dvd_one.1 hdvd
  · have hreach := h hhigh
    rw [pow2_mul_spacing hhigh] at hreach
    have hne : n ≠ 0 := by
      rintro rfl
      rw [Nat.log2_zero] at hhigh
      omega
    have hm : m ≠ 0 := Nat.ne_of_gt (lt_of_lt_of_le (pow2_pos _) hreach)
    have hlog : m.log2 = n.log2 :=
      (Nat.log2_eq_iff hm).2 ⟨hreach, lt_of_le_of_lt hle Nat.lt_log2_self⟩
    rw [spacing, spacing, hlog]

/-! ## Rounding to 53 bits -/

/-- Rounding to 53 bits depends on the ratio alone. -/
theorem nearestUnits_mul {k : Nat} (hk : 0 < k) (num den : Nat) :
    nearestUnits (num * k) (den * k) = nearestUnits num den := by
  simp only [nearestUnits, Nat.mul_div_mul_right _ _ hk, Nat.mul_right_comm den k]
  rw [roundHalfEven_mul hk]

/-- Equal ratios are rounded alike. -/
theorem nearestUnits_congr {a b c d : Nat} (hb : 0 < b) (hd : 0 < d) (h : a * d = c * b) :
    nearestUnits a b = nearestUnits c d := by
  rw [← nearestUnits_mul hd a b, h, Nat.mul_comm b d, nearestUnits_mul hb]

/-- A ratio less than half a step away from a whole number of steps is
rounded to it, when the spacing around the ratio is one step. -/
theorem nearestUnits_eq {num den k t : Nat} (ht : spacing (num / den) = t)
    (hlow : 2 * (k * (den * t)) < 2 * num + den * t)
    (hhigh : 2 * num < 2 * (k * (den * t)) + den * t) : nearestUnits num den = k * t := by
  rw [nearestUnits, ht, roundHalfEven_eq hlow hhigh]

/-- **A ratio above a representable number, by less than half its
spacing, is rounded to it.** -/
theorem nearestUnits_eq_of_le {num den u : Nat} (hden : 0 < den) (hu : Representable u)
    (hle : u * den ≤ num) (hnear : 2 * num < 2 * (u * den) + spacing u * den) :
    nearestUnits num den = u := by
  obtain ⟨k, hk⟩ := spacing_dvd hu
  generalize ht : spacing u = t at hk hnear
  have hfloor : u ≤ num / den := (Nat.le_div_iff_mul_le hden).2 hle
  have hceil : num / den < u + t := by
    rw [Nat.div_lt_iff_lt_mul hden, Nat.add_mul]
    omega
  have hspacing : t = spacing (num / den) := by
    rw [← ht]
    refine spacing_eq_of_le hfloor fun hlog => ?_
    rw [pow2_mul_spacing hlog]
    by_contra hlt
    -- a power of two would lie between them, at least a whole spacing away
    obtain ⟨l, hl⟩ : t ∣ pow2 (num / den).log2 := by
      rw [← pow2_mul_spacing hlog, ← ht]
      exact Nat.dvd_trans (spacing_dvd_spacing hfloor) (Nat.dvd_mul_left _ _)
    have hmore : k < l := by
      rw [hk, hl] at hlt
      exact Nat.lt_of_mul_lt_mul_left (not_le.1 hlt)
    have hnext : u + t ≤ pow2 (num / den).log2 := by
      have hmul := Nat.mul_le_mul_left t (Nat.succ_le_of_lt hmore)
      rwa [Nat.mul_succ, ← hk, ← hl] at hmul
    have hne : num / den ≠ 0 := by
      intro hzero
      rw [hzero, Nat.log2_zero] at hlog
      omega
    exact absurd (le_trans hnext (Nat.log2_self_le hne)) (not_le.2 hceil)
  have hunits : k * (den * t) = u * den := by
    rw [hk, Nat.mul_comm den, ← Nat.mul_assoc, Nat.mul_comm k]
  have hstep : den * t = t * den := Nat.mul_comm _ _
  rw [nearestUnits_eq hspacing.symm (k := k) (by omega) (by omega), Nat.mul_comm, ← hk]

/-- **A ratio below a representable number, by less than half the spacing
there, is rounded to it.** -/
theorem nearestUnits_eq_of_lt {num den u : Nat} (hden : 0 < den) (hu : Representable u)
    (hlt : num < u * den) (hnear : 2 * (u * den) < 2 * num + spacing (u - 1) * den) :
    nearestUnits num den = u := by
  obtain ⟨k, hk⟩ := Nat.dvd_trans (spacing_dvd_spacing (Nat.sub_le u 1)) (spacing_dvd hu)
  generalize ht : spacing (u - 1) = t at hk hnear
  have hpos : 0 < u := Nat.pos_of_mul_pos_right (Nat.zero_lt_of_lt hlt)
  have hceil : num / den ≤ u - 1 := by
    have := (Nat.div_lt_iff_lt_mul hden).2 hlt
    omega
  have hfloor : u ≤ num / den + t := by
    have hmul : (u - t) * den ≤ num := by
      rw [Nat.sub_mul]
      omega
    have := (Nat.le_div_iff_mul_le hden).2 hmul
    omega
  have hspacing : spacing (num / den) = t := by
    rw [← ht]
    refine spacing_eq_of_le hceil fun hlog => ?_
    rw [ht]
    -- the representable number lies past a power of two, so by at least one spacing
    have hreach : pow2 52 * t ≤ u - 1 := by
      have hne : u - 1 ≠ 0 := by
        intro hzero
        rw [hzero, Nat.log2_zero] at hlog
        omega
      rw [← ht, pow2_mul_spacing hlog]
      exact Nat.log2_self_le hne
    generalize pow2 52 = bits at hreach ⊢
    have hmore : bits < k := by
      have hmul : bits * t < k * t := by
        rw [Nat.mul_comm k, ← hk]
        omega
      exact Nat.lt_of_mul_lt_mul_right hmul
    have hmul := Nat.mul_le_mul_right t (Nat.succ_le_of_lt hmore)
    rw [Nat.succ_mul, Nat.mul_comm k, ← hk] at hmul
    omega
  have hunits : k * (den * t) = u * den := by
    rw [hk, Nat.mul_comm den, ← Nat.mul_assoc, Nat.mul_comm k]
  have hstep : den * t = t * den := Nat.mul_comm _ _
  rw [nearestUnits_eq hspacing (k := k) (by omega) (by omega), Nat.mul_comm, ← hk]

/-- No ratio is rounded below a power of two that it reaches, however
great. -/
theorem pow2_le_nearestUnits {num den e : Nat} (hden : 0 < den) (h : pow2 e * den ≤ num) :
    pow2 e ≤ nearestUnits num den := by
  have hfloor : pow2 e ≤ num / den := (Nat.le_div_iff_mul_le hden).2 h
  have hne : num / den ≠ 0 := Nat.ne_of_gt (lt_of_lt_of_le (pow2_pos e) hfloor)
  have hlog : e ≤ (num / den).log2 := (Nat.le_log2 hne).2 hfloor
  -- the power of two below the ratio is a whole number of spacings
  obtain ⟨k, hk⟩ : spacing (num / den) ∣ pow2 (num / den).log2 :=
    Nat.pow_dvd_pow 2 (Nat.sub_le _ 52)
  have hreach : k * (den * spacing (num / den)) ≤ num := by
    calc k * (den * spacing (num / den)) = pow2 (num / den).log2 * den := by
          rw [hk, Nat.mul_comm den, ← Nat.mul_assoc, Nat.mul_comm k]
      _ ≤ num / den * den := Nat.mul_le_mul_right _ (Nat.log2_self_le hne)
      _ ≤ num := Nat.div_mul_le_self num den
  calc pow2 e ≤ pow2 (num / den).log2 := Nat.pow_le_pow_right (by decide) hlog
    _ = k * spacing (num / den) := by rw [hk, Nat.mul_comm]
    _ ≤ nearestUnits num den := Nat.mul_le_mul_right _
        (le_roundHalfEven_of_mul_le (Nat.mul_pos hden (spacing_pos _)) hreach)

/-- A ratio below one half is rounded to zero. -/
theorem nearestUnits_eq_zero {num den : Nat} (h : 2 * num < den) : nearestUnits num den = 0 := by
  have hfloor : num / den = 0 := Nat.div_eq_of_lt (by omega)
  have hone : spacing (num / den) = 1 := by
    rw [hfloor]
    exact spacing_eq_one (by decide)
  rw [nearestUnits_eq hone (k := 0) (by omega) (by omega), Nat.zero_mul]

section

-- both counts are too large to be computed with
attribute [local irreducible] unitsPerOne unitsLimit

namespace Binary64

/-- A ratio is rounded to the magnitude that its rounding counts. -/
theorem ofUnits_eq_finite {num den : Nat} {m : Magnitude} (negative : Bool)
    (h : nearestUnits num den = m.units) : ofUnits negative num den = .finite negative m := by
  rcases ofUnits_eq_or negative num den with ⟨-, hge⟩ | ⟨n, heq, hn⟩
  · exact absurd hge (not_le.2 (h ▸ m.representable.1))
  · rw [heq]
    congr 1
    cases n
    cases m
    exact Magnitude.mk.injEq .. ▸ hn.trans h

/-- A ratio that is rounded past the range is infinite. -/
theorem ofUnits_eq_infinite {num den : Nat} (negative : Bool)
    (h : unitsLimit ≤ nearestUnits num den) : ofUnits negative num den = .infinite negative := by
  rcases ofUnits_eq_or negative num den with ⟨heq, -⟩ | ⟨m, -, hm⟩
  · exact heq
  · exact absurd h (not_le.2 (hm ▸ m.representable.1))

/-- Equal ratios are the same number. -/
theorem ofUnits_congr {a b c d : Nat} (negative : Bool) (hb : 0 < b) (hd : 0 < d)
    (h : a * d = c * b) : ofUnits negative a b = ofUnits negative c d := by
  have hnearest := nearestUnits_congr hb hd h
  rcases ofUnits_eq_or negative c d with ⟨heq, hge⟩ | ⟨m, heq, hm⟩
  · rw [heq, ofUnits_eq_infinite negative (hnearest ▸ hge)]
  · rw [heq, ofUnits_eq_finite negative (hnearest.trans hm.symm)]

end Binary64

/-! ## The value of a numeral -/

namespace Numeral

variable {n : Numeral}

/-- The number of a numeral as an exact ratio of units. -/
def units (n : Numeral) : Nat × Nat :=
  if 0 ≤ n.exponent then (n.digits * pow10 n.exponent.toNat * unitsPerOne, 1)
  else (n.digits * unitsPerOne, pow10 (-n.exponent).toNat)

theorem units_den_pos (n : Numeral) : 0 < n.units.2 := by
  unfold units
  split
  · exact Nat.one_pos
  · exact pow10_pos _

/-- The ratio of a numeral, in terms of any power of ten that makes its
exponent a natural number. -/
theorem units_mul_pow10 (n : Numeral) {k : Nat} (hk : 0 ≤ n.exponent + k) :
    n.units.1 * pow10 k = n.digits * pow10 (n.exponent + k).toNat * unitsPerOne * n.units.2 := by
  unfold units
  split
  · have hsum : (n.exponent + k).toNat = n.exponent.toNat + k := by omega
    rw [hsum, pow10_add, Nat.mul_one, ← Nat.mul_assoc, Nat.mul_right_comm _ (pow10 k)]
  · have hsum : k = (n.exponent + k).toNat + (-n.exponent).toNat := by omega
    conv => lhs; rw [hsum, pow10_add]
    rw [← Nat.mul_assoc, Nat.mul_right_comm n.digits]

/-! The bounds on the leading digit are wide enough. -/

theorem unitsLimit_eq : unitsLimit = pow2 1024 * unitsPerOne := by
  unfold unitsLimit unitsPerOne
  decide +kernel

theorem two_unitsPerOne_le : 2 * unitsPerOne ≤ pow10 331 := by
  unfold unitsPerOne
  decide +kernel

theorem pow2_le_pow10 : pow2 1024 ≤ pow10 310 := by decide +kernel

/-- A numeral whose leading digit stands beyond `10^310` lies past the
range. -/
theorem unitsLimit_mul_le (hpos : 0 < n.digits)
    (h : 310 < n.exponent + decimalLength n.digits) : unitsLimit * n.units.2 ≤ n.units.1 := by
  have hdigits := pow10_le_of_pos hpos
  have hlimit : unitsLimit ≤ pow10 310 * unitsPerOne := by
    rw [unitsLimit_eq]
    exact Nat.mul_le_mul_right _ pow2_le_pow10
  unfold units
  split
  · have hpow : pow10 310 ≤ n.digits * pow10 n.exponent.toNat :=
      calc pow10 310 ≤ pow10 (decimalLength n.digits - 1 + n.exponent.toNat) :=
            pow10_le_pow10 (by omega)
        _ = pow10 (decimalLength n.digits - 1) * pow10 n.exponent.toNat := pow10_add _ _
        _ ≤ n.digits * pow10 n.exponent.toNat := Nat.mul_le_mul_right _ hdigits
    calc unitsLimit * 1 = unitsLimit := Nat.mul_one _
      _ ≤ pow10 310 * unitsPerOne := hlimit
      _ ≤ n.digits * pow10 n.exponent.toNat * unitsPerOne := Nat.mul_le_mul_right _ hpow
  · have hpow : pow10 310 * pow10 (-n.exponent).toNat ≤ n.digits :=
      calc pow10 310 * pow10 (-n.exponent).toNat = pow10 (310 + (-n.exponent).toNat) :=
            (pow10_add _ _).symm
        _ ≤ pow10 (decimalLength n.digits - 1) := pow10_le_pow10 (by omega)
        _ ≤ n.digits := hdigits
    calc unitsLimit * pow10 (-n.exponent).toNat
          ≤ pow10 310 * unitsPerOne * pow10 (-n.exponent).toNat := Nat.mul_le_mul_right _ hlimit
      _ = pow10 310 * pow10 (-n.exponent).toNat * unitsPerOne := Nat.mul_right_comm _ _ _
      _ ≤ n.digits * unitsPerOne := Nat.mul_le_mul_right _ hpow

/-- A numeral whose leading digit stands below `10^-330` is less than half
a unit. -/
theorem two_mul_units_lt (h : n.exponent + decimalLength n.digits < -330) :
    2 * n.units.1 < n.units.2 := by
  have hneg : ¬ 0 ≤ n.exponent := by omega
  simp only [units, if_neg hneg]
  calc 2 * (n.digits * unitsPerOne) = n.digits * (2 * unitsPerOne) := Nat.mul_left_comm _ _ _
    _ < pow10 (decimalLength n.digits) * (2 * unitsPerOne) :=
        Nat.mul_lt_mul_of_pos_right (lt_pow10_decimalLength _)
          (Nat.mul_pos Nat.two_pos unitsPerOne_pos)
    _ ≤ pow10 (decimalLength n.digits) * pow10 331 :=
        Nat.mul_le_mul_left _ two_unitsPerOne_le
    _ = pow10 (decimalLength n.digits + 331) := (pow10_add _ _).symm
    _ ≤ pow10 (-n.exponent).toNat := pow10_le_pow10 (by omega)

/-- **A numeral is its exact ratio, rounded once:** the bounds on the
leading digit change nothing. -/
theorem toBinary64_eq (n : Numeral) :
    n.toBinary64 = .ofUnits n.negative n.units.1 n.units.2 := by
  have hzero : ∀ {num den : Nat}, 2 * num < den →
      Binary64.ofUnits n.negative num den = .finite n.negative .zero :=
    fun hlt => Binary64.ofUnits_eq_finite _ (nearestUnits_eq_zero hlt)
  have hden := n.units_den_pos
  simp only [toBinary64]
  split_ifs with hdigits habove hbelow hwhole
  · have hnum : n.units.1 = 0 := by
      unfold units
      split <;> simp [hdigits]
    rw [hnum, hzero (by omega)]
  · refine (Binary64.ofUnits_eq_infinite _ ?_).symm
    have hreach := unitsLimit_mul_le (Nat.pos_of_ne_zero hdigits) habove
    unfold unitsLimit at hreach ⊢
    exact pow2_le_nearestUnits hden hreach
  · exact (hzero (two_mul_units_lt hbelow)).symm
  · simp only [units, if_pos hwhole]
  · simp only [units, if_neg hwhole]

theorem toBinary64_zero (negative : Bool) (exponent : Int) :
    toBinary64 ⟨negative, 0, exponent⟩ = .finite negative .zero := by
  simp only [toBinary64, if_true]

/-- **Zeros at the end of the digits count as powers of ten.** -/
theorem toBinary64_mul_pow10 (negative : Bool) (digits k : Nat) (exponent : Int) :
    toBinary64 ⟨negative, digits * pow10 k, exponent⟩ =
      toBinary64 ⟨negative, digits, exponent + k⟩ := by
  rw [toBinary64_eq, toBinary64_eq]
  refine Binary64.ofUnits_congr negative (units_den_pos _) (units_den_pos _) ?_
  -- both sides in terms of one power of ten that clears the exponent
  obtain ⟨j, hj⟩ : ∃ j : Nat, 0 ≤ exponent + j := ⟨(-exponent).toNat, by omega⟩
  have hleft := units_mul_pow10 ⟨negative, digits * pow10 k, exponent⟩ (k := j) hj
  have hright := units_mul_pow10 ⟨negative, digits, exponent + k⟩ (k := j) (by simp only; omega)
  refine Nat.eq_of_mul_eq_mul_right (pow10_pos j) ?_
  have hsum : (exponent + k + j).toNat = k + (exponent + j).toNat := by omega
  simp only [hsum, pow10_add] at hleft hright
  rw [Nat.mul_right_comm, hleft, Nat.mul_right_comm _ _ (pow10 j), hright]
  simp only [Nat.mul_assoc, Nat.mul_left_comm, Nat.mul_comm]

/-- The sign of a numeral is the sign of its number. -/
theorem toBinary64_eq_finite {negative : Bool} {digits : Nat} {exponent : Int} {m : Magnitude}
    (h : toBinary64 ⟨false, digits, exponent⟩ = .finite false m) :
    toBinary64 ⟨negative, digits, exponent⟩ = .finite negative m := by
  rw [toBinary64_eq] at h ⊢
  refine Binary64.ofUnits_eq_finite _ ?_
  rcases Binary64.ofUnits_eq_or false (units ⟨false, digits, exponent⟩).1
      (units ⟨false, digits, exponent⟩).2 with ⟨heq, -⟩ | ⟨k, heq, hk⟩
  · rw [heq] at h
    cases h
  · rw [heq] at h
    cases h
    exact hk.symm

end Numeral

end

end ResilientCalls
