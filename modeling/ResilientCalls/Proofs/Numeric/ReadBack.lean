import ResilientCalls.Numeric.Shortest
import ResilientCalls.Proofs.Numeric.Nearest
/-!
# Decimals that read back

On the grid of seventeen digits, the grid point nearest to a magnitude is
rounded to it again: the grid is finer than the spacing of magnitudes, and
that is all there is to it (`Magnitude.readsBack_of_near`). So the search
for the fewest digits ends with a numeral that reads back
(`Magnitude.toBinary64_shortest`), also with its last zeros taken off.
-/

namespace ResilientCalls

section

-- both counts are too large to be computed with
attribute [local irreducible] unitsPerOne unitsLimit

namespace Magnitude

variable {m : Magnitude} {exponent : Int}

/-- The ratio of a magnitude to a power of ten, and the ratio of a numeral
with that exponent, are counted in the same unit. -/
theorem units_eq_mul_ratio (m : Magnitude) (digits : Nat) (exponent : Int) :
    (Numeral.units ⟨false, digits, exponent⟩).1 = digits * (m.ratio exponent).2 ∧
      (m.ratio exponent).1 = m.units * (Numeral.units ⟨false, digits, exponent⟩).2 := by
  unfold Numeral.units ratio
  split
  · exact ⟨by simp only [Nat.mul_assoc, Nat.mul_comm unitsPerOne], (Nat.mul_one _).symm⟩
  · exact ⟨rfl, rfl⟩

theorem ratio_den_pos (m : Magnitude) (exponent : Int) : 0 < (m.ratio exponent).2 := by
  unfold ratio
  split
  · exact Nat.mul_pos unitsPerOne_pos (pow10_pos _)
  · exact unitsPerOne_pos

/-- A magnitude counts at most `2^53` spacings of what is just below it. -/
theorem units_lt (hpos : 0 < m.units) : m.units < pow10 16 * spacing (m.units - 1) := by
  have hlt := lt_mul_spacing (m.units - 1)
  have hstep := spacing_pos (m.units - 1)
  have hbits : pow2 53 < pow10 16 := by decide
  have hmul : (pow2 53 + 1) * spacing (m.units - 1) ≤ pow10 16 * spacing (m.units - 1) :=
    Nat.mul_le_mul_right _ hbits
  rw [Nat.succ_mul] at hmul
  generalize pow2 53 * spacing (m.units - 1) = below at hlt hmul
  omega

/-- **On a grid of seventeen digits, what is nearest reads back.** The
distance is at most half a step of the grid, which is less than half the
spacing of magnitudes, also just below a power of two. -/
theorem readsBack_of_near {digits : Nat} (hpos : 0 < m.units)
    (hfine : (m.ratio exponent).2 * pow10 16 ≤ (m.ratio exponent).1)
    (hlow : 2 * (m.ratio exponent).1 ≤
      2 * (digits * (m.ratio exponent).2) + (m.ratio exponent).2)
    (hhigh : 2 * (digits * (m.ratio exponent).2) ≤
      2 * (m.ratio exponent).1 + (m.ratio exponent).2) :
    m.readsBack digits exponent = true := by
  obtain ⟨hnum, hden⟩ := units_eq_mul_ratio m digits exponent
  have hpositive := Numeral.units_den_pos ⟨false, digits, exponent⟩
  -- one step of the grid is less than the spacing
  have hgrid : (m.ratio exponent).2 <
      spacing (m.units - 1) * (Numeral.units ⟨false, digits, exponent⟩).2 := by
    refine Nat.lt_of_mul_lt_mul_right (a := pow10 16) (lt_of_le_of_lt hfine ?_)
    rw [hden, Nat.mul_right_comm, Nat.mul_comm _ (pow10 16)]
    exact Nat.mul_lt_mul_of_pos_right (units_lt hpos) hpositive
  have hcoarse : spacing (m.units - 1) * (Numeral.units ⟨false, digits, exponent⟩).2 ≤
      spacing m.units * (Numeral.units ⟨false, digits, exponent⟩).2 :=
    Nat.mul_le_mul_right _
      (Nat.le_of_dvd (spacing_pos _) (spacing_dvd_spacing (Nat.sub_le m.units 1)))
  rw [readsBack, decide_eq_true_iff, Numeral.toBinary64_eq]
  refine Binary64.ofUnits_eq_finite _ ?_
  rcases Nat.lt_or_ge (digits * (m.ratio exponent).2) (m.ratio exponent).1 with hlt | hge
  · refine nearestUnits_eq_of_lt hpositive m.representable ?_ ?_ <;> omega
  · refine nearestUnits_eq_of_le hpositive m.representable ?_ ?_ <;> omega

theorem ratio_neg (m : Magnitude) {k : Nat} (hk : 0 < k) :
    m.ratio (-(k : Int)) = (m.units * pow10 k, unitsPerOne) := by
  rw [ratio, if_neg (by omega), Int.neg_neg, Int.toNat_natCast]

/-- Seventeen digits make a grid as fine as that. -/
theorem ratio_leading (hpos : 0 < m.units) :
    (m.ratio (m.leading - 16)).2 * pow10 16 ≤ (m.ratio (m.leading - 16)).1 := by
  -- the leading digit stands where the whole part, scaled up far enough, has it
  have hwhole : 0 < m.units * pow10 330 / unitsPerOne := by
    refine Nat.div_pos ?_ unitsPerOne_pos
    have hscale : unitsPerOne ≤ pow10 330 := by
      unfold unitsPerOne
      decide +kernel
    exact le_trans hscale (Nat.le_mul_of_pos_left _ hpos)
  have hleading : m.leading =
      (decimalLength (m.units * pow10 330 / unitsPerOne) : Int) - 331 := by
    have hratio := m.ratio_neg (k := 330) (by decide)
    rw [leading, show (-330 : Int) = -((330 : Nat) : Int) from rfl, hratio]
  have hreach := (Nat.le_div_iff_mul_le unitsPerOne_pos).1 (pow10_le_of_pos hwhole)
  have hlength := decimalLength_pos (m.units * pow10 330 / unitsPerOne)
  rw [hleading]
  generalize decimalLength (m.units * pow10 330 / unitsPerOne) = length at hreach hlength ⊢
  refine Nat.le_of_mul_le_mul_right ?_ (pow10_pos 330)
  unfold ratio
  split
  · have hsum : length - 1 = ((length : Int) - 331 - 16).toNat + (16 + 330) := by omega
    rw [hsum, pow10_add, pow10_add 16] at hreach
    calc unitsPerOne * pow10 ((length : Int) - 331 - 16).toNat * pow10 16 * pow10 330
          = pow10 ((length : Int) - 331 - 16).toNat * (pow10 16 * pow10 330) * unitsPerOne := by
            simp only [Nat.mul_assoc, Nat.mul_comm unitsPerOne]
      _ ≤ m.units * pow10 330 := hreach
  · have hsum : 16 + 330 = length - 1 + (-((length : Int) - 331 - 16)).toNat := by omega
    calc unitsPerOne * pow10 16 * pow10 330
          = pow10 (length - 1) * unitsPerOne * pow10 (-((length : Int) - 331 - 16)).toNat := by
            rw [Nat.mul_assoc, ← pow10_add, hsum, pow10_add]
            simp only [Nat.mul_assoc, Nat.mul_comm unitsPerOne]
      _ ≤ m.units * pow10 330 * pow10 (-((length : Int) - 331 - 16)).toNat :=
          Nat.mul_le_mul_right _ hreach
      _ = m.units * pow10 (-((length : Int) - 331 - 16)).toNat * pow10 330 :=
          Nat.mul_right_comm _ _ _

/-! ## The search for the fewest digits -/

/-- What a grid gives reads back. -/
theorem readsBack_of_onGrid? {tie : TieRule} {digits : Nat}
    (h : m.onGrid? tie exponent = some digits) : m.readsBack digits exponent = true := by
  simp only [onGrid?] at h
  split at h
  · next hbelow habove =>
    -- both grid points read back, so it does not matter which is chosen
    have hchoice : digits = (m.ratio exponent).1 / (m.ratio exponent).2 ∨
        digits = (m.ratio exponent).1 / (m.ratio exponent).2 + 1 := by
      split_ifs at h <;> cases tie <;> simp only [Option.some.injEq] at h <;> omega
    rcases hchoice with rfl | rfl
    · exact hbelow
    · exact habove
  · next hbelow _ =>
    cases h
    exact hbelow
  · next _ habove =>
    cases h
    exact habove
  · cases h

/-- A grid as fine as one of seventeen digits always gives something: the
nearer of the two grid points reads back. -/
theorem onGrid?_isSome (tie : TieRule) (hpos : 0 < m.units)
    (hfine : (m.ratio exponent).2 * pow10 16 ≤ (m.ratio exponent).1) :
    (m.onGrid? tie exponent).isSome = true := by
  have hden := m.ratio_den_pos exponent
  have hsplit := Nat.div_add_mod (m.ratio exponent).1 (m.ratio exponent).2
  have hrest := Nat.mod_lt (m.ratio exponent).1 hden
  rw [Nat.mul_comm] at hsplit
  have hnear : m.readsBack ((m.ratio exponent).1 / (m.ratio exponent).2) exponent = true ∨
      m.readsBack ((m.ratio exponent).1 / (m.ratio exponent).2 + 1) exponent = true := by
    rcases Nat.le_total (2 * ((m.ratio exponent).1 % (m.ratio exponent).2))
        (m.ratio exponent).2 with hle | hge
    · exact Or.inl (readsBack_of_near hpos hfine (by omega) (by omega))
    · refine Or.inr (readsBack_of_near hpos hfine ?_ ?_) <;>
        rw [Nat.succ_mul ((m.ratio exponent).1 / (m.ratio exponent).2)] <;> omega
  simp only [onGrid?]
  split
  · split_ifs <;> cases tie <;> rfl
  · rfl
  · rfl
  · next hbelow habove =>
    rw [hbelow, habove] at hnear
    simp at hnear

end Magnitude

/-- Zeros moved into the exponent change no value. -/
theorem ShortDecimal.toBinary64_strip (negative : Bool) (fuel digits : Nat) (exponent : Int) :
    Numeral.toBinary64 ⟨negative, (strip fuel digits exponent).digits,
      (strip fuel digits exponent).exponent⟩ = Numeral.toBinary64 ⟨negative, digits, exponent⟩ := by
  induction fuel generalizing digits exponent with
  | zero => rfl
  | succ fuel ih =>
    simp only [strip]
    split_ifs with hzero
    · have hten : digits / 10 * pow10 1 = digits :=
        Nat.div_mul_cancel (Nat.dvd_of_mod_eq_zero hzero.2)
      rw [ih]
      conv => rhs; rw [← hten]
      exact (Numeral.toBinary64_mul_pow10 negative (digits / 10) 1 exponent).symm
    · rfl

namespace Magnitude

variable {m : Magnitude}

theorem toBinary64_of_readsBack {digits : Nat} {exponent : Int}
    (h : m.readsBack digits exponent = true) :
    Numeral.toBinary64 ⟨false, digits, exponent⟩ = .finite false m := of_decide_eq_true h

/-- The search ends with a numeral that reads back as long as the grid of
seventeen digits is among the grids it tries. -/
theorem toBinary64_firstGrid (tie : TieRule) (hpos : 0 < m.units) {fuel count : Nat}
    (hle : count ≤ 17) (hreach : 17 < count + fuel) :
    Numeral.toBinary64 ⟨false, (m.firstGrid tie fuel count).digits,
      (m.firstGrid tie fuel count).exponent⟩ = .finite false m := by
  induction fuel generalizing count with
  | zero => omega
  | succ fuel ih =>
    cases hgrid : m.onGrid? tie (m.leading - count + 1) with
    | some digits =>
      simp only [firstGrid, hgrid, Option.map_some, Option.getD_some]
      rw [ShortDecimal.toBinary64_strip]
      exact toBinary64_of_readsBack (readsBack_of_onGrid? hgrid)
    | none =>
      simp only [firstGrid, hgrid, Option.map_none, Option.getD_none]
      refine ih (Nat.succ_le_of_lt (Nat.lt_of_le_of_ne hle ?_)) (by omega)
      rintro rfl
      have hseventeen : m.leading - ((17 : Nat) : Int) + 1 = m.leading - 16 := by omega
      have hsome := onGrid?_isSome tie hpos (ratio_leading hpos)
      rw [← hseventeen, hgrid] at hsome
      exact absurd hsome Bool.false_ne_true

/-- **The shortest decimal of a number reads back.** -/
theorem toBinary64_shortest (tie : TieRule) (negative : Bool) (m : Magnitude) :
    Numeral.toBinary64 ⟨negative, (m.shortest tie).digits, (m.shortest tie).exponent⟩ =
      .finite negative m := by
  refine Numeral.toBinary64_eq_finite ?_
  unfold shortest
  split_ifs with hzero
  · obtain ⟨units, hunits⟩ := m
    obtain rfl : units = 0 := hzero
    exact Numeral.toBinary64_zero false 0
  · exact toBinary64_firstGrid tie (Nat.pos_of_ne_zero hzero) (by decide) (by decide)

/-- The digits are zero only for zero, which has no exponent. -/
theorem exponent_shortest {tie : TieRule} (h : (m.shortest tie).digits = 0) :
    (m.shortest tie).exponent = 0 := by
  have hread := toBinary64_shortest tie false m
  rw [h, Numeral.toBinary64_zero] at hread
  have hzero : m.units = 0 := by
    cases hread
    exact Eq.refl 0
  rw [shortest, if_pos hzero]

end Magnitude

end

end ResilientCalls
