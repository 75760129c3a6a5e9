/-!
# Rounding to the nearest, ties to even

Two roundings of an exact ratio of naturals: to the nearest whole number,
and to the nearest number of at most 53 significant bits. The second is
the rounding of binary64 arithmetic. It works in units of `2^-1074`, the
smallest positive binary64 number, so that every finite magnitude is a
natural number and all rounding is arithmetic on naturals.

The main statement is `representable_nearestUnits`: what is rounded below
the range's end is representable.
-/

namespace ResilientCalls

/-- `2` to the power `n`. -/
abbrev pow2 (n : Nat) : Nat := Nat.pow 2 n

/-- `10` to the power `n`. -/
abbrev pow10 (n : Nat) : Nat := Nat.pow 10 n

/-- Greater exponents give greater powers of two. -/
theorem pow2_lt_pow2 {m n : Nat} (h : m < n) : pow2 m < pow2 n :=
  Nat.pow_lt_pow_right (by decide) h

/-- The whole number nearest to `num / den`; a half goes to the even
neighbour. -/
def roundHalfEven (num den : Nat) : Nat :=
  let whole := num / den
  let rest := num % den
  if 2 * rest < den then whole
  else if den < 2 * rest then whole + 1
  else if whole % 2 = 0 then whole else whole + 1

/-- Rounding moves at most one step up from the floor. -/
theorem roundHalfEven_le (num den : Nat) : roundHalfEven num den ≤ num / den + 1 := by
  simp only [roundHalfEven]
  split
  · omega
  · split
    · omega
    · split <;> omega

/-- Rounding never falls below the floor. -/
theorem le_roundHalfEven (num den : Nat) : num / den ≤ roundHalfEven num den := by
  simp only [roundHalfEven]
  split
  · omega
  · split
    · omega
    · split <;> omega

/-- The number of units in `1.0`. -/
def unitsPerOne : Nat := pow2 1074

/-- The first count of units past the largest finite binary64 number. -/
def unitsLimit : Nat := pow2 2098

/-- Counts of 53 bits lie far within the range. -/
theorem pow2_53_lt_unitsLimit : pow2 53 < unitsLimit := by
  unfold unitsLimit
  exact pow2_lt_pow2 (m := 53) (n := 2098) (by decide)

/-- A count of units is representable when it has at most 53 significant
bits and lies within the range. -/
def Representable (units : Nat) : Prop :=
  units < unitsLimit ∧ ∃ significand exponent, significand < pow2 53 ∧
    units = significand * pow2 exponent

/-- The distance between representable numbers around `units`. -/
def spacing (units : Nat) : Nat := pow2 (units.log2 - 52)

/-- The multiple of the spacing around `num / den` that is nearest to it;
a half goes to the even multiple. -/
def nearestUnits (num den : Nat) : Nat :=
  roundHalfEven num (den * spacing (num / den)) * spacing (num / den)

/-- A number of up to 53 bits, the 54-bit power of two included, has at
most 53 significant bits. -/
theorem exists_significand {n : Nat} (h : n ≤ pow2 53) (e : Nat) :
    ∃ significand exponent, significand < pow2 53 ∧
      n * pow2 e = significand * pow2 exponent := by
  by_cases hn : n < pow2 53
  · exact ⟨n, e, hn, rfl⟩
  · refine ⟨pow2 52, e + 1, by decide, ?_⟩
    have : n = pow2 53 := by omega
    subst this
    simp only [pow2, Nat.pow_eq, Nat.pow_succ]
    omega

/-- A number divided by the spacing around it has at most 53 bits. -/
theorem div_spacing_lt (n : Nat) : n / spacing n < pow2 53 := by
  unfold spacing
  simp only [pow2, Nat.pow_eq]
  apply Nat.div_lt_of_lt_mul
  rw [← Nat.pow_add]
  by_cases h : n = 0
  · subst h; decide
  · have hlt : n < 2 ^ (n.log2 + 1) := Nat.lt_log2_self
    exact Nat.lt_of_lt_of_le hlt (Nat.pow_le_pow_right (by decide) (by omega))

/-- **What rounding gives is representable** as long as it stays within
the range. -/
theorem representable_nearestUnits {num den : Nat} (h : nearestUnits num den < unitsLimit) :
    Representable (nearestUnits num den) := by
  refine ⟨h, exists_significand ?_ _⟩
  have hle := roundHalfEven_le num (den * spacing (num / den))
  have hlt := div_spacing_lt (num / den)
  rw [Nat.div_div_eq_div_mul] at hlt
  omega

end ResilientCalls
