import Mathlib.Order.Basic
import ResilientCalls.Proofs.Numeric.Nearest
/-!
# Rounded powers keep their order

Rounding keeps the order of ratios (`nearestUnits_mono`), so products of
numbers from one on keep the order of their factors (`mul_le_mul`). Powers
by repeated squaring are rounded along chains that differ from one exponent
to the next, and no formula describes them. What holds them in order is the
loop itself: below its lowest zero bit an exponent has only ones, and there
the product of the squares chosen so far is at most the next square, which
is what the next exponent chooses instead (`pow_le_pow`).
-/

namespace ResilientCalls

/-! ## Rounding -/

/-- A greater ratio is rounded to no smaller whole number. -/
theorem roundHalfEven_mono {a b den : Nat} (h : a ≤ b) :
    roundHalfEven a den ≤ roundHalfEven b den := by
  have hfloor : a / den ≤ b / den := Nat.div_le_div_right h
  rcases Nat.lt_or_eq_of_le hfloor with hlt | heq
  · calc roundHalfEven a den ≤ a / den + 1 := roundHalfEven_le a den
      _ ≤ b / den := hlt
      _ ≤ roundHalfEven b den := le_roundHalfEven b den
  · -- the floors agree, so the greater ratio leaves the greater rest
    have ha := Nat.div_add_mod a den
    have hb := Nat.div_add_mod b den
    rw [heq] at ha
    simp only [roundHalfEven, heq]
    split_ifs <;> omega

/-- **Rounding to 53 bits keeps the order,** within the range. -/
theorem nearestUnits_mono {a b den : Nat} (hden : 0 < den) (h : a ≤ b)
    (hb : nearestUnits b den < unitsLimit) : nearestUnits a den ≤ nearestUnits b den := by
  have hfloor : a / den ≤ b / den := Nat.div_le_div_right h
  rcases Nat.lt_or_ge (a / den).log2 (b / den).log2 with hlt | hge
  · -- the power of two below the greater floor lies between the two
    have hne : b / den ≠ 0 := by
      intro hzero
      rw [hzero, Nat.log2_zero] at hlt
      omega
    have hpow : pow2 (b / den).log2 ≤ nearestUnits b den := by
      refine pow2_le_nearestUnits hden ?_
      exact (Nat.le_div_iff_mul_le hden).1 (Nat.log2_self_le hne)
    have hbound : Representable (pow2 (b / den).log2) :=
      ⟨lt_of_le_of_lt hpow hb, 1, _, by decide, (Nat.one_mul _).symm⟩
    have hbelow : a / den < pow2 (b / den).log2 :=
      lt_of_lt_of_le Nat.lt_log2_self (Nat.pow_le_pow_right (by decide) hlt)
    have hnum : a ≤ pow2 (b / den).log2 * den :=
      Nat.le_of_lt ((Nat.div_lt_iff_lt_mul hden).1 hbelow)
    exact le_trans (nearestUnits_le hden hbound hnum) hpow
  · have hsame : spacing (a / den) = spacing (b / den) := by
      have hdvd := spacing_dvd_spacing hfloor
      unfold spacing at hdvd ⊢
      have hle := (Nat.pow_dvd_pow_iff_le_right (by decide)).1 hdvd
      rw [show (a / den).log2 - 52 = (b / den).log2 - 52 by omega]
    rw [nearestUnits, nearestUnits, hsame]
    exact Nat.mul_le_mul_right _ (roundHalfEven_mono h)

section

-- both counts are too large to be computed with
attribute [local irreducible] unitsPerOne unitsLimit

namespace Binary64

/-! ## Products -/

/-- Factors can be exchanged. -/
theorem mul_comm (x y : Binary64) : x.mul y = y.mul x := by
  have hsign : ∀ s t : Bool, (s != t) = (t != s) := by decide
  cases x <;> cases y <;> simp only [Binary64.mul, Nat.mul_comm, hsign]

/-- One is neutral on the left too. -/
theorem one_mul (x : Binary64) : one.mul x = x := by
  rw [mul_comm, mul_one]

variable {u v : Nat} {x x' y y' : Binary64}

/-- A positive number is at most itself. -/
theorem AtLeast.le_refl (hx : AtLeast u x) : x.le x = true := by
  rcases hx.eq_infinite_or with rfl | ⟨m, rfl, -⟩
  · exact le_infinite_infinite
  · simp

/-- Of two positive numbers in order the greater is infinite, or both are
magnitudes in order. -/
theorem AtLeast.eq_infinite_or_of_le (hx : AtLeast u x) (hx' : AtLeast v x')
    (h : x.le x' = true) : x' = .infinite false ∨
      ∃ m m' : Magnitude, x = .finite false m ∧ x' = .finite false m' ∧ m.units ≤ m'.units := by
  rcases hx'.eq_infinite_or with rfl | ⟨m', rfl, -⟩
  · exact Or.inl rfl
  · rcases hx.eq_infinite_or with rfl | ⟨m, rfl, -⟩
    · simp at h
    · exact Or.inr ⟨m, m', rfl, rfl, by simpa using h⟩

/-- An infinite factor makes the product infinite. -/
theorem AtLeast.mul_infinite (hx : AtLeast unitsPerOne x) :
    x.mul (.infinite false) = .infinite false := by
  have hone := unitsPerOne_pos
  rcases hx.eq_infinite_or with rfl | ⟨m, rfl, hm⟩
  · rfl
  · have hne : m.units ≠ 0 := by omega
    simp [Binary64.mul, hne]

/-- Whatever is at least one is at most infinity. -/
theorem AtLeast.le_infinite (hx : AtLeast u x) : x.le (.infinite false) = true := by
  rcases hx.eq_infinite_or with rfl | ⟨m, rfl, -⟩
  · exact le_infinite_infinite
  · exact le_finite_infinite m

/-- **Products of numbers from one on keep the order of their factors.** -/
theorem mul_le_mul (hx : AtLeast unitsPerOne x) (hx' : AtLeast unitsPerOne x')
    (hy : AtLeast unitsPerOne y) (hy' : AtLeast unitsPerOne y') (hxx : x.le x' = true)
    (hyy : y.le y' = true) : (x.mul y).le (x'.mul y') = true := by
  have hproduct : AtLeast unitsPerOne (x.mul y) :=
    hx.mul representable_unitsPerOne unitsPerOne_pos hy
  rcases hx.eq_infinite_or_of_le hx' hxx with rfl | ⟨m, m', rfl, rfl, hm⟩
  · rw [mul_comm _ y', hy'.mul_infinite]
    exact hproduct.le_infinite
  rcases hy.eq_infinite_or_of_le hy' hyy with rfl | ⟨n, n', rfl, rfl, hn⟩
  · rw [hx'.mul_infinite]
    exact hproduct.le_infinite
  -- both products are rounded ratios of one denominator
  simp only [Binary64.mul, bne_self_eq_false] at hproduct ⊢
  rcases ofUnits_eq_or false (m'.units * n'.units) unitsPerOne with ⟨heq, -⟩ | ⟨k', heq', hk'⟩
  · rw [heq]
    exact hproduct.le_infinite
  · have hle : nearestUnits (m.units * n.units) unitsPerOne ≤ k'.units := by
      have hlimit := k'.representable.1
      rw [hk'] at hlimit ⊢
      exact nearestUnits_mono unitsPerOne_pos (Nat.mul_le_mul hm hn) hlimit
    rcases ofUnits_eq_or false (m.units * n.units) unitsPerOne with ⟨-, hge⟩ | ⟨k, heq, hk⟩
    · have hlimit := k'.representable.1
      omega
    · rw [heq, heq', le_finite_finite, decide_eq_true_eq, hk]
      exact hle

/-! ## Powers -/

variable {acc acc' base : Binary64}

/-- Squarings that no bit of the exponent asks for change nothing. -/
theorem powLoop_zero (squarings : Nat) (acc base : Binary64) :
    powLoop squarings acc base 0 = acc := by
  induction squarings generalizing base with
  | zero => rfl
  | succ s ih => exact ih (base.mul base)

/-- So the loop may go on past the highest bit. -/
theorem powLoop_eq_of_le {m n exponent : Nat} (hm : exponent < pow2 (m + 1)) (hmn : m ≤ n)
    (acc base : Binary64) : powLoop n acc base exponent = powLoop m acc base exponent := by
  induction m generalizing n acc base exponent with
  | zero =>
    cases n with
    | zero => rfl
    | succ n =>
      have hhalf : exponent / 2 = 0 := by
        simp only [pow2, Nat.pow_eq] at hm
        omega
      rw [powLoop, powLoop, hhalf, powLoop_zero]
  | succ m ih =>
    obtain ⟨n, rfl⟩ := Nat.exists_eq_add_of_lt (Nat.lt_of_succ_le hmn)
    have hhalf : exponent / 2 < pow2 (m + 1) := by
      simp only [pow2, Nat.pow_eq] at hm ⊢
      omega
    rw [powLoop, powLoop]
    exact ih hhalf (by omega) _ _

/-- A power with as many squarings as one likes. -/
theorem pow_eq_powLoop {n exponent : Nat} (h : exponent.log2 ≤ n) (base : Binary64) :
    base.pow exponent = powLoop n one base exponent :=
  (powLoop_eq_of_le Nat.lt_log2_self h one base).symm

/-- The loop keeps the order of what has been chosen. -/
theorem powLoop_le_powLoop (squarings exponent : Nat) (hacc : AtLeast unitsPerOne acc)
    (hacc' : AtLeast unitsPerOne acc') (hbase : AtLeast unitsPerOne base)
    (h : acc.le acc' = true) :
    (powLoop squarings acc base exponent).le (powLoop squarings acc' base exponent) = true := by
  have hmul : ∀ {x y : Binary64}, AtLeast unitsPerOne x → AtLeast unitsPerOne y →
      AtLeast unitsPerOne (x.mul y) :=
    fun hx hy => hx.mul representable_unitsPerOne unitsPerOne_pos hy
  induction squarings generalizing acc acc' base exponent with
  | zero =>
    unfold powLoop
    split
    · exact mul_le_mul hacc hacc' hbase hbase h hbase.le_refl
    · exact h
  | succ s ih =>
    unfold powLoop
    split
    · exact ih _ (hmul hacc hbase) (hmul hacc' hbase) (hmul hbase hbase)
        (mul_le_mul hacc hacc' hbase hbase h hbase.le_refl)
    · exact ih _ hacc hacc' (hmul hbase hbase) h

/-- **One more in the exponent makes nothing smaller.** The induction is on
the squarings, along the ones at the end of the exponent: there the greater
exponent has chosen nothing yet, and what the smaller one has chosen is at
most the current square. -/
theorem powLoop_le_succ (squarings : Nat) {exponent : Nat} (hexponent :
      exponent + 1 < pow2 (squarings + 1)) (hacc : AtLeast unitsPerOne acc)
    (hbase : AtLeast unitsPerOne base) (h : acc.le base = true) :
    (powLoop squarings acc base exponent).le (powLoop squarings one base (exponent + 1)) =
      true := by
  induction squarings generalizing acc base exponent with
  | zero =>
    obtain rfl : exponent = 0 := by
      simp only [pow2, Nat.pow_eq] at hexponent
      omega
    have hchosen : powLoop 0 one base (0 + 1) = base := one_mul base
    rw [hchosen]
    exact h
  | succ s ih =>
    have hsquare : AtLeast unitsPerOne (base.mul base) :=
      hbase.mul representable_unitsPerOne unitsPerOne_pos hbase
    rcases Nat.mod_two_eq_zero_or_one exponent with heven | hodd
    · -- the greater exponent chooses this square, and then both go on alike
      have hhalf : (exponent + 1) / 2 = exponent / 2 := by omega
      rw [powLoop, powLoop, if_neg (by omega), if_pos (by omega), hhalf, one_mul]
      exact powLoop_le_powLoop s _ hacc hbase hsquare h
    · have hhalf : (exponent + 1) / 2 = exponent / 2 + 1 := by omega
      rw [powLoop, powLoop, if_pos hodd, if_neg (by omega), hhalf]
      refine ih ?_ (hacc.mul representable_unitsPerOne unitsPerOne_pos hbase) hsquare
        (mul_le_mul hacc hbase hbase hbase h hbase.le_refl)
      simp only [pow2, Nat.pow_eq] at hexponent ⊢
      omega

/-- **Greater exponents give no smaller powers** of a number from one on,
however the powers are rounded on the way. -/
theorem pow_le_pow (hbase : AtLeast unitsPerOne base) {m n : Nat} (h : m ≤ n) :
    (base.pow m).le (base.pow n) = true := by
  induction n, h using Nat.le_induction with
  | base => exact (atLeast_pow hbase m).le_refl
  | succ n hmn ih =>
    refine le_of_le_of_le ih ?_
    have hone : one.le base = true := by
      have hle := le_mul_of_atLeast atLeast_one hbase
      rwa [one_mul] at hle
    have hlog : n.log2 ≤ (n + 1).log2 := by
      rcases Nat.eq_zero_or_pos n with rfl | hpos
      · rw [Nat.log2_zero]
        exact Nat.zero_le _
      · exact (Nat.le_log2 (by omega)).2 (le_trans (Nat.log2_self_le (by omega)) (Nat.le_succ n))
    rw [pow_eq_powLoop hlog, pow_eq_powLoop (Nat.le_refl (n + 1).log2)]
    exact powLoop_le_succ _ Nat.lt_log2_self atLeast_one hbase hone

end Binary64

end

end ResilientCalls
