import Mathlib.Algebra.Group.Nat.Defs
import ResilientCalls.Proofs.Numeric.Powers
/-!
# Whole numbers and their powers

Every whole number up to `2^53` is a binary64 number; past it most are
not. A product of whole numbers is therefore exact as long as it stays
within `2^53`. Once it is past that it may lose its last digits or become
infinite, but it never falls back, for rounding does not cross `2^53` and
no further factor is smaller than one. `StandsFor` says both of a number at once,
and products (`StandsFor.mul`) and powers by repeated squaring
(`StandsFor.pow`) keep it, whatever has been lost on the way.
-/

namespace ResilientCalls

/-- Multiples of a power of two with up to 53 bits are representable. -/
theorem representable_mul_pow2 {n e : Nat} (h : n ≤ pow2 53) (he : 53 + e < 2098) :
    Representable (n * pow2 e) := by
  refine ⟨?_, exists_significand h e⟩
  unfold unitsLimit
  calc n * pow2 e ≤ pow2 53 * pow2 e := Nat.mul_le_mul_right _ h
    _ = pow2 (53 + e) := (Nat.pow_add 2 53 e).symm
    _ < pow2 2098 := pow2_lt_pow2 he

/-- Whole numbers up to `2^53` are representable. -/
theorem representable_mul_unitsPerOne {n : Nat} (h : n ≤ pow2 53) :
    Representable (n * unitsPerOne) := by
  unfold unitsPerOne
  exact representable_mul_pow2 h (by decide)

section

-- the units of one are a number of a thousand bits, which nothing here may compute
attribute [local irreducible] unitsPerOne unitsLimit

namespace Binary64

/-- The number is the whole number `n`. -/
def IsWhole (x : Binary64) (n : Nat) : Prop :=
  ∃ m : Magnitude, x = .finite false m ∧ m.units = n * unitsPerOne

/-- **A number in the place of a whole one:** the same up to `2^53`, and
one of at least `2^53` in the place of any that is past it. -/
def StandsFor (x : Binary64) (n : Nat) : Prop :=
  if n ≤ pow2 53 then x.IsWhole n else AtLeast (pow2 53 * unitsPerOne) x

variable {x y acc base : Binary64} {a b n : Nat}

theorem standsFor_of_le (hn : n ≤ pow2 53) : x.StandsFor n ↔ x.IsWhole n := by
  rw [StandsFor, if_pos hn]

theorem standsFor_of_lt (hn : pow2 53 < n) :
    x.StandsFor n ↔ AtLeast (pow2 53 * unitsPerOne) x := by
  rw [StandsFor, if_neg (Nat.not_le.2 hn)]

/-- A whole number is at least any smaller one. -/
theorem IsWhole.atLeast (h : x.IsWhole n) (hn : a ≤ n) : AtLeast (a * unitsPerOne) x := by
  obtain ⟨m, rfl, hm⟩ := h
  exact ⟨rfl, by rw [hm]; exact Nat.mul_le_mul_right _ hn⟩

/-- A whole number stands for itself. -/
theorem IsWhole.standsFor (h : x.IsWhole n) : x.StandsFor n := by
  rcases Nat.lt_or_ge (pow2 53) n with hlt | hle
  · exact (standsFor_of_lt hlt).2 (h.atLeast (Nat.le_of_lt hlt))
  · exact (standsFor_of_le hle).2 h

/-- What stands for a positive number is at least one. -/
theorem StandsFor.one_le (h : x.StandsFor n) (hn : 1 ≤ n) : AtLeast unitsPerOne x := by
  rw [← Nat.one_mul unitsPerOne]
  rcases Nat.lt_or_ge (pow2 53) n with hlt | hle
  · have hpast := (standsFor_of_lt hlt).1 h
    rcases hpast.eq_infinite_or with rfl | ⟨m, rfl, hm⟩
    · rfl
    · exact ⟨rfl, le_trans (Nat.mul_le_mul_right _ (pow2_pos 53)) hm⟩
  · exact ((standsFor_of_le hle).1 h).atLeast hn

/-- An exact ratio of whole numbers is not rounded. -/
theorem isWhole_ofUnits {den : Nat} (hden : 0 < den) (hn : n ≤ pow2 53) :
    (ofUnits false (n * unitsPerOne * den) den).IsWhole n :=
  ⟨_, ofUnits_mul_self false hden (representable_mul_unitsPerOne hn), rfl⟩

/-- The number nearest to a natural number stands for it. -/
theorem standsFor_ofNat (n : Nat) : (ofNat n).StandsFor n := by
  rw [ofNat, ← Nat.mul_one (n * unitsPerOne)]
  rcases Nat.lt_or_ge (pow2 53) n with hlt | hle
  · refine (standsFor_of_lt hlt).2 (atLeast_ofUnits Nat.one_pos
      (representable_mul_unitsPerOne (Nat.le_refl _)) ?_)
    exact Nat.mul_le_mul_right _ (Nat.mul_le_mul_right _ (Nat.le_of_lt hlt))
  · exact (standsFor_of_le hle).2 (isWhole_ofUnits Nat.one_pos hle)

/-- A natural number of up to 53 bits is a binary64 number. -/
theorem isWhole_ofNat (hn : n ≤ pow2 53) : (ofNat n).IsWhole n :=
  (standsFor_of_le hn).1 (standsFor_ofNat n)

/-- The product of two whole numbers is rounded once. -/
theorem IsWhole.mul_eq (hx : x.IsWhole a) (hy : y.IsWhole b) :
    x.mul y = ofUnits false (a * b * unitsPerOne * unitsPerOne) unitsPerOne := by
  obtain ⟨m, rfl, hm⟩ := hx
  obtain ⟨k, rfl, hk⟩ := hy
  simp only [Binary64.mul, bne_self_eq_false, hm, hk]
  rw [Nat.mul_mul_mul_comm, Nat.mul_assoc (a * b)]

/-- The quotient of two whole numbers is rounded once. -/
theorem IsWhole.div_eq (hx : x.IsWhole a) (hy : y.IsWhole b) (hb : 1 ≤ b) :
    x.div y = ofUnits false (a * unitsPerOne) b := by
  obtain ⟨m, rfl, hm⟩ := hx
  obtain ⟨k, rfl, hk⟩ := hy
  have hpos : 0 < b * unitsPerOne := Nat.mul_pos hb unitsPerOne_pos
  simp only [Binary64.div, bne_self_eq_false, hm, hk, if_neg (Nat.ne_of_gt hpos)]
  exact ofUnits_congr false hpos hb (by rw [Nat.mul_assoc, Nat.mul_comm unitsPerOne b])

/-- **Products stand for the products.** -/
theorem StandsFor.mul (hx : x.StandsFor a) (hy : y.StandsFor b) (ha : 1 ≤ a) (hb : 1 ≤ b) :
    (x.mul y).StandsFor (a * b) := by
  have hbound := representable_mul_unitsPerOne (Nat.le_refl (pow2 53))
  have hpos : 0 < pow2 53 * unitsPerOne := Nat.mul_pos (pow2_pos 53) unitsPerOne_pos
  have hleft : a ≤ a * b := Nat.le_mul_of_pos_right a hb
  have hright : b ≤ a * b := Nat.le_mul_of_pos_left b ha
  rcases Nat.lt_or_ge (pow2 53) a with halt | hale
  · -- one factor is past the exact numbers already, and the other takes nothing away
    rw [standsFor_of_lt (Nat.lt_of_lt_of_le halt hleft)]
    exact ((standsFor_of_lt halt).1 hx).mul hbound hpos (hy.one_le hb)
  rcases Nat.lt_or_ge (pow2 53) b with hblt | hble
  · rw [standsFor_of_lt (Nat.lt_of_lt_of_le hblt hright), mul_comm]
    exact ((standsFor_of_lt hblt).1 hy).mul hbound hpos (hx.one_le ha)
  rw [((standsFor_of_le hale).1 hx).mul_eq ((standsFor_of_le hble).1 hy)]
  rcases Nat.lt_or_ge (pow2 53) (a * b) with hlt | hle
  · refine (standsFor_of_lt hlt).2 (atLeast_ofUnits unitsPerOne_pos hbound ?_)
    exact Nat.mul_le_mul_right _ (Nat.mul_le_mul_right _ (Nat.le_of_lt hlt))
  · exact (standsFor_of_le hle).2 (isWhole_ofUnits unitsPerOne_pos hle)

/-- What a bit of the exponent chooses. -/
theorem StandsFor.mul_bit (bit : Nat) (hacc : acc.StandsFor a) (hbase : base.StandsFor b)
    (ha : 1 ≤ a) (hb : 1 ≤ b) :
    (if bit % 2 = 1 then acc.mul base else acc).StandsFor (a * b ^ (bit % 2)) := by
  rcases Nat.mod_two_eq_zero_or_one bit with heven | hodd
  · rw [heven, if_neg (by decide), Nat.pow_zero, Nat.mul_one]
    exact hacc
  · rw [hodd, if_pos rfl, Nat.pow_one]
    exact hacc.mul hbase ha hb

/-- **The loop stands for the power** times what has been chosen. The
induction is on the squarings that are left; each halves the exponent and
squares the base. -/
theorem StandsFor.powLoop (squarings : Nat) {exponent : Nat}
    (hexponent : exponent < pow2 (squarings + 1)) (hacc : acc.StandsFor a)
    (hbase : base.StandsFor b) (ha : 1 ≤ a) (hb : 1 ≤ b) :
    (powLoop squarings acc base exponent).StandsFor (a * b ^ exponent) := by
  have hchosen := hacc.mul_bit exponent hbase ha hb
  induction squarings generalizing acc base a b exponent with
  | zero =>
    have hbit : exponent % 2 = exponent := Nat.mod_eq_of_lt hexponent
    rw [Binary64.powLoop]
    rwa [hbit] at hchosen ⊢
  | succ s ih =>
    have hhalf : exponent / 2 < pow2 (s + 1) := by
      simp only [pow2, Nat.pow_eq] at hexponent ⊢
      omega
    have hpower : a * b ^ (exponent % 2) * (b * b) ^ (exponent / 2) = a * b ^ exponent := by
      rw [Nat.mul_assoc, ← Nat.pow_two, ← Nat.pow_mul, ← Nat.pow_add, Nat.mod_add_div]
    have hsquare : (base.mul base).StandsFor (b * b) := hbase.mul hbase hb hb
    have hbit : 1 ≤ a * b ^ (exponent % 2) := Nat.mul_pos ha (Nat.pow_pos hb)
    rw [Binary64.powLoop, ← hpower]
    exact ih hhalf hchosen hsquare hbit (Nat.mul_pos hb hb)
      (hchosen.mul_bit _ hsquare hbit (Nat.mul_pos hb hb))

/-- **A power of what stands for a whole number stands for its power.** -/
theorem StandsFor.pow (hbase : base.StandsFor b) (hb : 1 ≤ b) (exponent : Nat) :
    (base.pow exponent).StandsFor (b ^ exponent) := by
  have hone : one.StandsFor 1 := standsFor_ofNat 1
  have hloop := hone.powLoop exponent.log2 Nat.lt_log2_self hbase (Nat.le_refl 1) hb
  rwa [Nat.one_mul] at hloop

end Binary64

end

end ResilientCalls
