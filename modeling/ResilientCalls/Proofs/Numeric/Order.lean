import ResilientCalls.Numeric.Binary64
import Mathlib.Data.Nat.Basic
/-!
# Rounding and the order of binary64 numbers

Rounding never moves a ratio past a representable number: what lies at or
above one is rounded to it or above (`le_nearestUnits`), what lies at or
below one to it or below (`nearestUnits_le`). So a representable number is
its own rounding, `1.0` is neutral for the product, and a product with a
factor of at least one is no smaller than the other factor. The last part
reads this off for powers by repeated squaring, whose roundings follow no
formula.
-/

namespace ResilientCalls

/-! ## Rounding to a whole number -/

/-- A whole number of steps within a ratio stays within its rounding. -/
theorem le_roundHalfEven_of_mul_le {num den k : Nat} (hden : 0 < den) (h : k * den ≤ num) :
    k ≤ roundHalfEven num den :=
  le_trans ((Nat.le_div_iff_mul_le hden).2 h) (le_roundHalfEven num den)

/-- A ratio within a whole number of steps is rounded to within it. -/
theorem roundHalfEven_le_of_le_mul {num den k : Nat} (hden : 0 < den) (h : num ≤ k * den) :
    roundHalfEven num den ≤ k := by
  have hfloor : num / den ≤ k := Nat.div_le_of_le_mul (by rwa [Nat.mul_comm] at h)
  rcases Nat.lt_or_eq_of_le hfloor with hlt | heq
  · exact le_trans (roundHalfEven_le num den) hlt
  · -- the ratio is the whole number itself, and nothing is left to round
    have hrest : num % den = 0 := by
      have hdiv := Nat.div_add_mod num den
      rw [heq, Nat.mul_comm] at hdiv
      omega
    simp only [roundHalfEven, hrest, Nat.mul_zero, if_pos hden]
    exact hfloor

/-! ## Rounding to 53 bits -/

/-- A number of 53 bits counted in steps finer than the spacing around `q`
lies below `q`. -/
theorem mul_pow2_lt_of_lt_spacing {q s e : Nat} (hs : s < pow2 53) (he : e < q.log2 - 52) :
    s * pow2 e < pow2 52 * pow2 (q.log2 - 52) ∧ pow2 52 * pow2 (q.log2 - 52) ≤ q := by
  constructor
  · calc s * pow2 e < pow2 53 * pow2 e :=
          Nat.mul_lt_mul_of_pos_right hs (Nat.pow_pos (by decide))
      _ = pow2 (53 + e) := (Nat.pow_add 2 53 e).symm
      _ ≤ pow2 (52 + (q.log2 - 52)) := Nat.pow_le_pow_right (by decide) (by omega)
      _ = pow2 52 * pow2 (q.log2 - 52) := Nat.pow_add 2 52 _
  · have hq : q ≠ 0 := by
      rintro rfl
      simp at he
    have hlog : 52 + (q.log2 - 52) = q.log2 := by omega
    calc pow2 52 * pow2 (q.log2 - 52) = pow2 (52 + (q.log2 - 52)) := (Nat.pow_add 2 52 _).symm
      _ = pow2 q.log2 := by rw [hlog]
      _ ≤ q := Nat.log2_self_le hq

/-- A number counted in steps of a power of two is counted in any smaller
power too. -/
theorem mul_pow2_eq {s e k : Nat} (hk : k ≤ e) : s * pow2 e = s * pow2 (e - k) * pow2 k := by
  have hsplit : pow2 e = pow2 (e - k) * pow2 k := by
    have h := Nat.pow_add 2 (e - k) k
    rwa [Nat.sub_add_cancel hk] at h
  rw [hsplit, Nat.mul_assoc]

/-- **No ratio is rounded below a representable number that it reaches.** -/
theorem le_nearestUnits {num den u : Nat} (hden : 0 < den) (hu : Representable u)
    (h : u * den ≤ num) : u ≤ nearestUnits num den := by
  obtain ⟨-, s, e, hs, rfl⟩ := hu
  have hstep : 0 < den * spacing (num / den) :=
    Nat.mul_pos hden (Nat.pow_pos (by decide))
  rcases Nat.lt_or_ge e ((num / den).log2 - 52) with hfine | hcoarse
  · -- the number has finer steps than the ratio, so a power of two lies between the two
    obtain ⟨hbelow, habove⟩ := mul_pow2_lt_of_lt_spacing hs hfine
    refine le_trans (le_of_lt hbelow) (Nat.mul_le_mul_right _ ?_)
    refine le_roundHalfEven_of_mul_le hstep ?_
    calc pow2 52 * (den * spacing (num / den))
          = den * (pow2 52 * pow2 ((num / den).log2 - 52)) := by
            rw [spacing, Nat.mul_left_comm]
      _ ≤ den * (num / den) := Nat.mul_le_mul_left _ habove
      _ ≤ num := Nat.mul_div_le num den
  · rw [mul_pow2_eq hcoarse]
    refine Nat.mul_le_mul_right _ (le_roundHalfEven_of_mul_le hstep ?_)
    calc s * pow2 (e - ((num / den).log2 - 52)) * (den * spacing (num / den))
          = s * pow2 e * den := by
            rw [spacing, Nat.mul_comm den, ← Nat.mul_assoc, ← mul_pow2_eq hcoarse]
      _ ≤ num := h

/-- **No ratio is rounded above a representable number that bounds it.** -/
theorem nearestUnits_le {num den u : Nat} (hden : 0 < den) (hu : Representable u)
    (h : num ≤ u * den) : nearestUnits num den ≤ u := by
  obtain ⟨-, s, e, hs, rfl⟩ := hu
  have hquot : num / den ≤ s * pow2 e := Nat.div_le_of_le_mul (by rwa [Nat.mul_comm] at h)
  rcases Nat.lt_or_ge e ((num / den).log2 - 52) with hfine | hcoarse
  · -- below such a ratio no number has finer steps, so this case does not arise
    obtain ⟨hbelow, habove⟩ := mul_pow2_lt_of_lt_spacing hs hfine
    exact absurd hquot (not_le_of_gt (lt_of_lt_of_le hbelow habove))
  · rw [mul_pow2_eq hcoarse]
    refine Nat.mul_le_mul_right _ (roundHalfEven_le_of_le_mul ?_ ?_)
    · exact Nat.mul_pos hden (Nat.pow_pos (by decide))
    · calc num ≤ s * pow2 e * den := h
        _ = s * pow2 (e - ((num / den).log2 - 52)) * (den * spacing (num / den)) := by
            rw [spacing, Nat.mul_comm den, ← Nat.mul_assoc, ← mul_pow2_eq hcoarse]

/-- A representable number is its own rounding. -/
theorem nearestUnits_mul_self {u den : Nat} (hden : 0 < den) (hu : Representable u) :
    nearestUnits (u * den) den = u :=
  le_antisymm (nearestUnits_le hden hu le_rfl) (le_nearestUnits hden hu le_rfl)

/-- Powers of two within the range are representable. -/
theorem representable_pow2 {n : Nat} (h : n < 2098) : Representable (pow2 n) := by
  refine ⟨?_, 1, n, by decide, (Nat.one_mul _).symm⟩
  unfold unitsLimit
  exact pow2_lt_pow2 h

/-- The units of `1.0` are representable. -/
theorem representable_unitsPerOne : Representable unitsPerOne := by
  unfold unitsPerOne
  exact representable_pow2 (by decide)

theorem pow2_pos (n : Nat) : 0 < pow2 n := Nat.pow_pos Nat.two_pos

theorem unitsPerOne_pos : 0 < unitsPerOne := by
  unfold unitsPerOne
  exact pow2_pos _

section

-- both counts are too large to be computed with
attribute [local irreducible] unitsPerOne unitsLimit

/-- An exact ratio is its own nearest magnitude. -/
theorem Magnitude.nearest?_mul_self {u den : Nat} (hden : 0 < den) (hu : Representable u) :
    Magnitude.nearest? (u * den) den = some ⟨u, hu⟩ := by
  have heq := nearestUnits_mul_self hden hu
  -- by name: unfolding the comparison would compute both counts
  have hlt : nearestUnits (u * den) den < unitsLimit := lt_of_eq_of_lt heq hu.1
  unfold Magnitude.nearest?
  rw [dif_pos hlt]
  exact congrArg some (by congr)

namespace Binary64

/-! ## Exact results -/

/-- An exact ratio is not rounded. -/
theorem ofUnits_mul_self {u den : Nat} (negative : Bool) (hden : 0 < den)
    (hu : Representable u) : ofUnits negative (u * den) den = .finite negative ⟨u, hu⟩ := by
  unfold ofUnits
  rw [Magnitude.nearest?_mul_self hden hu]

/-- The number one has the units of one. -/
theorem one_eq : one = .finite false ⟨unitsPerOne, representable_unitsPerOne⟩ := by
  have h := ofUnits_mul_self false Nat.one_pos representable_unitsPerOne
  rw [Nat.mul_one] at h
  rw [one, ofNat, Nat.one_mul]
  exact h

/-- One is neutral for the product. -/
theorem mul_one (x : Binary64) : x.mul one = x := by
  rw [one_eq]
  cases x with
  | nan => rfl
  | infinite s => simp [mul, Nat.ne_of_gt unitsPerOne_pos]
  | finite s m =>
    simp only [mul, Bool.bne_false]
    exact ofUnits_mul_self s unitsPerOne_pos m.representable

/-! ## Positive numbers that are not small -/

/-- A positive number of at least `u` units; infinity is one. -/
def AtLeast (u : Nat) : Binary64 → Prop
  | .nan => False
  | .infinite negative => negative = false
  | .finite negative m => negative = false ∧ u ≤ m.units

/-- A rounded ratio is the magnitude nearest to it, or infinite past the
range. -/
theorem ofUnits_eq_or (negative : Bool) (num den : Nat) :
    (ofUnits negative num den = .infinite negative ∧ unitsLimit ≤ nearestUnits num den) ∨
      ∃ m : Magnitude, ofUnits negative num den = .finite negative m ∧
        m.units = nearestUnits num den := by
  unfold ofUnits Magnitude.nearest?
  by_cases h : nearestUnits num den < unitsLimit
  · rw [dif_pos h]
    exact Or.inr ⟨_, rfl, rfl⟩
  · rw [dif_neg h]
    exact Or.inl ⟨rfl, not_lt.1 h⟩

/-- What is rounded from a ratio that reaches a representable number
reaches it too. -/
theorem atLeast_ofUnits {num den u : Nat} (hden : 0 < den) (hu : Representable u)
    (h : u * den ≤ num) : AtLeast u (ofUnits false num den) := by
  rcases ofUnits_eq_or false num den with ⟨heq, -⟩ | ⟨m, heq, hm⟩
  · rw [heq]
    rfl
  · rw [heq]
    exact ⟨rfl, by rw [hm]; exact le_nearestUnits hden hu h⟩

theorem atLeast_one : AtLeast unitsPerOne one := by
  rw [one_eq]
  exact ⟨rfl, le_rfl⟩

/-- A whole number from one on is at least one. -/
theorem atLeast_ofNat {n : Nat} (hn : 1 ≤ n) : AtLeast unitsPerOne (ofNat n) := by
  refine atLeast_ofUnits Nat.one_pos representable_unitsPerOne ?_
  rw [Nat.mul_one]
  exact Nat.le_mul_of_pos_left _ hn

/-- **A factor of at least one makes nothing smaller.** -/
theorem AtLeast.mul {u : Nat} {x y : Binary64} (hu : Representable u) (hpos : 0 < u)
    (hx : AtLeast u x) (hy : AtLeast unitsPerOne y) : AtLeast u (x.mul y) := by
  have hone := unitsPerOne_pos
  cases x with
  | nan => exact hx.elim
  | infinite s =>
    obtain rfl : s = false := hx
    cases y with
    | nan => exact hy.elim
    | infinite t =>
      obtain rfl : t = false := hy
      rfl
    | finite t n =>
      -- infinity times zero would not be a number, but the factor is not zero
      obtain ⟨rfl, hn⟩ := hy
      have hne : n.units ≠ 0 := by omega
      simp [Binary64.mul, hne, AtLeast]
  | finite s m =>
    obtain ⟨rfl, hm⟩ := hx
    cases y with
    | nan => exact hy.elim
    | infinite t =>
      obtain rfl : t = false := hy
      have hne : m.units ≠ 0 := by omega
      simp [Binary64.mul, hne, AtLeast]
    | finite t n =>
      obtain ⟨rfl, hn⟩ := hy
      exact atLeast_ofUnits hone hu (Nat.mul_le_mul hm hn)

/-- Repeated squaring keeps to numbers of at least one. -/
theorem atLeast_powLoop {squarings exponent : Nat} {acc base : Binary64}
    (hacc : AtLeast unitsPerOne acc) (hbase : AtLeast unitsPerOne base) :
    AtLeast unitsPerOne (powLoop squarings acc base exponent) := by
  induction squarings generalizing acc base exponent with
  | zero =>
    unfold powLoop
    split
    · exact hacc.mul representable_unitsPerOne unitsPerOne_pos hbase
    · exact hacc
  | succ n ih =>
    unfold powLoop
    refine ih ?_ (hbase.mul representable_unitsPerOne unitsPerOne_pos hbase)
    split
    · exact hacc.mul representable_unitsPerOne unitsPerOne_pos hbase
    · exact hacc

/-- **The powers of a number of at least one are at least one,** however
they are rounded on the way. -/
theorem atLeast_pow {base : Binary64} (h : AtLeast unitsPerOne base) (exponent : Nat) :
    AtLeast unitsPerOne (base.pow exponent) :=
  atLeast_powLoop atLeast_one h

/-- The power zero is one. -/
theorem pow_zero (base : Binary64) : base.pow 0 = one := by
  have hlog : Nat.log2 0 = 0 := Nat.log2_zero
  rw [pow, hlog]
  rfl

/-! ## The order -/

@[simp] theorem le_finite_finite (m n : Magnitude) :
    (finite false m).le (finite false n) = decide (m.units ≤ n.units) := by
  simp [le, place?]

@[simp] theorem le_finite_infinite (m : Magnitude) :
    (finite false m).le (infinite false) = true := by
  have hlimit := m.representable.1
  simp [le, place?]
  omega

@[simp] theorem le_infinite_finite (m : Magnitude) :
    (infinite false).le (finite false m) = false := by
  have hlimit := m.representable.1
  simp [le, place?]
  omega

@[simp] theorem le_infinite_infinite : (infinite false).le (infinite false) = true := by
  simp [le, place?]

/-- A number is below one if it has fewer units. -/
theorem lt_one (s : Bool) (m : Magnitude) :
    (finite s m).lt one =
      decide ((if s then -(m.units : Int) else (m.units : Int)) < (unitsPerOne : Int)) := by
  rw [one_eq]
  rfl

/-- The order is transitive. -/
theorem le_of_le_of_le {x y z : Binary64} (hxy : x.le y = true) (hyz : y.le z = true) :
    x.le z = true := by
  unfold le at *
  cases hx : x.place? <;> cases hy : y.place? <;> cases hz : z.place? <;>
    simp_all
  omega

/-- A positive number is infinite, or a magnitude without a sign. -/
theorem AtLeast.eq_infinite_or {u : Nat} {x : Binary64} (h : AtLeast u x) :
    x = .infinite false ∨ ∃ m : Magnitude, x = .finite false m ∧ u ≤ m.units := by
  cases x with
  | nan => exact h.elim
  | infinite s => exact Or.inl (congrArg infinite h)
  | finite s m =>
    obtain ⟨rfl, hm⟩ := h
    exact Or.inr ⟨m, rfl, hm⟩

/-- A product with a factor of at least one is at least the other
factor. -/
theorem le_mul_of_atLeast {x y : Binary64} (hx : AtLeast unitsPerOne x)
    (hy : AtLeast unitsPerOne y) : x.le (x.mul y) = true := by
  have hone := unitsPerOne_pos
  rcases hx.eq_infinite_or with rfl | ⟨m, rfl, hm⟩
  · rcases hy.eq_infinite_or with rfl | ⟨n, rfl, hn⟩
    · simp [mul]
    · have hne : n.units ≠ 0 := by omega
      simp [mul, hne]
  · -- the number itself is the bound that the product keeps
    have hxy := AtLeast.mul (u := m.units) (x := .finite false m) m.representable (by omega)
      ⟨rfl, le_rfl⟩ hy
    rcases hxy.eq_infinite_or with hxy | ⟨n, hxy, hn⟩
    · rw [hxy, le_finite_infinite]
    · rw [hxy, le_finite_finite]
      exact decide_eq_true hn

/-! ## Whole parts -/

/-- A greater number has no smaller whole part. -/
theorem AtLeast.truncate_le {u v limit : Nat} {x y : Binary64} (hx : AtLeast u x)
    (hy : AtLeast v y) (h : x.le y = true) : x.truncate limit ≤ y.truncate limit := by
  rcases hx.eq_infinite_or with rfl | ⟨m, rfl, -⟩ <;>
    rcases hy.eq_infinite_or with rfl | ⟨n, rfl, -⟩
  · exact le_rfl
  · simp at h
  · exact Nat.min_le_right _ _
  · have hdiv := Nat.div_le_div_right (c := unitsPerOne) (by simpa using h)
    simp only [truncate, Bool.false_eq_true, ↓reduceIte]
    omega

/-- A number that a whole number is not at most has no greater whole
part. -/
theorem AtLeast.truncate_le_of_not_le {u n limit : Nat} {x : Binary64} (hx : AtLeast u x)
    (h : (ofNat n).le x = false) : x.truncate limit ≤ n := by
  rcases hx.eq_infinite_or with rfl | ⟨m, rfl, -⟩
  · rcases ofUnits_eq_or false (n * unitsPerOne) 1 with ⟨heq, -⟩ | ⟨k, heq, -⟩ <;>
      simp [ofNat, heq] at h
  · by_contra hlt
    have hquot : n < m.units / unitsPerOne := by
      simp only [truncate, Bool.false_eq_true, ↓reduceIte] at hlt
      omega
    have hmul : n * unitsPerOne ≤ m.units := by
      have := (Nat.le_div_iff_mul_le unitsPerOne_pos).1 (le_of_lt hquot)
      exact this
    -- the whole number is rounded, but not past a representable number
    have hnear : nearestUnits (n * unitsPerOne) 1 ≤ m.units :=
      nearestUnits_le Nat.one_pos m.representable (by rwa [Nat.mul_one])
    have hlimit := m.representable.1
    rcases ofUnits_eq_or false (n * unitsPerOne) 1 with ⟨-, hge⟩ | ⟨k, heq, hk⟩
    · omega
    · rw [ofNat, heq, le_finite_finite, decide_eq_false_iff_not, hk] at h
      exact h hnear

/-- The whole part of a number of at least one is positive. -/
theorem AtLeast.one_le_truncate {limit : Nat} {x : Binary64} (hx : AtLeast unitsPerOne x)
    (hlimit : 1 ≤ limit) : 1 ≤ x.truncate limit := by
  rcases hx.eq_infinite_or with rfl | ⟨m, rfl, hm⟩
  · exact hlimit
  · have hdiv : 1 ≤ m.units / unitsPerOne := (Nat.one_le_div_iff unitsPerOne_pos).2 hm
    simp only [truncate, Bool.false_eq_true, ↓reduceIte]
    omega

end Binary64

end

end ResilientCalls
