import Mathlib.Tactic.Ring
import ResilientCalls.Proofs.Numeric.Error
import ResilientCalls.Time.Duration
/-!
# Durations through binary64 seconds

A duration is scaled as a binary64 number of seconds, so it is rounded
before anything is taken away from it: the whole seconds, the fraction and
their sum are rounded once each (`secondsUnits`), and the result once more to
nanoseconds. Scaled by `1.0`, a duration of up to `2^23` seconds comes back no
longer than it was (`scale_one_of_le`). Beyond that it may grow, by no more
than one part in `2^52` and a nanosecond (`scale_one_near`), and from
`2^64 - 1024` seconds on the seconds are rounded to `2^64`, which is no
duration (`scale_one_tooLong`). A smaller factor never gives more
(`scale_le_scale_one`), and one of at least a half never nothing
(`scale_pos`).
-/

namespace ResilientCalls

theorem pow2_mul_pow2 {j k l : Nat} (h : j + k = l) : pow2 j * pow2 k = pow2 l := by
  rw [← h]
  exact (Nat.pow_add 2 j k).symm

/-- The spacing of the binary64 numbers just below one. -/
def spacingBelowOne : Nat := pow2 1021

/-- The units of one as a power of two whose exponent is not computed
with. -/
theorem exists_unitsPerOne : ∃ e, e = 1074 ∧ unitsPerOne = pow2 e :=
  ⟨1074, rfl, by decide +kernel⟩

theorem exists_spacingBelowOne : ∃ e, e = 1021 ∧ spacingBelowOne = pow2 e :=
  ⟨1021, rfl, by decide +kernel⟩

theorem unitsPerOne_eq : unitsPerOne = pow2 53 * spacingBelowOne := by decide +kernel

theorem le_spacingBelowOne : pow2 52 ≤ spacingBelowOne := by decide +kernel

/-- Powers of two up to `2^1023` are representable. -/
theorem representable_pow2_mul {j : Nat} (hj : j < 1024) : Representable (pow2 j * unitsPerOne) := by
  obtain ⟨e, he, hunits⟩ := exists_unitsPerOne
  rw [hunits, pow2_mul_pow2 rfl]
  exact representable_pow2 (by omega)

section

-- these counts are numbers of a thousand bits, which nothing here may compute
attribute [local irreducible] unitsPerOne unitsLimit spacingBelowOne

variable {num den : Nat}

/-- Up to `2^j` rounding goes up by half of `2^j` spacings at most. -/
theorem nearestUnits_mul_le_below {j : Nat} (hj : j < 1024) (hden : 0 < den)
    (h : num ≤ pow2 j * unitsPerOne * den) :
    2 * (nearestUnits num den * den) ≤ 2 * num + pow2 j * spacingBelowOne * den := by
  obtain ⟨e, he, hunits⟩ := exists_unitsPerOne
  obtain ⟨f, hf, hspacing⟩ := exists_spacingBelowOne
  rw [hunits, pow2_mul_pow2 rfl] at h
  have herror := nearestUnits_mul_le_add (by omega) hden h
  rwa [show j + e - 53 = j + f by omega, ← pow2_mul_pow2 rfl, ← hspacing] at herror

namespace Duration

variable {d : Duration}

/-! ## The number of seconds -/

/-- The units of the whole seconds. -/
def wholeUnits (d : Duration) : Nat := nearestUnits (d.nanos / perSecond * unitsPerOne) 1

/-- The units of the fraction of a second. -/
def restUnits (d : Duration) : Nat := nearestUnits (d.nanos % perSecond * unitsPerOne) perSecond

/-- **The units of the seconds:** three roundings. -/
def secondsUnits (d : Duration) : Nat := nearestUnits (d.wholeUnits + d.restUnits) 1

theorem perSecond_pos : 0 < perSecond := by decide

/-- The nanoseconds in units, second by second. -/
theorem nanos_mul_unitsPerOne (d : Duration) : d.nanos * unitsPerOne =
    d.nanos / perSecond * unitsPerOne * perSecond + d.nanos % perSecond * unitsPerOne := by
  rw [Nat.mul_right_comm, ← Nat.add_mul, Nat.div_add_mod']

theorem restUnits_le (d : Duration) : d.restUnits ≤ unitsPerOne := by
  refine nearestUnits_le perSecond_pos representable_unitsPerOne ?_
  rw [Nat.mul_comm]
  exact Nat.mul_le_mul_left _ (Nat.le_of_lt (Nat.mod_lt _ perSecond_pos))

theorem wholeUnits_le {j : Nat} (hj : j < 1024) (hd : d.nanos / perSecond ≤ pow2 j) :
    d.wholeUnits ≤ pow2 j * unitsPerOne := by
  refine nearestUnits_le Nat.one_pos (representable_pow2_mul hj) ?_
  rw [Nat.mul_one]
  exact Nat.mul_le_mul_right _ hd

theorem seconds_of_longest (hd : d.nanos ≤ longest.nanos) : d.nanos / perSecond ≤ maxCount64 := by
  have hlt : d.nanos < (maxCount64 + 1) * perSecond := Nat.lt_of_le_of_lt hd (by decide)
  exact Nat.le_of_lt_succ ((Nat.div_lt_iff_lt_mul perSecond_pos).2 hlt)

/-- **The seconds of a duration are a finite number.** -/
theorem seconds_eq (hd : d.nanos ≤ longest.nanos) :
    ∃ m : Magnitude, d.seconds = .finite false m ∧ m.units = d.secondsUnits := by
  have hsmall : ∀ n ≤ perSecond, (Binary64.ofNat n).IsWhole n := fun n hn =>
    Binary64.isWhole_ofNat (Nat.le_trans hn (by decide))
  have hcount : d.nanos / perSecond ≤ pow2 64 := Nat.le_trans (seconds_of_longest hd) (by decide)
  have hwholeLe := wholeUnits_le (by decide) hcount
  have hrestLe := d.restUnits_le
  obtain ⟨whole, hwhole, hwholeUnits, -⟩ := Binary64.ofUnits_of_le false Nat.one_pos
    (representable_pow2_mul (j := 64) (by decide))
    (show d.nanos / perSecond * unitsPerOne ≤ pow2 64 * unitsPerOne * 1 by
      rw [Nat.mul_one]; exact Nat.mul_le_mul_right _ hcount)
  obtain ⟨rest, hrest, hrestUnits, -⟩ := Binary64.ofUnits_of_le false perSecond_pos
    representable_unitsPerOne
    (show d.nanos % perSecond * unitsPerOne ≤ unitsPerOne * perSecond by
      rw [Nat.mul_comm]
      exact Nat.mul_le_mul_left _ (Nat.le_of_lt (Nat.mod_lt _ perSecond_pos)))
  obtain ⟨m, hm, hunits, -⟩ := Binary64.ofUnits_of_le false Nat.one_pos
    (representable_pow2_mul (j := 65) (by decide))
    (show d.wholeUnits + d.restUnits ≤ pow2 65 * unitsPerOne * 1 by
      simp only [pow2, Nat.pow_eq] at *
      omega)
  refine ⟨m, ?_, hunits⟩
  rw [seconds, (hsmall _ (Nat.le_of_lt (Nat.mod_lt _ perSecond_pos))).div_eq
    (hsmall _ (Nat.le_refl _)) perSecond_pos, hrest, Binary64.ofNat, hwhole, Binary64.add,
    if_pos rfl, hwholeUnits, hrestUnits]
  exact hm

/-! ## Scaling -/

/-- What a number of units of seconds is in nanoseconds. -/
def ofUnits64 (units : Nat) : Except ConversionError Duration :=
  if (maxCount64 + 1) * unitsPerOne ≤ units then .error .tooLarge
  else .ok ⟨roundHalfEven (units * perSecond) unitsPerOne⟩

theorem ofSeconds64_finite (m : Magnitude) : ofSeconds64 (.finite false m) = ofUnits64 m.units := by
  simp only [ofSeconds64, ofUnits64, Bool.false_and, Bool.false_eq_true, if_false]

/-- Fewer units are a duration if more of them are, and no longer one. -/
theorem ofUnits64_mono {a b : Nat} (h : a ≤ b) {r : Duration} (hr : ofUnits64 b = .ok r) :
    ∃ r', ofUnits64 a = .ok r' ∧ r'.nanos ≤ r.nanos := by
  unfold ofUnits64 at *
  split at hr
  · cases hr
  next hlong =>
  obtain rfl := Except.ok.inj hr
  exact ⟨_, if_neg fun hle => hlong (Nat.le_trans hle h),
    roundHalfEven_mono (Nat.mul_le_mul_right _ h)⟩

/-- Scaled by one, a duration is only converted. -/
theorem scale_one (hd : d.nanos ≤ longest.nanos) : d.scale .one = ofUnits64 d.secondsUnits := by
  obtain ⟨m, hm, hunits⟩ := seconds_eq hd
  rw [scale, Binary64.one_mul, hm, ofSeconds64_finite, hunits]

/-- **A factor of at most one gives no more than one does,** and is
computed whenever one is. -/
theorem scale_le_scale_one (hd : d.nanos ≤ longest.nanos) {f : Magnitude}
    (hf : f.units ≤ unitsPerOne) {r : Duration} (hr : d.scale .one = .ok r) :
    ∃ r', d.scale (.finite false f) = .ok r' ∧ r'.nanos ≤ r.nanos := by
  obtain ⟨m, hm, hunits⟩ := seconds_eq hd
  obtain ⟨k, hk, -, hle⟩ := Binary64.ofUnits_of_le false unitsPerOne_pos m.representable
    (show f.units * m.units ≤ m.units * unitsPerOne by
      rw [Nat.mul_comm]
      exact Nat.mul_le_mul_left _ hf)
  rw [scale_one hd, ← hunits] at hr
  rw [scale, hm, Binary64.mul, bne_self_eq_false, hk, ofSeconds64_finite]
  exact ofUnits64_mono hle hr

/-! ## Half of a nanosecond -/

/-- The units of half of a nanosecond of seconds, as binary64 has it. -/
def halfNanosecond : Nat := 4835703278458517 * pow2 991

theorem representable_halfNanosecond : Representable halfNanosecond :=
  representable_mul_pow2 (by decide) (by decide)

/-- The seconds of a nanosecond are twice as many units. -/
theorem nearestUnits_nanosecond : nearestUnits unitsPerOne perSecond = 2 * halfNanosecond := by
  decide +kernel

/-- It is a little more than half of a nanosecond, so it is rounded up. -/
theorem roundHalfEven_halfNanosecond :
    roundHalfEven (halfNanosecond * perSecond) unitsPerOne = 1 := by decide +kernel

/-- **The seconds of some time are those of a nanosecond at least.** -/
theorem le_secondsUnits_of_pos (hpos : 0 < d.nanos) : 2 * halfNanosecond ≤ d.secondsUnits := by
  have hone : nearestUnits unitsPerOne perSecond ≤ unitsPerOne :=
    nearestUnits_le perSecond_pos representable_unitsPerOne
      (Nat.le_mul_of_pos_right _ perSecond_pos)
  have hnano : Representable (2 * halfNanosecond) := by
    rw [← nearestUnits_nanosecond]
    exact representable_nearestUnits (Nat.lt_of_le_of_lt hone representable_unitsPerOne.1)
  rw [nearestUnits_nanosecond] at hone
  have hparts : 2 * halfNanosecond ≤ d.wholeUnits + d.restUnits := by
    rcases Nat.eq_zero_or_pos (d.nanos / perSecond) with hzero | hsecond
    · have hrest : 0 < d.nanos % perSecond := by
        have hsplit := Nat.div_add_mod d.nanos perSecond
        rw [hzero, Nat.mul_zero, Nat.zero_add] at hsplit
        omega
      refine Nat.le_trans ?_ (Nat.le_add_left _ _)
      rw [← nearestUnits_nanosecond]
      exact nearestUnits_mono perSecond_pos (Nat.le_mul_of_pos_left _ hrest)
        (Nat.lt_of_le_of_lt d.restUnits_le representable_unitsPerOne.1)
    · refine Nat.le_trans hone (Nat.le_trans ?_ (Nat.le_add_right _ _))
      refine le_nearestUnits Nat.one_pos representable_unitsPerOne ?_
      rw [Nat.mul_one]
      exact Nat.le_mul_of_pos_left _ hsecond
  exact le_nearestUnits Nat.one_pos hnano (by rwa [Nat.mul_one])

/-- **A factor of at least a half leaves something** of a duration. -/
theorem scale_pos (hd : d.nanos ≤ longest.nanos) (hpos : 0 < d.nanos) {f : Magnitude}
    (hf : unitsPerOne ≤ 2 * f.units) {r : Duration} (hr : d.scale (.finite false f) = .ok r) :
    0 < r.nanos := by
  obtain ⟨m, hm, hunits⟩ := seconds_eq hd
  have hproduct : halfNanosecond * unitsPerOne ≤ f.units * m.units := by
    have hseconds := le_secondsUnits_of_pos hpos
    rw [← hunits] at hseconds
    refine Nat.le_of_mul_le_mul_left ?_ Nat.two_pos
    calc 2 * (halfNanosecond * unitsPerOne)
        = unitsPerOne * (2 * halfNanosecond) := by ring
      _ ≤ 2 * f.units * m.units := Nat.mul_le_mul hf hseconds
      _ = 2 * (f.units * m.units) := Nat.mul_assoc _ _ _
  have hround := le_nearestUnits unitsPerOne_pos representable_halfNanosecond hproduct
  rw [scale, hm, Binary64.mul, bne_self_eq_false] at hr
  rcases Binary64.ofUnits_eq_or false (f.units * m.units) unitsPerOne with ⟨hinf, -⟩ | ⟨k, hk, hku⟩
  · rw [hinf] at hr
    cases hr
  · rw [hk, ofSeconds64_finite, ofUnits64] at hr
    split at hr
    · cases hr
    obtain rfl := Except.ok.inj hr
    have hone : 1 ≤ roundHalfEven (k.units * perSecond) unitsPerOne := by
      rw [← roundHalfEven_halfNanosecond]
      exact roundHalfEven_mono (Nat.mul_le_mul_right _ (hku ▸ hround))
    exact hone

/-! ## The longest duration that does not grow -/

/-- The longest duration up to which none grows: about ninety-seven days. -/
def exactUpTo : Duration := .ofSeconds (pow2 23)

/-- Up to `2^23` seconds the conversion is off by less than half a
nanosecond. -/
theorem two_mul_secondsUnits_lt (h : d.nanos ≤ exactUpTo.nanos) :
    2 * (d.secondsUnits * perSecond) < 2 * (d.nanos * unitsPerOne) + unitsPerOne := by
  have hcount : d.nanos / perSecond ≤ pow2 23 := Nat.div_le_of_le_mul (by rwa [Nat.mul_comm])
  have hwhole : d.wholeUnits = d.nanos / perSecond * unitsPerOne := by
    have hexact := nearestUnits_mul_self Nat.one_pos
      (representable_mul_unitsPerOne (Nat.le_trans hcount (by decide)))
    rwa [Nat.mul_one] at hexact
  have hrest : 2 * (d.restUnits * perSecond) ≤
      2 * (d.nanos % perSecond * unitsPerOne) + pow2 0 * spacingBelowOne * perSecond := by
    refine nearestUnits_mul_le_below (by decide) perSecond_pos ?_
    rw [Nat.one_mul, Nat.mul_comm unitsPerOne]
    exact Nat.mul_le_mul_right _ (Nat.le_of_lt (Nat.mod_lt _ perSecond_pos))
  -- at the last duration itself nothing is left beside the whole seconds
  have hsum : d.wholeUnits + d.restUnits ≤ pow2 23 * unitsPerOne * 1 := by
    rw [hwhole, Nat.mul_one]
    rcases Nat.lt_or_eq_of_le hcount with hlt | heq
    · calc d.nanos / perSecond * unitsPerOne + d.restUnits
          ≤ d.nanos / perSecond * unitsPerOne + unitsPerOne :=
            Nat.add_le_add_left d.restUnits_le _
        _ = (d.nanos / perSecond + 1) * unitsPerOne := (Nat.succ_mul _ _).symm
        _ ≤ pow2 23 * unitsPerOne := Nat.mul_le_mul_right _ hlt
    · have hnone : d.nanos % perSecond = 0 := by
        have hsplit := Nat.div_add_mod d.nanos perSecond
        rw [heq, Nat.mul_comm] at hsplit
        have hlast : d.nanos ≤ pow2 23 * perSecond := h
        omega
      rw [restUnits, hnone, Nat.zero_mul, nearestUnits_eq_zero (by decide), Nat.add_zero, heq]
  have hround : 2 * (d.secondsUnits * 1) ≤
      2 * (d.wholeUnits + d.restUnits) + pow2 23 * spacingBelowOne * 1 :=
    nearestUnits_mul_le_below (by decide) Nat.one_pos hsum
  have hpos := le_spacingBelowOne
  rw [d.nanos_mul_unitsPerOne]
  rw [hwhole] at hround
  generalize d.secondsUnits = seconds at *
  generalize d.nanos / perSecond * unitsPerOne = whole at *
  generalize d.nanos % perSecond * unitsPerOne = fraction at *
  rw [unitsPerOne_eq]
  simp only [perSecond, pow2, Nat.pow_eq] at *
  omega

/-- **A duration of up to `2^23` seconds comes back no longer.** -/
theorem scale_one_of_le (h : d.nanos ≤ exactUpTo.nanos) :
    ∃ r, d.scale .one = .ok r ∧ r.nanos ≤ d.nanos := by
  have hlong : d.nanos ≤ longest.nanos := Nat.le_trans h (by decide)
  have hlt := two_mul_secondsUnits_lt h
  have hpos := unitsPerOne_pos
  have hshort : ¬ (maxCount64 + 1) * unitsPerOne ≤ d.secondsUnits := by
    have hmul := Nat.mul_le_mul_right unitsPerOne h
    simp only [exactUpTo, ofSeconds, perSecond, maxCount64, pow2, Nat.pow_eq] at *
    omega
  refine ⟨_, (scale_one hlong).trans (if_neg hshort), ?_⟩
  exact roundHalfEven_le_of_lt_half hpos hlt

/-! ## The durations that cannot be scaled -/

/-- The shortest duration whose seconds are rounded to `2^64`. -/
def tooLongFrom : Duration := .ofSeconds (maxCount64 + 1 - 1024)

/-- The last number of seconds below `2^64`, in units. -/
def lastSeconds : Nat := (pow2 53 - 1) * (pow2 11 * unitsPerOne)

theorem representable_lastSeconds : Representable lastSeconds := by
  obtain ⟨e, he, hunits⟩ := exists_unitsPerOne
  rw [lastSeconds, hunits, pow2_mul_pow2 rfl]
  exact representable_mul_pow2 (by decide) (by omega)

theorem spacing_lastSeconds : spacing lastSeconds = pow2 11 * unitsPerOne := by
  obtain ⟨e, he, hunits⟩ := exists_unitsPerOne
  rw [lastSeconds, hunits, pow2_mul_pow2 rfl]
  exact spacing_mul_pow2 (by decide) (by decide)

/-- Below this duration the seconds stay below `2^64`. -/
theorem secondsUnits_lt (h : d.nanos < tooLongFrom.nanos) :
    d.secondsUnits < (maxCount64 + 1) * unitsPerOne := by
  have hpos := unitsPerOne_pos
  have hcount : d.nanos / perSecond < maxCount64 + 1 - 1024 :=
    (Nat.div_lt_iff_lt_mul perSecond_pos).2 h
  have hmul := Nat.mul_le_mul_right unitsPerOne (Nat.le_sub_one_of_lt hcount)
  have hrest := d.restUnits_le
  have hwhole : d.wholeUnits ≤ lastSeconds := by
    refine nearestUnits_le_of_lt_half Nat.one_pos representable_lastSeconds ?_
    rw [spacing_lastSeconds, lastSeconds]
    simp only [maxCount64, pow2, Nat.pow_eq] at *
    omega
  -- a second more is far less than half the spacing there
  have hsum : d.secondsUnits ≤ lastSeconds := by
    refine nearestUnits_le_of_lt_half Nat.one_pos representable_lastSeconds ?_
    rw [spacing_lastSeconds]
    simp only [pow2, Nat.pow_eq] at *
    omega
  refine Nat.lt_of_le_of_lt hsum ?_
  simp only [lastSeconds, maxCount64, pow2, Nat.pow_eq]
  omega

/-- From this duration on the seconds are rounded to `2^64` at least. -/
theorem le_secondsUnits (h : tooLongFrom.nanos ≤ d.nanos) (hd : d.nanos ≤ longest.nanos) :
    (maxCount64 + 1) * unitsPerOne ≤ d.secondsUnits := by
  have hlimit : Representable ((maxCount64 + 1) * unitsPerOne) :=
    representable_pow2_mul (j := 64) (by decide)
  have hcount : d.nanos / perSecond ≤ pow2 64 := Nat.le_trans (seconds_of_longest hd) (by decide)
  have hfrom : maxCount64 + 1 - 1024 ≤ d.nanos / perSecond :=
    (Nat.le_div_iff_mul_le perSecond_pos).2 h
  -- the first count is a tie, and goes to the even neighbour above
  have htie : nearestUnits ((maxCount64 + 1 - 1024) * unitsPerOne) 1 =
      (maxCount64 + 1) * unitsPerOne := by decide +kernel
  have hwhole : (maxCount64 + 1) * unitsPerOne ≤ d.wholeUnits := by
    rw [← htie]
    refine nearestUnits_mono Nat.one_pos (Nat.mul_le_mul_right _ hfrom) ?_
    exact Nat.lt_of_le_of_lt (wholeUnits_le (by decide) hcount)
      (representable_pow2_mul (j := 64) (by decide)).1
  refine le_nearestUnits Nat.one_pos hlimit ?_
  rw [Nat.mul_one]
  exact Nat.le_trans hwhole (Nat.le_add_right _ _)

/-- **The longest durations cannot be scaled by one.** -/
theorem scale_one_tooLong (h : tooLongFrom.nanos ≤ d.nanos) (hd : d.nanos ≤ longest.nanos) :
    d.scale .one = .error .tooLarge :=
  (scale_one hd).trans (if_pos (le_secondsUnits h hd))

/-! ## How much a duration may grow -/

/-- Each rounding adds one part in `2^53` at most. -/
theorem secondsUnits_near (d : Duration) :
    d.secondsUnits * perSecond * pow2 106 ≤ d.nanos * unitsPerOne * (pow2 53 + 1) ^ 2 := by
  have hrest : d.restUnits * perSecond * pow2 53 ≤
      d.nanos % perSecond * unitsPerOne * (pow2 53 + 1) := by
    rcases Nat.eq_zero_or_pos (d.nanos % perSecond) with hzero | hpos
    · rw [restUnits, hzero, Nat.zero_mul, nearestUnits_eq_zero (by decide), Nat.zero_mul,
        Nat.zero_mul]
      exact Nat.zero_le _
    · refine nearestUnits_mul_le_mul perSecond_pos ?_
      have hscale : pow2 52 * perSecond ≤ unitsPerOne := by
        have hbelow := le_spacingBelowOne
        rw [unitsPerOne_eq]
        simp only [perSecond, pow2, Nat.pow_eq] at *
        omega
      exact Nat.le_trans hscale (Nat.le_mul_of_pos_left _ hpos)
  have hwhole : d.wholeUnits * pow2 53 ≤ d.nanos / perSecond * unitsPerOne * (pow2 53 + 1) :=
    nearestUnits_one_mul_le _
  have hsum : d.secondsUnits * pow2 53 ≤ (d.wholeUnits + d.restUnits) * (pow2 53 + 1) :=
    nearestUnits_one_mul_le _
  rw [d.nanos_mul_unitsPerOne]
  generalize d.nanos / perSecond * unitsPerOne = whole at *
  generalize d.nanos % perSecond * unitsPerOne = fraction at *
  rw [← pow2_mul_pow2 (show 53 + 53 = 106 by decide)]
  calc d.secondsUnits * perSecond * (pow2 53 * pow2 53)
      = d.secondsUnits * pow2 53 * (perSecond * pow2 53) := Nat.mul_mul_mul_comm ..
    _ ≤ (d.wholeUnits + d.restUnits) * (pow2 53 + 1) * (perSecond * pow2 53) :=
      Nat.mul_le_mul_right _ hsum
    _ = (d.wholeUnits * pow2 53 * perSecond + d.restUnits * perSecond * pow2 53) *
        (pow2 53 + 1) := by ring
    _ ≤ (whole * (pow2 53 + 1) * perSecond + fraction * (pow2 53 + 1)) * (pow2 53 + 1) :=
      Nat.mul_le_mul_right _ (Nat.add_le_add (Nat.mul_le_mul_right _ hwhole) hrest)
    _ = (whole * perSecond + fraction) * (pow2 53 + 1) ^ 2 := by ring

/-- **A duration comes back longer by one part in `2^52` and a nanosecond at
most,** if it comes back. -/
theorem scale_one_near (h : d.nanos < tooLongFrom.nanos) :
    ∃ r, d.scale .one = .ok r ∧ r.nanos ≤ d.nanos + d.nanos / pow2 52 + 1 := by
  have hlong : d.nanos ≤ longest.nanos := Nat.le_trans (Nat.le_of_lt h) (by decide)
  refine ⟨_, (scale_one hlong).trans (if_neg (Nat.not_le.2 (secondsUnits_lt h))), ?_⟩
  have hround := two_mul_roundHalfEven_le (d.secondsUnits * perSecond) unitsPerOne
  have hnear := d.secondsUnits_near
  have hscaled : roundHalfEven (d.secondsUnits * perSecond) unitsPerOne * 2 * pow2 106 ≤
      d.nanos * 2 * (pow2 53 + 1) ^ 2 + pow2 106 := by
    refine Nat.le_of_mul_le_mul_right ?_ unitsPerOne_pos
    generalize roundHalfEven (d.secondsUnits * perSecond) unitsPerOne = rounded at *
    generalize d.secondsUnits * perSecond = seconds at *
    calc rounded * 2 * pow2 106 * unitsPerOne
        = 2 * (rounded * unitsPerOne) * pow2 106 := by ring
      _ ≤ (2 * seconds + unitsPerOne) * pow2 106 := Nat.mul_le_mul_right _ hround
      _ = 2 * (seconds * pow2 106) + pow2 106 * unitsPerOne := by ring
      _ ≤ 2 * (d.nanos * unitsPerOne * (pow2 53 + 1) ^ 2) + pow2 106 * unitsPerOne := by
        omega
      _ = (d.nanos * 2 * (pow2 53 + 1) ^ 2 + pow2 106) * unitsPerOne := by ring
  have hbound : d.nanos < pow2 94 := Nat.lt_of_le_of_lt hlong (by decide)
  change roundHalfEven (d.secondsUnits * perSecond) unitsPerOne ≤ _
  generalize roundHalfEven (d.secondsUnits * perSecond) unitsPerOne = rounded at *
  simp only [pow2, Nat.pow_eq] at *
  omega

end Duration

end

end ResilientCalls
