import ResilientCalls.Time.Duration
/-!
# Durations in whole milliseconds

A duration is configured as a count of milliseconds in 64 bits. Where the
count rounds up it gives the shortest counted duration that is no shorter
(`isRoundedUp_roundUp`), and where it rounds down the longest that is no
longer (`isRoundedDown_roundDown`); both leave a duration that is counted
already. Rounding up leaves no duration at zero that was not, while
rounding down does so to all of less than a millisecond
(`isZero_roundDown`).
-/

namespace ResilientCalls

namespace Duration

variable {a b d : Duration} {ms : Nat}

/-- The duration is a whole number of milliseconds that 64 bits count. -/
def IsCounted (d : Duration) : Prop := ∃ ms ≤ maxCount64, d = .ofMillis ms

/-! ## Rounding up -/

/-- The duration in whole milliseconds, rounded up. -/
def roundUp (d : Duration) : Duration := .ofMillis d.millisUp

theorem ofMillis_comp_millisUp : ofMillis ∘ millisUp = roundUp := rfl

/-- `r` is the shortest counted duration that is not shorter than `d`, or
the longest counted duration when all are. -/
structure IsRoundedUp (d r : Duration) : Prop where
  counted : r.IsCounted
  least : ∀ ms, d.nanos ≤ (ofMillis ms).nanos → r.nanos ≤ (ofMillis ms).nanos
  reaches : d.nanos ≤ r.nanos ∨ r = .ofMillis maxCount64

theorem millisUp_le (d : Duration) : d.millisUp ≤ maxCount64 := Nat.min_le_right _ _

theorem millisUp_ofMillis (h : ms ≤ maxCount64) : (ofMillis ms).millisUp = ms := by
  simp only [millisUp, ofMillis, perMillisecond, maxCount64] at h ⊢
  omega

theorem isCounted_roundUp (d : Duration) : d.roundUp.IsCounted := ⟨_, d.millisUp_le, rfl⟩

/-- **Rounding up is rounding up:** to the least whole number of
milliseconds, or to the largest count. -/
theorem isRoundedUp_roundUp (d : Duration) : d.IsRoundedUp d.roundUp where
  counted := d.isCounted_roundUp
  least := by
    intro ms h
    simp only [roundUp, millisUp, ofMillis, perMillisecond] at h ⊢
    omega
  reaches := by
    rcases Nat.le_total ((d.nanos + (perMillisecond - 1)) / perMillisecond) maxCount64 with
      hfits | hlong
    · refine Or.inl ?_
      rw [roundUp, millisUp, Nat.min_eq_left hfits]
      simp only [ofMillis, perMillisecond]
      omega
    · refine Or.inr ?_
      rw [roundUp, millisUp, Nat.min_eq_right hlong]

/-- Only what is counted already is left as it is. -/
theorem roundUp_eq_self_iff : d.roundUp = d ↔ d.IsCounted := by
  constructor
  · intro h
    exact h ▸ d.isCounted_roundUp
  · rintro ⟨ms, hms, rfl⟩
    rw [roundUp, millisUp_ofMillis hms]

theorem map_roundUp_eq_self_iff {o : Option Duration} :
    o.map roundUp = o ↔ ∀ d ∈ o, d.IsCounted := by
  cases o <;> simp [roundUp_eq_self_iff]

/-- A duration that was rounded up has the same count. -/
theorem millisUp_roundUp (d : Duration) : d.roundUp.millisUp = d.millisUp :=
  millisUp_ofMillis d.millisUp_le

theorem roundUp_mono (h : a.nanos ≤ b.nanos) : a.roundUp.nanos ≤ b.roundUp.nanos := by
  simp only [roundUp, millisUp, ofMillis, perMillisecond]
  omega

/-- Only no time at all is rounded up to none. -/
theorem isZero_roundUp (d : Duration) : d.roundUp.isZero = d.isZero := by
  refine Bool.eq_iff_iff.2 ?_
  simp only [isZero, roundUp, millisUp, ofMillis, perMillisecond, maxCount64, beq_iff_eq]
  omega

/-! ## Rounding down -/

/-- The duration in whole milliseconds, the rest dropped. -/
def roundDown (d : Duration) : Duration := .ofMillis (min d.wholeMillis maxCount64)

/-- `r` is the longest counted duration that is not longer than `d`, and
less than a millisecond shorter if 64 bits count so far. -/
structure IsRoundedDown (d r : Duration) : Prop where
  counted : r.IsCounted
  le : r.nanos ≤ d.nanos
  greatest : ∀ ms ≤ maxCount64, (ofMillis ms).nanos ≤ d.nanos →
    (ofMillis ms).nanos ≤ r.nanos
  near : d.wholeMillis ≤ maxCount64 → d.nanos < r.nanos + perMillisecond

theorem isCounted_roundDown (d : Duration) : d.roundDown.IsCounted :=
  ⟨_, Nat.min_le_right _ _, rfl⟩

/-- **Rounding down is rounding down:** to the greatest whole number of
milliseconds that can be counted. -/
theorem isRoundedDown_roundDown (d : Duration) : d.IsRoundedDown d.roundDown where
  counted := d.isCounted_roundDown
  le := by
    simp only [roundDown, wholeMillis, ofMillis, perMillisecond]
    omega
  greatest := by
    intro ms hms h
    simp only [roundDown, wholeMillis, ofMillis, perMillisecond] at h ⊢
    omega
  near := by
    intro h
    rw [roundDown, Nat.min_eq_left h]
    simp only [wholeMillis, ofMillis, perMillisecond]
    omega

/-- What is counted already is left as it is. -/
theorem roundDown_of_isCounted (h : d.IsCounted) : d.roundDown = d := by
  obtain ⟨ms, hms, rfl⟩ := h
  have hwhole : (ofMillis ms).wholeMillis = ms :=
    Nat.mul_div_cancel ms (show 0 < perMillisecond by decide)
  rw [roundDown, hwhole, Nat.min_eq_left hms]

/-- All that is shorter than a millisecond is rounded down to no time. -/
theorem isZero_roundDown (d : Duration) :
    d.roundDown.isZero = decide (d.nanos < perMillisecond) := by
  refine Bool.eq_iff_iff.2 ?_
  rw [decide_eq_true_eq, isZero, beq_iff_eq]
  simp only [roundDown, wholeMillis, ofMillis, perMillisecond, maxCount64]
  omega

end Duration

end ResilientCalls
