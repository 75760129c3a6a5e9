import ResilientCalls.Proofs.Retry.Expiry
import ResilientCalls.Proofs.Retry.Rules
import ResilientCalls.Proofs.Time.Seconds
/-!
# Jitter shortens delays

Jitter scales a delay by a factor between zero and one, in binary64
seconds. The factor takes nothing away where the draw is zero or the jitter
is small, and the conversion to seconds is rounded all the same; so
whether a delay can grow depends on that conversion alone
(`RetryPolicy.shortens_iff`). Up to `2^23` seconds, about ninety-seven
days, no delay grows; a nanosecond more does. Beyond, a delay may grow by
one part in `2^52`, and the very longest ones cannot be scaled. A delay may
also be taken away altogether, but not by jitter of at most a half
(`RetryPolicy.jittered_pos`).
-/

namespace ResilientCalls

section

-- both counts are too large to be computed with
attribute [local irreducible] unitsPerOne unitsLimit

namespace Binary64

variable {x y : Binary64}

/-- A number that chance may draw: zero at least, and below one. -/
def IsDraw (x : Binary64) : Prop := zero.le x = true ∧ x.lt one = true

/-- A number from zero to one; no sign counts but that of zero. -/
def InUnit (x : Binary64) : Prop :=
  ∃ s m, x = .finite s m ∧ m.units ≤ unitsPerOne ∧ (s = true → m.units = 0)

/-- What lies between zero and one in the order is a number from zero to
one. -/
theorem inUnit_of_le (hlow : zero.le x = true) (hhigh : x.le one = true) : x.InUnit := by
  have hlimit := representable_unitsPerOne.1
  rw [one_eq] at hhigh
  cases x with
  | nan => simp [le, place?] at hhigh
  | infinite s => cases s <;> simp [le, place?, zero, Magnitude.zero] at hlow hhigh <;> omega
  | finite s m =>
    refine ⟨s, m, rfl, ?_⟩
    cases s <;> simp [le, place?, zero, Magnitude.zero] at hlow hhigh ⊢ <;> omega

theorem le_of_lt (h : x.lt y = true) : x.le y = true := by
  unfold lt at h
  unfold le
  split at h
  · exact decide_eq_true (Int.le_of_lt (of_decide_eq_true h))
  · cases h

theorem IsDraw.inUnit (h : x.IsDraw) : x.InUnit := inUnit_of_le h.1 (le_of_lt h.2)

theorem isDraw_zero : zero.IsDraw := by
  have hpos := unitsPerOne_pos
  refine ⟨by simp [le, place?, zero], ?_⟩
  rw [zero, lt_one]
  simp [Magnitude.zero]
  omega

/-- Products stay between zero and one. -/
theorem InUnit.mul (hx : x.InUnit) (hy : y.InUnit) : (x.mul y).InUnit := by
  obtain ⟨s, m, rfl, hm, hs⟩ := hx
  obtain ⟨t, n, rfl, hn, ht⟩ := hy
  obtain ⟨k, hk, hunits, hle⟩ := ofUnits_of_le (s != t) unitsPerOne_pos n.representable
    (show m.units * n.units ≤ n.units * unitsPerOne by
      rw [Nat.mul_comm]
      exact Nat.mul_le_mul_left _ hm)
  refine ⟨s != t, k, hk, Nat.le_trans hle hn, fun hsign => ?_⟩
  have hzero : m.units * n.units = 0 := by
    cases s with
    | true => rw [hs rfl, Nat.zero_mul]
    | false =>
      obtain rfl : t = true := by simpa using hsign
      rw [ht rfl, Nat.mul_zero]
  rw [hunits, hzero, nearestUnits_eq_zero unitsPerOne_pos]

/-- What one is above a number from zero to one is such a number too, and
has no sign. -/
theorem InUnit.one_sub (hx : x.InUnit) :
    ∃ m : Magnitude, one.sub x = .finite false m ∧ m.units ≤ unitsPerOne := by
  have hpos := unitsPerOne_pos
  have hexact : ∀ n ≤ unitsPerOne, ∃ m : Magnitude,
      ofUnits false n 1 = .finite false m ∧ m.units ≤ unitsPerOne := by
    intro n hn
    have hone : n ≤ unitsPerOne * 1 := by rwa [Nat.mul_one]
    obtain ⟨m, hm, -, hle⟩ := ofUnits_of_le false Nat.one_pos representable_unitsPerOne hone
    exact ⟨m, hm, hle⟩
  obtain ⟨s, m, rfl, hm, hs⟩ := hx
  rw [one_eq]
  cases s with
  | true =>
    rw [sub, neg, add, Bool.not_true, if_pos rfl]
    exact hexact _ (by rw [hs rfl]; exact Nat.le_refl _)
  | false =>
    rw [sub, neg, add, Bool.not_false, if_neg (by decide)]
    split
    · exact hexact _ (Nat.sub_le _ _)
    · rw [if_neg (Nat.not_lt.2 hm)]
      exact ⟨.zero, rfl, Nat.zero_le _⟩

/-- One is no further above zero than one. -/
theorem InUnit.one_sub_mul_zero (hx : x.InUnit) : one.sub (x.mul zero) = one := by
  have hpos := unitsPerOne_pos
  have hself : ofUnits false unitsPerOne 1 = one := by
    rw [one, ofNat, Nat.one_mul]
  obtain ⟨s, m, rfl, -, -⟩ := hx
  obtain ⟨k, hk, hunits, -⟩ := ofUnits_of_le (s != false) unitsPerOne_pos representable_unitsPerOne
    (show m.units * Magnitude.zero.units ≤ unitsPerOne * unitsPerOne from Nat.zero_le _)
  have hzero : k.units = 0 := by
    rw [hunits]
    exact nearestUnits_eq_zero unitsPerOne_pos
  rw [zero, Binary64.mul, hk]
  nth_rewrite 1 [one_eq]
  cases s with
  | true => rw [Bool.bne_false, sub, neg, add, Bool.not_true, if_pos rfl, hzero, Nat.add_zero, hself]
  | false =>
    rw [Bool.bne_false, sub, neg, add, Bool.not_false, if_neg (by decide), hzero, if_pos hpos,
      Nat.sub_zero, hself]

/-- One half. -/
def half : Binary64 := (ofNat 1).div (ofNat 2)

theorem exists_half_eq : ∃ h : Magnitude, half = .finite false h ∧ 2 * h.units = unitsPerOne :=
  ⟨⟨pow2 1073, representable_pow2 (by decide)⟩, by decide +kernel, by decide +kernel⟩

theorem isDraw_half : half.IsDraw := ⟨by decide +kernel, by decide +kernel⟩

/-- A number from zero to a half; no sign counts but that of zero. -/
def InHalf (x : Binary64) : Prop :=
  ∃ s m, x = .finite s m ∧ 2 * m.units ≤ unitsPerOne ∧ (s = true → m.units = 0)

theorem InUnit.inHalf (hx : x.InUnit) (hle : x.le half = true) : x.InHalf := by
  obtain ⟨h, hhalf, hunits⟩ := exists_half_eq
  obtain ⟨s, m, rfl, -, hs⟩ := hx
  refine ⟨s, m, rfl, ?_, hs⟩
  rw [hhalf] at hle
  cases s <;> simp [le, place?] at hle hs ⊢ <;> omega

/-- A share of a number up to a half is such a number too. -/
theorem InHalf.mul (hx : x.InHalf) (hy : y.InUnit) : (x.mul y).InHalf := by
  have hxUnit : x.InUnit := by
    obtain ⟨s, m, hxm, hm, hs⟩ := hx
    exact ⟨s, m, hxm, by omega, hs⟩
  obtain ⟨t, k, hk, -, hsign⟩ := hxUnit.mul hy
  obtain ⟨s, m, rfl, hm, -⟩ := hx
  obtain ⟨s', n, rfl, hn, -⟩ := hy
  obtain ⟨k', hk', -, hle⟩ := ofUnits_of_le (s != s') unitsPerOne_pos m.representable
    (Nat.mul_le_mul_left m.units hn)
  obtain ⟨-, rfl⟩ := finite.inj (hk.symm.trans hk')
  exact ⟨t, k, hk, by omega, hsign⟩

/-- What one is above a number from zero to a half is a half at least. -/
theorem InHalf.one_sub (hx : x.InHalf) :
    ∃ m : Magnitude, one.sub x = .finite false m ∧ unitsPerOne ≤ 2 * m.units := by
  have hpos := unitsPerOne_pos
  obtain ⟨h, -, hunits⟩ := exists_half_eq
  obtain ⟨s, m, rfl, hm, hs⟩ := hx
  obtain ⟨k, hk, -⟩ := InUnit.one_sub (x := .finite s m) ⟨s, m, rfl, by omega, hs⟩
  refine ⟨k, hk, ?_⟩
  have hleft : AtLeast h.units (one.sub (.finite s m)) := by
    rw [one_eq]
    cases s with
    | true =>
      rw [sub, neg, add, Bool.not_true, if_pos rfl]
      exact atLeast_ofUnits Nat.one_pos h.representable (by simp only; omega)
    | false =>
      rw [sub, neg, add, Bool.not_false, if_neg (by decide), if_pos (by simp only; omega)]
      exact atLeast_ofUnits Nat.one_pos h.representable (by simp only; omega)
  rw [hk] at hleft
  have hge := hleft.2
  omega

end Binary64

open Binary64

namespace RetryPolicy

variable {p : RetryPolicy} {draw : Binary64} {delay : Duration}

/-! ## The factor -/

/-- The jitter of a policy that breaks no rule lies between zero and
one. -/
theorem inUnit_jitter (hp : p.validate = .ok ()) : p.jitter.InUnit := by
  have hrange := (validate_eq_ok_iff.1 hp).jitter
  rw [jitterInRange, Bool.and_eq_true] at hrange
  exact inUnit_of_le hrange.1 hrange.2

/-- A delay that jitter changes is scaled. -/
theorem jittered_eq_scale (hjitter : p.jitter.isZero = false) (hdelay : delay.isZero = false)
    (draw : Binary64) : p.jittered draw delay = delay.scale (p.jitterFactor draw) := by
  rw [jittered, hjitter, hdelay, Bool.or_self, if_neg Bool.false_ne_true]

/-- Without jitter, and for no delay at all, nothing changes. -/
theorem jittered_eq_self (h : p.jitter.isZero = true ∨ delay.isZero = true) (draw : Binary64) :
    p.jittered draw delay = .ok delay := by
  rw [jittered, if_pos (by simpa using h)]

/-- **The draw zero only converts the delay.** -/
theorem jittered_zero (hp : p.validate = .ok ()) (hjitter : p.jitter.isZero = false)
    (hdelay : delay.isZero = false) : p.jittered .zero delay = delay.scale .one := by
  rw [jittered_eq_scale hjitter hdelay, jitterFactor, (inUnit_jitter hp).one_sub_mul_zero]

/-- **No draw gives more than the conversion,** and each can be computed
if the conversion can. -/
theorem jittered_le_of_scale_one (hp : p.validate = .ok ()) (hdraw : draw.IsDraw)
    (hlong : delay.nanos ≤ Duration.longest.nanos) {r : Duration} (hr : delay.scale .one = .ok r) :
    ∃ d, p.jittered draw delay = .ok d ∧ (d.nanos ≤ delay.nanos ∨ d.nanos ≤ r.nanos) := by
  by_cases hself : p.jitter.isZero = true ∨ delay.isZero = true
  · exact ⟨delay, jittered_eq_self hself draw, Or.inl (Nat.le_refl _)⟩
  · obtain ⟨hjitter, hdelay⟩ := not_or.1 hself
    obtain ⟨m, hm, hle⟩ := ((inUnit_jitter hp).mul hdraw.inUnit).one_sub
    obtain ⟨d, hd, hdr⟩ := Duration.scale_le_scale_one hlong hle hr
    refine ⟨d, ?_, Or.inr hdr⟩
    rw [jittered_eq_scale (by simpa using hjitter) (by simpa using hdelay), jitterFactor, hm, hd]

/-- **Jitter of at most a half takes no delay away altogether.** -/
theorem jittered_pos (hp : p.validate = .ok ()) (hhalf : p.jitter.le half = true)
    (hdraw : draw.IsDraw) (hlong : delay.nanos ≤ Duration.longest.nanos) (hpos : 0 < delay.nanos)
    {d : Duration} (hd : p.jittered draw delay = .ok d) : 0 < d.nanos := by
  by_cases hself : p.jitter.isZero = true ∨ delay.isZero = true
  · rw [jittered_eq_self hself] at hd
    exact Except.ok.inj hd ▸ hpos
  · obtain ⟨hjitter, hdelay⟩ := not_or.1 hself
    obtain ⟨m, hm, hge⟩ := (((inUnit_jitter hp).inHalf hhalf).mul hdraw.inUnit).one_sub
    rw [jittered_eq_scale (by simpa using hjitter) (by simpa using hdelay), jitterFactor, hm] at hd
    exact Duration.scale_pos hlong hpos hge hd

/-! ## Which delays are never longer -/

/-- With this draw the delay can be computed, and is not longer than it
was. -/
def Shortens (p : RetryPolicy) (draw : Binary64) (delay : Duration) : Prop :=
  ∃ d, p.jittered draw delay = .ok d ∧ d.nanos ≤ delay.nanos

/-- A delay that the conversion makes no longer is made longer by no
draw. -/
theorem shortens_of_scale_one (hp : p.validate = .ok ()) (hdraw : draw.IsDraw)
    (hlong : delay.nanos ≤ Duration.longest.nanos) {r : Duration} (hr : delay.scale .one = .ok r)
    (hle : r.nanos ≤ delay.nanos) : p.Shortens draw delay := by
  obtain ⟨d, hd, hshort | hshort⟩ := jittered_le_of_scale_one hp hdraw hlong hr
  · exact ⟨d, hd, hshort⟩
  · exact ⟨d, hd, Nat.le_trans hshort hle⟩

/-- **Delays of up to `2^23` seconds are shortened,** whatever is drawn. -/
theorem shortens_of_le (hp : p.validate = .ok ()) (hdraw : draw.IsDraw)
    (h : delay.nanos ≤ Duration.exactUpTo.nanos) : p.Shortens draw delay := by
  obtain ⟨r, hr, hle⟩ := Duration.scale_one_of_le h
  exact shortens_of_scale_one hp hdraw (Nat.le_trans h (by decide)) hr hle

/-- **Every draw shortens a delay exactly when the conversion to seconds
does,** unless there is no jitter. -/
theorem shortens_iff (hp : p.validate = .ok ()) (hlong : delay.nanos ≤ Duration.longest.nanos) :
    (∀ draw : Binary64, draw.IsDraw → p.Shortens draw delay) ↔
      p.jitter.isZero = true ∨ ∃ r, delay.scale .one = .ok r ∧ r.nanos ≤ delay.nanos := by
  constructor
  · intro h
    obtain ⟨d, hd, hle⟩ := h .zero isDraw_zero
    by_cases hjitter : p.jitter.isZero = true
    · exact Or.inl hjitter
    refine Or.inr ?_
    by_cases hdelay : delay.isZero = true
    · refine Duration.scale_one_of_le ?_
      rw [Duration.isZero, beq_iff_eq] at hdelay
      exact hdelay ▸ Nat.zero_le _
    · rw [jittered_zero hp (by simpa using hjitter) (by simpa using hdelay)] at hd
      exact ⟨d, hd, hle⟩
  · rintro (hjitter | ⟨r, hr, hle⟩) draw hdraw
    · exact ⟨delay, jittered_eq_self (Or.inl hjitter) draw, Nat.le_refl _⟩
    · exact shortens_of_scale_one hp hdraw hlong hr hle

/-- Under a policy whose longest interval is at most `2^23` seconds, every
draw shortens every delay. -/
theorem shortens_of_maximum_le (hp : p.validate = .ok ())
    (hmaximum : p.maximumInterval.nanos ≤ Duration.exactUpTo.nanos) (hdraw : draw.IsDraw) {n : Nat}
    (hdelay : delay.nanos ≤ (p.baseDelay n).nanos) : p.Shortens draw delay :=
  shortens_of_le hp hdraw
    (Nat.le_trans hdelay (Nat.le_trans ((waits_of_validate hp).baseDelay_le n) hmaximum))

/-- **No draw makes a delay longer** under such a policy. -/
theorem neverLengthens_of_maximum_le (hp : p.validate = .ok ())
    (hmaximum : p.maximumInterval.nanos ≤ Duration.exactUpTo.nanos) {draws : Draws}
    (hdraws : ∀ n, (draws n).IsDraw) : p.NeverLengthens draws := by
  intro n delay jittered hdelay hjittered
  obtain ⟨d, hd, hle⟩ := shortens_of_maximum_le hp hmaximum (hdraws n) hdelay
  obtain rfl : jittered = d := Except.ok.inj (hjittered.symm.trans hd)
  exact hle

end RetryPolicy

/-- No delay is longer than the time that is left. -/
theorem Invocation.nextBackoff_le_left {p : RetryPolicy} {i : Invocation} {now : Instant}
    {delay left : Duration} (h : i.nextBackoff p now = .sleep delay)
    (hleft : i.budget now = .remaining left) : delay.nanos ≤ left.nanos := by
  simp only [nextBackoff, hleft] at h
  split at h
  · cases h
  · obtain rfl := Backoff.sleep.inj h
    exact Nat.min_le_right _ _

end

/-- **Jitter shortens delays** under a policy that breaks no rule. A delay
that a run may ask for, of up to `2^23` seconds, can be computed for every
draw and is no longer than before, so it is within the longest interval and
the time that is left. For a delay of any length this holds of all draws
exactly when there is no jitter or the delay comes back from binary64
seconds no longer than it was. Below `2^64 - 1024` seconds a delay can be
computed, and grows by one part in `2^52` and a nanosecond at most; from
there on the draw zero fails. -/
theorem jitter_shortens {p : RetryPolicy} (hp : p.validate = .ok ()) {i : Invocation}
    {now : Instant} {delay : Duration} (hdelay : i.nextBackoff p now = .sleep delay)
    (hlong : delay.nanos ≤ Duration.longest.nanos) :
    (delay.nanos ≤ Duration.exactUpTo.nanos → ∀ draw : Binary64, draw.IsDraw →
      ∃ d, p.jittered draw delay = .ok d ∧ d.nanos ≤ delay.nanos ∧
        d.nanos ≤ p.maximumInterval.nanos ∧
        ∀ left, i.budget now = .remaining left → d.nanos ≤ left.nanos) ∧
    ((∀ draw : Binary64, draw.IsDraw → p.Shortens draw delay) ↔
      p.jitter.isZero = true ∨ ∃ r, delay.scale .one = .ok r ∧ r.nanos ≤ delay.nanos) ∧
    (delay.nanos < Duration.tooLongFrom.nanos → ∀ draw : Binary64, draw.IsDraw →
      ∃ d, p.jittered draw delay = .ok d ∧
        d.nanos ≤ delay.nanos + delay.nanos / pow2 52 + 1) ∧
    (Duration.tooLongFrom.nanos ≤ delay.nanos → p.jitter.isZero = false →
      p.jittered .zero delay = .error .tooLarge) := by
  have hmaximum : delay.nanos ≤ p.maximumInterval.nanos :=
    Nat.le_trans (Invocation.nextBackoff_le hdelay)
      ((RetryPolicy.waits_of_validate hp).baseDelay_le i.attempt)
  refine ⟨?_, RetryPolicy.shortens_iff hp hlong, ?_, ?_⟩
  · intro hle draw hdraw
    obtain ⟨d, hd, hshort⟩ := RetryPolicy.shortens_of_le hp hdraw hle
    exact ⟨d, hd, hshort, Nat.le_trans hshort hmaximum,
      fun left hleft => Nat.le_trans hshort (Invocation.nextBackoff_le_left hdelay hleft)⟩
  · intro hlt draw hdraw
    obtain ⟨r, hr, hnear⟩ := Duration.scale_one_near hlt
    obtain ⟨d, hd, hle⟩ := RetryPolicy.jittered_le_of_scale_one hp hdraw hlong hr
    generalize delay.nanos / pow2 52 = part at hnear ⊢
    exact ⟨d, hd, by omega⟩
  · intro hge hjitter
    have hsome : delay.isZero = false := by
      have hpos : 0 < delay.nanos := Nat.lt_of_lt_of_le (by decide) hge
      simpa [Duration.isZero] using Nat.ne_of_gt hpos
    rw [RetryPolicy.jittered_zero hp hjitter hsome, Duration.scale_one_tooLong hge hlong]

/-- A first delay of `2^23` seconds that chance may take away altogether. -/
def lastExact : RetryPolicy :=
  { RetryPolicy.draft with initialInterval := .exactUpTo, jitter := .one }

/-- The longest delay that never grows, under the greatest jitter. -/
theorem jitter_shortens_lastExact :
    lastExact.validate = .ok () ∧
    (Invocation.begin lastExact none .start).nextBackoff lastExact .start =
      .sleep .exactUpTo ∧
    ∀ draw : Binary64, draw.IsDraw →
      ∃ d, lastExact.jittered draw .exactUpTo = .ok d ∧ d.nanos ≤ 8388608000000000 := by
  have hvalid : lastExact.validate = .ok () := by decide +kernel
  have hdelay : (Invocation.begin lastExact none .start).nextBackoff lastExact .start =
      .sleep .exactUpTo := by decide +kernel
  refine ⟨hvalid, hdelay, fun draw hdraw => ?_⟩
  obtain ⟨d, hd, hle, -⟩ := (jitter_shortens hvalid hdelay (by decide)).1 (Nat.le_refl _) draw hdraw
  exact ⟨d, hd, hle⟩

/-- A first delay of a nanosecond more, with next to no jitter. -/
def pastExact : RetryPolicy :=
  { RetryPolicy.draft with
    initialInterval := ⟨8388608000000001⟩
    maximumAttempts := 2
    jitter := Numeral.toBinary64 ⟨false, 1, -20⟩ }

/-- The next delay grows by a nanosecond, and past the longest interval
where that is the delay itself. -/
theorem jitter_lengthens_pastExact :
    pastExact.validate = .ok () ∧
    (Invocation.begin pastExact none .start).nextBackoff pastExact .start =
      .sleep ⟨8388608000000001⟩ ∧
    Binary64.zero.IsDraw ∧
    pastExact.jittered .zero ⟨8388608000000001⟩ = .ok ⟨8388608000000002⟩ ∧
    ¬ pastExact.Shortens .zero ⟨8388608000000001⟩ := by
  have hjittered : pastExact.jittered .zero ⟨8388608000000001⟩ = .ok ⟨8388608000000002⟩ := by
    decide +kernel
  refine ⟨by decide +kernel, by decide +kernel, Binary64.isDraw_zero, hjittered, ?_⟩
  rintro ⟨d, hd, hle⟩
  obtain rfl := Except.ok.inj (hjittered.symm.trans hd)
  exact absurd hle (by decide)

end ResilientCalls
