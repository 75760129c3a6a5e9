import ResilientCalls.Proofs.Retry.Decision
import ResilientCalls.Retry.Options
/-!
# How many attempts there is room for

A run without jitter spaces its attempts: after each failure it waits for
at least the first delay, or for the whole time that is left. So attempt
`k + 1` starts no earlier than `k` first delays after the beginning, or
not before the deadline. A failure is retried only before the deadline,
and only while the policy has attempts left. Together this bounds the
attempts of a run: by the policy's number, and by the number of first
delays that fit before the deadline, plus one.
-/

namespace ResilientCalls

namespace RetryOptions

/-- The effective deadline of a run whose first attempt starts at
`first`. -/
def effective (o : RetryOptions) (first : Instant) : Option Instant :=
  Deadline.effective o.policy o.deadline first

/-- The first delay. -/
def spacing (o : RetryOptions) : Duration := o.policy.baseDelay 1

/-- **A number of attempts that the bounds of a run allow:** no more than
the policy's, if it limits them, and no more than one for each first delay
begun before the deadline, plus one. -/
def Allows (o : RetryOptions) (first : Instant) (n : Nat) : Prop :=
  (0 < o.policy.maximumAttempts → n ≤ o.policy.maximumAttempts) ∧
    ∀ d, o.effective first = some d →
      n ≤ (d.nanos - first.nanos + o.spacing.nanos - 1) / o.spacing.nanos + 1

/-- An instant that is not before the deadline, or `k` first delays after
the beginning. -/
def Spaced (o : RetryOptions) (first : Instant) (k : Nat) (now : Instant) : Prop :=
  ∀ d, o.effective first = some d → min d.nanos (first.nanos + k * o.spacing.nanos) ≤ now.nanos

/-- No timer cuts a delay short that the run may ask for: one that begins
after the first attempt, ends by the deadline and is no longer than the
longest interval. -/
def Unhurried (o : RetryOptions) (first : Instant) : Prop :=
  ∀ d, o.effective first = some d → ∀ (now : Instant) (delay : Duration),
    first.nanos ≤ now.nanos → now.nanos + delay.nanos ≤ d.nanos →
      delay.nanos ≤ o.policy.maximumInterval.nanos →
        now.nanos + delay.nanos ≤ (now.timer delay).nanos

/-- The options of a run without a token, whose policy waits, has no
jitter and counts its attempts in 32 bits. -/
structure Steady (o : RetryOptions) : Prop where
  waits : o.policy.Waits
  noJitter : o.policy.jitter.isZero = true
  countable : o.policy.maximumAttempts ≤ maxCount32
  noToken : o.hasToken = false

variable {o : RetryOptions} {first : Instant}

/-- The options of a run that is given no token. -/
theorem eq_of_new {policy : RetryPolicy} {deadline : Option Instant}
    (h : new policy deadline = .ok o) : o = ⟨policy, deadline, false⟩ := by
  unfold new at h
  cases hvalid : policy.validate with
  | error reason => rw [hvalid] at h; cases h
  | ok u =>
    rw [hvalid] at h
    cases hbounded : policy.validateBounded deadline.isSome with
    | error reason => simp [bind, Except.bind, hbounded] at h
    | ok u => simpa [bind, Except.bind, hbounded, pure, Except.pure] using h.symm

/-- Accepted options without jitter are steady. -/
theorem steady_of_new {policy : RetryPolicy} {deadline : Option Instant}
    (h : new policy deadline = .ok o) (hjitter : o.policy.jitter.isZero = true)
    (hmax : o.policy.maximumAttempts ≤ maxCount32) : o.Steady := by
  refine ⟨RetryPolicy.waits_of_validate ?_, hjitter, hmax, by rw [eq_of_new h]⟩
  rw [eq_of_new h]
  unfold new at h
  cases hvalid : policy.validate with
  | error reason => rw [hvalid] at h; cases h
  | ok u => rfl

/-- Something bounds every run. -/
theorem bounded_of_new {policy : RetryPolicy} {deadline : Option Instant}
    (h : new policy deadline = .ok o) (first : Instant) :
    0 < o.policy.maximumAttempts ∨ ∃ d, o.effective first = some d := by
  have hbounded : (policy.isBounded || deadline.isSome) = true := by
    by_contra hnot
    unfold new at h
    cases hvalid : policy.validate with
    | error reason => rw [hvalid] at h; cases h
    | ok u => simp [hvalid, bind, Except.bind, RetryPolicy.validateBounded, hnot] at h
  rw [eq_of_new h]
  unfold effective Deadline.effective
  simp only [RetryPolicy.isBounded, Bool.or_eq_true, decide_eq_true_eq] at hbounded
  cases hcaller : deadline with
  | some c => cases policy.expiration <;> exact Or.inr ⟨_, rfl⟩
  | none =>
    cases hexpiration : policy.expiration with
    | some e => exact Or.inr ⟨_, rfl⟩
    | none => simpa [hcaller, hexpiration] using hbounded

/-! ## The bound -/

/-- Fewer attempts are allowed too. -/
theorem Allows.mono {m n : Nat} (h : o.Allows first n) (hmn : m ≤ n) : o.Allows first m :=
  ⟨fun hpos => le_trans hmn (h.1 hpos), fun d hd => le_trans hmn (h.2 d hd)⟩

/-- The first attempt is allowed. -/
theorem allows_one : o.Allows first 1 :=
  ⟨fun hpos => hpos, fun _ _ => Nat.le_add_left 1 _⟩

/-- At the beginning no delay has passed. -/
theorem spaced_zero : o.Spaced first 0 first := by
  intro d hd
  omega

/-- Later instants are spaced too. -/
theorem Spaced.mono {k : Nat} {t u : Instant} (h : o.Spaced first k t)
    (htu : t.nanos ≤ u.nanos) : o.Spaced first k u :=
  fun d hd => le_trans (h d hd) htu

/-- Accepted options allow only so many attempts. -/
theorem exists_bound (hbounded : 0 < o.policy.maximumAttempts ∨ ∃ d, o.effective first = some d) :
    ∃ N, ∀ n, o.Allows first n → n ≤ N := by
  rcases hbounded with hpos | ⟨d, hd⟩
  · exact ⟨_, fun n h => h.1 hpos⟩
  · exact ⟨_, fun n h => h.2 d hd⟩

end RetryOptions

open RetryOptions

/-! ## A retry -/

variable {ε : Type} [Failure ε] {o : RetryOptions} {first : Instant}

/-- Without jitter a delay is what the policy says. -/
theorem RetryPolicy.jittered_of_isZero {p : RetryPolicy} (h : p.jitter.isZero = true)
    (draw : Binary64) (delay : Duration) : p.jittered draw delay = .ok delay := by
  rw [RetryPolicy.jittered, h, Bool.true_or, if_pos rfl]

/-- Without jitter every delay can be computed. -/
theorem afterFailure_ne_overflow {p : RetryPolicy} (h : p.jitter.isZero = true) (i : Invocation)
    (e : ε) (now : Instant) (draw : Binary64) (reason : Duration.ConversionError) :
    afterFailure p i e now draw ≠ .overflow reason :=
  afterFailure_ne_overflow_of
    (fun base _ => ⟨base, RetryPolicy.jittered_of_isZero h draw base⟩) reason

/-- **A retry makes room for one more attempt.** Attempt `k + 1` failed at
`now`; if it was allowed and spaced, then so is the next one, a delay
later. -/
theorem spaced_of_retry {i : Invocation} {e : ε} {now : Instant} {draw : Binary64}
    {delay : Duration} {k : Nat} (ho : o.Steady)
    (hattempt : i.attempt = min (k + 1) maxCount32) (hdeadline : i.deadline = o.effective first)
    (hspaced : o.Spaced first k now)
    (h : afterFailure o.policy i e now draw = .retry delay) :
    o.Allows first (k + 2) ∧ o.Spaced first (k + 1) (now.plus delay) ∧
      delay.nanos ≤ o.policy.maximumInterval.nanos ∧
      ∀ d, o.effective first = some d → now.nanos + delay.nanos ≤ d.nanos := by
  obtain ⟨hp, hjitter, hmax, -⟩ := ho
  have hjust := afterFailure_justified hp i e now draw
  rw [h] at hjust
  obtain ⟨-, -, hleft, base, hback, hbase⟩ := hjust
  rw [RetryPolicy.jittered_of_isZero hjitter] at hbase
  obtain rfl := Except.ok.inj hbase
  obtain ⟨hexpired, hfree, hcut⟩ := Invocation.nextBackoff_eq_sleep hback
  have hpos : 0 < o.spacing.nanos := hp.baseDelay_pos 1
  have hfirst : o.spacing.nanos ≤ (o.policy.baseDelay i.attempt).nanos :=
    hp.baseDelay_one_le i.attempt
  have hlong := hp.baseDelay_le i.attempt
  unfold Spaced at hspaced ⊢
  unfold Allows
  -- from here on the delays are plain numbers; how they are computed no longer matters
  generalize o.policy.baseDelay i.attempt = full at *
  generalize o.spacing.nanos = spacing at *
  -- a deadline that has not passed leaves room for the attempts so far
  have hbefore : ∀ d, o.effective first = some d → now.nanos < d.nanos := by
    intro d hd
    by_contra hle
    exact hexpired ⟨d, hdeadline.trans hd, by omega⟩
  refine ⟨⟨?_, ?_⟩, ?_, ?_, ?_⟩
  · intro hlimited
    have hcount : ¬ (0 < o.policy.maximumAttempts ∧ o.policy.maximumAttempts ≤ i.attempt) := by
      rw [← Invocation.isExhausted_iff]
      simp [hleft]
    omega
  · intro d hd
    have hlt := hbefore d hd
    have hmin := hspaced d hd
    -- attempt `k + 1` ended `k` spacings after the first began, and still before the deadline
    have hroom : k * spacing + spacing ≤ d.nanos - first.nanos + spacing - 1 := by omega
    rw [← Nat.succ_mul] at hroom
    have hdiv := (Nat.le_div_iff_mul_le hpos).2 hroom
    omega
  · intro d hd
    have hlt := hbefore d hd
    have hmin := hspaced d hd
    have hdelay := hcut d (hdeadline.trans hd)
    simp only [Nat.succ_mul, Instant.plus]
    omega
  · -- with or without a deadline, the delay is no longer than the policy's own
    cases hd : i.deadline with
    | none => rwa [hfree hd]
    | some d =>
      have hdelay := hcut d hd
      omega
  · intro d hd
    have hlt := hbefore d hd
    have hdelay := hcut d (hdeadline.trans hd)
    omega

omit [Failure ε] in
/-- A timer that cuts nothing short keeps attempts spaced. -/
theorem RetryOptions.Spaced.timer {now : Instant} {delay : Duration} {k : Nat}
    (hclock : o.Unhurried first) (hfirst : first.nanos ≤ now.nanos)
    (hspaced : o.Spaced first k (now.plus delay))
    (hlong : delay.nanos ≤ o.policy.maximumInterval.nanos)
    (hends : ∀ d, o.effective first = some d → now.nanos + delay.nanos ≤ d.nanos) :
    o.Spaced first k (now.timer delay) :=
  fun d hd => le_trans (hspaced d hd) (hclock d hd now delay hfirst (hends d hd) hlong)

/-- A deadline no more than thirty years ahead, and not past the last
instant that a timer waits for, hurries no delay. -/
theorem RetryOptions.unhurried_of_le (hnear : ∀ d, o.effective first = some d →
    d.nanos ≤ first.nanos + Duration.furthest.nanos ∧ d.nanos ≤ Instant.lastFiring.nanos) :
    o.Unhurried first := by
  intro d hd now delay hfirst hends _
  obtain ⟨hfar, hlast⟩ := hnear d hd
  exact Instant.le_timer (by omega) (by omega)

end ResilientCalls
