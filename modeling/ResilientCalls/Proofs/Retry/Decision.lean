import ResilientCalls.Proofs.Retry.Backoff
import ResilientCalls.Retry.Decision
/-!
# What a decision says about the failure

Each decision after a failure is taken for a reason that can be read off
the failure, the policy and the clock. Most reasons are a branch of the
rule; the deadline is not, for a delay that is cut to nothing also counts
as the deadline. Under a policy that waits no delay is nothing before the
cut, so only a deadline that has passed leaves nothing.
-/

namespace ResilientCalls

variable {ε : Type} [Failure ε] {p : RetryPolicy} {i : Invocation} {e : ε} {now : Instant}
  {draw : Binary64}

/-- The policy lists the failure among those it never retries. -/
def RetryPolicy.Lists (p : RetryPolicy) (e : ε) : Prop :=
  ∃ m ∈ p.doNotRetry, m.matchesFailure e = true

theorem RetryPolicy.not_lists_iff :
    ¬ p.Lists e ↔ p.doNotRetry.any (·.matchesFailure e) = false := by
  simp [RetryPolicy.Lists]

namespace Invocation

/-- The deadline fixed at the beginning has passed. -/
def Expired (i : Invocation) (now : Instant) : Prop :=
  ∃ d, i.deadline = some d ∧ d.nanos ≤ now.nanos

theorem budget_eq_expired_iff : i.budget now = .expired ↔ i.Expired now := by
  unfold budget Expired
  cases i.deadline with
  | none => simp
  | some d => by_cases h : d.nanos ≤ now.nanos <;> simp [Instant.reached, h]

theorem isExpired_iff : i.isExpired now = true ↔ i.Expired now := by
  unfold isExpired
  rw [decide_eq_true_iff, budget_eq_expired_iff]

theorem isExhausted_iff : i.isExhausted p = true ↔
    0 < p.maximumAttempts ∧ p.maximumAttempts ≤ i.attempt := by
  simp [isExhausted]

/-- A delay is the policy's, cut to the whole time that is left. -/
theorem nextBackoff_eq_sleep {delay : Duration} (h : i.nextBackoff p now = .sleep delay) :
    ¬ i.Expired now ∧ (i.deadline = none → delay = p.baseDelay i.attempt) ∧
      ∀ d, i.deadline = some d →
        delay.nanos = min (p.baseDelay i.attempt).nanos (d.nanos - now.nanos) := by
  rw [← budget_eq_expired_iff]
  unfold nextBackoff at h
  cases hbudget : i.budget now with
  | expired => simp [hbudget] at h
  | unbounded =>
    simp only [hbudget, Backoff.sleep.injEq] at h
    refine ⟨by simp, fun _ => h.symm, ?_⟩
    intro d hd
    simp only [budget, hd] at hbudget
    split at hbudget <;> cases hbudget
  | remaining left =>
    simp only [hbudget] at h
    split at h
    · cases h
    obtain rfl := Backoff.sleep.inj h
    refine ⟨by simp, ?_, ?_⟩
    · intro hd
      simp [budget, hd] at hbudget
    · intro d hd
      simp only [budget, hd] at hbudget
      split at hbudget
      · cases hbudget
      obtain rfl := Budget.remaining.inj hbudget
      rfl

/-- No delay is longer than the policy's. -/
theorem nextBackoff_le {delay : Duration} (h : i.nextBackoff p now = .sleep delay) :
    delay.nanos ≤ (p.baseDelay i.attempt).nanos := by
  obtain ⟨-, hfree, hcut⟩ := nextBackoff_eq_sleep h
  cases hd : i.deadline with
  | none => rw [hfree hd]
  | some d =>
    have hmin := hcut d hd
    omega

/-- Under a deadline a delay is not nothing. -/
theorem nextBackoff_pos {delay : Duration} {d : Instant} (hd : i.deadline = some d)
    (h : i.nextBackoff p now = .sleep delay) : 0 < delay.nanos := by
  unfold nextBackoff budget at h
  simp only [hd] at h
  by_cases hreached : d.reached now = true
  · simp [hreached] at h
  · simp only [hreached, Bool.false_eq_true, if_false] at h
    split at h
    · cases h
    · rename_i hzero
      obtain rfl := Backoff.sleep.inj h
      simpa [Duration.isZero, Nat.pos_iff_ne_zero] using hzero

/-- **Only a deadline that has passed leaves no time,** if the policy
waits. -/
theorem expired_of_deadlineReached (hp : p.Waits) (h : i.nextBackoff p now = .deadlineReached) :
    i.Expired now := by
  have hpos := hp.baseDelay_pos i.attempt
  rw [← budget_eq_expired_iff]
  unfold nextBackoff at h
  cases hbudget : i.budget now with
  | expired => rfl
  | unbounded => simp [hbudget] at h
  | remaining left =>
    -- time that is left is not nothing, and neither is the delay
    exfalso
    simp only [hbudget] at h
    split at h
    · rename_i hzero
      unfold budget at hbudget
      cases hd : i.deadline with
      | none => simp [hd] at hbudget
      | some d =>
        simp only [hd] at hbudget
        split at hbudget
        · cases hbudget
        rename_i hreached
        obtain rfl := Budget.remaining.inj hbudget
        simp only [Instant.reached, decide_eq_true_eq] at hreached
        simp only [Duration.isZero, Duration.shorter, Instant.since, beq_iff_eq] at hzero
        omega
    · cases h

end Invocation

/-! ## Retries -/

/-- A retry waits for the delay that is left, after jitter. -/
theorem nextBackoff_of_retry {delay : Duration} (h : afterFailure p i e now draw = .retry delay) :
    ∃ base, i.nextBackoff p now = .sleep base ∧ p.jittered draw base = .ok delay := by
  unfold afterFailure at h
  cases hclass : classify p.doNotRetry e (i.isExpired now) with
  | nonRetryable | deadlineExceeded | cancelled => simp [hclass] at h
  | retryable =>
    simp only [hclass] at h
    split at h
    · cases h
    cases hback : i.nextBackoff p now with
    | deadlineReached => simp [hback] at h
    | sleep base =>
      simp only [hback] at h
      cases hjitter : p.jittered draw base with
      | error reason => simp [hjitter] at h
      | ok d =>
        simp only [hjitter, Decision.retry.injEq] at h
        exact ⟨base, rfl, by rw [hjitter, h]⟩

/-- **A failure is retried before the deadline only.** -/
theorem lt_deadline_of_retry {delay : Duration} {d : Instant}
    (h : afterFailure p i e now draw = .retry delay) (hd : i.deadline = some d) :
    now.nanos < d.nanos := by
  obtain ⟨base, hback, -⟩ := nextBackoff_of_retry h
  by_contra hle
  exact (Invocation.nextBackoff_eq_sleep hback).1 ⟨d, hd, by omega⟩

/-- A delay that jitter does not lengthen ends by the deadline. -/
theorem le_deadline_of_retry {delay : Duration} {d : Instant}
    (h : afterFailure p i e now draw = .retry delay) (hd : i.deadline = some d)
    (hshort : ∀ base jittered, base.nanos ≤ (p.baseDelay i.attempt).nanos →
      p.jittered draw base = .ok jittered → jittered.nanos ≤ base.nanos) :
    now.nanos + delay.nanos ≤ d.nanos := by
  have hlt := lt_deadline_of_retry h hd
  obtain ⟨base, hback, hjitter⟩ := nextBackoff_of_retry h
  have hcut := (Invocation.nextBackoff_eq_sleep hback).2.2 d hd
  have hle := hshort base delay (by omega) hjitter
  omega

/-- A delay that can be computed with jitter overflows nothing. -/
theorem afterFailure_ne_overflow_of (hcomputed : ∀ base : Duration,
      base.nanos ≤ (p.baseDelay i.attempt).nanos → ∃ delay, p.jittered draw base = .ok delay)
    (reason : Duration.ConversionError) : afterFailure p i e now draw ≠ .overflow reason := by
  unfold afterFailure
  cases classify p.doNotRetry e (i.isExpired now) with
  | nonRetryable | deadlineExceeded | cancelled => simp
  | retryable =>
    simp only []
    split
    · simp
    · cases hback : i.nextBackoff p now with
      | deadlineReached => simp
      | sleep base =>
        obtain ⟨delay, hdelay⟩ := hcomputed base (Invocation.nextBackoff_le hback)
        simp [hdelay]

/-! ## The reasons -/

/-- What a decision says about the failure it follows. -/
def Decision.Justified (p : RetryPolicy) (i : Invocation) (e : ε) (now : Instant)
    (draw : Binary64) : Decision → Prop
  | .stop .nonRetryable => p.Lists e
  | .stop .cancelled => ¬ p.Lists e ∧ Failure.isCancelled e = true
  | .stop .attemptsExhausted =>
    ¬ p.Lists e ∧ Failure.isCancelled e = false ∧ i.isExhausted p = true
  | .stop .deadlineExceeded => ¬ p.Lists e ∧ Failure.isCancelled e = false ∧ i.Expired now
  | .overflow _ => ¬ p.Lists e ∧ Failure.isCancelled e = false
  | .retry delay =>
    ¬ p.Lists e ∧ Failure.isCancelled e = false ∧ i.isExhausted p = false ∧
      ∃ base, i.nextBackoff p now = .sleep base ∧ p.jittered draw base = .ok delay

/-- The disposition of a failure tells whether the table lists it, and
then what the failure reports. -/
theorem classify_spec (table : List Matcher) (e : ε) (elapsed : Bool) :
    match classify table e elapsed with
    | .nonRetryable => table.any (·.matchesFailure e) = true
    | .cancelled => table.any (·.matchesFailure e) = false ∧ Failure.isCancelled e = true
    | .deadlineExceeded => table.any (·.matchesFailure e) = false ∧
        Failure.isCancelled e = false ∧ elapsed = true
    | .retryable => table.any (·.matchesFailure e) = false ∧ Failure.isCancelled e = false := by
  unfold classify
  by_cases hlist : table.any (·.matchesFailure e) = true
  · simp only [if_pos hlist]
    exact hlist
  · rw [if_neg hlist]
    rw [Bool.not_eq_true] at hlist
    by_cases hcancel : Failure.isCancelled e = true
    · rw [if_pos hcancel]
      exact ⟨hlist, hcancel⟩
    · rw [if_neg hcancel]
      rw [Bool.not_eq_true] at hcancel
      by_cases hdead : (Failure.isDeadlineExceeded e && elapsed) = true
      · rw [if_pos hdead]
        exact ⟨hlist, hcancel, (Bool.and_eq_true_iff.1 hdead).2⟩
      · rw [if_neg hdead]
        exact ⟨hlist, hcancel⟩

/-- **Every decision is justified,** if the policy waits. -/
theorem afterFailure_justified (hp : p.Waits) (i : Invocation) (e : ε) (now : Instant)
    (draw : Binary64) : (afterFailure p i e now draw).Justified p i e now draw := by
  have hspec := classify_spec p.doNotRetry e (i.isExpired now)
  unfold afterFailure
  cases hclass : classify p.doNotRetry e (i.isExpired now) with
  | nonRetryable =>
    simp only [hclass] at hspec
    simpa [Decision.Justified, RetryPolicy.Lists] using hspec
  | cancelled =>
    simp only [hclass, ← RetryPolicy.not_lists_iff] at hspec
    exact hspec
  | deadlineExceeded =>
    simp only [hclass, ← RetryPolicy.not_lists_iff, Invocation.isExpired_iff] at hspec
    exact hspec
  | retryable =>
    simp only [hclass, ← RetryPolicy.not_lists_iff] at hspec
    obtain ⟨hlist, hcancel⟩ := hspec
    simp only []
    by_cases hexhausted : i.isExhausted p = true
    · rw [if_pos hexhausted]
      exact ⟨hlist, hcancel, hexhausted⟩
    · rw [if_neg hexhausted]
      cases hback : i.nextBackoff p now with
      | deadlineReached => exact ⟨hlist, hcancel, i.expired_of_deadlineReached hp hback⟩
      | sleep base =>
        simp only []
        cases hjitter : p.jittered draw base with
        | error reason => exact ⟨hlist, hcancel⟩
        | ok delay => exact ⟨hlist, hcancel, by simpa using hexhausted, base, hback, hjitter⟩

end ResilientCalls
