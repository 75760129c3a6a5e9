import ResilientCalls.Proofs.Retry.Pacing
/-!
# Runs without time

Without a deadline and without jitter, what follows a failure is told by
the policy and the number of the attempt alone. If what an attempt does
depends on the world alone too, then so does the outcome of the run, all
but the time it took. `RetryPolicy.Comes` is this run without time; it has
one outcome at most, so any two runs that come to it agree.
-/

namespace ResilientCalls

variable {σ ε α : Type}

/-- The error without the time that the run took. -/
def RetryError.timeless : RetryError ε → RetryError ε
  | .nonRetryable e n _ => .nonRetryable e n .zero
  | .attemptsExhausted e n _ => .attemptsExhausted e n .zero
  | .deadlineExceeded last n _ => .deadlineExceeded last n .zero
  | .cancelled last n _ => .cancelled last n .zero
  | .configuration reason => .configuration reason

theorem Stop.timeless_toError (reason : Stop) (e : ε) (attempts : Nat) (elapsed : Duration) :
    (reason.toError e attempts elapsed).timeless = reason.toError e attempts .zero := by
  cases reason <;> rfl

variable [Failure ε]

namespace RetryPolicy

/-- **What follows a failure of an attempt without a deadline,** and
without jitter: no clock is read. -/
def decides (p : RetryPolicy) (attempt : Nat) (e : ε) : Decision :=
  match classify p.doNotRetry e false with
  | .nonRetryable => .stop .nonRetryable
  | .deadlineExceeded => .stop .deadlineExceeded
  | .cancelled => .stop .cancelled
  | .retryable =>
    if 0 < p.maximumAttempts ∧ p.maximumAttempts ≤ attempt then .stop .attemptsExhausted
    else .retry (p.baseDelay attempt)

variable {p : RetryPolicy}

/-- No clock is read where there is no deadline. -/
theorem afterFailure_eq_decides {i : Invocation} (hdeadline : i.deadline = none)
    (hjitter : p.jitter.isZero = true) (e : ε) (now : Instant) (draw : Binary64) :
    afterFailure p i e now draw = p.decides i.attempt e := by
  have hbudget : i.budget now = .unbounded := by simp only [Invocation.budget, hdeadline]
  have hexpired : i.isExpired now = false := by simp [Invocation.isExpired, hbudget]
  have hbackoff : i.nextBackoff p now = .sleep (p.baseDelay i.attempt) := by
    simp only [Invocation.nextBackoff, hbudget]
  unfold afterFailure decides
  rw [hexpired]
  cases classify p.doNotRetry e false with
  | nonRetryable | deadlineExceeded | cancelled => rfl
  | retryable =>
    by_cases hexhausted : i.isExhausted p = true
    · simp only [hexhausted, if_true, if_pos (Invocation.isExhausted_iff.1 hexhausted)]
    · simp only [hexhausted, hbackoff, jittered_of_isZero hjitter,
        if_neg fun h => hexhausted (Invocation.isExhausted_iff.2 h), Bool.false_eq_true, if_false]

/-- Only while attempts are left is one retried, after the policy's
delay. -/
theorem decides_retry {attempt : Nat} {e : ε} {delay : Duration}
    (h : p.decides attempt e = .retry delay) :
    delay = p.baseDelay attempt ∧ (0 < p.maximumAttempts → attempt < p.maximumAttempts) := by
  unfold decides at h
  cases hclass : classify p.doNotRetry e false with
  | nonRetryable | deadlineExceeded | cancelled => simp [hclass] at h
  | retryable =>
    simp only [hclass] at h
    split at h
    · cases h
    · rename_i hleft
      exact ⟨(Decision.retry.inj h).symm, fun hpos => by omega⟩

theorem decides_ne_overflow (attempt : Nat) (e : ε) (reason : Duration.ConversionError) :
    p.decides attempt e ≠ .overflow reason := by
  unfold decides
  split
  · simp
  · simp
  · simp
  · split <;> simp

/-- **A run without time:** from an attempt on, made in a world, the run
comes to an outcome in another world. -/
inductive Comes (p : RetryPolicy) (act : σ → Except ε α × σ) :
    Nat → σ → Except (RetryError ε) α → σ → Prop
  | value {k : Nat} {world : σ} {v : α} (h : (act world).1 = .ok v) :
    Comes p act k world (.ok v) (act world).2
  | stops {k : Nat} {world : σ} {e : ε} {reason : Stop} (h : (act world).1 = .error e)
    (hstop : p.decides k e = .stop reason) :
    Comes p act k world (.error (reason.toError e k .zero)) (act world).2
  | retries {k : Nat} {world world' : σ} {e : ε} {delay : Duration}
    {outcome : Except (RetryError ε) α} (h : (act world).1 = .error e)
    (hretry : p.decides k e = .retry delay) (hrest : Comes p act (k + 1) (act world).2 outcome world') :
    Comes p act k world outcome world'

/-- **A run without time has one outcome.** -/
theorem Comes.unique {act : σ → Except ε α × σ} {k : Nat} {world world₁ world₂ : σ}
    {outcome₁ outcome₂ : Except (RetryError ε) α} (h₁ : p.Comes act k world outcome₁ world₁)
    (h₂ : p.Comes act k world outcome₂ world₂) : outcome₁ = outcome₂ ∧ world₁ = world₂ := by
  induction h₁ with
  | value h =>
    cases h₂ with
    | value h' =>
      rw [h] at h'
      cases h'
      exact ⟨rfl, rfl⟩
    | stops h' | retries h' =>
      rw [h] at h'
      cases h'
  | stops h hstop =>
    cases h₂ with
    | value h' =>
      rw [h] at h'
      cases h'
    | stops h' hstop' =>
      rw [h] at h'
      cases h'
      rw [hstop] at hstop'
      cases hstop'
      exact ⟨rfl, rfl⟩
    | retries h' hretry =>
      rw [h] at h'
      cases h'
      rw [hstop] at hretry
      cases hretry
  | retries h hretry _ ih =>
    cases h₂ with
    | value h' =>
      rw [h] at h'
      cases h'
    | stops h' hstop =>
      rw [h] at h'
      cases h'
      rw [hretry] at hstop
      cases hstop
    | retries _ _ hrest => exact ih hrest

end RetryPolicy

end ResilientCalls
