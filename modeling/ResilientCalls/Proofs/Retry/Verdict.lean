import Mathlib.Logic.Function.Iterate
import ResilientCalls.Proofs.Retry.Jitter
/-!
# The law of one decision

The rule for failures looks at the deadline three times: in the
classification, in the time that is left, and in the cut of the delay.
Under a policy that waits the three come to one question, whether the
deadline has passed, and the rule is a single cascade (`afterFailure_eq`).
`Decision.Lawful` reads off when each decision is taken; a retry is the one
that nothing stands against (`MayRetry`). What stands against an attempt
never goes away, so a run that stops at a failure would stop at it forever
after.
-/

namespace ResilientCalls

variable {ε : Type} [Failure ε] {p : RetryPolicy} {i : Invocation} {e : ε} {now later : Instant}
  {draw : Binary64}

namespace Invocation

/-- The policy's delay after the current attempt, cut to the time that is
left. -/
def pause (i : Invocation) (p : RetryPolicy) (now : Instant) : Duration :=
  match i.deadline with
  | none => p.baseDelay i.attempt
  | some d => (p.baseDelay i.attempt).shorter (d.since now)

/-- **Nothing stands against another attempt.** Whether the failure reports
a deadline of its own is not asked. -/
structure MayRetry (i : Invocation) (p : RetryPolicy) (e : ε) (now : Instant) : Prop where
  unlisted : ¬ p.Lists e
  uncancelled : Failure.isCancelled e = false
  attemptsLeft : p.maximumAttempts = 0 ∨ i.attempt < p.maximumAttempts
  timeLeft : ∀ d ∈ i.deadline, now.nanos < d.nanos

/-! ## Attempts and time -/

theorem isExhausted_eq_false_iff : i.isExhausted p = false ↔
    p.maximumAttempts = 0 ∨ i.attempt < p.maximumAttempts := by
  rw [← Bool.not_eq_true, isExhausted_iff]
  omega

theorem isExpired_eq_false_iff : i.isExpired now = false ↔
    ∀ d ∈ i.deadline, now.nanos < d.nanos := by
  rw [← Bool.not_eq_true, isExpired_iff, Expired]
  constructor
  · intro h d hd
    by_contra hle
    exact h ⟨d, hd, by omega⟩
  · rintro h ⟨d, hd, hle⟩
    have hlt := h d hd
    omega

/-- A later attempt has the count of the attempts before it, in 32 bits,
and the deadline of the first. -/
theorem advance_iterate (h : i.attempt ≤ maxCount32) (n : Nat) :
    advance^[n] i = { i with attempt := min (i.attempt + n) maxCount32 } := by
  induction n with
  | zero =>
    rw [Function.iterate_zero, id, Nat.add_zero, Nat.min_eq_left h]
  | succ n ih =>
    have hcount : min (min (i.attempt + n) maxCount32 + 1) maxCount32 =
        min (i.attempt + (n + 1)) maxCount32 := by omega
    rw [Function.iterate_succ_apply', ih, advance, hcount]

/-! ## The delay -/

/-- While time is left the pause is not nothing. -/
theorem pause_pos (hp : p.Waits) (h : ∀ d ∈ i.deadline, now.nanos < d.nanos) :
    0 < (i.pause p now).nanos := by
  have hpos := hp.baseDelay_pos i.attempt
  unfold pause
  cases hd : i.deadline with
  | none => exact hpos
  | some d =>
    have hlt := h d hd
    simp only [Duration.shorter, Instant.since]
    omega

/-- **Only the deadline leaves no delay:** the cut of a positive delay to
the time that is left is nothing just when no time is left. -/
theorem nextBackoff_eq (hp : p.Waits) (i : Invocation) (now : Instant) : i.nextBackoff p now =
    if i.isExpired now = true then .deadlineReached else .sleep (i.pause p now) := by
  by_cases hexpired : i.isExpired now = true
  · rw [if_pos hexpired]
    unfold nextBackoff
    rw [budget_eq_expired_iff.2 (isExpired_iff.1 hexpired)]
  · have hleft := isExpired_eq_false_iff.1 (by simpa using hexpired)
    have hpos := pause_pos hp hleft
    rw [if_neg hexpired]
    unfold nextBackoff budget
    unfold pause at hpos ⊢
    cases hd : i.deadline with
    | none => rfl
    | some d =>
      have hreached : d.reached now = false := by simpa [Instant.reached] using hleft d hd
      have hwhole : ((p.baseDelay i.attempt).shorter (d.since now)).isZero = false := by
        simp only [hd] at hpos
        simpa [Duration.isZero] using Nat.ne_of_gt hpos
      simp only [hreached, hwhole, Bool.false_eq_true, if_false]

end Invocation

/-! ## The cascade -/

/-- **The rule as a cascade,** under a policy that waits. -/
theorem afterFailure_eq (hp : p.Waits) (i : Invocation) (e : ε) (now : Instant)
    (draw : Binary64) : afterFailure p i e now draw =
      if p.doNotRetry.any (·.matchesFailure e) = true then .stop .nonRetryable
      else if Failure.isCancelled e = true then .stop .cancelled
      else if Failure.isDeadlineExceeded e = true ∧ i.isExpired now = true then
        .stop .deadlineExceeded
      else if i.isExhausted p = true then .stop .attemptsExhausted
      else if i.isExpired now = true then .stop .deadlineExceeded
      else match p.jittered draw (i.pause p now) with
        | .ok delay => .retry delay
        | .error reason => .overflow reason := by
  unfold afterFailure classify
  simp only [Invocation.nextBackoff_eq hp, Bool.and_eq_true]
  split_ifs <;> rfl

/-- What each decision says, the reasons in their order: each holds where
those before it do not. -/
def Decision.Lawful (p : RetryPolicy) (i : Invocation) (e : ε) (now : Instant) (draw : Binary64) :
    Decision → Prop
  | .stop .nonRetryable => p.Lists e
  | .stop .cancelled => ¬ p.Lists e ∧ Failure.isCancelled e = true
  | .stop .attemptsExhausted => ¬ p.Lists e ∧ Failure.isCancelled e = false ∧
      ¬ (Failure.isDeadlineExceeded e = true ∧ i.Expired now) ∧
      0 < p.maximumAttempts ∧ p.maximumAttempts ≤ i.attempt
  | .stop .deadlineExceeded => ¬ p.Lists e ∧ Failure.isCancelled e = false ∧ i.Expired now ∧
      (Failure.isDeadlineExceeded e = true ∨
        p.maximumAttempts = 0 ∨ i.attempt < p.maximumAttempts)
  | .retry delay => i.MayRetry p e now ∧ p.jittered draw (i.pause p now) = .ok delay
  | .overflow reason => i.MayRetry p e now ∧ p.jittered draw (i.pause p now) = .error reason

/-- A decision is taken for the reasons it stands for. -/
theorem afterFailure_lawful (hp : p.Waits) (i : Invocation) (e : ε) (now : Instant)
    (draw : Binary64) : (afterFailure p i e now draw).Lawful p i e now draw := by
  rw [afterFailure_eq hp]
  split
  next hlists => exact List.any_eq_true.1 hlists
  next hlists =>
  rw [Bool.not_eq_true, ← RetryPolicy.not_lists_iff] at hlists
  split
  next hcancelled => exact ⟨hlists, hcancelled⟩
  next hcancelled =>
  rw [Bool.not_eq_true] at hcancelled
  split
  next hlate => exact ⟨hlists, hcancelled, Invocation.isExpired_iff.1 hlate.2, Or.inl hlate.1⟩
  next hlate =>
  rw [Invocation.isExpired_iff] at hlate
  split
  next hused => exact ⟨hlists, hcancelled, hlate, Invocation.isExhausted_iff.1 hused⟩
  next hused =>
  rw [Bool.not_eq_true, Invocation.isExhausted_eq_false_iff] at hused
  split
  next hexpired => exact ⟨hlists, hcancelled, Invocation.isExpired_iff.1 hexpired, Or.inr hused⟩
  next hexpired =>
  rw [Bool.not_eq_true, Invocation.isExpired_eq_false_iff] at hexpired
  have hmay : i.MayRetry p e now := ⟨hlists, hcancelled, hused, hexpired⟩
  split
  next delay hjittered => exact ⟨hmay, hjittered⟩
  next reason hjittered => exact ⟨hmay, hjittered⟩

/-- **A failure that nothing stands against is retried,** if the delay can be
computed with jitter. -/
theorem Invocation.MayRetry.afterFailure_eq (hp : p.Waits) (h : i.MayRetry p e now) :
    afterFailure p i e now draw = match p.jittered draw (i.pause p now) with
      | .ok delay => .retry delay
      | .error reason => .overflow reason := by
  have hlists := RetryPolicy.not_lists_iff.1 h.unlisted
  have hexpired := Invocation.isExpired_eq_false_iff.2 h.timeLeft
  have hexhausted := Invocation.isExhausted_eq_false_iff.2 h.attemptsLeft
  rw [ResilientCalls.afterFailure_eq hp]
  simp only [hlists, h.uncancelled, hexpired, hexhausted, Bool.false_eq_true, and_false, if_false]

/-- **A decision is taken exactly for its reasons.** -/
theorem afterFailure_eq_iff (hp : p.Waits) {d : Decision} :
    afterFailure p i e now draw = d ↔ d.Lawful p i e now draw := by
  constructor
  · rintro rfl
    exact afterFailure_lawful hp i e now draw
  intro h
  cases d with
  | retry delay => rw [h.1.afterFailure_eq hp, h.2]
  | overflow reason => rw [h.1.afterFailure_eq hp, h.2]
  | stop reason =>
    cases reason with
    | nonRetryable =>
      have hlists := List.any_eq_true.2 h
      simp only [afterFailure_eq hp, hlists, if_true]
    | cancelled =>
      have hlists := RetryPolicy.not_lists_iff.1 h.1
      simp only [afterFailure_eq hp, hlists, h.2, Bool.false_eq_true, if_false, if_true]
    | attemptsExhausted =>
      obtain ⟨hunlisted, huncancelled, hlate, hused⟩ := h
      have hlists := RetryPolicy.not_lists_iff.1 hunlisted
      have hexhausted := Invocation.isExhausted_iff.2 hused
      rw [← Invocation.isExpired_iff] at hlate
      simp only [afterFailure_eq hp, hlists, huncancelled, hlate, hexhausted, Bool.false_eq_true,
        if_false, if_true]
    | deadlineExceeded =>
      obtain ⟨hunlisted, huncancelled, hpassed, hcause⟩ := h
      have hlists := RetryPolicy.not_lists_iff.1 hunlisted
      have hexpired := Invocation.isExpired_iff.2 hpassed
      simp only [afterFailure_eq hp, hlists, huncancelled, hexpired, Bool.false_eq_true, and_true,
        if_false, if_true]
      rcases hcause with hown | hleft
      · rw [if_pos hown]
      · simp only [Invocation.isExhausted_eq_false_iff.2 hleft, Bool.false_eq_true, if_false,
          ite_self]

/-! ## Stops are for good -/

/-- A run stops at what something stands against. -/
theorem exists_stop_iff (hp : p.Waits) :
    (∃ reason, afterFailure p i e now draw = .stop reason) ↔ ¬ i.MayRetry p e now := by
  constructor
  · rintro ⟨reason, hstop⟩ hmay
    rw [hmay.afterFailure_eq hp] at hstop
    split at hstop <;> cases hstop
  · intro hmay
    have hlawful := afterFailure_lawful hp i e now draw
    cases hdecision : afterFailure p i e now draw with
    | stop reason => exact ⟨reason, rfl⟩
    | retry delay =>
      rw [hdecision] at hlawful
      exact absurd hlawful.1 hmay
    | overflow reason =>
      rw [hdecision] at hlawful
      exact absurd hlawful.1 hmay

/-- **What nothing stands against later, nothing stood against before.** -/
theorem Invocation.MayRetry.of_advance (hcount : i.attempt ≤ maxCount32) {m : Nat}
    (hlater : now.nanos ≤ later.nanos) (h : (advance^[m] i).MayRetry p e later) :
    i.MayRetry p e now := by
  rw [advance_iterate hcount] at h
  refine ⟨h.unlisted, h.uncancelled, ?_, ?_⟩
  · have hleft := h.attemptsLeft
    simp only at hleft
    omega
  · intro d hd
    exact lt_of_le_of_lt hlater (h.timeLeft d hd)

/-- A run that stops at a failure stops at it at any later instant and
attempt, for the same reason or for another one. -/
theorem stops_of_stops (hp : p.Waits) (hcount : i.attempt ≤ maxCount32) {reason : Stop}
    (hstop : afterFailure p i e now draw = .stop reason) (hlater : now.nanos ≤ later.nanos)
    (m : Nat) (draw' : Binary64) :
    ∃ reason', afterFailure p (Invocation.advance^[m] i) e later draw' = .stop reason' := by
  rw [exists_stop_iff hp]
  intro hmay
  exact (exists_stop_iff hp).1 ⟨reason, hstop⟩ (hmay.of_advance hcount hlater)

/-! ## The decision of a run -/

/-- A delay without jitter can be computed, and so can one that is not among
the very longest. -/
theorem RetryPolicy.exists_jittered (hp : p.validate = .ok ()) (hdraw : draw.IsDraw)
    {delay : Duration}
    (h : p.jitter.isZero = true ∨ delay.nanos < Duration.tooLongFrom.nanos) :
    ∃ d, p.jittered draw delay = .ok d := by
  rcases h with hjitter | hshort
  · exact ⟨delay, jittered_eq_self (Or.inl hjitter) draw⟩
  · have hlong : delay.nanos ≤ Duration.longest.nanos :=
      Nat.le_trans (Nat.le_of_lt hshort) (by decide)
    obtain ⟨r, hr, -⟩ := Duration.scale_one_near hshort
    obtain ⟨d, hd, -⟩ := jittered_le_of_scale_one hp hdraw hlong hr
    exact ⟨d, hd⟩

/-- One of the very longest delays cannot be computed with jitter if the
draw is zero. -/
theorem RetryPolicy.jittered_zero_tooLong (hp : p.validate = .ok ())
    (hjitter : p.jitter.isZero = false) {delay : Duration}
    (hfrom : Duration.tooLongFrom.nanos ≤ delay.nanos)
    (hlong : delay.nanos ≤ Duration.longest.nanos) :
    p.jittered .zero delay = .error .tooLarge := by
  have hsome : delay.isZero = false := by
    have hpos : 0 < delay.nanos := Nat.lt_of_lt_of_le (by decide) hfrom
    simpa [Duration.isZero] using Nat.ne_of_gt hpos
  rw [jittered_zero hp hjitter hsome, Duration.scale_one_tooLong hfrom hlong]

/-- **The law of one decision.** Under a policy that breaks no rule, whatever
the deadline of the caller, the attempt, the failure and the clock, each
decision is taken exactly for its reasons. The delay of a retry is not
nothing before jitter. A failure is retried exactly when nothing stands
against another attempt, if the delay can be computed: there is no jitter, or
it is below `2^64 - 1024` seconds. From there on the draw zero breaks down.
A stop is for good: at every later instant and attempt of the run the same
failure is stopped at. -/
theorem decision_lawful {p : RetryPolicy} (hp : p.validate = .ok ()) (caller : Option Instant)
    (first : Instant) (n : Nat) (e : ε) (now : Instant) {draw : Binary64} (hdraw : draw.IsDraw) :
    let i := Invocation.advance^[n] (.begin p caller first)
    (i.attempt = min (n + 1) maxCount32 ∧
      i.deadline = Deadline.effective p caller first) ∧
    (∀ d, afterFailure p i e now draw = d ↔ d.Lawful p i e now draw) ∧
    (i.MayRetry p e now → 0 < (i.pause p now).nanos) ∧
    (p.jitter.isZero = true ∨ (i.pause p now).nanos < Duration.tooLongFrom.nanos →
      ((∃ delay, afterFailure p i e now draw = .retry delay) ↔ i.MayRetry p e now)) ∧
    (p.jitter.isZero = false → Duration.tooLongFrom.nanos ≤ (i.pause p now).nanos →
      (i.pause p now).nanos ≤ Duration.longest.nanos → i.MayRetry p e now →
      afterFailure p i e now .zero = .overflow .tooLarge) ∧
    (∀ reason, afterFailure p i e now draw = .stop reason →
      ∀ (m : Nat) (later : Instant) (draw' : Binary64), now.nanos ≤ later.nanos →
        ∃ reason', afterFailure p (Invocation.advance^[m] i) e later draw' = .stop reason') := by
  intro i
  have hwaits := RetryPolicy.waits_of_validate hp
  have hi : i = ⟨min (1 + n) maxCount32, first, Deadline.effective p caller first⟩ :=
    Invocation.advance_iterate (show 1 ≤ maxCount32 by decide) n
  have hcount : i.attempt ≤ maxCount32 := hi ▸ Nat.min_le_right _ _
  refine ⟨⟨?_, ?_⟩, fun d => afterFailure_eq_iff hwaits, ?_, ?_, ?_, ?_⟩
  · rw [hi, Nat.add_comm]
  · rw [hi]
  · intro hmay
    exact Invocation.pause_pos hwaits hmay.timeLeft
  · intro hcomputed
    constructor
    · rintro ⟨delay, hretry⟩
      exact ((afterFailure_eq_iff hwaits).1 hretry).1
    · intro hmay
      obtain ⟨delay, hdelay⟩ := RetryPolicy.exists_jittered hp hdraw hcomputed
      exact ⟨delay, (afterFailure_eq_iff hwaits).2 ⟨hmay, hdelay⟩⟩
  · intro hjitter hfrom hlong hmay
    exact (afterFailure_eq_iff hwaits).2
      ⟨hmay, RetryPolicy.jittered_zero_tooLong hp hjitter hfrom hlong⟩
  · intro reason hstop m later draw' hlater
    exact stops_of_stops hwaits hcount hstop hlater m draw'

/-- Three attempts within a second. -/
def threeInASecond : RetryPolicy :=
  { RetryPolicy.draft with
    maximumAttempts := 3, expiration := some (.ofSeconds 1), jitter := .zero }

/-- After the second attempt the delay is cut to the time that is left; on
the deadline the run stops, and it stops from then on. -/
theorem decision_lawful_threeInASecond :
    let i := Invocation.advance^[1] (.begin threeInASecond none .start)
    threeInASecond.validate = .ok () ∧ Binary64.zero.IsDraw ∧
    (i.attempt = 2 ∧ i.deadline = some ⟨1000000000⟩) ∧
    afterFailure threeInASecond i "UNAVAILABLE" ⟨900000000⟩ .zero = .retry ⟨100000000⟩ ∧
    i.MayRetry threeInASecond "UNAVAILABLE" ⟨900000000⟩ ∧
    afterFailure threeInASecond i "UNAVAILABLE" ⟨1000000000⟩ .zero = .stop .deadlineExceeded ∧
    ∀ (m : Nat) (later : Instant) (draw : Binary64), 1000000000 ≤ later.nanos →
      ∃ reason, afterFailure threeInASecond (Invocation.advance^[m] i) "UNAVAILABLE" later draw =
        .stop reason := by
  intro i
  have hvalid : threeInASecond.validate = .ok () := by decide +kernel
  have hzero := Binary64.isDraw_zero
  obtain ⟨⟨hattempt, hdeadline⟩, hlaw, -⟩ :=
    decision_lawful hvalid none .start 1 "UNAVAILABLE" ⟨900000000⟩ hzero
  obtain ⟨-, -, -, -, -, hstops⟩ :=
    decision_lawful hvalid none .start 1 "UNAVAILABLE" ⟨1000000000⟩ hzero
  have hretry : afterFailure threeInASecond i "UNAVAILABLE" ⟨900000000⟩ .zero =
      .retry ⟨100000000⟩ := by decide +kernel
  have hstop : afterFailure threeInASecond i "UNAVAILABLE" ⟨1000000000⟩ .zero =
      .stop .deadlineExceeded := by decide +kernel
  exact ⟨hvalid, hzero, ⟨hattempt, hdeadline.trans (by decide +kernel)⟩, hretry,
    ((hlaw _).1 hretry).1, hstop, hstops _ hstop⟩

/-- Two attempts with the longest pause that there is, and next to no
jitter. -/
def longestDelay : RetryPolicy :=
  { RetryPolicy.draft with
    initialInterval := .longest
    maximumAttempts := 2
    jitter := Numeral.toBinary64 ⟨false, 1, -300⟩ }

/-- **Nothing stands against another attempt, and yet none is decided on:**
the delay is too long to be scaled. -/
theorem decision_breaks_longestDelay :
    let i := Invocation.begin longestDelay none .start
    longestDelay.validate = .ok () ∧ Binary64.zero.IsDraw ∧
    i.MayRetry longestDelay "UNAVAILABLE" .start ∧
    afterFailure longestDelay i "UNAVAILABLE" .start .zero = .overflow .tooLarge ∧
    ¬ ∃ delay, afterFailure longestDelay i "UNAVAILABLE" .start .zero = .retry delay := by
  intro i
  have hvalid : longestDelay.validate = .ok () := by decide +kernel
  have hoverflow : afterFailure longestDelay i "UNAVAILABLE" .start .zero =
      .overflow .tooLarge := by decide +kernel
  have hmay := ((afterFailure_eq_iff (RetryPolicy.waits_of_validate hvalid)).1 hoverflow).1
  refine ⟨hvalid, Binary64.isDraw_zero, hmay, hoverflow, ?_⟩
  rintro ⟨delay, hretry⟩
  rw [hoverflow] at hretry
  cases hretry

end ResilientCalls
