import ResilientCalls.Proofs.Retry.Schedule
/-!
# Bounds made tighter

Two runs of one plan under policies that differ in their bounds alone. While
both go on they do the same at the same instants, since a delay depends on
the bounds only where it is cut to the time that is left. A delay that is
cut ends at the deadline, and an attempt that starts there is the last. So
the run with the tighter bounds follows the other one up to its last
attempt, which may start earlier, and makes no more attempts.
-/

namespace ResilientCalls

variable {σ τ ε α : Type}

/-! ## Tighter bounds -/

/-- The first deadline is no later than the second; none is the latest. -/
def Deadline.NoLater (first second : Option Instant) : Prop :=
  ∀ d₂, second = some d₂ → ∃ d₁, first = some d₁ ∧ d₁.nanos ≤ d₂.nanos

/-- **The policies differ in their bounds alone, and the first has the
tighter ones:** it lists every failure that the second one lists, and its
number of attempts is not larger, where zero sets no limit. -/
structure RetryPolicy.Tightens (p₁ p₂ : RetryPolicy) : Prop where
  shape : p₂ = { p₁ with
    maximumAttempts := p₂.maximumAttempts
    expiration := p₂.expiration
    doNotRetry := p₂.doNotRetry }
  table : p₂.doNotRetry ⊆ p₁.doNotRetry
  attempts : p₂.maximumAttempts = 0 ∨
    (0 < p₁.maximumAttempts ∧ p₁.maximumAttempts ≤ p₂.maximumAttempts)

/-- Both invocations are at the same attempt, and the first has no later
deadline. -/
structure Invocation.Tightens (i₁ i₂ : Invocation) : Prop where
  attempt_eq : i₁.attempt = i₂.attempt
  deadline : Deadline.NoLater i₁.deadline i₂.deadline

/-- **The first run is bounded more tightly,** by its policy and by its
effective deadline, if both begin at `first`. -/
structure RetryOptions.Tightens (o₁ o₂ : RetryOptions) (first : Instant) : Prop where
  policy : o₁.policy.Tightens o₂.policy
  deadline : Deadline.NoLater (o₁.effective first) (o₂.effective first)

/-- Both go on to the same attempt. -/
theorem Invocation.Tightens.advance {i₁ i₂ : Invocation} (h : i₁.Tightens i₂) :
    i₁.advance.Tightens i₂.advance where
  attempt_eq := by simp only [Invocation.advance, h.attempt_eq]
  deadline := h.deadline

namespace RetryPolicy.Tightens

variable {p₁ p₂ : RetryPolicy}

/-- The delays are the same before they are cut. -/
theorem baseDelay_eq (h : p₁.Tightens p₂) (n : Nat) : p₁.baseDelay n = p₂.baseDelay n := by
  rw [h.shape]
  rfl

theorem jitter_eq (h : p₁.Tightens p₂) : p₁.jitter = p₂.jitter := by
  rw [h.shape]

/-- What the second lists, the first lists too. -/
theorem lists [Failure ε] {e : ε} (h : p₁.Tightens p₂) (hlists : p₂.Lists e) : p₁.Lists e := by
  obtain ⟨m, hm, hmatches⟩ := hlists
  exact ⟨m, h.table hm, hmatches⟩

end RetryPolicy.Tightens

/-! ## The next attempt -/

/-- A timer for less time fires as one for more time does, or not before
its own time is over. -/
theorem Instant.timer_eq_or_le (now : Instant) {d e : Duration} (hpos : 0 < d.nanos)
    (hle : d.nanos ≤ e.nanos) :
    now.timer d = now.timer e ∨ now.nanos + d.nanos ≤ (now.timer d).nanos := by
  have hahead : (now.ahead d).nanos ≤ (now.ahead e).nanos := by
    simp only [ahead, plus, Duration.shorter]
    omega
  have htimer : ∀ t : Duration, 0 < t.nanos →
      now.timer t = (now.ahead t).firing.earlier lastFiring :=
    fun t ht => if_neg (by simpa [Duration.isZero] using Nat.ne_of_gt ht)
  rw [htimer d hpos, htimer e (lt_of_lt_of_le hpos hle)]
  rcases Nat.le_total Duration.furthest.nanos d.nanos with hfar | hnear
  · -- neither is set as far ahead as it asks for
    have hsame : now.ahead d = now.ahead e := by
      simp only [ahead, Duration.shorter, Nat.min_eq_right hfar,
        Nat.min_eq_right (le_trans hfar hle)]
    exact Or.inl (by rw [hsame])
  · have hfires := le_firing (now.ahead d)
    have hset : (now.ahead d).nanos = now.nanos + d.nanos := by
      simp only [ahead, plus, Duration.shorter, Nat.min_eq_left hnear]
    rcases Nat.le_total (now.ahead d).firing.nanos lastFiring.nanos with hcounts | hlast
    · right
      simp only [earlier, Nat.min_eq_left hcounts]
      omega
    · left
      simp only [earlier, Nat.min_eq_right hlast,
        Nat.min_eq_right (le_trans hlast (firing_mono hahead))]

section

variable [Failure ε] {p₁ p₂ : RetryPolicy} {i₁ i₂ : Invocation} {e : ε} {now : Instant}
  {draw₁ draw₂ : Binary64} {delay₁ delay₂ : Duration}

/-- **What is retried under tighter bounds is retried,** after a delay that
may differ. -/
theorem RetryPolicy.Tightens.retries (h : p₁.Tightens p₂) (hi : i₁.Tightens i₂)
    (hp₁ : p₁.Waits) (hp₂ : p₂.Waits) (hjitter : p₂.jitter.isZero = true)
    (hretry : afterFailure p₁ i₁ e now draw₁ = .retry delay₁) (draw₂ : Binary64) :
    ∃ delay₂, afterFailure p₂ i₂ e now draw₂ = .retry delay₂ := by
  have hfirst := afterFailure_justified hp₁ i₁ e now draw₁
  have hsecond := afterFailure_justified hp₂ i₂ e now draw₂
  rw [hretry] at hfirst
  obtain ⟨hlists, hcancelled, hleft, -⟩ := hfirst
  -- each reason to stop under the second bounds is one under the first
  cases hdecision : afterFailure p₂ i₂ e now draw₂ with
  | retry delay₂ => exact ⟨delay₂, rfl⟩
  | overflow reason => exact absurd hdecision (afterFailure_ne_overflow hjitter i₂ e now draw₂ _)
  | stop reason =>
    rw [hdecision] at hsecond
    cases reason with
    | nonRetryable => exact absurd (h.lists hsecond) hlists
    | cancelled => exact absurd (hcancelled.symm.trans hsecond.2) Bool.false_ne_true
    | attemptsExhausted =>
      have hused := Invocation.isExhausted_iff.1 hsecond.2.2
      rw [← hi.attempt_eq] at hused
      rw [← Bool.not_eq_true, Invocation.isExhausted_iff] at hleft
      rcases h.attempts with hnone | ⟨hpos, hle⟩ <;> omega
    | deadlineExceeded =>
      obtain ⟨d₂, hd₂, hpassed⟩ := hsecond.2.2
      obtain ⟨d₁, hd₁, hle⟩ := hi.deadline d₂ hd₂
      have hbefore := lt_deadline_of_retry hretry hd₁
      omega

/-- A delay without jitter is the policy's, cut to the time that is left. -/
theorem delay_of_retry {p : RetryPolicy} {i : Invocation} {draw : Binary64} {delay : Duration}
    (hjitter : p.jitter.isZero = true) (hretry : afterFailure p i e now draw = .retry delay) :
    (i.deadline = none → delay = p.baseDelay i.attempt) ∧ ∀ d, i.deadline = some d →
      delay.nanos = min (p.baseDelay i.attempt).nanos (d.nanos - now.nanos) := by
  obtain ⟨base, hback, hsame⟩ := nextBackoff_of_retry hretry
  rw [RetryPolicy.jittered_of_isZero hjitter] at hsame
  obtain rfl := Except.ok.inj hsame
  exact (Invocation.nextBackoff_eq_sleep hback).2

/-- **The next attempt starts at the same instant, or not before the tighter
deadline.** -/
theorem RetryPolicy.Tightens.wakes_eq_or_le (h : p₁.Tightens p₂) (hi : i₁.Tightens i₂)
    (hjitter : p₂.jitter.isZero = true)
    (hretry₁ : afterFailure p₁ i₁ e now draw₁ = .retry delay₁)
    (hretry₂ : afterFailure p₂ i₂ e now draw₂ = .retry delay₂) :
    now.wakes delay₁ = now.wakes delay₂ ∨
      ∃ d, i₁.deadline = some d ∧ d.nanos ≤ (now.wakes delay₁).nanos := by
  obtain ⟨hfree₁, hcut₁⟩ := delay_of_retry (h.jitter_eq ▸ hjitter) hretry₁
  obtain ⟨hfree₂, hcut₂⟩ := delay_of_retry hjitter hretry₂
  rw [h.baseDelay_eq, hi.attempt_eq] at hfree₁ hcut₁
  cases hd₁ : i₁.deadline with
  | none =>
    cases hd₂ : i₂.deadline with
    | none => exact Or.inl (by rw [hfree₁ hd₁, hfree₂ hd₂])
    | some d₂ =>
      obtain ⟨d₁, hd₁', -⟩ := hi.deadline d₂ hd₂
      rw [hd₁] at hd₁'
      cases hd₁'
  | some d₁ =>
    have hbefore := lt_deadline_of_retry hretry₁ hd₁
    have hdelay₁ := hcut₁ d₁ hd₁
    have hcompare : delay₁.nanos ≤ delay₂.nanos ∧
        (delay₁.nanos = delay₂.nanos ∨ now.nanos + delay₁.nanos = d₁.nanos) := by
      cases hd₂ : i₂.deadline with
      | none =>
        rw [hfree₂ hd₂]
        omega
      | some d₂ =>
        obtain ⟨d, hd, hle⟩ := hi.deadline d₂ hd₂
        obtain rfl : d₁ = d := Option.some.inj (hd₁.symm.trans hd)
        have hdelay₂ := hcut₂ d₂ hd₂
        omega
    obtain ⟨hle, hsame | hcut⟩ := hcompare
    · obtain rfl : delay₁ = delay₂ := congrArg Duration.mk hsame
      exact Or.inl rfl
    · -- the timer for what is left fires at the deadline, or both fire as late as timers do
      rcases now.timer_eq_or_le (by omega) hle with hsame | hlate
      · exact Or.inl (by rw [Instant.wakes, Instant.wakes, hsame])
      · exact Or.inr ⟨d₁, rfl, le_trans (hcut ▸ hlate) (Nat.le_max_right _ _)⟩

end

/-! ## Two runs -/

/-- **The first run is the second one cut short:** it makes no more attempts,
those up to the last but one start at the same instants, and if it succeeds
the second one does, with the same value after the same number of
attempts. -/
structure CutsShort (starts₁ : List Instant) (outcome₁ : Except (RetryError ε) α)
    (starts₂ : List Instant) (outcome₂ : Except (RetryError ε) α) : Prop where
  length_le : starts₁.length ≤ starts₂.length
  together : starts₁.dropLast <+: starts₂
  succeeds : ∀ v, outcome₁ = .ok v → outcome₂ = .ok v ∧ starts₁.length = starts₂.length

namespace CutsShort

variable {starts₁ starts₂ : List Instant} {outcome₁ outcome₂ : Except (RetryError ε) α}

/-- A failure of the first attempt cuts everything short. -/
theorem of_failure {start : Instant} {reason : RetryError ε} :
    CutsShort [start] (.error reason : Except (RetryError ε) α) (start :: starts₂) outcome₂ where
  length_le := Nat.succ_le_succ (Nat.zero_le _)
  together := List.nil_prefix
  succeeds v h := by cases h

/-- One more attempt at the beginning of both. -/
theorem cons {start : Instant} (h : CutsShort starts₁ outcome₁ starts₂ outcome₂) :
    CutsShort (start :: starts₁) outcome₁ (start :: starts₂) outcome₂ where
  length_le := Nat.succ_le_succ h.length_le
  together := by
    cases starts₁ with
    | nil => exact List.nil_prefix
    | cons s rest => exact (List.prefix_cons_inj _).2 h.together
  succeeds v hv := (h.succeeds v hv).imp_right (congrArg Nat.succ)

end CutsShort

/-- **Tighter bounds cut a run short.** The induction is on the run with the
tighter bounds. After each attempt the other run retries too, and its next
attempt starts at the same instant; where it does not, this one starts at
the deadline and is the last. -/
theorem RetryPolicy.Unfolds.cutsShort [Failure ε] {p₁ p₂ : RetryPolicy} {draws₁ draws₂ : Draws}
    {plan : Plan ε α} (hp : p₁.Tightens p₂) (hp₁ : p₁.Waits) (hp₂ : p₂.Waits)
    (hjitter : p₂.jitter.isZero = true) {n : Nat} {i₁ i₂ : Invocation} {start : Instant}
    {starts₁ starts₂ : List Instant} {outcome₁ outcome₂ : Except (RetryError ε) α}
    (h₁ : p₁.Unfolds draws₁ plan n i₁ start starts₁ outcome₁)
    (h₂ : p₂.Unfolds draws₂ plan n i₂ start starts₂ outcome₂) (hi : i₁.Tightens i₂) :
    CutsShort starts₁ outcome₁ starts₂ outcome₂ := by
  induction h₁ generalizing i₂ starts₂ outcome₂ with
  | value hresult =>
    obtain ⟨rfl, rfl⟩ := h₂.of_value hresult
    exact ⟨le_rfl, List.nil_prefix, fun v hv => ⟨hv, rfl⟩⟩
  | stops hresult hstop =>
    obtain ⟨later, rfl⟩ := h₂.exists_later
    exact .of_failure
  | retries hresult hretry₁ hrest₁ ih =>
    obtain ⟨delay₂, hretry₂⟩ := hp.retries hi hp₁ hp₂ hjitter hretry₁ (draws₂ i₂.attempt)
    obtain ⟨later₂, rfl, hrest₂⟩ := h₂.of_retry hresult hretry₂
    refine CutsShort.cons ?_
    rcases hp.wakes_eq_or_le hi hjitter hretry₁ hretry₂ with hsame | ⟨d, hd, hlate⟩
    · exact ih (hsame ▸ hrest₂) hi.advance
    · obtain ⟨rfl, hvalue⟩ := hrest₁.last_of_deadline hd hlate
      obtain ⟨later, rfl⟩ := hrest₂.exists_later
      refine ⟨Nat.succ_le_succ (Nat.zero_le _), List.nil_prefix, fun v hv => ?_⟩
      -- the attempt has the same number in both runs, so it has the same result
      obtain ⟨hone, hok⟩ := hrest₂.of_value (hvalue v hv)
      exact ⟨hok, by rw [hone, List.length_singleton, List.length_singleton]⟩

/-! ## Runs on a clock -/

/-- A run is bounded by a number that can be counted, or by a deadline that
timers reach. -/
def RetryOptions.Reaches (o : RetryOptions) (first : Instant) : Prop :=
  (0 < o.policy.maximumAttempts ∧ o.policy.maximumAttempts ≤ maxCount32) ∨
    ∃ d, o.effective first = some d ∧ d.nanos ≤ Instant.lastFiring.nanos

/-- Tighter bounds are reached too. -/
theorem RetryOptions.Tightens.reaches {o₁ o₂ : RetryOptions} {first : Instant}
    (h : o₁.Tightens o₂ first) (hreaches : o₂.Reaches first) : o₁.Reaches first := by
  rcases hreaches with ⟨hpos, hmax⟩ | ⟨d₂, hd₂, hlast⟩
  · rcases h.policy.attempts with hnone | ⟨hpos₁, hle⟩
    · exact absurd hnone (Nat.ne_of_gt hpos)
    · exact Or.inl ⟨hpos₁, le_trans hle hmax⟩
  · obtain ⟨d₁, hd₁, hle⟩ := h.deadline d₂ hd₂
    exact Or.inr ⟨d₁, hd₁, le_trans hle hlast⟩

/-- **A run of planned attempts without jitter settles,** if its bound is
reached. -/
theorem RetryOptions.Reaches.exists_settled [Failure ε] {w : Work σ τ ε α} {plan : Plan ε α}
    {calls : σ → Nat} (hw : w.Performs plan calls) {o : RetryOptions} (draws : Draws)
    {first limit : Instant} {world : σ} (hreaches : o.Reaches first) (hp : o.policy.Waits)
    (hjitter : o.policy.jitter.isZero = true) (hnone : calls world = 0)
    (hlimit : Instant.lastFiring.nanos ≤ limit.nanos) :
    ∃ outcome, ((Course.begin o first world).follow w draws none limit).ending =
      .settled outcome := by
  have hcrowd : (Course.chronicle w draws none limit o first world).Uncrowded := by
    rcases hreaches with ⟨hpos, hmax⟩ | ⟨d, hd, hlast⟩
    · exact Course.follow_uncrowded w draws none limit first world hp hpos hmax
    · exact Course.follow_uncrowded_of_deadline w none limit world
        (RetryPolicy.leavesSome_of_isZero hjitter draws) hd hlast
  exact Course.exists_settled hw (RetryPolicy.computes_of_isZero hjitter draws) hnone hlimit hcrowd

/-- **Tightening a bound never costs more attempts.** Two runs of one plan
begin at `first`, without jitter and without cancellation, under policies
that differ in their bounds alone, the first with the tighter ones. Where
both settle, the first is the second cut short; and both settle if they are
followed as far as timers go and a bound of the second can be reached: its
number of attempts, which has 32 bits, or its deadline. -/
theorem tightening_cuts_short [Failure ε] {w : Work σ τ ε α} {plan : Plan ε α} {calls : σ → Nat}
    (hw : w.Performs plan calls) {o₁ o₂ : RetryOptions} {first : Instant} (ho₁ : o₁.Accepted)
    (ho₂ : o₂.Accepted) (htighter : o₁.Tightens o₂ first)
    (hjitter : o₂.policy.jitter.isZero = true) (draws₁ draws₂ : Draws) (limit : Instant)
    {world : σ} (hnone : calls world = 0) :
    let e₁ := (Course.begin o₁ first world).follow w draws₁ none limit
    let e₂ := (Course.begin o₂ first world).follow w draws₂ none limit
    (∀ outcome₁ outcome₂, e₁.ending = .settled outcome₁ → e₂.ending = .settled outcome₂ →
      CutsShort (Course.chronicle w draws₁ none limit o₁ first world).starts outcome₁
        (Course.chronicle w draws₂ none limit o₂ first world).starts outcome₂) ∧
    (o₂.Reaches first → Instant.lastFiring.nanos ≤ limit.nanos →
      (∃ outcome₁, e₁.ending = .settled outcome₁) ∧
        ∃ outcome₂, e₂.ending = .settled outcome₂) := by
  have hjitter₁ : o₁.policy.jitter.isZero = true := by rwa [htighter.policy.jitter_eq]
  constructor
  · intro outcome₁ outcome₂ hending₁ hending₂
    have hunfolds₁ := Course.unfolds_of_settled hw
      (RetryPolicy.computes_of_isZero hjitter₁ draws₁) hnone hending₁
    have hunfolds₂ := Course.unfolds_of_settled hw
      (RetryPolicy.computes_of_isZero hjitter draws₂) hnone hending₂
    exact hunfolds₁.cutsShort htighter.policy ho₁.waits ho₂.waits hjitter hunfolds₂
      ⟨rfl, htighter.deadline⟩
  · intro hreaches hlimit
    exact ⟨(htighter.reaches hreaches).exists_settled hw draws₁ ho₁.waits hjitter₁ hnone hlimit,
      hreaches.exists_settled hw draws₂ ho₂.waits hjitter hnone hlimit⟩

/-- The options of `quarterSecond`, with four times as much time. -/
def wholeSecond : RetryOptions :=
  ⟨{ quarterSecond.policy with expiration := some (.ofSeconds 1) }, none, false⟩

/-- Two failures and a value, each after a fiftieth of a second. -/
def thirdSucceeds : Rehearsal.Script Nat :=
  let failure : Rehearsal.ScriptedFailure := ⟨"UNAVAILABLE", none, "try again", false, false⟩
  ⟨[⟨.ofMillis 20, .fails failure⟩, ⟨.ofMillis 20, .fails failure⟩, ⟨.ofMillis 20, .returns 7⟩]⟩

/-- With a quarter of a second for all attempts the third one starts early,
at the deadline, and succeeds as it does later with a whole second. -/
theorem tightening_cuts_short_quarterSecond :
    let starts := fun o => (Course.chronicle thirdSucceeds.work .still none Instant.lastFiring o
      .start Rehearsal.Stage.empty).starts
    let ending := fun o => ((Course.begin o .start Rehearsal.Stage.empty).follow
      thirdSucceeds.work .still none Instant.lastFiring).ending
    quarterSecond.Tightens wholeSecond .start ∧
    starts quarterSecond = [⟨0⟩, ⟨120000000⟩, ⟨250000000⟩] ∧
    starts wholeSecond = [⟨0⟩, ⟨120000000⟩, ⟨340000000⟩] ∧
    CutsShort (starts quarterSecond) (.ok 7 : Except (RetryError Rehearsal.ScriptedFailure) Nat)
      (starts wholeSecond) (.ok 7) ∧
    (∃ outcome, ending quarterSecond = .settled outcome) ∧
      ∃ outcome, ending wholeSecond = .settled outcome := by
  have hquarter : quarterSecond.effective .start = some ⟨250000000⟩ := by decide +kernel
  have hwhole : wholeSecond.effective .start = some ⟨1000000000⟩ := by decide +kernel
  have htighter : quarterSecond.Tightens wholeSecond .start := by
    refine ⟨⟨rfl, List.Subset.refl _, Or.inl rfl⟩, ?_⟩
    intro d hd
    obtain rfl := Option.some.inj (hwhole.symm.trans hd)
    exact ⟨_, hquarter, by decide⟩
  have hends : thirdSucceeds.Ends := ⟨by decide, by decide⟩
  have haccepted : quarterSecond.Accepted ∧ wholeSecond.Accepted := by
    unfold RetryOptions.Accepted
    decide +kernel
  have hnone : Rehearsal.Stage.calls .empty = 0 := rfl
  obtain ⟨hcuts, hsettles⟩ := tightening_cuts_short (Rehearsal.Script.work_performs hends)
    haccepted.1 haccepted.2 htighter (by decide +kernel) .still .still Instant.lastFiring hnone
  exact ⟨htighter, by decide +kernel, by decide +kernel,
    hcuts _ _ (by decide +kernel) (by decide +kernel),
    hsettles (Or.inr ⟨_, hwhole, by decide⟩) le_rfl⟩

end ResilientCalls
