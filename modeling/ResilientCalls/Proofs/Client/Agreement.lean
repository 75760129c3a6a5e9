import ResilientCalls.Proofs.Client.Counting
import ResilientCalls.Proofs.Retry.Progress
import ResilientCalls.Proofs.Retry.Untimed
import ResilientCalls.Proofs.Service.Drawing
/-!
# Both clients do the same

A call of the service in memory without a deadline is a run without time.
What an attempt does is told by the state of the service alone: it times
out if the latency of its call is longer than the timeout, and otherwise
the request takes effect, or draws an injected failure (`Call.act`). It
lands at one instant, not before (`Call.Flying`), whoever waits for it. A
non-blocking call keeps the run without time through every poll, a
blocking call through every turn of its loop, so both come to its one
outcome and leave the same state. Timers tell a latency from a timeout
only while they can count, so a call that times out takes a clock that
lasts.
-/

namespace ResilientCalls

/-! ## Timers for different times -/

/-- A length of time in whole milliseconds. -/
def Duration.IsWhole (d : Duration) : Prop := Duration.perMillisecond ∣ d.nanos

instance Duration.decidableIsWhole (d : Duration) : Decidable d.IsWhole :=
  inferInstanceAs (Decidable (Duration.perMillisecond ∣ d.nanos))

namespace Instant

/-- Nothing is set further ahead than anything is. -/
theorem timer_shorter (now : Instant) (d : Duration) :
    now.timer (d.shorter .furthest) = now.timer d := by
  have hzero : (d.shorter .furthest).isZero = d.isZero := by
    simp only [Duration.isZero, Duration.shorter, Duration.furthest, Duration.ofSeconds,
      Duration.perSecond, Bool.beq_eq_decide_eq, decide_eq_decide]
    omega
  have hahead : now.ahead (d.shorter .furthest) = now.ahead d := by
    simp only [ahead, Duration.shorter, Nat.min_assoc, Nat.min_self]
  rw [timer, timer, hzero, hahead]

/-- Whole milliseconds that differ do so by one, also when they are cut. -/
theorem ahead_add_le {now : Instant} {d e : Duration} (hd : d.IsWhole) (he : e.IsWhole)
    (hlt : (d.shorter .furthest).nanos < (e.shorter .furthest).nanos) :
    (now.ahead d).nanos + Duration.perMillisecond ≤ (now.ahead e).nanos := by
  obtain ⟨m, hm⟩ := hd
  obtain ⟨n, hn⟩ := he
  simp only [ahead, plus, Duration.shorter, Duration.furthest, Duration.ofSeconds,
    Duration.perSecond, Duration.perMillisecond] at hlt hm hn ⊢
  omega

/-- An instant that is a millisecond later is so when it is rounded up. -/
theorem firing_add_le {t u : Instant} (h : t.nanos + Duration.perMillisecond ≤ u.nanos) :
    t.firing.nanos + Duration.perMillisecond ≤ u.firing.nanos := by
  simp only [firing, Duration.perMillisecond] at h ⊢
  omega

/-- **Timers tell whole milliseconds apart,** while they can count. -/
theorem timer_lt_timer {now : Instant} {d e : Duration} (hd : d.IsWhole) (he : e.IsWhole)
    (hlt : (d.shorter .furthest).nanos < (e.shorter .furthest).nanos)
    (hlast : now.nanos + d.nanos + Duration.perMillisecond ≤ lastFiring.nanos) :
    (now.timer d).nanos < (now.timer e).nanos := by
  have hone : 0 < Duration.perMillisecond := by decide
  have hlater : (now.ahead d).firing.nanos + Duration.perMillisecond ≤
      (now.ahead e).firing.nanos := firing_add_le (ahead_add_le hd he hlt)
  have hpos : 0 < e.nanos :=
    lt_of_le_of_lt (Nat.zero_le _) (lt_of_lt_of_le hlt (Nat.min_le_left _ _))
  have hset : now.timer e = (now.ahead e).firing.earlier lastFiring :=
    if_neg (by simp only [Duration.isZero, beq_iff_eq]; omega)
  rw [hset]
  by_cases hzero : d.isZero = true
  · have hnow : now.nanos ≤ (now.ahead d).firing.nanos :=
      le_trans (Nat.le_add_right _ _) (le_firing _)
    rw [timer, if_pos hzero]
    exact lt_min (by omega) (by omega)
  · have hahead : (now.ahead d).nanos ≤ now.nanos + d.nanos :=
      Nat.add_le_add_left (Nat.min_le_left _ _) _
    have hfiring := firing_lt (now.ahead d)
    rw [timer, if_neg hzero]
    exact lt_of_le_of_lt (Nat.min_le_left _ _) (lt_min (by omega) (by omega))

theorem le_timer_of_le_lastFiring {now : Instant} {d : Duration}
    (hlast : now.nanos ≤ lastFiring.nanos) : now.nanos ≤ (now.timer d).nanos := by
  have hfiring := le_firing (now.ahead d)
  have hahead : now.nanos ≤ (now.ahead d).nanos := Nat.le_add_right _ _
  unfold timer
  split
  · exact le_rfl
  · simp only [earlier]
    omega

end Instant

/-! ## What an attempt does -/

namespace Store

/-- Answers to a call come later than its attempts are cut. -/
def overdue (s : Store) (m : Method) (timeout : Duration) : Bool :=
  (s.latency.get m).any fun latency =>
    decide ((timeout.shorter .furthest).nanos < (latency.shorter .furthest).nanos)

/-- Answers that are late come after whole milliseconds. -/
def HasWholeLatencies (s : Store) : Prop :=
  ∀ m latency, s.latency.get m = some latency → latency.IsWhole

/-- A service that has just been set up answers at once. -/
theorem hasWholeLatencies_new : new.HasWholeLatencies := by
  intro m latency hset
  simp [new] at hset

theorem HasWholeLatencies.setLatency {s : Store} (h : s.HasWholeLatencies) (m : Method)
    {latency : Duration} (hwhole : latency.IsWhole) :
    (s.setLatency m latency).HasWholeLatencies := by
  intro n other hset
  rw [Store.setLatency] at hset
  by_cases hn : n = m
  · rw [hn, PerMethod.get_set, Option.some.injEq] at hset
    exact hset ▸ hwhole
  · rw [PerMethod.get_set_of_ne _ hn] at hset
    exact h n other hset

/-- Settling a request leaves the latencies as they are. -/
theorem latency_settle (r : Request) (s : Store) : (s.settle r).2.latency = s.latency := by
  unfold settle
  split
  · rfl
  · exact congrArg (fun arranged => arranged.2.1) (serve_arranged r s)

end Store

namespace Call

/-- **What an attempt does to the service,** and what comes of it: it is
counted, and times out or is settled. -/
def act (call : Call) (s : Store) : Except Status Answer × Store :=
  if s.overdue call.request.method call.timeout then
    (.error (call.timedOut call.timeout), s.enter call.request.method)
  else (s.enter call.request.method).settle call.request

theorem latency_act (call : Call) (s : Store) : (call.act s).2.latency = s.latency := by
  unfold act
  split
  · rfl
  · exact Store.latency_settle _ _

/-- An attempt that was made at `start` on the service as it was in `s`,
and lands at `due`. -/
structure Flying (call : Call) (start : Instant) (s : Store) (a : CallAttempt Instant)
    (due : Instant) : Prop where
  start_le : start.nanos ≤ due.nanos
  soon : due.nanos < start.nanos + call.timeout.nanos + Duration.perMillisecond
  /-- Until it lands it waits. -/
  waits : ∀ now : Instant, start.nanos ≤ now.nanos → now.nanos < due.nanos →
    call.look Store.stub now a (s.enter call.request.method) =
      (.waiting, s.enter call.request.method)
  /-- It waits no longer. -/
  waiting : ∀ (now : Instant) (before after : Store),
    call.look Store.stub now a before = (.waiting, after) → now.nanos < due.nanos
  /-- Then it does what an attempt does. -/
  lands : call.look Store.stub due a (s.enter call.request.method) =
    (.finished (call.act s).1, (call.act s).2)
  /-- If it waits at all it waits for a timer. -/
  timed : start.nanos < due.nanos → due ∈ timers Store.stub a ∧
    due.nanos ≤ a.cutAt.nanos ∧ due.nanos ≤ Instant.lastFiring.nanos

variable {call : Call} {start now : Instant} {s : Store} {a : CallAttempt Instant}

/-- An answer that is due is given. -/
theorem look_of_le (h : a.inner.nanos ≤ now.nanos) : call.look Store.stub now a s =
    (.finished (s.settle call.request).1, (s.settle call.request).2) := by
  have hreached : a.inner.reached now = true := by simpa [Instant.reached] using h
  simp only [look, Store.stub, if_pos hreached]

/-- An attempt that is neither answered nor cut waits. -/
theorem look_of_lt (h : now.nanos < a.inner.nanos) (hcut : now.nanos < a.cutAt.nanos) :
    call.look Store.stub now a s = (.waiting, s) := by
  have hreached : a.inner.reached now = false := by simpa [Instant.reached] using h
  have huncut : a.cutAt.reached now = false := by simpa [Instant.reached] using hcut
  simp only [look, Store.stub, hreached, huncut, Bool.false_eq_true, if_false]

/-- An attempt that is cut before it is answered has timed out. -/
theorem look_of_cut (h : now.nanos < a.inner.nanos) (hcut : a.cutAt.nanos ≤ now.nanos) :
    call.look Store.stub now a s = (.finished (.error (call.timedOut a.timeout)), s) := by
  have hreached : a.inner.reached now = false := by simpa [Instant.reached] using h
  have hdone : a.cutAt.reached now = true := by simpa [Instant.reached] using hcut
  simp only [look, Store.stub, hreached, hdone, Bool.false_eq_true, if_false, if_true]

/-- An attempt whose answer comes no later than its cut lands with the
answer. -/
theorem flying_of_answer
    (hsoon : a.cutAt.nanos < start.nanos + call.timeout.nanos + Duration.perMillisecond)
    (hdue : a.inner.nanos ≤ a.cutAt.nanos ∨ a.inner.nanos ≤ start.nanos)
    (hlast : a.inner.nanos ≤ start.nanos ∨ a.inner.nanos ≤ Instant.lastFiring.nanos)
    (hact : call.act s = (s.enter call.request.method).settle call.request) :
    call.Flying start s a ⟨max start.nanos a.inner.nanos⟩ where
  start_le := Nat.le_max_left _ _
  soon := by
    have hone : 0 < Duration.perMillisecond := by decide
    simp only
    omega
  waits now hstart hnow := by
    simp only at hnow
    exact look_of_lt (by omega) (by omega)
  waiting now before after hlook := by
    by_contra hnow
    simp only at hnow
    rw [look_of_le (by omega)] at hlook
    cases hlook
  lands := by rw [look_of_le (Nat.le_max_right _ _), hact]
  timed hnow := by
    simp only at hnow
    have hinner : (⟨max start.nanos a.inner.nanos⟩ : Instant) = a.inner := by
      rw [Nat.max_eq_right (by omega)]
    rw [hinner]
    exact ⟨List.mem_append_left _ (List.mem_singleton.2 rfl), by omega, by omega⟩

/-- An attempt that is cut before its answer comes lands timed out. -/
theorem flying_of_cut (hcut : a.cutAt = start.timer call.timeout)
    (htimeout : a.timeout = call.timeout) (hstart : start.nanos ≤ Instant.lastFiring.nanos)
    (hdue : a.cutAt.nanos < a.inner.nanos)
    (hact : call.act s = (.error (call.timedOut call.timeout), s.enter call.request.method)) :
    call.Flying start s a a.cutAt where
  start_le := hcut ▸ Instant.le_timer_of_le_lastFiring hstart
  soon := hcut ▸ Instant.timer_lt start call.timeout
  waits now _ hnow := look_of_lt (by omega) hnow
  waiting now before after hlook := lt_cutAt_of_look hlook
  lands := by rw [look_of_cut hdue le_rfl, hact, htimeout]
  timed hnow := by
    refine ⟨List.mem_append_right _ (List.mem_singleton.2 rfl), le_rfl, ?_⟩
    have hlast := Instant.timer_le_lastFiring start call.timeout
    rw [← hcut] at hlast
    omega

/-- **An attempt that is made lands,** as the latency of its call says. -/
theorem launch_flying (hdeadline : call.deadline = none) (hwhole : call.timeout.IsWhole)
    (hlatency : s.HasWholeLatencies)
    (hclock : s.overdue call.request.method call.timeout = true →
      start.nanos + call.timeout.nanos + Duration.perMillisecond ≤ Instant.lastFiring.nanos) :
    ∃ due, call.Flying start s (call.launch Store.stub start s).1 due := by
  have htimeout : (call.launch Store.stub start s).1.timeout = call.timeout := by
    simp only [launch, attemptTimeout, hdeadline]
  have hcut : (call.launch Store.stub start s).1.cutAt = start.timer call.timeout := by
    simp only [launch, attemptTimeout, hdeadline]
  have hsoon := Instant.timer_lt start call.timeout
  rw [← hcut] at hsoon
  cases hset : s.latency.get call.request.method with
  | none =>
    have hinner : (call.launch Store.stub start s).1.inner = start := by
      simp only [launch, Store.stub, hset]
    have hact : call.act s = (s.enter call.request.method).settle call.request := by
      simp only [act, Store.overdue, hset, Option.any_none, Bool.false_eq_true, if_false]
    exact ⟨_, flying_of_answer hsoon (by rw [hinner]; exact Or.inr le_rfl)
      (by rw [hinner]; exact Or.inl le_rfl) hact⟩
  | some latency =>
    have hinner : (call.launch Store.stub start s).1.inner = start.timer latency := by
      simp only [launch, Store.stub, hset]
    have hoverdue : s.overdue call.request.method call.timeout =
        decide ((call.timeout.shorter .furthest).nanos < (latency.shorter .furthest).nanos) := by
      simp only [Store.overdue, hset, Option.any_some]
    by_cases hlate : (call.timeout.shorter .furthest).nanos < (latency.shorter .furthest).nanos
    · have hlast := hclock (hoverdue.trans (decide_eq_true hlate))
      have hact : call.act s = (.error (call.timedOut call.timeout),
          s.enter call.request.method) := by
        simp only [act, hoverdue, hlate, decide_true, if_true]
      refine ⟨_, flying_of_cut hcut htimeout (by omega) ?_ hact⟩
      rw [hcut, hinner]
      exact Instant.timer_lt_timer hwhole (hlatency _ _ hset) hlate hlast
    · have hact : call.act s = (s.enter call.request.method).settle call.request := by
        simp only [act, hoverdue, hlate, decide_false, Bool.false_eq_true, if_false]
      have hbefore : (start.timer (latency.shorter .furthest)).nanos ≤
          (start.timer (call.timeout.shorter .furthest)).nanos ∨
          (start.timer (latency.shorter .furthest)).nanos ≤ start.nanos :=
        Instant.timer_le_timer (Nat.le_of_not_lt hlate)
      rw [Instant.timer_shorter, Instant.timer_shorter, ← hcut, ← hinner] at hbefore
      exact ⟨_, flying_of_answer hsoon hbefore (hinner ▸ Instant.timer_le_lastFiring _ _) hact⟩

/-- **Waiting for an attempt ends when it lands.** The induction is on the
looks: each that finds it waiting moves the clock on. -/
theorem await_flying {due : Instant} (h : call.Flying start s a due) (fuel : Nat) {now : Instant}
    (hstart : start.nanos ≤ now.nanos) (hnow : now.nanos ≤ due.nanos)
    (hfuel : due.nanos - now.nanos < fuel) :
    call.await Store.stub fuel now a (s.enter call.request.method) =
      (.finished (call.act s).1, due, (call.act s).2) := by
  induction fuel generalizing now with
  | zero => omega
  | succ n ih =>
    rcases Nat.lt_or_ge now.nanos due.nanos with hbefore | hat
    · obtain ⟨hmem, hcut, -⟩ := h.timed (by omega)
      simp only [await, h.waits now hstart hbefore]
      rcases hnext : earliestWithin now a.cutAt (timers Store.stub a) with _ | next
      · exact absurd hnext (earliestWithin_ne_none hmem hbefore hcut)
      · have hearly := earliestWithin_le hnext hmem hbefore hcut
        have hmoves := (earliestWithin_bounds hnext).1
        exact ih (by omega) hearly (by omega)
    · obtain rfl : now = due := by
        cases now
        cases due
        simp only [Instant.mk.injEq]
        exact le_antisymm hnow hat
      simp only [await, h.lands]

/-- **A blocking attempt does what an attempt does,** and is over when it
lands. -/
theorem runAttempt_flying {due : Instant}
    (h : call.Flying start s (call.launch Store.stub start s).1 due) :
    call.runAttempt Store.stub start s = (.finished (call.act s).1, due, (call.act s).2) := by
  have hfuel : due.nanos - start.nanos <
      (call.launch Store.stub start s).1.cutAt.nanos - start.nanos + 1 := by
    have hstart := h.start_le
    rcases Nat.lt_or_ge start.nanos due.nanos with hbefore | hat
    · have hcut := (h.timed hbefore).2.1
      omega
    · omega
  exact await_flying h _ le_rfl h.start_le hfuel

end Call

/-! ## What is to come -/

namespace RetryPolicy

/-- From the start of an attempt to the start of the next one, at most, in
nanoseconds: the timeout of the attempt, the delay after it, and a
millisecond for the timer of each. -/
def turn (p : RetryPolicy) (timeout : Duration) (attempt : Nat) : Nat :=
  timeout.nanos + (p.baseDelay attempt).nanos + 2 * Duration.perMillisecond

/-- From the start of an attempt to the start of the `n`-th one after it,
at most. -/
def turns (p : RetryPolicy) (timeout : Duration) (attempt : Nat) : Nat → Nat
  | 0 => 0
  | n + 1 => p.turn timeout attempt + p.turns timeout (attempt + 1) n

/-- More attempts take no less time. -/
theorem turns_le (p : RetryPolicy) (timeout : Duration) (attempt : Nat) {m n : Nat} (h : m ≤ n) :
    p.turns timeout attempt m ≤ p.turns timeout attempt n := by
  induction m generalizing attempt n with
  | zero => exact Nat.zero_le _
  | succ m ih =>
    obtain ⟨n, rfl⟩ : ∃ k, n = k + 1 := ⟨n - 1, by omega⟩
    exact Nat.add_le_add_left (ih (attempt + 1) (Nat.le_of_succ_le_succ h)) _

/-- A failure is retried `n` times in a row, from some attempt on. -/
def KeepsRetrying {ε : Type} [Failure ε] (p : RetryPolicy) (e : ε) (attempt n : Nat) : Prop :=
  ∀ k, attempt ≤ k → k < attempt + n → ∃ delay, p.decides k e = .retry delay

end RetryPolicy

namespace Call

variable {call : Call} {p : RetryPolicy} {s₀ s : Store} {attempt : Nat} {start due later : Instant}

/-- **The clock lasts** for an attempt that is made at `start`, and for
those that are made after it if they all time out: each of them is over
before the last instant that timers wait for. -/
def ClockLasts (call : Call) (p : RetryPolicy) (attempt : Nat) (start : Instant) : Prop :=
  ∀ n, p.KeepsRetrying (call.timedOut call.timeout) attempt n →
    start.nanos + p.turns call.timeout attempt n + call.timeout.nanos + Duration.perMillisecond ≤
      Instant.lastFiring.nanos

/-- It lasts if it does for as many attempts as the policy allows. -/
theorem clockLasts_of_le (hlimited : 0 < p.maximumAttempts)
    (h : start.nanos + p.turns call.timeout attempt (p.maximumAttempts - attempt) +
      call.timeout.nanos + Duration.perMillisecond ≤ Instant.lastFiring.nanos) :
    call.ClockLasts p attempt start := by
  intro n hretries
  have hfew : n ≤ p.maximumAttempts - attempt := by
    rcases Nat.eq_zero_or_pos n with rfl | hpos
    · exact Nat.zero_le _
    · obtain ⟨delay, hretry⟩ := hretries (attempt + n - 1) (by omega) (by omega)
      have hless := (RetryPolicy.decides_retry hretry).2 hlimited
      omega
  have hturns := p.turns_le call.timeout attempt hfew
  omega

/-- It lasts for the attempt itself. -/
theorem ClockLasts.now (h : call.ClockLasts p attempt start) :
    start.nanos + call.timeout.nanos + Duration.perMillisecond ≤ Instant.lastFiring.nanos :=
  h 0 fun k hfrom hto => by omega

/-- It lasts for the next attempt, which starts a turn later at most. -/
theorem ClockLasts.retried (h : call.ClockLasts p attempt start) {delay : Duration}
    (hretry : p.decides attempt (call.timedOut call.timeout) = .retry delay)
    (hlater : later.nanos ≤ start.nanos + p.turn call.timeout attempt) :
    call.ClockLasts p (attempt + 1) later := by
  intro n hretries
  have hlasts := h (n + 1) fun k hfrom hto => by
    rcases Nat.eq_or_lt_of_le hfrom with rfl | hnext
    · exact ⟨delay, hretry⟩
    · exact hretries k hnext (by omega)
  simp only [RetryPolicy.turns] at hlasts
  omega

/-- An attempt that is to be made at `t` on `s` belongs to the run that
began on `s₀`: whatever it comes to, that run comes to. The clock lasts
for it and the attempts after it, if they are to time out. -/
structure OnCourse (call : Call) (p : RetryPolicy) (s₀ : Store) (attempt : Nat) (t : Instant)
    (s : Store) : Prop where
  latency : s.latency = s₀.latency
  clock : s₀.overdue call.request.method call.timeout = true → call.ClockLasts p attempt t
  comes : ∀ outcome s', p.Comes call.act attempt s outcome s' → p.Comes call.act 1 s₀ outcome s'

/-- Attempts of the run time out as the first one does. -/
theorem OnCourse.overdue_eq (h : call.OnCourse p s₀ attempt start s) :
    s.overdue call.request.method call.timeout = s₀.overdue call.request.method call.timeout := by
  rw [Store.overdue, Store.overdue, h.latency]

/-- An attempt of the run lands. -/
theorem OnCourse.flying (h : call.OnCourse p s₀ attempt start s) (hdeadline : call.deadline = none)
    (hwhole : call.timeout.IsWhole) (hlatency : s₀.HasWholeLatencies) :
    ∃ due, call.Flying start s (call.launch Store.stub start s).1 due := by
  refine launch_flying hdeadline hwhole (fun m latency hset => ?_) (fun hoverdue => ?_)
  · rw [h.latency] at hset
    exact hlatency m latency hset
  · exact (h.clock (h.overdue_eq ▸ hoverdue)).now

/-- **After a retry the next attempt belongs to the run.** -/
theorem OnCourse.retried (h : call.OnCourse p s₀ attempt start s) {e : Status} {delay : Duration}
    (herror : (call.act s).1 = .error e) (hretry : p.decides attempt e = .retry delay)
    (hsoon : due.nanos < start.nanos + call.timeout.nanos + Duration.perMillisecond)
    (hlater : later.nanos ≤ due.nanos + delay.nanos + Duration.perMillisecond) :
    call.OnCourse p s₀ (attempt + 1) later (call.act s).2 := by
  refine ⟨(call.latency_act s).trans h.latency, fun hoverdue => ?_,
    fun outcome s' hcomes => h.comes outcome s' (.retries herror hretry hcomes)⟩
  obtain rfl : call.timedOut call.timeout = e := by
    rw [act, h.overdue_eq, if_pos hoverdue] at herror
    exact Except.error.inj herror
  refine (h.clock hoverdue).retried hretry ?_
  rw [(RetryPolicy.decides_retry hretry).1] at hlater
  unfold RetryPolicy.turn
  omega

end Call

/-- The outcome of a run that is one of the run without time. -/
def Call.CameTo (call : Call) (p : RetryPolicy) (s₀ : Store)
    (ending : Ending Status Answer) (s : Store) : Prop :=
  ∃ outcome, ending = .settled outcome ∧
    p.Comes call.act 1 s₀ (outcome.mapError RetryError.timeless) s

namespace Run

/-- A run of the call that waits for an attempt to land, or for the next
one to be made. -/
def Heads (call : Call) (o : RetryOptions) (s₀ : Store) (now : Instant)
    (r : Run (CallAttempt Instant) Status) (s : Store) : Prop :=
  r.options = o ∧
    match r.phase with
    | .idle => call.OnCourse o.policy s₀ 1 now s
    | .attempting a i => i.deadline = none ∧ ∃ start s' due, s = s'.enter call.request.method ∧
        call.Flying start s' a due ∧ call.OnCourse o.policy s₀ i.attempt start s' ∧
        start.nanos ≤ now.nanos ∧ now.nanos ≤ due.nanos
    | .backingOff timer i => i.deadline = none ∧ i.attempt < o.policy.maximumAttempts ∧
        call.OnCourse o.policy s₀ (i.attempt + 1) ⟨max now.nanos timer.nanos⟩ s ∧
        (timer.nanos ≤ now.nanos ∨ timer.nanos ≤ Instant.lastFiring.nanos)
    | .settled => False

variable {call : Call} {o : RetryOptions} {draws : Draws} {s₀ : Store} {now : Instant}
  {r : Run (CallAttempt Instant) Status} {past : List RetryEvent}

/-- **One transition keeps a run on its course,** or settles it as the run
without time says. -/
theorem step_heads (hdeadline : call.deadline = none) (hwhole : call.timeout.IsWhole)
    (hlatency : s₀.HasWholeLatencies) (hjitter : o.policy.jitter.isZero = true)
    (heffective : ∀ now, o.effective now = none) (hlimited : 0 < o.policy.maximumAttempts)
    (hmax : o.policy.maximumAttempts ≤ maxCount32)
    (world : Store × Chronicle Status Answer) (h : r.Heads call o s₀ now world.1) :
    (r.step (call.work Store.stub).chronicled draws now world).Keeps
      (fun _ r world => r.Heads call o s₀ now world.1)
      (fun _ world ending => call.CameTo o.policy s₀ ending world.1) past := by
  obtain ⟨s, c⟩ := world
  have hheads := h
  obtain ⟨rfl, hphase⟩ := h
  have hlaunch : ∀ i : Invocation, i.deadline = none →
      call.OnCourse r.options.policy s₀ i.attempt now s →
      (r.launch (call.work Store.stub).chronicled now i (s, c)).Keeps
        (fun _ r' world => r'.Heads call r.options s₀ now world.1)
        (fun _ world ending => call.CameTo r.options.policy s₀ ending world.1) past := by
    intro i hi hcourse
    obtain ⟨due, hflying⟩ := hcourse.flying hdeadline hwhole hlatency
    simp only [launch, Work.chronicled_start_ok (call.work_start Store.stub now s), Turn.Keeps]
    exact ⟨rfl, hi, now, s, due, rfl, hflying, hcourse, le_rfl, hflying.start_le⟩
  unfold step
  cases hphased : r.phase with
  | idle =>
    simp only [hphased] at hphase ⊢
    exact hlaunch _ (heffective now) hphase
  | backingOff timer i =>
    simp only [hphased] at hphase ⊢
    obtain ⟨hi, hless, hcourse, -⟩ := hphase
    by_cases hfired : timer.reached now = true
    · rw [if_pos hfired]
      have hnow : (⟨max now.nanos timer.nanos⟩ : Instant) = now := by
        rw [Nat.max_eq_left (by simpa [Instant.reached] using hfired)]
      have hadvance : i.advance.attempt = i.attempt + 1 := Nat.min_eq_left (by omega)
      exact hlaunch i.advance hi (by rwa [hadvance, ← hnow])
    · rw [if_neg hfired]
      exact hheads
  | attempting a i =>
    simp only [hphased] at hphase ⊢
    obtain ⟨hi, start, s', due, rfl, hflying, hcourse, hstart, hnow⟩ := hphase
    rcases Nat.lt_or_ge now.nanos due.nanos with hbefore | hat
    · have hlook := hflying.waits now hstart hbefore
      simp only [Work.chronicled_look (w := call.work Store.stub) hlook]
      exact hheads
    · obtain rfl : now = due := by
        cases now
        cases due
        simp only [Instant.mk.injEq]
        exact le_antisymm hnow hat
      have hlook := hflying.lands
      simp only [Work.chronicled_look (w := call.work Store.stub) hlook]
      rcases hact : (call.act s').1 with e | v
      · simp only [afterFailedAttempt, RetryPolicy.afterFailure_eq_decides hi hjitter]
        cases hdecision : r.options.policy.decides i.attempt e with
        | overflow reason => exact absurd hdecision (RetryPolicy.decides_ne_overflow _ _ _)
        | stop reason =>
          refine ⟨_, rfl, ?_⟩
          rw [Except.mapError, Stop.timeless_toError]
          exact hcourse.comes _ _ (.stops hact hdecision)
        | retry delay =>
          have hless := (RetryPolicy.decides_retry hdecision).2 hlimited
          have htimer := Instant.timer_lt now delay
          refine ⟨rfl, hi, hless, ?_, Instant.timer_le_lastFiring _ _⟩
          exact hcourse.retried hact hdecision hflying.soon
            (Nat.max_le.2 ⟨by omega, Nat.le_of_lt htimer⟩)
      · exact ⟨_, rfl, hcourse.comes _ _ (.value hact)⟩
  | settled => simp only [hphased] at hphase

/-- **A run that waits stays on its course** until the timer it waits
for. -/
theorem Heads.waits {world : Store × Chronicle Status Answer} (h : r.Heads call o s₀ now world.1)
    (hwaits : r.IsWaiting (call.work Store.stub).chronicled now world) :
    ∃ t ∈ r.timers (call.work Store.stub).chronicled,
      now.nanos < t.nanos ∧ t.nanos ≤ Instant.lastFiring.nanos ∧
        ∀ next : Instant, now.nanos < next.nanos → next.nanos ≤ t.nanos →
          r.Heads call o s₀ next world.1 := by
  obtain ⟨ho, hphase⟩ := h
  rcases hwaits.cases with ⟨a, i, inner, hphased, hlook, htimers⟩ |
    ⟨timer, i, hphased, hlater, htimers⟩ <;> simp only [hphased] at hphase <;> rw [htimers]
  · obtain ⟨hi, start, s', due, hs, hflying, hcourse, hstart, -⟩ := hphase
    have hbefore := hflying.waiting now inner _ (Prod.ext hlook rfl)
    obtain ⟨hmem, -, hlast⟩ := hflying.timed (by omega)
    refine ⟨due, hmem, hbefore, hlast, fun next hmoves hnext => ⟨ho, ?_⟩⟩
    simp only [hphased]
    exact ⟨hi, start, s', due, hs, hflying, hcourse, by omega, hnext⟩
  · obtain ⟨hi, hless, hcourse, hlast⟩ := hphase
    refine ⟨timer, List.mem_singleton_self timer, hlater, by omega,
      fun next _ hnext => ⟨ho, ?_⟩⟩
    rw [Nat.max_eq_right (Nat.le_of_lt hlater)] at hcourse
    simp only [hphased]
    refine ⟨hi, hless, ?_, Or.inr (by omega)⟩
    rwa [Nat.max_eq_right hnext]

end Run

/-! ## Both runs -/

section

variable {call : Call} {o : RetryOptions} (draws : Draws) {s : Store} {now : Instant}
  (hdeadline : call.deadline = none) (hwhole : call.timeout.IsWhole)
  (hlatency : s.HasWholeLatencies) (hjitter : o.policy.jitter.isZero = true)
  (heffective : ∀ now, o.effective now = none) (hlimited : 0 < o.policy.maximumAttempts)
  (hmax : o.policy.maximumAttempts ≤ maxCount32)

include hdeadline hwhole hlatency hjitter heffective hlimited hmax

/-- **A non-blocking run comes to the outcome of the run without time.** -/
theorem Course.follow_cameTo {limit : Instant} (hp : o.policy.Waits)
    (hlimit : Instant.lastFiring.nanos ≤ limit.nanos)
    (hcourse : call.OnCourse o.policy s 1 now s) :
    let e := (Course.begin o now (s, Chronicle.empty)).follow
      (call.work Store.stub).chronicled draws none limit
    call.CameTo o.policy s e.ending e.world.1 := by
  obtain ⟨_, hcame⟩ := follow_settles (w := call.work Store.stub)
    (J := fun now _ r world => r.Heads call o s now world.1)
    (E := fun _ _ world ending => call.CameTo o.policy s ending world.1)
    (fun now past r world h => Run.step_heads hdeadline hwhole hlatency hjitter heffective
      hlimited hmax world h)
    (fun _ hcancelled => by cases hcancelled)
    (fun now past r world h hwaits => by
      obtain ⟨t, hmem, hlater, hlast, huntil⟩ := h.waits hwaits
      exact ⟨t, hmem, hlater, le_trans hlast hlimit, huntil⟩)
    (show (Run.new o).Heads call o s now s from ⟨rfl, hcourse⟩)
    (follow_uncrowded (call.work Store.stub) draws none limit now s hp hlimited hmax)
  exact hcame

omit heffective in
/-- **The loop of a blocking run comes to the outcome of the run without
time.** -/
theorem Blocking.loop_cameTo (htoken : o.hasToken = false) (cancelledFrom : Option Instant)
    (fuel : Nat) {i : Invocation} {start : Instant} {s' : Store} (made : Nat)
    (hi : i.deadline = none) (hcourse : call.OnCourse o.policy s i.attempt start s')
    (hfuel : o.policy.maximumAttempts - i.attempt < fuel) :
    let e := loop (Client.blockingWork call Store.stub cancelledFrom) o draws fuel i start
      (s', made)
    call.CameTo o.policy s e.ending e.world.1 := by
  induction fuel generalizing i start s' made with
  | zero => omega
  | succ n ih =>
    obtain ⟨due, hflying⟩ := hcourse.flying hdeadline hwhole hlatency
    have hcall : (Client.blockingWork call Store.stub cancelledFrom).call start (s', made) =
        (.finished (call.act s').1, due, ((call.act s').2, made + 1)) := by
      simp only [Client.blockingWork, Call.runAttempt_flying hflying]
    simp only [loop, hcall]
    rcases hact : (call.act s').1 with e | v
    · simp only [RetryPolicy.afterFailure_eq_decides hi hjitter]
      cases hdecision : o.policy.decides i.attempt e with
      | overflow reason => exact absurd hdecision (RetryPolicy.decides_ne_overflow _ _ _)
      | stop reason =>
        refine ⟨_, rfl, ?_⟩
        rw [Except.mapError, Stop.timeless_toError]
        exact hcourse.comes _ _ (.stops hact hdecision)
      | retry delay =>
        have hless := (RetryPolicy.decides_retry hdecision).2 hlimited
        have hadvance : i.advance.attempt = i.attempt + 1 := Nat.min_eq_left (by omega)
        have hnext : call.OnCourse o.policy s (i.attempt + 1) (due.plus delay) (call.act s').2 :=
          hcourse.retried hact hdecision hflying.soon
            (by simp only [Instant.plus]; omega)
        rw [← hadvance] at hnext
        simp only [sleep, htoken, Bool.false_eq_true, if_false]
        exact ih (made + 1) hi hnext (by omega)
    · exact ⟨_, rfl, hcourse.comes _ _ (.value hact)⟩

end

/-- **A token that is cancelled before the first poll** ends a run that has
made no attempt. -/
theorem Course.follow_cancelled {σ τ ε α : Type} [Failure ε] (w : Work σ τ ε α) (draws : Draws)
    {cancelledFrom : Option Instant} (limit : Instant) {o : RetryOptions} {now : Instant}
    (world : σ) (htoken : o.hasToken = true)
    (hread : Blocking.tokenReads cancelledFrom now = true) :
    let e := (Course.begin o now world : Course σ τ ε α).follow w draws cancelledFrom limit
    e.ending = .settled (.error (.cancelled none 0 .zero)) ∧ e.world = world := by
  have hcancel : (Run.new o : Run τ ε).poll w draws now (cancelledFrom.any (·.reached now)) world =
      (Run.new o).cancel now world := by
    unfold Run.poll
    rw [if_pos]
    simp only [Run.new, Phase.isSettled, htoken, Bool.true_and, Bool.not_false, Bool.and_true]
    exact hread
  have hpolled : (Course.begin o now world : Course σ τ ε α).pollNow w draws cancelledFrom =
      ⟨now, ((Run.new o : Run τ ε).cancel now world : Turn σ τ ε α _).run, world,
        [.cancelled 0 .zero], .settled (.error (.cancelled none 0 .zero))⟩ := by
    simp only [pollNow, begin, hcancel]
    rfl
  have hfollow : (Course.begin o now world : Course σ τ ε α).follow w draws cancelledFrom limit =
      (Course.begin o now world : Course σ τ ε α).pollNow w draws cancelledFrom :=
    followFor_ended (limit.nanos - now.nanos) (by rw [hpolled]; simp)
  intro e
  rw [show e = _ from hfollow, hpolled]
  exact ⟨rfl, rfl⟩

/-- The result without the time that the call took. -/
def CallResult.timeless : CallResult → CallResult
  | .failed (.rpc m e) => .failed (.rpc m e.timeless)
  | result => result

namespace Client

theorem timeless_resultOf (m : Method) (outcome : Except (RetryError Status) Answer) :
    (resultOf m (.settled outcome)).timeless =
      resultOf m (.settled (outcome.mapError RetryError.timeless)) := by
  cases outcome <;> rfl

/-- **The clock lasts for a call** that begins now: for every attempt that
is made if all before it time out. -/
def ClockLasts (c : Client) (request : Request) (now : Instant) : Prop :=
  Call.ClockLasts ⟨request, c.timeoutOf request, none⟩ c.policy 1 now

/-- A blocking call that is not refused ends as its run does. -/
theorem callBlocking_of_prepare {σ τ : Type} {c : Client} {request : Request} {o : CallOptions}
    {options : RetryOptions} (h : c.prepare request o = .ok options) (stub : Stub σ τ)
    (draws : Draws) (cancelledFrom : Option Instant) (now : Instant) (world : σ) :
    let ended := Blocking.run (blockingWork (c.callOf request options now) stub cancelledFrom)
      options draws now (world, 0)
    (c.callBlocking stub draws request o cancelledFrom now world).result =
        resultOf request.method ended.ending ∧
      (c.callBlocking stub draws request o cancelledFrom now world).world = ended.world.1 := by
  constructor <;> simp only [callBlocking, h]

/-- Every attempt has one of the two configured timeouts. -/
theorem timeoutOf_isWhole {c : Client} (hrpc : c.config.rpcTimeout.IsWhole)
    (hpoll : c.config.longPollTimeout.IsWhole) (request : Request) :
    (c.timeoutOf request).IsWhole := by
  unfold timeoutOf
  split
  · split
    · exact hpoll
    · exact hrpc
  · exact hpoll
  · exact hrpc

end Client

/-- Two calls at their ends that settled alike, but for the time that they
took, and left the same state. -/
structure CallEnd.Alike {σ : Type} (a b : CallEnd σ) : Prop where
  settled : a.result.IsSettled
  settled' : b.result.IsSettled
  result : a.result.timeless = b.result.timeless
  world : a.world = b.world

/-- Runs that come to one outcome settle their calls alike. -/
theorem CallEnd.alike_of_outcomes {σ : Type} {a b : CallEnd σ} {m : Method}
    {outcome outcome' : Except (RetryError Status) Answer}
    (ha : a.result = Client.resultOf m (.settled outcome))
    (hb : b.result = Client.resultOf m (.settled outcome'))
    (hsame : outcome.mapError RetryError.timeless = outcome'.mapError RetryError.timeless)
    (hworld : a.world = b.world) : a.Alike b where
  settled := ha ▸ Client.resultOf_settled m outcome
  settled' := hb ▸ Client.resultOf_settled m outcome'
  result := by rw [ha, hb, Client.timeless_resultOf, Client.timeless_resultOf, hsame]
  world := hworld

/-- A call at its end that came to the outcome of the run without time. -/
def CallEnd.CameTo (e : CallEnd Store) (call : Call) (p : RetryPolicy) (s : Store) : Prop :=
  ∃ outcome, e.result = Client.resultOf call.request.method (.settled outcome) ∧
    p.Comes call.act 1 s (outcome.mapError RetryError.timeless) e.world

/-- The run without time comes to one outcome only. -/
theorem CallEnd.CameTo.alike {a b : CallEnd Store} {call : Call} {p : RetryPolicy} {s : Store}
    (ha : a.CameTo call p s) (hb : b.CameTo call p s) : a.Alike b := by
  obtain ⟨outcome, hresult, hcomes⟩ := ha
  obtain ⟨outcome', hresult', hcomes'⟩ := hb
  obtain ⟨hsame, hworld⟩ := hcomes.unique hcomes'
  exact alike_of_outcomes hresult hresult' hsame hworld

namespace Client

section

variable {c : Client} {request : Request} {o : CallOptions} {now : Instant} {s : Store}
  (hprepare : c.prepare request o = .ok ⟨c.policy, o.deadline, o.hasToken⟩) (draws : Draws)

section

variable (hwhole : (c.timeoutOf request).IsWhole) (hlatency : s.HasWholeLatencies)
  (hjitter : c.policy.jitter.isZero = true) (hlimited : 0 < c.policy.maximumAttempts)
  (hmax : c.policy.maximumAttempts ≤ maxCount32)
  (hnone : ∀ now, Deadline.effective c.policy o.deadline now = none)
  (hclock : s.overdue request.method (c.timeoutOf request) = true → c.ClockLasts request now)

include hprepare hwhole hlatency hjitter hlimited hmax hnone hclock

/-- **A non-blocking call comes to the outcome of the run without time.** -/
theorem call_cameTo {limit : Instant} (hlimit : Instant.lastFiring.nanos ≤ limit.nanos) :
    (c.call Store.stub draws request o none limit now s).CameTo
      (c.callOf request ⟨c.policy, o.deadline, o.hasToken⟩ now) c.policy s := by
  have hwaits : c.policy.Waits := (options_of_prepare hprepare).2.waits
  have hcall : (c.callOf request ⟨c.policy, o.deadline, o.hasToken⟩ now).deadline = none :=
    hnone now
  obtain ⟨outcome, hending, hcomes⟩ := Course.follow_cameTo draws
    (o := ⟨c.policy, o.deadline, o.hasToken⟩) hcall hwhole hlatency hjitter hnone hlimited hmax
    hwaits hlimit ⟨rfl, hclock, fun _ _ hcomes => hcomes⟩
  have hpolled := (call_eq_course hprepare Store.stub draws none limit now s).1
  refine ⟨outcome, ?_, ?_⟩ <;> rw [hpolled]
  · exact congrArg (resultOf request.method) hending
  · exact hcomes

/-- **A blocking call comes to the outcome of the run without time,** if
it watches no token. -/
theorem callBlocking_cameTo (htoken : o.hasToken = false) :
    (c.callBlocking Store.stub draws request o none now s).CameTo
      (c.callOf request ⟨c.policy, o.deadline, o.hasToken⟩ now) c.policy s := by
  have hfuel : c.policy.maximumAttempts - 1 < maxCount32 + 1 := by omega
  have hcall : (c.callOf request ⟨c.policy, o.deadline, o.hasToken⟩ now).deadline = none :=
    hnone now
  obtain ⟨outcome, hending, hcomes⟩ := Blocking.loop_cameTo draws
    (o := ⟨c.policy, o.deadline, o.hasToken⟩) hcall hwhole hlatency hjitter hlimited hmax htoken
    none (maxCount32 + 1) 0 (i := RetryOptions.begin ⟨c.policy, o.deadline, o.hasToken⟩ now)
    (hnone now) ⟨rfl, hclock, fun _ _ hcomes => hcomes⟩ hfuel
  have hloop : Blocking.run
      (blockingWork (c.callOf request ⟨c.policy, o.deadline, o.hasToken⟩ now) Store.stub none)
      ⟨c.policy, o.deadline, o.hasToken⟩ draws now (s, 0) =
      Blocking.loop
        (blockingWork (c.callOf request ⟨c.policy, o.deadline, o.hasToken⟩ now) Store.stub none)
        ⟨c.policy, o.deadline, o.hasToken⟩ draws (maxCount32 + 1)
        (RetryOptions.begin ⟨c.policy, o.deadline, o.hasToken⟩ now) now (s, 0) := by
    unfold Blocking.run Blocking.runWithin
    rw [if_neg (by simp [htoken])]
  obtain ⟨hresult, hworld⟩ := callBlocking_of_prepare hprepare Store.stub draws none now s
  rw [hloop] at hresult hworld
  exact ⟨outcome, hresult.trans (congrArg (resultOf request.method) hending), hworld ▸ hcomes⟩

end

include hprepare in
/-- **Through either client a call that was cancelled before** makes no
attempt. -/
theorem alike_of_cancelled (draws' : Draws) {cancelledFrom : Option Instant} (limit : Instant)
    (htoken : o.hasToken = true) (hread : Blocking.tokenReads cancelledFrom now = true) :
    (c.call Store.stub draws request o cancelledFrom limit now s).Alike
      (c.callBlocking Store.stub draws' request o cancelledFrom now s) := by
  obtain ⟨hresult, hworld⟩ := call_of_prepare hprepare Store.stub draws cancelledFrom limit s
  obtain ⟨hresult', hworld'⟩ :=
    callBlocking_of_prepare hprepare Store.stub draws' cancelledFrom now s
  obtain ⟨hending, hkept⟩ := Course.follow_cancelled
    ((c.callOf request ⟨c.policy, o.deadline, o.hasToken⟩ now).work Store.stub) draws limit
    (o := ⟨c.policy, o.deadline, o.hasToken⟩) s htoken hread
  have hrun : Blocking.run (blockingWork
      (c.callOf request ⟨c.policy, o.deadline, o.hasToken⟩ now) Store.stub cancelledFrom)
      ⟨c.policy, o.deadline, o.hasToken⟩ draws' now (s, 0) =
      ⟨now, (s, 0), [], .settled (.error (.cancelled none 0 .zero))⟩ := by
    unfold Blocking.run Blocking.runWithin
    rw [if_pos (by rw [Bool.and_eq_true]; exact ⟨htoken, hread⟩)]
  rw [hrun] at hresult' hworld'
  exact CallEnd.alike_of_outcomes (hresult.trans (congrArg _ hending)) hresult' rfl
    ((hworld.trans hkept).trans hworld'.symm)

end

end Client

/-- A service whose descriptions take a minute. -/
def sluggishStore : Store := Store.new.setLatency .describeNamespace (.ofSeconds 60)

/-- A client that makes up to three attempts, with pauses of any length
between them. -/
def uncappedClient : Client :=
  ⟨.standard "worker",
    { RetryPolicy.draft with
      configuredMaximum := some .longest
      maximumAttempts := 3
      jitter := .zero }⟩

/-- A client that pauses for as long as milliseconds are counted. -/
def agelessClient : Client :=
  ⟨.standard "worker",
    { RetryPolicy.draft with
      initialInterval := .ofMillis maxCount64
      configuredMaximum := some (.ofMillis maxCount64)
      maximumAttempts := 2
      jitter := .zero }⟩

end ResilientCalls
