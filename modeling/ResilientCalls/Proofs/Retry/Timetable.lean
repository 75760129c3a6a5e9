import ResilientCalls.Proofs.Retry.Tightening
/-!
# The timetable of a run

A run without jitter that is polled when its timers fire has a timetable:
each attempt ends its latency after it starts, and the next one starts when
the delay of the policy is over, cut to the time that is left. Both are
waited for with timers, which fire on whole milliseconds and are set thirty
years ahead at most. The results of the attempts decide how long a run goes
on, but not when its attempts come: a run that has not missed what it waits
for keeps to its timetable with every transition.
-/

namespace ResilientCalls

variable {σ τ ε α : Type}

/-! ## Waiting -/

namespace Instant

/-- When something that waits for a while goes on: at once if it waits for
nothing, else on a whole millisecond, and within thirty years. -/
def resumes (t : Instant) (d : Duration) : Instant :=
  if d.isZero then t else (t.ahead d).firing

/-- The instant, if it has come by `last`. -/
def ifBy (t last : Instant) : Option Instant :=
  if t.nanos ≤ last.nanos then some t else none

variable {t now last : Instant} {d : Duration}

@[simp] theorem resumes_zero (t : Instant) : t.resumes .zero = t := rfl

theorem ifBy_of_le (h : t.nanos ≤ last.nanos) : t.ifBy last = some t := if_pos h

theorem ifBy_of_lt (h : last.nanos < t.nanos) : t.ifBy last = none := if_neg (Nat.not_le.2 h)

/-- Some time passes while something waits. -/
theorem lt_resumes (t : Instant) (hd : 0 < d.nanos) : t.nanos < (t.resumes d).nanos := by
  have hfires := le_firing (t.ahead d)
  rw [resumes, if_neg (by simpa [Duration.isZero] using Nat.ne_of_gt hd)]
  simp only [ahead, plus, Duration.shorter, Duration.furthest, Duration.ofSeconds,
    Duration.perSecond] at hfires ⊢
  omega

theorem le_resumes (t : Instant) (d : Duration) : t.nanos ≤ (t.resumes d).nanos := by
  rcases Nat.eq_zero_or_pos d.nanos with hzero | hpos
  · rw [resumes, if_pos (by simpa [Duration.isZero] using hzero)]
  · exact Nat.le_of_lt (lt_resumes t hpos)

/-- A timer that has not fired when it is set is the one waited for, or the
last of all. -/
theorem timer_le_resumes (h : now.nanos < (t.timer d).nanos) (hset : t.nanos ≤ now.nanos) :
    (t.timer d).nanos ≤ (t.resumes d).nanos := by
  unfold timer resumes at *
  split at h
  · omega
  · rw [if_neg ‹_›, if_neg ‹_›]
    exact Nat.min_le_left _ _

/-- **What waits for its timer goes on where the timer says,** while timers
count. -/
theorem eq_resumes (hset : t.nanos ≤ now.nanos) (hnot : now.nanos ≤ (t.wakes d).nanos)
    (hfired : (t.timer d).reached now = true) (hnow : now.nanos < lastFiring.nanos) :
    now = t.resumes d := by
  have hwakes := eq_wakes hset hnot hfired
  have hlater := le_resumes t d
  rw [hwakes] at hnow
  have hsame : (t.wakes d).nanos = (t.resumes d).nanos := by
    unfold wakes timer at hnow ⊢
    unfold resumes at hlater ⊢
    by_cases hzero : d.isZero = true
    · simp only [if_pos hzero]
      exact Nat.max_self _
    · simp only [if_neg hzero, earlier] at hnow hlater ⊢
      omega
  exact hwakes.trans (congrArg Instant.mk hsame)

end Instant

/-! ## Attempts that take their time -/

/-- The attempt in flight has one timer and comes to an end when this has
fired; looking at it counts no attempt. -/
structure Work.Lasts (w : Work σ τ ε α) (calls : σ → Nat) (attempt : τ) (endsAt : Instant) :
    Prop where
  timers_eq : w.timers attempt = [endsAt]
  waits_iff : ∀ now world, (w.look now attempt world).1 = .waiting ↔ endsAt.reached now = false
  calls_eq : ∀ now world, calls (w.look now attempt world).2 = calls world

/-- **Attempts take their time,** by their numbers: each is counted, and
comes to some end when its latency is over. One that breaks down on the way
takes none. -/
def Work.Takes (w : Work σ τ ε α) (latency : Nat → Duration) (calls : σ → Nat) : Prop :=
  ∀ now world, calls (w.start now world).2 = calls world + 1 ∧
    match (w.start now world).1 with
    | .ok attempt => w.Lasts calls attempt (now.timer (latency (calls world + 1)))
    | .error _ => latency (calls world + 1) = .zero

/-- The pause after attempt `n` of a run that began at `first`: the
policy's, cut to what is left of the time when the attempt ends. -/
def RetryOptions.pauseAfter (o : RetryOptions) (first : Instant) (n : Nat) (ended : Instant) :
    Duration :=
  match o.effective first with
  | none => o.policy.baseDelay n
  | some d => (o.policy.baseDelay n).shorter (d.since ended)

/-- The policy counts attempts in 32 bits, which is as far as its delays
tell them apart. -/
theorem RetryPolicy.baseDelay_min (p : RetryPolicy) (n : Nat) :
    p.baseDelay (min n maxCount32) = p.baseDelay n := by
  have hsame : min (min n maxCount32 - 1) maximumExponent = min (n - 1) maximumExponent := by
    simp only [maxCount32, maximumExponent]
    omega
  unfold baseDelay
  rw [hsame]

/-- A run that began at `first`, at its attempt `n`. -/
def RetryOptions.nth (o : RetryOptions) (first : Instant) (n : Nat) : Invocation :=
  ⟨min n maxCount32, first, o.effective first⟩

/-- A run that goes on is at the attempt after those that have ended. -/
theorem Standing.invocation_of_isOpen [Failure ε] {o : RetryOptions} {draws : Draws}
    {first : Instant} {ts : List (Trial ε α)}
    (h : ((Standing.initial (o.begin first)).afterAll o.policy draws ts).IsOpen) :
    ((Standing.initial (o.begin first)).afterAll o.policy draws ts).invocation =
      o.nth first (ts.length + 1) := by
  have hattempt := Standing.afterAll_attempt (show 1 ≤ maxCount32 by decide) h
  obtain ⟨hfirst, hdeadline⟩ := Standing.afterAll_fixed o.policy draws
    (Standing.initial (o.begin first)) ts
  rw [Nat.add_comm ts.length 1]
  exact congr (congr (congrArg Invocation.mk hattempt) hfirst) hdeadline

/-- **A failure is retried after the pause,** which is not nothing. -/
theorem RetryOptions.pauseAfter_of_retry [Failure ε] {o : RetryOptions} {first now : Instant}
    {n : Nat} {e : ε} {draw : Binary64} {delay : Duration} (hp : o.policy.Waits)
    (hjitter : o.policy.jitter.isZero = true)
    (h : afterFailure o.policy (o.nth first n) e now draw = .retry delay) :
    delay = o.pauseAfter first n now ∧ 0 < delay.nanos := by
  obtain ⟨hfree, hcut⟩ := delay_of_retry hjitter h
  have hpos := hp.baseDelay_pos n
  simp only [nth, RetryPolicy.baseDelay_min] at hfree hcut
  unfold pauseAfter
  cases hd : o.effective first with
  | none =>
    rw [hfree hd]
    exact ⟨rfl, hpos⟩
  | some d =>
    have hbefore := lt_deadline_of_retry h hd
    have hdelay := hcut d hd
    exact ⟨congrArg Duration.mk hdelay, by omega⟩

/-! ## Chronicles that keep to a timetable -/

/-- At `now` the attempts of a run that began at `first` have ended and
started at their times. -/
structure Chronicle.Timed (o : RetryOptions) (latency : Nat → Duration) (first now : Instant)
    (c : Chronicle ε α) : Prop where
  started_le : ∀ s ∈ c.starts, s.nanos ≤ now.nanos
  ended_le : ∀ t ∈ c.trials, t.ended.nanos ≤ now.nanos
  ended_eq : ∀ (k : Nat) (s : Instant) (t : Trial ε α), c.starts[k]? = some s →
    c.trials[k]? = some t → t.ended = s.resumes (latency (k + 1))
  started_eq : ∀ (k : Nat) (t : Trial ε α) (s : Instant), c.trials[k]? = some t →
    c.starts[k + 1]? = some s → t.ended.nanos < s.nanos ∧
      s = t.ended.resumes (o.pauseAfter first (k + 1) t.ended)

namespace Chronicle

variable {o : RetryOptions} {latency : Nat → Duration} {first now later : Instant}
  {c : Chronicle ε α}

theorem timed_empty (o : RetryOptions) (latency : Nat → Duration) (first now : Instant) :
    (empty : Chronicle ε α).Timed o latency first now where
  started_le _ hs := absurd hs List.not_mem_nil
  ended_le _ ht := absurd ht List.not_mem_nil
  ended_eq _ _ _ hs := absurd hs (by simp [empty])
  started_eq _ _ _ ht := absurd ht (by simp [empty])

/-- Nothing is added while time passes. -/
theorem Timed.mono (h : c.Timed o latency first now) (hle : now.nanos ≤ later.nanos) :
    c.Timed o latency first later :=
  { h with
    started_le := fun s hs => le_trans (h.started_le s hs) hle
    ended_le := fun t ht => le_trans (h.ended_le t ht) hle }

/-- An attempt is started in time if the pause before it is over. -/
theorem Timed.started (h : c.Timed o latency first now)
    (hcount : c.trials.length ≤ c.starts.length)
    (hdue : ∀ k t, c.trials[k]? = some t → c.starts.length = k + 1 → t.ended.nanos < now.nanos ∧
      now = t.ended.resumes (o.pauseAfter first (k + 1) t.ended)) :
    (c.started now).Timed o latency first now where
  started_le s hs := by
    rcases List.mem_append.1 hs with hold | hnew
    · exact h.started_le s hold
    · rw [List.mem_singleton.1 hnew]
  ended_le := h.ended_le
  ended_eq k s t hs ht := by
    have hk : k < c.trials.length := (List.getElem?_eq_some_iff.1 ht).1
    rw [started_starts, List.getElem?_append_left (by omega)] at hs
    exact h.ended_eq k s t hs ht
  started_eq k t s ht hs := by
    have hk : k < c.trials.length := (List.getElem?_eq_some_iff.1 ht).1
    rcases Nat.lt_or_ge (k + 1) c.starts.length with hold | hnew
    · rw [started_starts, List.getElem?_append_left hold] at hs
      exact h.started_eq k t s ht hs
    · obtain rfl : now = s := by
        rw [started_starts, List.getElem?_append_right hnew,
          show k + 1 - c.starts.length = 0 by omega] at hs
        exact Option.some.inj hs
      exact hdue k t ht (by omega)

/-- The attempt in flight ends in time if its latency is over. -/
theorem Timed.closed (h : c.Timed o latency first now)
    (hcount : c.starts.length = c.trials.length + 1) (result : Except String (Except ε α))
    (hover : ∀ s, c.starts[c.trials.length]? = some s →
      now = s.resumes (latency (c.trials.length + 1))) :
    (c.closed now result).Timed o latency first now where
  started_le := h.started_le
  ended_le t ht := by
    rcases List.mem_append.1 ht with hold | hnew
    · exact h.ended_le t hold
    · rw [List.mem_singleton.1 hnew]
  ended_eq k s t hs ht := by
    have hk : k < c.starts.length := (List.getElem?_eq_some_iff.1 hs).1
    rcases Nat.lt_or_ge k c.trials.length with hold | hnew
    · rw [closed_trials, List.getElem?_append_left hold] at ht
      exact h.ended_eq k s t hs ht
    · obtain rfl : k = c.trials.length := by omega
      rw [closed_trials, List.getElem?_concat_length] at ht
      obtain rfl := Option.some.inj ht
      exact hover s hs
  started_eq k t s ht hs := by
    have hk : k + 1 < c.starts.length := (List.getElem?_eq_some_iff.1 hs).1
    rw [closed_trials, List.getElem?_append_left (by omega)] at ht
    exact h.started_eq k t s ht hs

/-- Attempts that are timed start one after the other. -/
theorem Timed.increasing (h : c.Timed o latency first now)
    (hflight : c.starts.length ≤ c.trials.length + 1) : c.Increasing := by
  have hchain : c.starts.IsChain fun s t => s.nanos < t.nanos := by
    rw [List.isChain_iff_getElem]
    intro k hk
    have hended : k < c.trials.length := by omega
    have hlater := (h.started_eq k c.trials[k] c.starts[k + 1] (List.getElem?_eq_getElem hended)
      (List.getElem?_eq_getElem hk)).1
    rw [h.ended_eq k c.starts[k] c.trials[k] (List.getElem?_eq_getElem (by omega))
      (List.getElem?_eq_getElem hended)] at hlater
    exact lt_of_le_of_lt (Instant.le_resumes _ _) hlater
  have htrans : IsTrans Instant fun s t => s.nanos < t.nanos := ⟨fun _ _ _ => Nat.lt_trans⟩
  exact List.isChain_iff_pairwise.1 hchain

end Chronicle

/-! ## Runs that keep to a timetable -/

namespace Run

variable [Failure ε] {w : Work σ τ ε α} {o : RetryOptions} {draws : Draws}
  {latency : Nat → Duration} {calls : σ → Nat} {first now next last : Instant} {r : Run τ ε}
  {past : List RetryEvent}

/-- At `now` the run waits for the end of its attempt or of its pause, and
has not missed it. -/
def Awaits (w : Work σ τ ε α) (o : RetryOptions) (latency : Nat → Duration) (calls : σ → Nat)
    (first now : Instant) (r : Run τ ε) (c : Chronicle ε α) : Prop :=
  match r.phase with
  | .attempting attempt _ => ∃ s, c.starts[c.trials.length]? = some s ∧
      w.Lasts calls attempt (s.timer (latency (c.trials.length + 1))) ∧
      now.nanos ≤ (s.wakes (latency (c.trials.length + 1))).nanos
  | .backingOff timer _ => ∃ k t, c.starts.length = k + 1 ∧ c.trials[k]? = some t ∧
      let pause := o.pauseAfter first (k + 1) t.ended
      timer = t.ended.timer pause ∧ 0 < pause.nanos ∧ now.nanos ≤ (t.ended.wakes pause).nanos
  | .idle | .settled => True

/-- Attempts were counted and came at their times, and the run waits for
what comes next. -/
structure InTime (w : Work σ τ ε α) (o : RetryOptions) (latency : Nat → Duration)
    (calls : σ → Nat) (first now : Instant) (r : Run τ ε) (world : σ × Chronicle ε α) : Prop where
  counted : calls world.1 = world.2.starts.length
  timed : world.2.Timed o latency first now
  awaits : r.Awaits w o latency calls first now world.2

/-- **The run keeps to its timetable:** it is in time, agrees with its
chronicle, and began at `first`. -/
structure KeepsTime (w : Work σ τ ε α) (o : RetryOptions) (draws : Draws)
    (latency : Nat → Duration) (calls : σ → Nat) (first now : Instant) (past : List RetryEvent)
    (r : Run τ ε) (world : σ × Chronicle ε α) : Prop
    extends r.InTime w o latency calls first now world where
  tracks : r.Tracks o draws past world.2
  begins : world.2.BeginsAt first now

/-- A run that was ended by its last attempt, with its attempts in time. -/
structure EndsInTime (o : RetryOptions) (draws : Draws) (latency : Nat → Duration)
    (first now : Instant) (past : List RetryEvent) (world : σ × Chronicle ε α)
    (ending : Ending ε α) : Prop where
  closed : world.2.ClosedByAttempt o draws (RetryEvent.delays past) ending
  begins : world.2.starts.head? = some first
  timed : world.2.Timed o latency first now

omit [Failure ε] in
/-- The next attempt is started in time, or breaks down on the way. -/
theorem launch_inTime {i : Invocation} {world : σ × Chronicle ε α} (hw : w.Takes latency calls)
    (hcount : world.2.starts.length = world.2.trials.length)
    (hcalls : calls world.1 = world.2.starts.length)
    (htimed : (world.2.started now).Timed o latency first now) :
    (r.launch w.chronicled now i world).Keeps
      (fun _ r world => r.InTime w o latency calls first now world)
      (fun _ world _ => world.2.Timed o latency first now) past := by
  obtain ⟨inner, c⟩ := world
  have hnew : (c.started now).starts[c.trials.length]? = some now := by
    rw [Chronicle.started_starts, ← hcount, List.getElem?_concat_length]
  obtain ⟨hstarted, hlasts⟩ := hw now inner
  simp only [hcalls, hcount] at hlasts
  rcases hstart : w.start now inner with ⟨message | attempt, inner'⟩ <;>
    simp only [hstart] at hstarted hlasts
  · simp only [launch, Work.chronicled_start_error hstart, Turn.Keeps]
    refine htimed.closed (by simp [hcount]) _ ?_
    intro s hs
    obtain rfl : now = s := Option.some.inj (hnew.symm.trans hs)
    rw [Chronicle.started_trials, hlasts, Instant.resumes_zero]
  · simp only [launch, Work.chronicled_start_ok hstart, Turn.Keeps]
    exact ⟨by simpa [hcalls] using hstarted, htimed, now, hnew, hlasts, Instant.le_wakes _ _⟩

/-- After a failed attempt the run waits for the pause to be over, or ends. -/
theorem afterFailedAttempt_inTime (hp : o.policy.Waits) (hjitter : o.policy.jitter.isZero = true)
    {i : Invocation} {e : ε} {inner : σ} {c : Chronicle ε α} (ho : r.options = o)
    (hcount : c.starts.length = c.trials.length + 1)
    (his : (c.standing o draws).Is i r.lastError past) (hfirst : c.first = first)
    (hcalls : calls inner = c.starts.length)
    (htimed : (c.closed now (.ok (.error e))).Timed o latency first now) :
    (r.afterFailedAttempt draws now i e
        (inner, c.shown now (.finished (.error e))) : Turn _ τ ε α _).Keeps
      (fun _ r world => r.InTime w o latency calls first now world)
      (fun _ world _ => world.2.Timed o latency first now) past := by
  subst ho
  unfold afterFailedAttempt
  cases hdecision : afterFailure r.options.policy i e now (draws i.attempt) with
  | stop reason | overflow reason => exact htimed
  | retry delay =>
    -- the run is at the attempt that has ended just now
    have hi : i = r.options.nth c.first (c.trials.length + 1) :=
      his.invocation_eq.symm.trans (Standing.invocation_of_isOpen his.isOpen)
    rw [hi, hfirst] at hdecision
    obtain ⟨rfl, hpos⟩ := RetryOptions.pauseAfter_of_retry hp hjitter hdecision
    exact ⟨hcalls, htimed, c.trials.length, ⟨.ok (.error e), now⟩, hcount,
      List.getElem?_concat_length, rfl, hpos, Instant.le_wakes _ _⟩

/-- **One transition keeps the attempts in time.** -/
theorem step_inTime (hw : w.Takes latency calls) (hp : o.policy.Waits)
    (hjitter : o.policy.jitter.isZero = true) (hnow : now.nanos < Instant.lastFiring.nanos)
    {world : σ × Chronicle ε α} (h : r.KeepsTime w o draws latency calls first now past world) :
    (r.step w.chronicled draws now world).Keeps
      (fun _ r world => r.InTime w o latency calls first now world)
      (fun _ world _ => world.2.Timed o latency first now) past := by
  obtain ⟨inner, c⟩ := world
  obtain ⟨⟨hcalls, htimed, hawaits⟩, ⟨ho, -, hphase⟩, hbegins⟩ := h
  have hkept := hawaits
  unfold step
  unfold Awaits at hawaits
  cases hp' : r.phase with
  | idle =>
    simp only [hp'] at hphase ⊢
    obtain ⟨rfl, -, -⟩ := hphase
    exact launch_inTime hw rfl hcalls (htimed.started le_rfl fun k t ht => by cases ht)
  | settled => simp only [hp'] at hphase
  | backingOff timer i =>
    simp only [hp'] at hphase hawaits ⊢
    obtain ⟨-, hcount, -⟩ := hphase
    obtain ⟨k, t, hk, ht, rfl, hpos, hnot⟩ := hawaits
    by_cases hfired : (t.ended.timer (o.pauseAfter first (k + 1) t.ended)).reached now = true
    · rw [if_pos hfired]
      have hended := htimed.ended_le t (List.mem_of_getElem? ht)
      have hdue := Instant.eq_resumes hended hnot hfired hnow
      refine launch_inTime hw hcount hcalls (htimed.started (Nat.le_of_eq hcount.symm) ?_)
      intro k' t' ht' hk'
      obtain rfl : k = k' := Nat.succ.inj (hk.symm.trans hk')
      obtain rfl : t = t' := Option.some.inj (ht.symm.trans ht')
      have hlater := Instant.lt_resumes t.ended hpos
      rw [← hdue] at hlater
      exact ⟨hlater, hdue⟩
    · rw [if_neg hfired]
      exact ⟨hcalls, htimed, hkept⟩
  | attempting attempt i =>
    simp only [hp'] at hphase hawaits ⊢
    obtain ⟨hcount, his⟩ := hphase
    obtain ⟨s, hs, hlasts, hnot⟩ := hawaits
    have hcalls' := hlasts.calls_eq now inner
    have hwaits := hlasts.waits_iff now inner
    rcases hlook : w.look now attempt inner with ⟨progress, inner'⟩
    rw [hlook] at hcalls' hwaits
    have hclosed : progress ≠ .waiting → ∀ result, (c.closed now result).Timed o latency first
        now := by
      intro hends result
      have hfired : (s.timer (latency (c.trials.length + 1))).reached now = true := by
        simpa using hends.imp hwaits.2
      refine htimed.closed hcount result fun s' hs' => ?_
      obtain rfl : s = s' := Option.some.inj (hs.symm.trans hs')
      exact Instant.eq_resumes (htimed.started_le s (List.mem_of_getElem? hs)) hnot hfired hnow
    rcases progress with _ | ⟨e | v⟩ | m <;> simp only [Work.chronicled_look hlook]
    · exact ⟨hcalls'.trans hcalls, htimed, hkept⟩
    · refine afterFailedAttempt_inTime hp hjitter ho hcount his ?_ (hcalls'.trans hcalls)
        (hclosed (by simp) _)
      rcases hbegins with ⟨hnil, -⟩ | hhead
      · rw [hnil] at hs
        cases hs
      · rw [Chronicle.first, hhead, Option.getD_some]
    · exact hclosed (by simp) _
    · exact hclosed (by simp) _

/-- **One transition keeps a run to its timetable.** -/
theorem step_keepsTime (hw : w.Takes latency calls) (hp : o.policy.Waits)
    (hjitter : o.policy.jitter.isZero = true) (hnow : now.nanos < Instant.lastFiring.nanos)
    {world : σ × Chronicle ε α} (h : r.KeepsTime w o draws latency calls first now past world) :
    (r.step w.chronicled draws now world).Keeps (KeepsTime w o draws latency calls first now)
      (EndsInTime o draws latency first now) past := by
  have hbegins : (r.step w.chronicled draws now world).world.2.BeginsAt first now :=
    h.begins.grows (step_grows world)
  have htracks : (r.step w.chronicled draws now world).Keeps (TracksWorld o draws)
      (ClosesWorld o draws []) past := step_keeps h.tracks
  refine (htracks.and (step_inTime hw hp hjitter hnow h)).imp ?_ ?_
  · rintro past r ⟨hkept, hinTime⟩
    exact ⟨hinTime, hkept, hbegins⟩
  · -- no poll is listed, so nothing but an attempt can have closed the run
    rintro past ending ⟨hattempt | ⟨_, hmem, -⟩, htimed⟩
    · refine ⟨hattempt, hbegins.resolve_left ?_, htimed⟩
      rintro ⟨hnil, -⟩
      have hcomplete := hattempt.complete
      obtain ⟨ts, t, htrials, -⟩ := hattempt.wasOpen
      simp [hnil, htrials] at hcomplete
    · exact absurd hmem List.not_mem_nil

end Run

/-! ## Scripts -/

namespace Rehearsal

/-- An attempt that never ends. -/
def Finish.isEndless : Finish α → Bool
  | .hangs => true
  | .returns _ | .fails _ | .breaks _ | .breaksAtStart _ => false

/-- How long an attempt takes; breaking down on the way takes no time. -/
def Entry.span (e : Entry α) : Duration :=
  match e.finish with
  | .breaksAtStart _ => .zero
  | .returns _ | .fails _ | .hangs | .breaks _ => e.latency

namespace Script

/-- No attempt is without an end, whatever comes of it. -/
def IsFinite (s : Script α) : Prop :=
  s.entries ≠ [] ∧ ∀ e ∈ s.entries, e.finish.isEndless = false

/-- How long the attempts of a script take. -/
def span (s : Script α) (n : Nat) : Duration := (s.entry n).span

/-- An attempt in flight that ends does so when its timer has fired. -/
theorem work_lasts (s : Script α) {f : Finish α} (h : f.isEndless = false) (endsAt : Instant) :
    s.work.Lasts Stage.calls ⟨some endsAt, f⟩ endsAt where
  timers_eq := rfl
  waits_iff now stage := by
    simp only [work, Option.any_some]
    cases endsAt.reached now with
    | false => simp
    | true => cases f <;> simp_all [Finish.progress, Finish.isEndless]
  calls_eq now stage := by
    simp only [work]
    split <;> rfl

/-- **The attempts of a finite script take their time.** -/
theorem work_takes {s : Script α} (h : s.IsFinite) : s.work.Takes s.span Stage.calls := by
  intro now stage
  refine ⟨rfl, ?_⟩
  have hends := h.2 _ (entry_mem h.1 (stage.calls + 1))
  rw [show (s.work.start now stage).1 = (s.entry (stage.calls + 1)).launch now from rfl]
  unfold span
  generalize s.entry (stage.calls + 1) = e at hends ⊢
  obtain ⟨latency, finish⟩ := e
  cases finish with
  | hangs => cases hends
  | breaksAtStart message => rfl
  | returns value | fails e | breaks message => exact s.work_lasts hends _

end Script

end Rehearsal

end ResilientCalls
