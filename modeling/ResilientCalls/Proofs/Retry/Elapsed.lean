import Mathlib.Algebra.BigOperators.Ring.Finset
import Mathlib.Algebra.Order.BigOperators.Group.Finset
import ResilientCalls.Proofs.Retry.Attended
/-!
# How long a run takes

Without a deadline nothing cuts a pause of a run short, so its timetable is
a sum. On whole milliseconds an attempt starts after as many latencies and
as many delays as there were attempts before it, each rounded up, and it
ends one latency later. A run that has used up its attempts reports the
time of all of them.
-/

namespace ResilientCalls

variable {σ τ ε α : Type}

/-! ## Sums of waits -/

/-- How long a wait takes on whole milliseconds. -/
def Duration.inTicks (d : Duration) : Duration := .ofMillis (d.shorter .furthest).millisUp

/-- The instant is on a whole millisecond. -/
def Instant.IsTick (t : Instant) : Prop := Duration.perMillisecond ∣ t.nanos

instance (t : Instant) : Decidable t.IsTick :=
  inferInstanceAs (Decidable (Duration.perMillisecond ∣ t.nanos))

/-- **On whole milliseconds waits add up.** -/
theorem Instant.IsTick.resumes_eq {t : Instant} (h : t.IsTick) (d : Duration) :
    t.resumes d = t.plus d.inTicks := by
  obtain ⟨q, hq⟩ := h
  have hsame : (t.resumes d).nanos = t.nanos + d.inTicks.nanos := by
    simp only [Duration.inTicks, Duration.ofMillis, Duration.millisUp, Duration.shorter,
      Duration.furthest, Duration.ofSeconds, Duration.perSecond, Duration.perMillisecond,
      maxCount64] at hq ⊢
    unfold resumes
    by_cases hzero : d.isZero = true
    · have hnone : d.nanos = 0 := by simpa [Duration.isZero] using hzero
      simp [hzero, hnone]
    · rw [if_neg hzero]
      simp only [firing, ahead, plus, Duration.shorter, Duration.furthest, Duration.ofSeconds,
        Duration.perSecond, Duration.perMillisecond]
      omega
  exact congrArg Instant.mk hsame

theorem Instant.IsTick.plus {t : Instant} (h : t.IsTick) {d : Duration}
    (hd : Duration.perMillisecond ∣ d.nanos) : (t.plus d).IsTick := Nat.dvd_add h hd

/-- The time for so many attempts and so many delays of the policy after
the first attempts, each rounded up to whole milliseconds. -/
def RetryPolicy.timeFor (p : RetryPolicy) (latency : Nat → Duration) (attempts pauses : Nat) :
    Duration :=
  ⟨(∑ k ∈ Finset.range attempts, (latency (k + 1)).inTicks.nanos) +
    ∑ k ∈ Finset.range pauses, (p.baseDelay (k + 1)).inTicks.nanos⟩

namespace RetryPolicy

variable (p : RetryPolicy) (latency : Nat → Duration)

theorem timeFor_succ_left (m n : Nat) (t : Instant) : t.plus (p.timeFor latency (m + 1) n) =
    (t.plus (p.timeFor latency m n)).plus (latency (m + 1)).inTicks := by
  refine congrArg Instant.mk ?_
  simp only [timeFor, Instant.plus, Finset.sum_range_succ]
  omega

theorem timeFor_succ_right (m n : Nat) (t : Instant) : t.plus (p.timeFor latency m (n + 1)) =
    (t.plus (p.timeFor latency m n)).plus (p.baseDelay (n + 1)).inTicks := by
  refine congrArg Instant.mk ?_
  simp only [timeFor, Instant.plus, Finset.sum_range_succ]
  omega

/-- More attempts and delays take more time. -/
theorem timeFor_mono {m m' n n' : Nat} (hm : m ≤ m') (hn : n ≤ n') :
    (p.timeFor latency m n).nanos ≤ (p.timeFor latency m' n').nanos :=
  Nat.add_le_add (Finset.sum_le_sum_of_subset (Finset.range_subset_range.2 hm))
    (Finset.sum_le_sum_of_subset (Finset.range_subset_range.2 hn))

/-- Rounded up, everything takes whole milliseconds. -/
theorem dvd_timeFor (m n : Nat) : Duration.perMillisecond ∣ (p.timeFor latency m n).nanos :=
  Nat.dvd_add (Finset.dvd_sum fun _ _ => Nat.dvd_mul_left _ _)
    (Finset.dvd_sum fun _ _ => Nat.dvd_mul_left _ _)

end RetryPolicy

/-! ## Runs without a deadline -/

section

variable {o : RetryOptions} {latency : Nat → Duration} {first now last : Instant}
  {c : Chronicle ε α} (hfree : o.effective first = none) (htick : first.IsTick)

include hfree htick

/-- **Attempts start after the latencies and the delays before them.** -/
theorem Chronicle.Timed.start_eq (h : c.Timed o latency first now)
    (hbegins : c.starts.head? = some first) (hflight : c.starts.length ≤ c.trials.length + 1)
    {k : Nat} {s : Instant} (hs : c.starts[k]? = some s) :
    s = first.plus (o.policy.timeFor latency k k) := by
  induction k generalizing s with
  | zero =>
    rw [← List.head?_eq_getElem?, hbegins] at hs
    obtain rfl := Option.some.inj hs
    simp [Instant.plus, RetryPolicy.timeFor]
  | succ k ih =>
    have hk : k + 1 < c.starts.length := (List.getElem?_eq_some_iff.1 hs).1
    have ht := List.getElem?_eq_getElem (show k < c.trials.length by omega)
    have hbefore := List.getElem?_eq_getElem (show k < c.starts.length by omega)
    rw [(h.started_eq k _ s ht hs).2, h.ended_eq k _ _ hbefore ht, ih hbefore,
      (htick.plus (o.policy.dvd_timeFor latency k k)).resumes_eq, ← RetryPolicy.timeFor_succ_left,
      (htick.plus (o.policy.dvd_timeFor latency (k + 1) k)).resumes_eq,
      RetryOptions.pauseAfter, hfree, RetryPolicy.timeFor_succ_right]

/-- **Attempts end one latency later.** -/
theorem Chronicle.Timed.end_eq (h : c.Timed o latency first now)
    (hbegins : c.starts.head? = some first) (hcount : c.trials.length ≤ c.starts.length)
    (hflight : c.starts.length ≤ c.trials.length + 1) {k : Nat} {t : Trial ε α}
    (ht : c.trials[k]? = some t) :
    t.ended = first.plus (o.policy.timeFor latency (k + 1) k) := by
  have hk : k < c.trials.length := (List.getElem?_eq_some_iff.1 ht).1
  have hs := List.getElem?_eq_getElem (show k < c.starts.length by omega)
  rw [h.ended_eq k _ t hs ht, h.start_eq hfree htick hbegins hflight hs,
    (htick.plus (o.policy.dvd_timeFor latency k k)).resumes_eq, RetryPolicy.timeFor_succ_left]

end

section

variable [Failure ε] {w : Work σ τ ε α} {o : RetryOptions} {draws : Draws}
  {latency : Nat → Duration} {calls : σ → Nat} {first now last : Instant} {r : Run τ ε}
  {past : List RetryEvent} {world : σ × Chronicle ε α} {c : Chronicle ε α}
  {ending : Ending ε α}

omit [Failure ε] in
/-- Each error that a run stops with tells the time it is given. -/
theorem Stop.elapsed_toError (reason : Stop) (e : ε) (attempts : Nat) (elapsed : Duration) :
    (reason.toError e attempts elapsed).elapsed = elapsed := by
  cases reason <;> rfl

/-- **The error of a run tells the time from its first attempt to the end of
its last.** -/
theorem Chronicle.ClosedByAttempt.elapsed_eq {delays : List Duration} {e : RetryError ε}
    (h : c.ClosedByAttempt o draws delays (.settled (.error e))) :
    ∃ t, c.trials.getLast? = some t ∧ e.elapsed = t.ended.since c.first := by
  obtain ⟨ts, ⟨result, ended⟩, htrials, -, hopen, hinvocation, hending⟩ := h.exists_nth
  refine ⟨⟨result, ended⟩, by rw [htrials, List.getLast?_concat], ?_⟩
  rcases result with message | e' | v
  · rw [Standing.after_crash hopen] at hending
    cases hending
  · rw [Standing.after_failure o.policy draws hopen, hinvocation] at hending
    cases hdecision : afterFailure o.policy (o.nth c.first (ts.length + 1)) e' ended
        (draws (o.nth c.first (ts.length + 1)).attempt) with
    | retry delay | overflow reason =>
      rw [hdecision] at hending
      cases hending
    | stop reason =>
      rw [hdecision] at hending
      obtain rfl := Except.error.inj (Ending.settled.inj hending)
      rw [Stop.elapsed_toError]
      rfl
  · rw [Standing.after_value hopen] at hending
    cases hending

/-- A run that has not ended has not used up its attempts. -/
theorem Standing.length_lt_maximum {ts : List (Trial ε α)} (hp : o.policy.Waits)
    (hpos : 0 < o.policy.maximumAttempts) (hmax : o.policy.maximumAttempts ≤ maxCount32)
    (hopen : ((Standing.initial (o.begin first)).afterAll o.policy draws ts).IsOpen) :
    ts.length < o.policy.maximumAttempts := by
  rcases eq_or_ne ts [] with rfl | hne
  · exact hpos
  · have hlt : min (1 + ts.length - 1) maxCount32 < o.policy.maximumAttempts :=
      Standing.lt_maximum_of_isOpen hp (show 1 ≤ maxCount32 by decide) hne hopen hpos
    omega

/-- **A run whose attempts all fail uses them up,** if nothing but their
number stops it. -/
theorem Chronicle.ClosedByAttempt.exhausted {delays : List Duration} (hp : o.policy.Waits)
    (hjitter : o.policy.jitter.isZero = true) (hpos : 0 < o.policy.maximumAttempts)
    (hmax : o.policy.maximumAttempts ≤ maxCount32) (hfree : o.effective c.first = none)
    (hends : ending ≠ .pending) (hfails : o.policy.Retries c.trials)
    (h : c.ClosedByAttempt o draws delays ending) :
    c.starts.length = o.policy.maximumAttempts ∧ ∃ e elapsed,
      ending = .settled (.error (.attemptsExhausted e o.policy.maximumAttempts elapsed)) := by
  obtain ⟨ts, ⟨result, ended⟩, htrials, hcount, hopen, hinvocation, hending⟩ := h.exists_nth
  have hroom := Standing.length_lt_maximum hp hpos hmax hopen
  obtain ⟨e, rfl, hlists, hcancelled⟩ := hfails ⟨result, ended⟩ (by simp [htrials])
  have hjust := afterFailure_justified hp (o.nth c.first (ts.length + 1)) e ended
    (draws (o.nth c.first (ts.length + 1)).attempt)
  rw [Standing.after_failure o.policy draws hopen, hinvocation] at hending
  cases hdecision : afterFailure o.policy (o.nth c.first (ts.length + 1)) e ended
      (draws (o.nth c.first (ts.length + 1)).attempt) with
  | retry delay =>
    rw [hdecision] at hending
    exact absurd hending.symm hends
  | overflow reason => exact absurd hdecision (afterFailure_ne_overflow hjitter _ _ _ _ _)
  | stop reason =>
    rw [hdecision] at hending hjust
    cases reason with
    | nonRetryable => exact absurd hjust hlists
    | cancelled => exact absurd (hcancelled.symm.trans hjust.2) Bool.false_ne_true
    | deadlineExceeded =>
      obtain ⟨-, -, d, hd, -⟩ := hjust
      exact absurd (hfree.symm.trans hd) (by simp)
    | attemptsExhausted =>
      have hused : o.policy.maximumAttempts ≤ min (ts.length + 1) maxCount32 :=
        (Invocation.isExhausted_iff.1 hjust.2.2).2
      have hall : min (ts.length + 1) maxCount32 = o.policy.maximumAttempts := by omega
      refine ⟨by omega, e, (o.nth c.first (ts.length + 1)).elapsed ended, ?_⟩
      rw [← hending, ← hall]
      rfl

/-- **A run that waits has time for all its attempts before it.** -/
theorem Run.WaitsPast.lt_timeFor (h : r.WaitsPast w o draws latency calls first last now past world)
    (hp : o.policy.Waits) (hpos : 0 < o.policy.maximumAttempts)
    (hmax : o.policy.maximumAttempts ≤ maxCount32) (hfree : o.effective first = none)
    (htick : first.IsTick) : last.nanos < first.nanos +
      (o.policy.timeFor latency o.policy.maximumAttempts (o.policy.maximumAttempts - 1)).nanos := by
  have hbegins := h.keeps.head_eq h.waits
  have hfollows := h.keeps.tracks.follows
  have htimed := h.keeps.timed
  have hflight := hfollows.inFlight_le
  have hroom := Standing.length_lt_maximum hp hpos hmax h.keeps.tracks.stands.1
  -- what is due next belongs to one of the attempts that are left
  rcases Nat.lt_or_ge world.2.trials.length world.2.starts.length with hrunning | hresting
  · have hs := List.getElem?_eq_getElem hrunning
    have hlater := h.lt_end hs
    rw [htimed.start_eq hfree htick hbegins hflight hs,
      (htick.plus (o.policy.dvd_timeFor latency _ _)).resumes_eq,
      ← RetryPolicy.timeFor_succ_left] at hlater
    exact lt_of_lt_of_le hlater (Nat.add_le_add_left
      (o.policy.timeFor_mono latency (by omega) (by omega)) _)
  · obtain ⟨k, hk⟩ : ∃ k, world.2.starts.length = k + 1 := by
      refine Nat.exists_eq_succ_of_ne_zero fun hnone => ?_
      rw [List.eq_nil_of_length_eq_zero hnone] at hbegins
      cases hbegins
    have hended := hfollows.ended_le
    have ht := List.getElem?_eq_getElem (show k < world.2.trials.length by omega)
    have hlater := h.lt_start hk ht
    rw [htimed.end_eq hfree htick hbegins hended hflight ht,
      (htick.plus (o.policy.dvd_timeFor latency _ _)).resumes_eq, RetryOptions.pauseAfter, hfree,
      ← RetryPolicy.timeFor_succ_right] at hlater
    exact lt_of_lt_of_le hlater (Nat.add_le_add_left
      (o.policy.timeFor_mono latency (by omega) (by omega)) _)

end

/-! ## Every attended run -/

/-- **A run keeps to its schedule** until `last`: its attempts are on
schedule, and an error tells the time from the first attempt to the end of
the last. Without a deadline, and from a whole millisecond on, this is the
time for all attempts made and the delays between them; and a run whose
attempts all fail, in ways that may be retried, has used them up when the
time for all of them is over, and reports just that time. -/
structure Chronicle.KeepsSchedule [Failure ε] (o : RetryOptions) (draws : Draws)
    (latency : Nat → Duration) (first last : Instant) (c : Chronicle ε α) (ending : Ending ε α) :
    Prop where
  onSchedule : c.OnSchedule o draws latency first last
  elapsed : ∀ e, ending = .settled (.error e) →
    ∃ t, c.trials.getLast? = some t ∧ e.elapsed = t.ended.since first
  total : o.effective first = none → first.IsTick → ∀ e, ending = .settled (.error e) →
    e.elapsed = o.policy.timeFor latency c.starts.length (c.starts.length - 1)
  exhausts : o.effective first = none → first.IsTick → o.policy.Retries c.trials →
    let most := o.policy.maximumAttempts
    let all := o.policy.timeFor latency most (most - 1)
    first.nanos + all.nanos ≤ last.nanos →
      ∃ e, ending = .settled (.error (.attemptsExhausted e most all))

section

variable [Failure ε] {w : Work σ τ ε α} {o : RetryOptions} {draws : Draws}
  {latency : Nat → Duration} {calls : σ → Nat} {first now last : Instant} {r : Run τ ε}
  {past : List RetryEvent} {world : σ × Chronicle ε α} {ending : Ending ε α}

/-- Without a deadline the number of attempts bounds a run. -/
theorem RetryOptions.Accepted.maximum_pos (ho : o.Accepted) (hfree : o.effective first = none) :
    0 < o.policy.maximumAttempts := by
  rcases RetryOptions.bounded_of_new ho first with hpos | ⟨d, hd⟩
  · exact hpos
  · exact absurd (hfree.symm.trans hd) (by simp)

/-- A run that waits keeps to its schedule. -/
theorem Run.WaitsPast.keepsSchedule (ho : o.Accepted) (hmax : o.policy.maximumAttempts ≤ maxCount32)
    (h : r.WaitsPast w o draws latency calls first last now past world) :
    world.2.KeepsSchedule o draws latency first last .pending where
  onSchedule := h.onSchedule
  elapsed _ hending := by cases hending
  total _ _ _ hending := by cases hending
  exhausts hfree htick _ hover := by
    have hlater := h.lt_timeFor ho.waits (ho.maximum_pos hfree) hmax hfree htick
    omega

/-- A run that was ended by its last attempt has kept to its schedule. -/
theorem Run.EndsInTime.keepsSchedule (ho : o.Accepted)
    (hmax : o.policy.maximumAttempts ≤ maxCount32) (hjitter : o.policy.jitter.isZero = true)
    (h : EndsInTime o draws latency first last past world ending) (hends : ending ≠ .pending) :
    world.2.KeepsSchedule o draws latency first last ending := by
  have hfirst : world.2.first = first := by rw [Chronicle.first, h.begins, Option.getD_some]
  have hcomplete := h.closed.complete
  have helapsed : ∀ e, ending = .settled (.error e) →
      ∃ t, world.2.trials.getLast? = some t ∧ e.elapsed = t.ended.since first := by
    rintro e rfl
    rw [← hfirst]
    exact h.closed.elapsed_eq
  have htotal : o.effective first = none → first.IsTick → ∀ e, ending = .settled (.error e) →
      e.elapsed = o.policy.timeFor latency world.2.starts.length (world.2.starts.length - 1) := by
    intro hfree htick e hending
    obtain ⟨t, ht, hsince⟩ := helapsed e hending
    obtain ⟨ts, htrials⟩ := List.getLast?_eq_some_iff.1 ht
    have hlength : world.2.starts.length = ts.length + 1 := by simp [hcomplete, htrials]
    have hlast : world.2.trials[ts.length]? = some t := by
      rw [htrials, List.getElem?_concat_length]
    rw [hsince, h.timed.end_eq hfree htick h.begins (by omega) (by omega) hlast, hlength,
      Nat.add_sub_cancel]
    exact congrArg Duration.mk (Nat.add_sub_cancel_left ..)
  refine ⟨h.onSchedule hends, helapsed, htotal, ?_⟩
  intro hfree htick hfails most all _
  obtain ⟨hcount, e, elapsed, rfl⟩ := h.closed.exhausted ho.waits hjitter (ho.maximum_pos hfree)
    hmax (hfirst.symm ▸ hfree) hends hfails
  obtain rfl : elapsed = all := by
    have hsum := htotal hfree htick _ rfl
    rwa [hcount] at hsum
  exact ⟨e, rfl⟩

/-- An attended run keeps to its schedule, seen with the chronicle. -/
theorem Run.Attended.keepsSchedule (hw : w.Takes latency calls) (ho : o.Accepted)
    (hmax : o.policy.maximumAttempts ≤ maxCount32) (hjitter : o.policy.jitter.isZero = true)
    (hlast : last.nanos < Instant.lastFiring.nanos) {inner : σ} (hnone : calls inner = 0)
    {later : List Instant}
    (hattended : (Run.new o).Attended w.chronicled draws last first later (inner, .empty)) :
    let t := (Run.new o).pollEach w.chronicled draws (quietly (first :: later))
      (inner, Chronicle.empty)
    t.world.2.KeepsSchedule o draws latency first last t.result := by
  intro t
  have hbegin : (Run.new o : Run τ ε).KeepsTime w o draws latency calls first first []
      (inner, (Chronicle.empty : Chronicle ε α)) :=
    ⟨⟨hnone, Chronicle.timed_empty _ _ _ _, trivial⟩, ⟨rfl, rfl, rfl, rfl, rfl⟩, Or.inl ⟨rfl, rfl⟩⟩
  have hleaves := hattended.leaves hw ho.waits hjitter hlast hbegin
  rcases hresult : t.result with _ | outcome | message <;>
    simp only [Turn.Leaves, show ((Run.new o).pollEach w.chronicled draws
      (quietly (first :: later)) (inner, Chronicle.empty)).result = _ from hresult] at hleaves
  · obtain ⟨now, hwaits⟩ := hleaves
    exact hwaits.keepsSchedule ho hmax
  all_goals exact hleaves.keepsSchedule ho hmax hjitter (by simp)

end

/-- **The attempts of a run keep to its schedule.** Attempts take their
time, the policy has no jitter and counts its attempts in 32 bits, and no
token is read as cancelled. However the run is driven, as long as it is
attended, and on a clock that moves from timer to timer, it keeps to its
schedule until any instant that timers count to. -/
theorem attempts_keepSchedule [Failure ε] {w : Work σ τ ε α} {latency : Nat → Duration}
    {calls : σ → Nat} (hw : w.Takes latency calls) {o : RetryOptions} (ho : o.Accepted)
    (hmax : o.policy.maximumAttempts ≤ maxCount32) (hjitter : o.policy.jitter.isZero = true)
    (draws : Draws) {first last : Instant} (hlast : last.nanos < Instant.lastFiring.nanos)
    {world : σ} (hnone : calls world = 0) :
    (∀ later, (Run.new o).Attended w draws last first later world →
      let polls := Run.quietly (first :: later)
      (Run.chronicle w draws polls o world).KeepsSchedule o draws latency first last
        ((Run.new o).pollEach w draws polls world).result) ∧
    (first.nanos ≤ last.nanos →
      (Course.chronicle w draws none last o first world).KeepsSchedule o draws latency first last
        ((Course.begin o first world).follow w draws none last).ending) := by
  constructor
  · intro later hattended polls
    rw [Run.pollEach_eq_forget]
    exact Run.Attended.keepsSchedule hw ho hmax hjitter hlast hnone
      (hattended.chronicled Chronicle.empty)
  · intro hfirst
    obtain ⟨later, hattended, hpolls⟩ := Course.followFor_attended w.chronicled draws
      (last.nanos - first.nanos + 1) (c := Course.begin o first (world, Chronicle.empty))
      (Nat.lt_succ_self _) hfirst
    have hkeeps := Run.Attended.keepsSchedule hw ho hmax hjitter hlast hnone hattended
    rw [Course.follow_eq_forget]
    exact (congrArg (fun t => t.world.2.KeepsSchedule o draws latency first last t.result)
      hpolls).mp hkeeps

namespace Rehearsal

/-- The failure of a service that is away. -/
def awayFailure : ScriptedFailure := ⟨"UNAVAILABLE", none, "try again", false, false⟩

/-- Every attempt fails, and takes its time for it. -/
def neverAvailable (latency : Duration) : Script Nat := ⟨[⟨latency, .fails awayFailure⟩]⟩

end Rehearsal

/-- Three attempts at most, the second a tenth of a second after the
first. -/
def upToThree : RetryOptions :=
  ⟨{ RetryPolicy.draft with maximumAttempts := 3, jitter := .zero }, none, false⟩

/-- Three attempts of a millisecond and a half, each two on the clock, and
two pauses take 306 milliseconds. -/
theorem attempts_keepSchedule_upToThree :
    let script := Rehearsal.neverAvailable ⟨1500000⟩
    let c := Course.chronicle script.work .still none ⟨1000000000⟩ upToThree .start
      Rehearsal.Stage.empty
    upToThree.Accepted ∧ script.IsFinite ∧
    c.starts = [⟨0⟩, ⟨102000000⟩, ⟨304000000⟩] ∧
    c.trials.map Trial.ended = [⟨2000000⟩, ⟨104000000⟩, ⟨306000000⟩] ∧
    c.OnSchedule upToThree .still script.span .start ⟨1000000000⟩ ∧
    ∃ e, ((Course.begin upToThree .start Rehearsal.Stage.empty).follow script.work .still none
      ⟨1000000000⟩).ending = .settled (.error (.attemptsExhausted e 3 ⟨306000000⟩)) := by
  intro script c
  have haccepted : upToThree.Accepted := by
    unfold RetryOptions.Accepted
    decide +kernel
  have hfinite : script.IsFinite := ⟨by decide, by decide⟩
  have hlast : (⟨1000000000⟩ : Instant).nanos < Instant.lastFiring.nanos := by decide
  have hnone : Rehearsal.Stage.calls .empty = 0 := rfl
  have hkeeps : c.KeepsSchedule upToThree .still script.span .start ⟨1000000000⟩ _ :=
    (attempts_keepSchedule (Rehearsal.Script.work_takes hfinite) haccepted (by decide)
      (by decide +kernel) .still hlast hnone).2 (by decide)
  have hfailures : c.trials.map Trial.failure? =
      List.replicate 3 (some Rehearsal.awayFailure) := by decide +kernel
  have hfails : upToThree.policy.Retries c.trials := by
    intro t ht
    have hmem := List.mem_map_of_mem (f := Trial.failure?) ht
    rw [hfailures] at hmem
    have hfailure := List.eq_of_mem_replicate hmem
    obtain ⟨_ | e | _, ended⟩ := t <;> cases hfailure
    exact ⟨_, rfl, fun ⟨m, hm, _⟩ => absurd hm List.not_mem_nil, rfl⟩
  have hall : upToThree.policy.timeFor script.span 3 2 = ⟨306000000⟩ := by decide +kernel
  have hover : Instant.start.nanos + (upToThree.policy.timeFor script.span 3 2).nanos ≤
      1000000000 := by
    rw [hall]
    decide
  obtain ⟨e, hending⟩ := hkeeps.exhausts rfl (by decide) hfails hover
  exact ⟨haccepted, hfinite, by decide +kernel, by decide +kernel, hkeeps.onSchedule, e,
    hall ▸ hending⟩

/-- Attempts that are to be thirty-one years apart. -/
def thirtyOneYears : RetryOptions :=
  ⟨{ upToThree.policy with initialInterval := .ofSeconds 977616000 }, none, false⟩

/-- A pause of thirty-one years is over after thirty. The clock could count
to its end, and so could timers, but none is set so far ahead. -/
theorem pause_cut_thirtyOneYears :
    let p := thirtyOneYears.policy
    let due := (Instant.start.plus (p.baseDelay 1)).firing
    let c := Course.chronicle (Rehearsal.neverAvailable .zero).work .still none due thirtyOneYears
      .start Rehearsal.Stage.empty
    thirtyOneYears.Accepted ∧ p.jitter.isZero = true ∧ thirtyOneYears.effective .start = none ∧
    p.baseDelay 1 = .ofSeconds 977616000 ∧
    due.isCountable = true ∧ due.nanos < Instant.lastFiring.nanos ∧
    c.trials[0]?.map (fun t => (t.failure?, t.ended)) =
      some (some Rehearsal.awayFailure, .start) ∧
    afterFailure p (thirtyOneYears.nth .start 1) Rehearsal.awayFailure .start .zero =
      .retry (p.baseDelay 1) ∧
    c.starts[1]? = some ⟨946080000000000000⟩ ∧ c.starts[1]? ≠ some due := by
  have haccepted : thirtyOneYears.Accepted := by
    unfold RetryOptions.Accepted
    decide +kernel
  exact ⟨haccepted, by decide +kernel, rfl, by decide +kernel, by decide +kernel,
    by decide +kernel, by decide +kernel, by decide +kernel, by decide +kernel,
    by decide +kernel⟩

end ResilientCalls
