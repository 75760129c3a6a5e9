import ResilientCalls.Proofs.Retry.Timetable
/-!
# Runs that are attended

Who drives a run has to poll it when one of its timers fires, may poll it
more often, and is done at some instant. Then the chronicle of the run holds
what its timetable says up to that instant, and nothing else: an attempt
that is due has started, one that is over has ended, and what is missing
comes later. A run on a clock that moves from timer to timer is driven in
this way.
-/

namespace ResilientCalls

variable {σ τ ε α : Type}

/-! ## Drivers -/

/-- **The run is attended until `last`,** if it is polled at `now` and then
at the instants `later`: while it is pending, no poll comes after a timer
that is yet to fire, and no timer is left to fire by `last`. No poll reads a
cancelled token. -/
def Run.Attended [Failure ε] (w : Work σ τ ε α) (draws : Draws) (last : Instant) :
    Instant → List Instant → Run τ ε → σ → Prop
  | now, [], r, world =>
    let t := r.poll w draws now false world
    now.nanos ≤ last.nanos ∧ (t.result = .pending →
      ∀ u ∈ t.run.timers w, now.nanos < u.nanos → last.nanos < u.nanos)
  | now, next :: later, r, world =>
    let t := r.poll w draws now false world
    now.nanos ≤ last.nanos ∧ (t.result = .pending → now.nanos ≤ next.nanos ∧
      (∀ u ∈ t.run.timers w, now.nanos < u.nanos → next.nanos ≤ u.nanos) ∧
      Attended w draws last next later t.run t.world)

/-- Polls that read no cancelled token. -/
def Run.quietly (polls : List Instant) : List (Instant × Bool) := polls.map fun now => (now, false)

/-- The chronicle keeps no one from attending a run. -/
theorem Run.Attended.chronicled [Failure ε] {w : Work σ τ ε α} {draws : Draws} {last now : Instant}
    {later : List Instant} {r : Run τ ε} {inner : σ} (c : Chronicle ε α)
    (h : r.Attended w draws last now later inner) :
    r.Attended w.chronicled draws last now later (inner, c) := by
  induction later generalizing now r inner c with
  | nil =>
    have hpoll : (r.poll w.chronicled draws now false (inner, c)).forget =
        r.poll w draws now false inner := poll_chronicled false (inner, c)
    simp only [Attended, ← hpoll] at h ⊢
    exact h
  | cons next later ih =>
    have hpoll : (r.poll w.chronicled draws now false (inner, c)).forget =
        r.poll w draws now false inner := poll_chronicled false (inner, c)
    simp only [Attended, ← hpoll] at h ⊢
    refine ⟨h.1, fun hpending => ?_⟩
    obtain ⟨hmoves, hdue, hrest⟩ := h.2 hpending
    exact ⟨hmoves, hdue, ih _ hrest⟩

/-- **A run on a clock is attended** as far as it is followed. -/
theorem Course.followFor_attended [Failure ε] (w : Work σ τ ε α) (draws : Draws) {limit : Instant}
    (fuel : Nat) {c : Course σ τ ε α} (hfuel : limit.nanos - c.now.nanos < fuel)
    (hnow : c.now.nanos ≤ limit.nanos) :
    ∃ later, c.run.Attended w draws limit c.now later c.world ∧
      c.run.pollEach w draws (Run.quietly (c.now :: later)) c.world =
        let e := c.followFor w draws none limit fuel
        ⟨e.run, e.world, e.events, e.ending⟩ := by
  induction fuel generalizing c with
  | zero => omega
  | succ n ih =>
    rcases hending : (c.pollNow w draws none).ending with _ | outcome | message
    · have hresult : (c.run.poll w draws c.now false c.world).result = .pending := hending
      rcases hnext : earliestWithin c.now limit
        ((c.pollNow w draws none).run.timers w ++ (none : Option Instant).toList) with _ | next
      · refine ⟨[], ⟨hnow, fun _ u hu hlater => ?_⟩, ?_⟩
        · by_contra hdue
          exact earliestWithin_ne_none (List.mem_append_left _ hu) hlater (by omega) hnext
        · simp only [followFor_waits n hending hnext, Run.quietly, List.map, Run.pollEach, hresult,
            List.append_nil]
          rw [hending]
          rfl
      · obtain ⟨hmoves, hwithin⟩ := earliestWithin_bounds hnext
        obtain ⟨later, hattended, hpolls⟩ :=
          ih (c := { c.pollNow w draws none with now := next }) (by simp only; omega) hwithin
        refine ⟨next :: later, ⟨hnow, fun _ => ⟨Nat.le_of_lt hmoves, fun u hu hlater => ?_,
          hattended⟩⟩, ?_⟩
        · by_contra hearly
          have hfirst := earliestWithin_le hnext (List.mem_append_left _ hu) hlater (by omega)
          omega
        · simp only [followFor_goesOn n hending hnext, Run.quietly, List.map, Run.pollEach,
            hresult] at hpolls ⊢
          exact congrArg (fun rest : Turn σ τ ε α (Ending ε α) => { rest with
            events := (c.run.poll w draws c.now false c.world).events ++ rest.events }) hpolls
    all_goals
      have hresult : (c.run.poll w draws c.now false c.world).result = _ := hending
      refine ⟨[], ⟨hnow, fun hpending => by rw [hresult] at hpending; cases hpending⟩, ?_⟩
      rw [followFor_ended n (by simp [hending])]
      simp only [Run.quietly, List.map, Run.pollEach, hresult]
      rfl

/-! ## What an attended run comes to -/

namespace Run

variable [Failure ε] {w : Work σ τ ε α} {o : RetryOptions} {draws : Draws}
  {latency : Nat → Duration} {calls : σ → Nat} {first now next last : Instant} {r : Run τ ε}
  {past : List RetryEvent} {world : σ × Chronicle ε α}

/-- A run that waits has one timer, which is yet to fire. -/
theorem KeepsTime.exists_timer (h : r.KeepsTime w o draws latency calls first now past world)
    (hwaits : r.IsWaiting w.chronicled now world) :
    ∃ u, r.timers w.chronicled = [u] ∧ now.nanos < u.nanos := by
  have hawaits := h.awaits
  unfold Awaits at hawaits
  rcases hwaits.cases with ⟨attempt, i, inner, hp, hlook, htimers⟩ |
    ⟨timer, i, hp, hlater, htimers⟩
  · simp only [hp] at hawaits
    obtain ⟨s, -, hlasts, -⟩ := hawaits
    refine ⟨_, htimers.trans hlasts.timers_eq, ?_⟩
    simpa [Instant.reached] using (hlasts.waits_iff now inner).1 hlook
  · exact ⟨timer, htimers, hlater⟩

/-- A run that waits has started its first attempt at `first`. -/
theorem KeepsTime.head_eq (h : r.KeepsTime w o draws latency calls first now past world)
    (hwaits : r.IsWaiting w.chronicled now world) : world.2.starts.head? = some first := by
  refine h.begins.resolve_left fun hidle => ?_
  refine h.tracks.starts_ne_nil ?_ hidle.1
  intro hp
  simp only [IsWaiting, hp] at hwaits

/-- A run that waits keeps to its timetable until its timer fires. -/
theorem KeepsTime.until (h : r.KeepsTime w o draws latency calls first now past world)
    (hwaits : r.IsWaiting w.chronicled now world) (hmoves : now.nanos ≤ next.nanos)
    (hdue : ∀ u ∈ r.timers w.chronicled, now.nanos < u.nanos → next.nanos ≤ u.nanos) :
    r.KeepsTime w o draws latency calls first next past world := by
  refine ⟨⟨h.counted, h.timed.mono hmoves, ?_⟩, h.tracks, Or.inr (h.head_eq hwaits)⟩
  obtain ⟨u, htimers, hlater⟩ := h.exists_timer hwaits
  have hnext : next.nanos ≤ u.nanos := hdue u (by simp [htimers]) hlater
  have hawaits := h.awaits
  unfold Awaits at hawaits ⊢
  cases hp : r.phase with
  | idle | settled => trivial
  | attempting attempt i =>
    simp only [hp] at hawaits ⊢
    obtain ⟨s, hs, hlasts, -⟩ := hawaits
    simp only [timers, hp, Work.chronicled, hlasts.timers_eq, List.cons.injEq, and_true] at htimers
    exact ⟨s, hs, hlasts, le_trans (htimers ▸ hnext) (Nat.le_max_right _ _)⟩
  | backingOff timer i =>
    simp only [hp] at hawaits ⊢
    obtain ⟨k, t, hk, ht, hset, hpos, -⟩ := hawaits
    simp only [timers, hp, List.cons.injEq, and_true] at htimers
    exact ⟨k, t, hk, ht, hset, hpos,
      le_trans (hset ▸ htimers ▸ hnext) (Nat.le_max_right _ _)⟩

/-- At `now` the run waits for something that comes after `last`. -/
structure WaitsPast (w : Work σ τ ε α) (o : RetryOptions) (draws : Draws)
    (latency : Nat → Duration) (calls : σ → Nat) (first last now : Instant)
    (past : List RetryEvent) (r : Run τ ε) (world : σ × Chronicle ε α) : Prop where
  keeps : r.KeepsTime w o draws latency calls first now past world
  waits : r.IsWaiting w.chronicled now world
  now_le : now.nanos ≤ last.nanos
  due : ∀ u ∈ r.timers w.chronicled, now.nanos < u.nanos → last.nanos < u.nanos

variable (hw : w.Takes latency calls) (hp : o.policy.Waits)
  (hjitter : o.policy.jitter.isZero = true) (hlast : last.nanos < Instant.lastFiring.nanos)

include hw hp hjitter

/-- **A poll keeps a run to its timetable,** and leaves it waiting. -/
theorem KeepsTime.of_poll (hnow : now.nanos < Instant.lastFiring.nanos)
    (h : r.KeepsTime w o draws latency calls first now past world) :
    (r.poll w.chronicled draws now false world).Leaves
      (fun past r world => r.KeepsTime w o draws latency calls first now past world ∧
        r.IsWaiting w.chronicled now world)
      (EndsInTime o draws latency first now) past := by
  have hpoll : (r.poll w.chronicled draws now false world).Leaves
      (KeepsTime w o draws latency calls first now) (EndsInTime o draws latency first now) past :=
    poll_leaves (fun _ _ _ hkept => step_keepsTime hw hp hjitter hnow hkept)
      (fun hread => by cases hread) h
  unfold Turn.Leaves at hpoll ⊢
  split at hpoll
  · rename_i hpending
    have hapart := hpoll.timed.increasing hpoll.tracks.follows.inFlight_le
    exact ⟨hpoll, isWaiting_of_poll h.tracks hpending (hapart.uncrowded now)⟩
  all_goals exact hpoll

include hlast

/-- **An attended run keeps to its timetable.** The induction is on the
polls: each leaves the run waiting, and the next comes no later than what it
waits for. -/
theorem Attended.leaves {later : List Instant}
    (hattended : r.Attended w.chronicled draws last now later world)
    (h : r.KeepsTime w o draws latency calls first now past world) :
    (r.pollEach w.chronicled draws (quietly (now :: later)) world).Leaves
      (fun past r world => ∃ now, r.WaitsPast w o draws latency calls first last now past world)
      (EndsInTime o draws latency first last) past := by
  induction later generalizing now r past world with
  | nil =>
    obtain ⟨hle, hdue⟩ := hattended
    have hpoll := h.of_poll hw hp hjitter (lt_of_le_of_lt hle hlast)
    simp only [quietly, List.map, pollEach]
    rcases hresult : (r.poll w.chronicled draws now false world).result with
      _ | outcome | message <;>
      simp only [Turn.Leaves, hresult] at hpoll ⊢
    · simp only [List.append_nil]
      exact ⟨now, hpoll.1, hpoll.2, hle, hdue hresult⟩
    all_goals exact ⟨hpoll.closed, hpoll.begins, hpoll.timed.mono hle⟩
  | cons next later ih =>
    obtain ⟨hle, hrest⟩ := hattended
    have hpoll := h.of_poll hw hp hjitter (lt_of_le_of_lt hle hlast)
    rw [quietly, List.map, pollEach]
    rcases hresult : (r.poll w.chronicled draws now false world).result with
      _ | outcome | message <;>
      simp only [Turn.Leaves, hresult] at hpoll ⊢
    · obtain ⟨hmoves, hdue, hattended⟩ := hrest hresult
      have hlater := ih hattended (hpoll.1.until hpoll.2 hmoves hdue)
      simpa only [Turn.Leaves, quietly, List.append_assoc] using hlater
    all_goals exact ⟨hpoll.closed, hpoll.begins, hpoll.timed.mono hle⟩

end Run

/-! ## What has come by an instant -/

/-- A run that began at `first` goes on after its attempt `n`, for the
failure it ended with is retried. -/
def RetryOptions.GoesOn [Failure ε] (o : RetryOptions) (draws : Draws) (first : Instant) (n : Nat)
    (t : Trial ε α) : Prop :=
  ∃ e delay, t.result = .ok (.error e) ∧
    afterFailure o.policy (o.nth first n) e t.ended (draws (o.nth first n).attempt) = .retry delay

/-- **The schedule of a run** that began at `first`, as it stands at `last`:
an attempt ends where its latency is over, if this has come, and after an
attempt that the run goes on from the next one starts where the pause is
over, if this has come. -/
structure Chronicle.OnSchedule [Failure ε] (o : RetryOptions) (draws : Draws)
    (latency : Nat → Duration) (first last : Instant) (c : Chronicle ε α) : Prop where
  begins : c.starts.head? = some first
  ends : ∀ (k : Nat) (s : Instant), c.starts[k]? = some s →
    c.trials[k]?.map Trial.ended = (s.resumes (latency (k + 1))).ifBy last
  resumes : ∀ (k : Nat) (t : Trial ε α), c.trials[k]? = some t → o.GoesOn draws first (k + 1) t →
    c.starts[k + 1]? = (t.ended.resumes (o.pauseAfter first (k + 1) t.ended)).ifBy last

section

variable [Failure ε] {w : Work σ τ ε α} {o : RetryOptions} {draws : Draws}
  {latency : Nat → Duration} {calls : σ → Nat} {first now last : Instant} {r : Run τ ε}
  {past : List RetryEvent} {world : σ × Chronicle ε α} {c : Chronicle ε α}

/-- A timed chronicle is on schedule if what is missing comes after
`last`. -/
theorem Chronicle.Timed.onSchedule (h : c.Timed o latency first last)
    (hbegins : c.starts.head? = some first) (hcount : c.trials.length ≤ c.starts.length)
    (hend : ∀ s, c.starts[c.trials.length]? = some s →
      last.nanos < (s.resumes (latency (c.trials.length + 1))).nanos)
    (hstart : ∀ k t, c.starts.length = k + 1 → c.trials[k]? = some t →
      o.GoesOn draws first (k + 1) t →
        last.nanos < (t.ended.resumes (o.pauseAfter first (k + 1) t.ended)).nanos)
    (hflight : c.starts.length ≤ c.trials.length + 1) :
    c.OnSchedule o draws latency first last where
  begins := hbegins
  ends k s hs := by
    have hk : k < c.starts.length := (List.getElem?_eq_some_iff.1 hs).1
    rcases Nat.lt_or_ge k c.trials.length with hended | hmissing
    · have ht := List.getElem?_eq_getElem hended
      have hle := h.ended_le _ (List.mem_of_getElem? ht)
      rw [h.ended_eq k s _ hs ht] at hle
      rw [ht, Option.map_some, h.ended_eq k s _ hs ht, Instant.ifBy_of_le hle]
    · obtain rfl : k = c.trials.length := by omega
      rw [List.getElem?_eq_none hmissing, Option.map_none, Instant.ifBy_of_lt (hend s hs)]
  resumes k t ht hgoes := by
    have hk : k < c.trials.length := (List.getElem?_eq_some_iff.1 ht).1
    rcases Nat.lt_or_ge (k + 1) c.starts.length with hstarted | hmissing
    · have hs := List.getElem?_eq_getElem hstarted
      have hle := h.started_le _ (List.mem_of_getElem? hs)
      rw [(h.started_eq k t _ ht hs).2] at hle
      rw [Instant.ifBy_of_le hle, ← (h.started_eq k t _ ht hs).2]
      exact hs
    · rw [List.getElem?_eq_none hmissing, Instant.ifBy_of_lt (hstart k t (by omega) ht hgoes)]

namespace Run.WaitsPast

variable (h : r.WaitsPast w o draws latency calls first last now past world)

include h

/-- The attempt in flight ends later. -/
theorem lt_end {s : Instant} (hs : world.2.starts[world.2.trials.length]? = some s) :
    last.nanos < (s.resumes (latency (world.2.trials.length + 1))).nanos := by
  obtain ⟨⟨⟨-, htimed, hawaits⟩, ⟨-, -, hphase⟩, -⟩, hwaits, -, hdue⟩ := h
  unfold Awaits at hawaits
  rcases hwaits.cases with ⟨attempt, i, inner, hp, hlook, htimers⟩ | ⟨timer, i, hp, -⟩ <;>
    simp only [hp] at hphase hawaits
  · obtain ⟨s', hs', hlasts, -⟩ := hawaits
    obtain rfl : s = s' := Option.some.inj (hs.symm.trans hs')
    have hlater : now.nanos < (s.timer (latency (world.2.trials.length + 1))).nanos := by
      simpa [Instant.reached] using (hlasts.waits_iff now inner).1 hlook
    have hlast := hdue _ (by rw [htimers, hlasts.timers_eq]; exact List.mem_singleton_self _) hlater
    exact lt_of_lt_of_le hlast
      (Instant.timer_le_resumes hlater (htimed.started_le s (List.mem_of_getElem? hs)))
  · -- while the run rests, no attempt is in flight
    rw [← hphase.2.1, List.getElem?_eq_none le_rfl] at hs
    cases hs

/-- The next attempt starts later. -/
theorem lt_start {k : Nat} {t : Trial ε α} (hk : world.2.starts.length = k + 1)
    (ht : world.2.trials[k]? = some t) :
    last.nanos < (t.ended.resumes (o.pauseAfter first (k + 1) t.ended)).nanos := by
  obtain ⟨⟨⟨-, htimed, hawaits⟩, ⟨-, -, hphase⟩, -⟩, hwaits, -, hdue⟩ := h
  unfold Awaits at hawaits
  rcases hwaits.cases with ⟨attempt, i, inner, hp, -⟩ | ⟨timer, i, hp, hlater, htimers⟩ <;>
    simp only [hp] at hphase hawaits
  · -- the attempt in flight is the last, and has not ended
    have hk' : k < world.2.trials.length := (List.getElem?_eq_some_iff.1 ht).1
    have hcount := hphase.1
    omega
  · obtain ⟨k', t', hk', ht', rfl, -⟩ := hawaits
    obtain rfl : k = k' := by omega
    obtain rfl : t = t' := Option.some.inj (ht.symm.trans ht')
    have hlast := hdue _ (by rw [htimers]; exact List.mem_singleton_self _) hlater
    exact lt_of_lt_of_le hlast
      (Instant.timer_le_resumes hlater (htimed.ended_le t (List.mem_of_getElem? ht)))

/-- **A run that waits is on schedule.** -/
theorem onSchedule : world.2.OnSchedule o draws latency first last := by
  have hfollows := h.keeps.tracks.follows
  exact (h.keeps.timed.mono h.now_le).onSchedule (h.keeps.head_eq h.waits) hfollows.ended_le
    (fun _ => h.lt_end) (fun _ _ hk ht _ => h.lt_start hk ht) hfollows.inFlight_le

end Run.WaitsPast

/-- The attempt that closes a run, the invocation it belongs to, and what
follows from it. -/
theorem Chronicle.ClosedByAttempt.exists_nth {delays : List Duration} {ending : Ending ε α}
    (h : c.ClosedByAttempt o draws delays ending) : ∃ ts t, c.trials = ts ++ [t] ∧
      c.starts.length = ts.length + 1 ∧
      let s := (Standing.initial (o.begin c.first)).afterAll o.policy draws ts
      s.IsOpen ∧ s.invocation = o.nth c.first (ts.length + 1) ∧
        (s.after o.policy draws t).ending = ending := by
  obtain ⟨ts, t, htrials, hopen⟩ := h.wasOpen
  refine ⟨ts, t, htrials, ?_, hopen, Standing.invocation_of_isOpen hopen, ?_⟩
  · rw [h.complete, htrials, List.length_append, List.length_singleton]
  · rw [← h.ending_eq, standing, htrials, Standing.afterAll_append]
    rfl

/-- **A run that has ended is on schedule.** -/
theorem Run.EndsInTime.onSchedule {ending : Ending ε α}
    (h : EndsInTime o draws latency first last past world ending) (hends : ending ≠ .pending) :
    world.2.OnSchedule o draws latency first last := by
  have hcomplete := h.closed.complete
  refine h.timed.onSchedule h.begins (Nat.le_of_eq hcomplete.symm) ?_ ?_ (by omega)
  · intro s hs
    rw [← hcomplete, List.getElem?_eq_none le_rfl] at hs
    cases hs
  · -- the last attempt is not one that the run goes on from
    rintro k t hk ht ⟨e, delay, hresult, hretry⟩
    obtain ⟨ts, t', htrials, hcount, hopen, hinvocation, hending⟩ := h.closed.exists_nth
    obtain rfl : k = ts.length := by omega
    rw [htrials, List.getElem?_concat_length] at ht
    obtain rfl := Option.some.inj ht
    have hfirst : world.2.first = first := by rw [Chronicle.first, h.begins, Option.getD_some]
    obtain ⟨result, ended⟩ := t'
    obtain rfl : result = .ok (.error e) := hresult
    rw [Standing.after_failure o.policy draws hopen, hinvocation, hfirst, hretry] at hending
    exact absurd hending.symm hends

end

end ResilientCalls
