import ResilientCalls.Proofs.Retry.Waiting
import ResilientCalls.Retry.Course
/-!
# Runs on a clock

A run on a clock is polled where something is due, and the clock moves
forward only. What transitions keep while time passes is kept along the
whole course, and a course with a chronicle is the course without it. So
what is said of the attempts of a run on a clock needs nothing of the
work, as for a run that is polled from outside.
-/

namespace ResilientCalls

variable {σ τ ε α : Type}

/-! ## Runs that have begun -/

namespace Run

variable [Failure ε] {w : Work σ τ ε α} {draws : Draws} {now : Instant} {r : Run τ ε}

/-- No transition leaves a run idle. -/
theorem step_ne_idle (world : σ) : (r.step w draws now world).run.phase ≠ .idle := by
  have hlaunch : ∀ i, (r.launch w now i world).run.phase ≠ .idle := by
    intro i
    rcases r.launch_cases w now i world with ⟨⟨attempt, hphase⟩, -⟩ | ⟨hphase, -⟩ <;>
      simp [hphase]
  unfold step
  cases hp : r.phase with
  | idle => exact hlaunch _
  | backingOff timer i =>
    simp only []
    split
    · exact hlaunch _
    · simp [hp]
  | attempting attempt i =>
    rcases hlook : w.look now attempt world with ⟨_ | ⟨e | v⟩ | m, world'⟩ <;> simp only [hlook]
    · simp [hp]
    · unfold afterFailedAttempt
      cases afterFailure r.options.policy i e now (draws i.attempt) <;> simp
    · simp
    · simp
  | settled => simp [hp]

/-- **A run that is pending after a poll has begun.** -/
theorem ne_idle_of_poll {cancelled : Bool} {world : σ}
    (h : (r.poll w draws now cancelled world).result = .pending) :
    (r.poll w draws now cancelled world).run.phase ≠ .idle := by
  have hkeeps : ∀ (past : List RetryEvent) (r : Run τ ε) (world : σ), r.phase ≠ .idle →
      (r.step w draws now world).Keeps (fun _ r _ => r.phase ≠ .idle) (fun _ _ _ => True) past := by
    intro past r world _
    have hbegun : (r.step w draws now world).run.phase ≠ .idle := step_ne_idle world
    unfold Turn.Keeps
    split
    · exact hbegun
    · exact hbegun
    · trivial
    · trivial
  have hsteps := (poll_eq_steps h).2
  rw [show stepLimit = stepLimit - 1 + 1 from rfl, steps] at hsteps
  rw [hsteps] at h ⊢
  rcases hresult : (r.step w draws now world).result with _ | ending <;>
    simp only [hresult] at h ⊢
  · have hrest : (steps w draws now (stepLimit - 1) (r.step w draws now world).run
        (r.step w draws now world).world).Leaves (fun _ r _ => r.phase ≠ .idle)
        (fun _ _ _ => True) [] := steps_leaves hkeeps (stepLimit - 1) (step_ne_idle world)
    simpa only [Turn.Leaves, h] using hrest
  · exact step_ne_idle world

end Run

/-! ## Courses -/

/-- The course without the chronicle. -/
def Course.forget (c : Course (σ × Chronicle ε α) τ ε α) : Course σ τ ε α :=
  ⟨c.now, c.run, c.world.1, c.events, c.ending⟩

namespace Course

variable [Failure ε] {w : Work σ τ ε α} {draws : Draws} {cancelledFrom : Option Instant}
  {limit : Instant}

/-! ## One poll after the other -/

/-- A poll that ends the run is the last. -/
theorem followFor_ended {c : Course σ τ ε α} (n : Nat)
    (hended : (c.pollNow w draws cancelledFrom).ending ≠ .pending) :
    c.followFor w draws cancelledFrom limit (n + 1) = c.pollNow w draws cancelledFrom := by
  rw [followFor]
  rcases hending : (c.pollNow w draws cancelledFrom).ending with _ | outcome | message
  · exact absurd hending hended
  all_goals rfl

/-- Where nothing is due within the limit, the run waits until then. -/
theorem followFor_waits {c : Course σ τ ε α} (n : Nat)
    (hpending : (c.pollNow w draws cancelledFrom).ending = .pending)
    (hnext : earliestWithin c.now limit
      ((c.pollNow w draws cancelledFrom).run.timers w ++ cancelledFrom.toList) = none) :
    c.followFor w draws cancelledFrom limit (n + 1) =
      { c.pollNow w draws cancelledFrom with now := ⟨max c.now.nanos limit.nanos⟩ } := by
  simp only [followFor, hpending, hnext]

/-- The run is polled again where something is due next. -/
theorem followFor_goesOn {c : Course σ τ ε α} (n : Nat) {next : Instant}
    (hpending : (c.pollNow w draws cancelledFrom).ending = .pending)
    (hnext : earliestWithin c.now limit
      ((c.pollNow w draws cancelledFrom).run.timers w ++ cancelledFrom.toList) = some next) :
    c.followFor w draws cancelledFrom limit (n + 1) =
      let polled := c.pollNow w draws cancelledFrom
      let rest := { polled with now := next }.followFor w draws cancelledFrom limit n
      { rest with events := polled.events ++ rest.events } := by
  simp only [followFor, hpending, hnext]

/-! ## The chronicle of a course -/

theorem pollNow_chronicled (w : Work σ τ ε α) (draws : Draws) (cancelledFrom : Option Instant)
    (c : Course (σ × Chronicle ε α) τ ε α) :
    (c.pollNow w.chronicled draws cancelledFrom).forget =
      c.forget.pollNow w draws cancelledFrom := by
  have hpoll : (c.run.poll w.chronicled draws c.now (cancelledFrom.any (·.reached c.now))
      c.world).forget = c.run.poll w draws c.now (cancelledFrom.any (·.reached c.now)) c.world.1 :=
    Run.poll_chronicled _ c.world
  simp only [pollNow, forget, ← hpoll]
  rfl

/-- The chronicle changes no polls on a clock. -/
theorem followFor_chronicled (fuel : Nat) (c : Course (σ × Chronicle ε α) τ ε α) :
    (c.followFor w.chronicled draws cancelledFrom limit fuel).forget =
      c.forget.followFor w draws cancelledFrom limit fuel := by
  induction fuel generalizing c with
  | zero => rfl
  | succ n ih =>
    have hpolled := pollNow_chronicled w draws cancelledFrom c
    have hending : (c.pollNow w.chronicled draws cancelledFrom).ending =
        (c.forget.pollNow w draws cancelledFrom).ending := congrArg Course.ending hpolled
    have htimers : (c.pollNow w.chronicled draws cancelledFrom).run.timers w.chronicled =
        (c.forget.pollNow w draws cancelledFrom).run.timers w :=
      congrArg (fun c => c.run.timers w) hpolled
    by_cases hpending : (c.forget.pollNow w draws cancelledFrom).ending = .pending
    · rcases hnext : earliestWithin c.now limit ((c.forget.pollNow w draws cancelledFrom).run.timers
        w ++ cancelledFrom.toList) with _ | next
      · rw [followFor_waits n (hending.trans hpending) (by rw [htimers]; exact hnext),
          followFor_waits n hpending hnext, ← hpolled]
        rfl
      · have hrest := ih { c.pollNow w.chronicled draws cancelledFrom with now := next }
        rw [followFor_goesOn n (hending.trans hpending) (by rw [htimers]; exact hnext),
          followFor_goesOn n hpending hnext, ← hpolled]
        simp only [forget] at hrest ⊢
        rw [← hrest]
    · rw [followFor_ended n hpending, followFor_ended n (by rwa [hending]), hpolled]

/-- **The chronicle changes no course.** -/
theorem follow_chronicled (c : Course (σ × Chronicle ε α) τ ε α) :
    (c.follow w.chronicled draws cancelledFrom limit).forget =
      c.forget.follow w draws cancelledFrom limit := by
  have hover : c.forget.isOver = c.isOver := rfl
  unfold follow
  rw [hover]
  split
  · rfl
  · exact followFor_chronicled _ c

/-! ## What a course keeps -/

/-- **What transitions keep while time passes, a course keeps,** whether
it has come to its end or not. Time passes only for a run that has
begun. -/
theorem followFor_leaves {J : Instant → List RetryEvent → Run τ ε → σ → Prop}
    {E : List RetryEvent → σ → Ending ε α → Prop}
    (hmono : ∀ now later past r world, r.phase ≠ .idle → now.nanos ≤ later.nanos →
      J now past r world → J later past r world)
    (hstep : ∀ now past r world, J now past r world →
      (r.step w draws now world).Keeps (J now) E past)
    (hcancel : ∀ now past r world, J now past r world → r.options.hasToken = true →
      (r.cancel now world : Turn σ τ ε α _).Leaves (J now) E past)
    (cancelledFrom : Option Instant) (limit : Instant) (fuel : Nat) (past : List RetryEvent)
    {c : Course σ τ ε α} (h : J c.now past c.run c.world) :
    let e := c.followFor w draws cancelledFrom limit fuel
    (∃ past, J e.now past e.run e.world) ∨ ∃ past, E past e.world e.ending := by
  induction fuel generalizing past c with
  | zero => exact Or.inl ⟨past, h⟩
  | succ n ih =>
    have hpoll : (c.run.poll w draws c.now (cancelledFrom.any (·.reached c.now)) c.world).Leaves
        (J c.now) E past := Run.poll_leaves (hstep c.now) (fun _ => hcancel c.now) h
    rcases hending : (c.pollNow w draws cancelledFrom).ending with _ | outcome | message <;>
      simp only [Turn.Leaves, show (c.run.poll w draws c.now
        (cancelledFrom.any (·.reached c.now)) c.world).result = _ from hending] at hpoll
    · have hbegun : (c.pollNow w draws cancelledFrom).run.phase ≠ .idle :=
        Run.ne_idle_of_poll hending
      rcases hnext : earliestWithin c.now limit
        ((c.pollNow w draws cancelledFrom).run.timers w ++ cancelledFrom.toList) with _ | next
      · rw [followFor_waits n hending hnext]
        exact Or.inl ⟨_, hmono _ _ _ _ _ hbegun (Nat.le_max_left _ _) hpoll⟩
      · rw [followFor_goesOn n hending hnext]
        have hlater := (earliestWithin_bounds hnext).1
        exact ih _ (hmono _ _ _ _ _ hbegun (Nat.le_of_lt hlater) hpoll)
    all_goals
      rw [followFor_ended n (by simp [hending])]
      exact Or.inr ⟨_, hending ▸ hpoll⟩

/-- The attempts that a course begins with are the first of its end. -/
theorem starts_prefix_followFor (fuel : Nat) (c : Course (σ × Chronicle ε α) τ ε α) :
    c.world.2.starts <+:
      (c.followFor w.chronicled draws cancelledFrom limit fuel).world.2.starts := by
  let J := fun (_ : Instant) (_ : List RetryEvent) (_ : Run τ ε) (world : σ × Chronicle ε α) =>
    c.world.2.starts <+: world.2.starts
  let E := fun (_ : List RetryEvent) (world : σ × Chronicle ε α) (_ : Ending ε α) =>
    c.world.2.starts <+: world.2.starts
  have hstep : ∀ now past r world, J now past r world →
      (r.step w.chronicled draws now world).Keeps (J now) E past := by
    intro now past r world hkept
    exact Run.step_keeps_grown (P := fun d => c.world.2.starts <+: d.starts)
      fun _ _ hgrows => hkept.trans hgrows.starts_prefix
  have hleaves := followFor_leaves (fun _ _ _ _ _ _ _ hkept => hkept) hstep
    (fun _ _ _ _ hkept _ => hkept) cancelledFrom limit fuel [] (c := c) (List.prefix_refl _)
  rcases hleaves with ⟨_, hprefix⟩ | ⟨_, hprefix⟩
  · exact hprefix
  · exact hprefix

/-- The attempts that a first poll starts are the first of the course. -/
theorem starts_prefix_pollNow (n : Nat) (c : Course (σ × Chronicle ε α) τ ε α) :
    (c.pollNow w.chronicled draws cancelledFrom).world.2.starts <+:
      (c.followFor w.chronicled draws cancelledFrom limit (n + 1)).world.2.starts := by
  by_cases hpending : (c.pollNow w.chronicled draws cancelledFrom).ending = .pending
  · rcases hnext : earliestWithin c.now limit
      ((c.pollNow w.chronicled draws cancelledFrom).run.timers w.chronicled ++
        cancelledFrom.toList) with _ | next
    · simpa only [followFor_waits n hpending hnext] using List.prefix_refl _
    · rw [followFor_goesOn n hpending hnext]
      exact starts_prefix_followFor n { c.pollNow w.chronicled draws cancelledFrom with now := next }
  · simpa only [followFor_ended n hpending] using List.prefix_refl _

/-- The attempts of a course follow from one another. -/
theorem followFor_follows (w : Work σ τ ε α) (draws : Draws) (cancelledFrom : Option Instant)
    (limit : Instant) (o : RetryOptions) (now : Instant) (fuel : Nat) (world : σ) :
    ∃ delays, ((Course.begin o now (world, Chronicle.empty)).followFor w.chronicled draws
      cancelledFrom limit fuel).world.2.Follows o draws delays := by
  have hbegin : (Run.new o : Run τ ε).Tracks o draws [] (Chronicle.empty : Chronicle ε α) :=
    ⟨rfl, rfl, rfl, rfl, rfl⟩
  have hleaves := followFor_leaves (w := w.chronicled) (fun _ _ _ _ _ _ _ hkept => hkept)
    (fun _ _ _ _ hkept => Run.step_follows hkept) (fun _ _ _ _ hkept _ => Run.cancel_follows hkept)
    cancelledFrom limit fuel [] (c := Course.begin o now (world, Chronicle.empty)) hbegin
  rcases hleaves with ⟨_, htracks⟩ | ⟨_, hfollows⟩
  · exact ⟨_, htracks.follows⟩
  · exact ⟨_, hfollows⟩

end Course

end ResilientCalls
