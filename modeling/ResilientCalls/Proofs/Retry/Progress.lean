import ResilientCalls.Proofs.Retry.Crowding
/-!
# Runs that come to their end

A run on a clock settles if whatever it waits for comes within the limit:
every poll then moves the clock on, and the nanoseconds up to the limit
bound the polls. What is known of a waiting run has to hold until the
timer it waits for, and no longer, so an invariant may tell when that timer
fires and what happens then. A poll must not run out of transitions before
it waits, and it does not where no instant is crowded.
-/

namespace ResilientCalls

variable {σ τ ε α : Type}

/-- What is waited for next is one of the instants that something is due
at. -/
theorem earliestWithin_mem {now limit t : Instant} {ts : List Instant}
    (h : earliestWithin now limit ts = some t) : t ∈ ts := by
  induction ts generalizing t with
  | nil => cases h
  | cons u rest ih =>
    by_cases hu : now.nanos < u.nanos ∧ u.nanos ≤ limit.nanos
    · simp only [earliestWithin, if_pos hu] at h
      rcases hbest : earliestWithin now limit rest with _ | best <;>
        simp only [hbest, Option.some.injEq] at h
      · exact h ▸ List.mem_cons_self
      · rcases Nat.le_total best.nanos u.nanos with hle | hle
        · rw [Instant.earlier, Nat.min_eq_left hle] at h
          exact h ▸ List.mem_cons_of_mem _ (ih hbest)
        · rw [Instant.earlier, Nat.min_eq_right hle] at h
          exact h ▸ List.mem_cons_self
    · simp only [earliestWithin, if_neg hu] at h
      exact List.mem_cons_of_mem _ (ih h)

/-- A timer that has not fired when it is set fires while timers count. -/
theorem Instant.timer_le_lastFiring (now : Instant) (d : Duration) :
    (now.timer d).nanos ≤ now.nanos ∨ (now.timer d).nanos ≤ Instant.lastFiring.nanos := by
  unfold Instant.timer
  split
  · exact Or.inl le_rfl
  · exact Or.inr (Nat.min_le_right _ _)

namespace Course

section

variable [Failure ε] {w : Work σ τ ε α} {o : RetryOptions} {draws : Draws}
  {cancelledFrom : Option Instant} {limit : Instant}
  {J : Instant → List RetryEvent → Run τ ε → σ × Chronicle ε α → Prop}
  {E : Instant → List RetryEvent → σ × Chronicle ε α → Ending ε α → Prop}
  (hstep : ∀ now past r world, J now past r world →
    (r.step w.chronicled draws now world).Keeps (J now) (E now) past)
  (hcancel : ∀ now, cancelledFrom.any (·.reached now) = true → ∀ past r world,
    J now past r world → r.options.hasToken = true →
      (r.cancel now world : Turn _ τ ε α _).Leaves (J now) (E now) past)
  (hwait : ∀ now past r world, J now past r world → r.IsWaiting w.chronicled now world →
    ∃ t ∈ r.timers w.chronicled, now.nanos < t.nanos ∧ t.nanos ≤ limit.nanos ∧
      ∀ next : Instant, now.nanos < next.nanos → next.nanos ≤ t.nanos → J next past r world)

include hstep hcancel hwait

/-- **A course settles as its invariant says.** `J` is what transitions
keep; while a run waits it holds up to the instant of some timer within
the limit, and `E` is what it comes to, and when. That a pending poll waits
takes that the attempts of each instant can be counted. -/
theorem followFor_settles (fuel : Nat) {past : List RetryEvent}
    {c : Course (σ × Chronicle ε α) τ ε α} (htracks : c.run.Tracks o draws past c.world.2)
    (h : J c.now past c.run c.world) (hfuel : limit.nanos - c.now.nanos < fuel)
    (hcrowd : (c.followFor w.chronicled draws cancelledFrom limit fuel).world.2.Uncrowded) :
    let e := c.followFor w.chronicled draws cancelledFrom limit fuel
    ∃ past, E e.now past e.world e.ending := by
  induction fuel generalizing past c with
  | zero => omega
  | succ n ih =>
    have hpoll : (c.run.poll w.chronicled draws c.now (cancelledFrom.any (·.reached c.now))
        c.world).Leaves (J c.now) (E c.now) past :=
      Run.poll_leaves (hstep c.now) (hcancel c.now) h
    have hfew : (c.pollNow w.chronicled draws cancelledFrom).world.2.Uncrowded :=
      hcrowd.of_prefix (starts_prefix_pollNow n c)
    rcases hending : (c.pollNow w.chronicled draws cancelledFrom).ending with
      _ | outcome | message <;>
      simp only [Turn.Leaves, show (c.run.poll w.chronicled draws c.now
        (cancelledFrom.any (·.reached c.now)) c.world).result = _ from hending] at hpoll
    · have hwaits := Run.isWaiting_of_poll htracks hending (hfew c.now)
      obtain ⟨t, hmem, hlater, hwithin, huntil⟩ := hwait _ _ _ _ hpoll hwaits
      have hdue : t ∈ (c.pollNow w.chronicled draws cancelledFrom).run.timers w.chronicled ++
          cancelledFrom.toList := List.mem_append_left _ hmem
      rcases hnext : earliestWithin c.now limit
        ((c.pollNow w.chronicled draws cancelledFrom).run.timers w.chronicled ++
          cancelledFrom.toList) with _ | next
      · exact absurd hnext (earliestWithin_ne_none hdue hlater hwithin)
      · have hearly := earliestWithin_le hnext hdue hlater hwithin
        have hmoves := (earliestWithin_bounds hnext).1
        rw [followFor_goesOn n hending hnext] at hcrowd ⊢
        exact ih (htracks.of_poll hending) (huntil next hmoves hearly) (by simp only; omega)
          hcrowd
    all_goals
      rw [followFor_ended n (by simp [hending])]
      exact ⟨_, hending ▸ hpoll⟩

/-- **A course from its beginning settles as its invariant says.** -/
theorem follow_settles {now : Instant} {world : σ} (h : J now [] (.new o) (world, .empty))
    (hcrowd : ((Course.begin o now (world, Chronicle.empty)).follow w.chronicled draws
      cancelledFrom limit).world.2.Uncrowded) :
    let e := (Course.begin o now (world, Chronicle.empty)).follow w.chronicled draws
      cancelledFrom limit
    ∃ past, E e.now past e.world e.ending := by
  have htracks : (Run.new o : Run τ ε).Tracks o draws [] (Chronicle.empty : Chronicle ε α) :=
    ⟨rfl, rfl, rfl, rfl, rfl⟩
  have hfuel : limit.nanos - now.nanos < limit.nanos - now.nanos + 1 := Nat.lt_succ_self _
  exact followFor_settles hstep hcancel hwait _
    (c := Course.begin o now (world, Chronicle.empty)) htracks h hfuel hcrowd

end

section

variable [Failure ε] {w : Work σ τ ε α} {draws : Draws} {cancelledFrom : Option Instant}
  {limit : Instant} {J : Instant → List RetryEvent → Run τ ε → σ → Prop}
  {E : List RetryEvent → σ → Ending ε α → Prop}
  (hstep : ∀ now past r world, J now past r world →
    (r.step w draws now world).Keeps (J now) E past)
  (hcancel : ∀ now, cancelledFrom.any (·.reached now) = true → ∀ past r world,
    J now past r world → r.options.hasToken = true →
      (r.cancel now world : Turn σ τ ε α _).Leaves (J now) E past)
  (hnext : ∀ now past r world next, J now past r world →
    earliestWithin now limit (r.timers w ++ cancelledFrom.toList) = some next →
      J next past r world)

include hstep hcancel hnext

/-- **A course that ends does so as its invariant says.** `J` is what
transitions keep, and what holds again where the run is polled next. -/
theorem followFor_comes (fuel : Nat) {past : List RetryEvent} {c : Course σ τ ε α}
    (h : J c.now past c.run c.world) (hgoing : c.ending = .pending)
    (hends : (c.followFor w draws cancelledFrom limit fuel).ending ≠ .pending) :
    ∃ past, E past (c.followFor w draws cancelledFrom limit fuel).world
      (c.followFor w draws cancelledFrom limit fuel).ending := by
  induction fuel generalizing past c with
  | zero => exact absurd hgoing hends
  | succ n ih =>
    have hpoll : (c.run.poll w draws c.now (cancelledFrom.any (·.reached c.now)) c.world).Leaves
        (J c.now) E past := Run.poll_leaves (hstep c.now) (hcancel c.now) h
    rcases hending : (c.pollNow w draws cancelledFrom).ending with _ | outcome | message <;>
      simp only [Turn.Leaves, show (c.run.poll w draws c.now
        (cancelledFrom.any (·.reached c.now)) c.world).result = _ from hending] at hpoll
    · rcases hdue : earliestWithin c.now limit
        ((c.pollNow w draws cancelledFrom).run.timers w ++ cancelledFrom.toList) with _ | next
      · rw [followFor_waits n hending hdue] at hends
        exact absurd hending hends
      · rw [followFor_goesOn n hending hdue] at hends ⊢
        exact ih (hnext _ _ _ _ _ hpoll hdue) hending hends
    all_goals
      rw [followFor_ended n (by simp [hending])]
      exact ⟨_, hending ▸ hpoll⟩

/-- **A course from its beginning that ends does so as its invariant
says.** -/
theorem follow_comes {o : RetryOptions} {first : Instant} {world : σ}
    (h : J first [] (.new o) world)
    (hends : ((Course.begin o first world).follow w draws cancelledFrom limit).ending ≠
      .pending) :
    let e := (Course.begin o first world).follow w draws cancelledFrom limit
    ∃ past, E past e.world e.ending :=
  followFor_comes hstep hcancel hnext _ (c := Course.begin o first world) h rfl hends

end

end Course

end ResilientCalls
