import ResilientCalls.Proofs.Retry.Termination
import ResilientCalls.Proofs.Retry.Timeline
/-!
# What a pending poll waits for

A poll makes transitions until something has to be waited for: the attempt
in flight, or a timer that has not fired. It also ends after a fixed
number of transitions, and then it may be pending with nothing to wait
for. Each transition that goes on starts an attempt at the instant of the
poll or ends one, so this takes more attempts, all started at that one
instant, than can be counted. Where the starts of each instant can be
counted, a pending poll waits.
-/

namespace ResilientCalls

variable {σ τ ε α : Type}

/-- At `now` the run waits: the attempt in flight was seen to wait, or the
timer has not fired. -/
def Run.IsWaiting (w : Work σ τ ε α) (now : Instant) (r : Run τ ε) (world : σ) : Prop :=
  match r.phase with
  | .attempting attempt _ => ∃ before, w.look now attempt before = (.waiting, world)
  | .backingOff timer _ => now.nanos < timer.nanos
  | .idle | .settled => False

namespace Run

variable [Failure ε] {w : Work σ τ ε α} {draws : Draws} {now : Instant} {r : Run τ ε}

omit [Failure ε] in
/-- **A run that waits** has seen the attempt in flight wait, or is before
its timer. -/
theorem IsWaiting.cases {world : σ × Chronicle ε α} (h : r.IsWaiting w.chronicled now world) :
    (∃ attempt i inner, r.phase = .attempting attempt i ∧
        (w.look now attempt inner).1 = .waiting ∧ r.timers w.chronicled = w.timers attempt) ∨
      ∃ timer i, r.phase = .backingOff timer i ∧ now.nanos < timer.nanos ∧
        r.timers w.chronicled = [timer] := by
  unfold IsWaiting at h
  cases hp : r.phase with
  | idle | settled => simp only [hp] at h
  | backingOff timer i =>
    simp only [hp] at h
    exact Or.inr ⟨timer, i, rfl, h, by simp only [timers, hp]⟩
  | attempting attempt i =>
    simp only [hp] at h
    obtain ⟨before, hlook⟩ := h
    refine Or.inl ⟨attempt, i, before.1, rfl, congrArg Prod.fst hlook, ?_⟩
    simp only [timers, hp, Work.chronicled]

/-- A pending transition finds the run waiting and leaves it as it is. -/
theorem isWaiting_of_step {world : σ}
    (h : (r.step w draws now world).result = .ends .pending) :
    (r.step w draws now world).run.IsWaiting w now (r.step w draws now world).world := by
  have hlaunch : ∀ i, (r.launch w now i world).result ≠ .ends .pending := by
    intro i
    rcases r.launch_cases w now i world with ⟨-, hresult⟩ | ⟨-, message, hresult⟩ <;>
      simp [hresult]
  unfold step at h ⊢
  cases hp : r.phase with
  | idle =>
    simp only [hp] at h
    exact absurd h (hlaunch _)
  | settled => simp [hp] at h
  | backingOff timer i =>
    simp only [hp] at h ⊢
    by_cases hfired : timer.reached now = true
    · rw [if_pos hfired] at h
      exact absurd h (hlaunch _)
    · rw [if_neg hfired]
      simp only [IsWaiting, hp]
      simpa [Instant.reached] using hfired
  | attempting attempt i =>
    simp only [hp] at h ⊢
    rcases hlook : w.look now attempt world with ⟨_ | ⟨e | v⟩ | m, world'⟩ <;>
      simp only [hlook] at h ⊢
    · simp only [IsWaiting, hp]
      exact ⟨world, hlook⟩
    · unfold afterFailedAttempt at h
      cases hdecision : afterFailure r.options.policy i e now (draws i.attempt) <;>
        simp [hdecision] at h
    · simp at h
    · simp at h

/-- **A pending poll waits, or has used up its transitions** on attempts
that it started, all at its own instant, and ended. -/
theorem isWaiting_or_spins (fuel : Nat) {world : σ × Chronicle ε α}
    (h : (r.steps w.chronicled draws now fuel world).result = .pending) :
    let t := r.steps w.chronicled draws now fuel world
    t.run.IsWaiting w.chronicled now t.world ∨
      ∃ m, t.world.2.starts = world.2.starts ++ List.replicate m now ∧
        t.world.2.progress = world.2.progress + fuel := by
  induction fuel generalizing r world with
  | zero => exact Or.inr ⟨0, by simp [steps], rfl⟩
  | succ n ih =>
    have hgrows : world.2.Grows now (r.step w.chronicled draws now world).result
        (r.step w.chronicled draws now world).world.2 := step_grows world
    have hwaits : (r.step w.chronicled draws now world).result = .ends .pending →
        (r.step w.chronicled draws now world).run.IsWaiting w.chronicled now
          (r.step w.chronicled draws now world).world := isWaiting_of_step
    rcases hstep : r.step w.chronicled draws now world with ⟨r', ⟨inner, c⟩, events, move⟩
    rw [hstep] at hgrows hwaits
    simp only [steps, hstep] at h ⊢
    cases hgrows with
    | stays ending | ended ending result =>
      obtain rfl : ending = .pending := h
      exact Or.inl (hwaits rfl)
    | brokeDown message => cases h
    | started =>
      -- an attempt more has been started
      rcases ih h with hwaiting | ⟨m, hstarts, hprogress⟩
      · exact Or.inl hwaiting
      · refine Or.inr ⟨m + 1, ?_, ?_⟩
        · rw [hstarts, List.append_assoc, List.singleton_append, ← List.replicate_succ]
        · rw [hprogress]
          simp only [Chronicle.progress, List.length_append, List.length_singleton]
          omega
    | retried e =>
      rcases ih h with hwaiting | ⟨m, hstarts, hprogress⟩
      · exact Or.inl hwaiting
      · refine Or.inr ⟨m, hstarts, ?_⟩
        rw [hprogress]
        simp only [Chronicle.progress, List.length_append, List.length_singleton]
        omega

variable {o : RetryOptions} {past : List RetryEvent}

/-- A poll that is pending did not read a cancelled token. -/
theorem poll_eq_steps {cancelled : Bool} {world : σ}
    (h : (r.poll w draws now cancelled world).result = .pending) :
    (r.options.hasToken && cancelled && !r.phase.isSettled) = false ∧
      r.poll w draws now cancelled world = r.steps w draws now stepLimit world := by
  unfold poll at h ⊢
  by_cases hread : (r.options.hasToken && cancelled && !r.phase.isSettled) = true
  · rw [if_pos hread] at h
    cases h
  · exact ⟨by simpa using hread, by rw [if_neg hread]⟩

/-- A run that tracks its chronicle still does after a pending poll. -/
theorem Tracks.of_poll {cancelled : Bool} {world : σ × Chronicle ε α}
    (htracks : r.Tracks o draws past world.2)
    (h : (r.poll w.chronicled draws now cancelled world).result = .pending) :
    (r.poll w.chronicled draws now cancelled world).run.Tracks o draws
      (past ++ (r.poll w.chronicled draws now cancelled world).events)
      (r.poll w.chronicled draws now cancelled world).world.2 := by
  have hleaves : (r.poll w.chronicled draws now cancelled world).Leaves (TracksWorld o draws)
      (ClosesWorld o draws [(now, true)]) past :=
    poll_leaves (fun _ _ _ hkept => step_keeps hkept)
      (fun _ _ _ _ hkept htoken => cancel_leaves List.mem_cons_self hkept htoken) htracks
  simpa only [Turn.Leaves, h] using hleaves

/-- **A pending poll waits,** if the attempts that start at its instant can
be counted. -/
theorem isWaiting_of_poll {cancelled : Bool} {world : σ × Chronicle ε α}
    (htracks : r.Tracks o draws past world.2)
    (h : (r.poll w.chronicled draws now cancelled world).result = .pending)
    (hcount : (r.poll w.chronicled draws now cancelled world).world.2.starts.count now ≤
      maxCount32) :
    (r.poll w.chronicled draws now cancelled world).run.IsWaiting w.chronicled now
      (r.poll w.chronicled draws now cancelled world).world := by
  have hbefore := htracks.follows.inFlight_le
  have hafter := (htracks.of_poll h).follows.ended_le
  have hsteps := (poll_eq_steps h).2
  rw [hsteps] at h hcount hafter ⊢
  rcases isWaiting_or_spins stepLimit h with hwaits | ⟨m, hstarts, hprogress⟩
  · exact hwaits
  · -- every second transition is a start, which makes too many at this instant
    exfalso
    have hlength := congrArg List.length hstarts
    rw [hstarts, List.count_append, List.count_replicate_self] at hcount
    rw [List.length_append, List.length_replicate] at hlength
    unfold Chronicle.progress at hprogress
    have hlimit : stepLimit = 3 * (maxCount32 + 1) := rfl
    omega

end Run

end ResilientCalls
