import ResilientCalls.Proofs.Retry.Polls
import ResilientCalls.Retry.Blocking
/-!
# The chronicle of a run

What a run does to its unit of work: when each attempt was started, and
how and when each attempt came to its end. The chronicle is kept in the
world, beside the work's own part, by work that behaves as the given one;
`forget` drops it again, and the run with a chronicle is then the run
without. What is said of a chronicle is therefore said of the run, and
needs nothing of the work.

An attempt that is given up while it is in flight is started and has no
end; it is the only kind that has none.
-/

namespace ResilientCalls

variable {σ τ ε α ρ : Type}

/-- An attempt that has come to its end: with a value, with a failure, or
broken down, and the reading of the clock then. -/
structure Trial (ε α : Type) where
  result : Except String (Except ε α)
  ended : Instant

/-- The attempts started and the attempts ended, each in order. -/
structure Chronicle (ε α : Type) where
  starts : List Instant
  trials : List (Trial ε α)

namespace Chronicle

/-- Nothing has been started. -/
def empty : Chronicle ε α := ⟨[], []⟩

/-- An attempt is started. -/
def started (now : Instant) (c : Chronicle ε α) : Chronicle ε α :=
  { c with starts := c.starts ++ [now] }

/-- The attempt in flight ends. -/
def closed (now : Instant) (result : Except String (Except ε α)) (c : Chronicle ε α) :
    Chronicle ε α :=
  { c with trials := c.trials ++ [⟨result, now⟩] }

/-- The attempt in flight is looked at. -/
def shown (now : Instant) (c : Chronicle ε α) : Progress ε α → Chronicle ε α
  | .waiting => c
  | .finished result => c.closed now (.ok result)
  | .crashed message => c.closed now (.error message)

/-- When the first attempt was started. -/
def first (c : Chronicle ε α) : Instant := c.starts.head?.getD .start

@[simp] theorem started_starts (now : Instant) (c : Chronicle ε α) :
    (c.started now).starts = c.starts ++ [now] := rfl

@[simp] theorem started_trials (now : Instant) (c : Chronicle ε α) :
    (c.started now).trials = c.trials := rfl

@[simp] theorem closed_starts (now : Instant) (result : Except String (Except ε α))
    (c : Chronicle ε α) : (c.closed now result).starts = c.starts := rfl

@[simp] theorem closed_trials (now : Instant) (result : Except String (Except ε α))
    (c : Chronicle ε α) : (c.closed now result).trials = c.trials ++ [⟨result, now⟩] := rfl

@[simp] theorem shown_waiting (now : Instant) (c : Chronicle ε α) :
    c.shown now .waiting = c := rfl

@[simp] theorem shown_finished (now : Instant) (result : Except ε α) (c : Chronicle ε α) :
    c.shown now (.finished result) = c.closed now (.ok result) := rfl

@[simp] theorem shown_crashed (now : Instant) (message : String) (c : Chronicle ε α) :
    c.shown now (.crashed message) = c.closed now (.error message) := rfl

@[simp] theorem first_empty_started (now : Instant) :
    ((empty : Chronicle ε α).started now).first = now := rfl

@[simp] theorem first_closed (now : Instant) (result : Except String (Except ε α))
    (c : Chronicle ε α) : (c.closed now result).first = c.first := rfl

/-- Only the first start is the first. -/
theorem first_started {c : Chronicle ε α} (h : c.starts ≠ []) (now : Instant) :
    (c.started now).first = c.first := by
  obtain ⟨starts, trials⟩ := c
  cases starts with
  | nil => exact absurd rfl h
  | cons t rest => rfl

end Chronicle

/-! ## Work that keeps a chronicle -/

namespace Work

/-- The work, with a chronicle kept beside its world. -/
def chronicled (w : Work σ τ ε α) : Work (σ × Chronicle ε α) τ ε α where
  start now world :=
    match w.start now world.1 with
    | (.ok attempt, inner) => (.ok attempt, inner, world.2.started now)
    | (.error message, inner) =>
      (.error message, inner, (world.2.started now).closed now (.error message))
  look now attempt world :=
    let seen := w.look now attempt world.1
    (seen.1, seen.2, world.2.shown now seen.1)
  timers := w.timers

variable {w : Work σ τ ε α} {now : Instant} {inner inner' : σ} {attempt : τ}
  {c : Chronicle ε α}

theorem chronicled_start_ok (h : w.start now inner = (.ok attempt, inner')) :
    w.chronicled.start now (inner, c) = (.ok attempt, inner', c.started now) := by
  simp only [chronicled, h]

theorem chronicled_start_error {message : String}
    (h : w.start now inner = (.error message, inner')) :
    w.chronicled.start now (inner, c) =
      (.error message, inner', (c.started now).closed now (.error message)) := by
  simp only [chronicled, h]

theorem chronicled_look {progress : Progress ε α}
    (h : w.look now attempt inner = (progress, inner')) :
    w.chronicled.look now attempt (inner, c) = (progress, inner', c.shown now progress) := by
  simp only [chronicled, h]

end Work

/-- The turn without the chronicle. -/
def Turn.forget (t : Turn (σ × Chronicle ε α) τ ε α ρ) : Turn σ τ ε α ρ :=
  ⟨t.run, t.world.1, t.events, t.result⟩

namespace Run

variable {w : Work σ τ ε α} {draws : Draws} {now : Instant} {r : Run τ ε}

theorem launch_chronicled (i : Invocation) (world : σ × Chronicle ε α) :
    (r.launch w.chronicled now i world).forget = r.launch w now i world.1 := by
  obtain ⟨inner, c⟩ := world
  rcases h : w.start now inner with ⟨message | attempt, inner'⟩
  · simp only [launch, h, Work.chronicled_start_error h, Turn.forget]
  · simp only [launch, h, Work.chronicled_start_ok h, Turn.forget]

variable [Failure ε]

theorem afterFailedAttempt_chronicled (i : Invocation) (e : ε) (world : σ × Chronicle ε α) :
    (r.afterFailedAttempt draws now i e world).forget =
      r.afterFailedAttempt draws now i e world.1 := by
  unfold afterFailedAttempt Turn.forget
  cases afterFailure r.options.policy i e now (draws i.attempt) <;> rfl

/-- The chronicle changes no transition. -/
theorem step_chronicled (world : σ × Chronicle ε α) :
    (r.step w.chronicled draws now world).forget = r.step w draws now world.1 := by
  obtain ⟨inner, c⟩ := world
  unfold step
  cases r.phase with
  | idle => exact launch_chronicled _ _
  | attempting attempt i =>
    rcases h : w.look now attempt inner with ⟨_ | ⟨e | v⟩ | m, inner'⟩ <;>
      simp only [h, Work.chronicled_look h]
    · rfl
    · exact afterFailedAttempt_chronicled _ _ _
    · rfl
    · rfl
  | backingOff timer i =>
    by_cases h : timer.reached now = true
    · simp only [if_pos h]
      exact launch_chronicled _ _
    · simp only [if_neg h]
      rfl
  | settled => rfl

/-- The chronicle changes no sequence of transitions. -/
theorem steps_chronicled (fuel : Nat) (world : σ × Chronicle ε α) :
    (r.steps w.chronicled draws now fuel world).forget = r.steps w draws now fuel world.1 := by
  induction fuel generalizing r world with
  | zero => rfl
  | succ n ih =>
    have hstep : (r.step w.chronicled draws now world).forget = r.step w draws now world.1 :=
      step_chronicled world
    simp only [steps, ← hstep]
    rcases hresult : (r.step w.chronicled draws now world).result with _ | ending
    · have hrest := ih (r := (r.step w.chronicled draws now world).run)
        (r.step w.chronicled draws now world).world
      simp only [Turn.forget, hresult] at hrest ⊢
      rw [← hrest]
    · simp only [Turn.forget, hresult]

/-- **The chronicle changes no poll.** -/
theorem poll_chronicled (cancelled : Bool) (world : σ × Chronicle ε α) :
    (r.poll w.chronicled draws now cancelled world).forget =
      r.poll w draws now cancelled world.1 := by
  unfold poll
  split
  · rfl
  · exact steps_chronicled _ _

/-- **The chronicle changes no polls in a row.** -/
theorem pollEach_chronicled (polls : List (Instant × Bool)) (world : σ × Chronicle ε α) :
    (r.pollEach w.chronicled draws polls world).forget = r.pollEach w draws polls world.1 := by
  induction polls generalizing r world with
  | nil => rfl
  | cons p polls ih =>
    obtain ⟨now, cancelled⟩ := p
    have hpoll : (r.poll w.chronicled draws now cancelled world).forget =
        r.poll w draws now cancelled world.1 := poll_chronicled cancelled world
    simp only [pollEach, ← hpoll]
    -- the rest of the polls begins in the world that this poll has left
    have hrest := ih (r := (r.poll w.chronicled draws now cancelled world).run)
      (r.poll w.chronicled draws now cancelled world).world
    rcases hresult : (r.poll w.chronicled draws now cancelled world).result with _ | _ | _
    · simp only [Turn.forget, hresult] at hrest ⊢
      rw [← hrest]
    all_goals simp only [Turn.forget, hresult]

/-- A run from its beginning is the one that keeps a chronicle, without
it. -/
theorem pollEach_eq_forget (w : Work σ τ ε α) (draws : Draws) (polls : List (Instant × Bool))
    (o : RetryOptions) (world : σ) : (Run.new o).pollEach w draws polls world =
      ((Run.new o).pollEach w.chronicled draws polls (world, .empty)).forget :=
  (pollEach_chronicled polls (world, .empty)).symm

/-- The chronicle of a run that is polled from its beginning. -/
def chronicle (w : Work σ τ ε α) (draws : Draws) (polls : List (Instant × Bool))
    (o : RetryOptions) (world : σ) : Chronicle ε α :=
  ((Run.new o).pollEach w.chronicled draws polls (world, .empty)).world.2

end Run

/-! ## Blocking work that keeps a chronicle -/

namespace BlockingWork

/-- The work, with a chronicle kept beside its world. -/
def chronicled (w : BlockingWork σ ε α) : BlockingWork (σ × Chronicle ε α) ε α where
  call now world :=
    let made := w.call now world.1
    (made.1, made.2.1, made.2.2, (world.2.started now).shown made.2.1 made.1)
  cancelledFrom world := w.cancelledFrom world.1
  wakeups world := w.wakeups world.1

theorem chronicled_call {w : BlockingWork σ ε α} {now ended : Instant} {inner inner' : σ}
    {c : Chronicle ε α} {progress : Progress ε α}
    (h : w.call now inner = (progress, ended, inner')) :
    w.chronicled.call now (inner, c) =
      (progress, ended, inner', (c.started now).shown ended progress) := by
  simp only [chronicled, h]

@[simp] theorem chronicled_cancelledFrom (w : BlockingWork σ ε α) (world : σ × Chronicle ε α) :
    w.chronicled.cancelledFrom world = w.cancelledFrom world.1 := rfl

@[simp] theorem chronicled_wakeups (w : BlockingWork σ ε α) (world : σ × Chronicle ε α) :
    w.chronicled.wakeups world = w.wakeups world.1 := rfl

end BlockingWork

/-- The end of a blocking run without the chronicle. -/
def BlockingEnd.forget (b : BlockingEnd (σ × Chronicle ε α) ε α) : BlockingEnd σ ε α :=
  ⟨b.now, b.world.1, b.events, b.ending⟩

namespace Blocking

variable [Failure ε] {w : BlockingWork σ ε α} {o : RetryOptions} {draws : Draws}

/-- The chronicle changes no loop. -/
theorem loop_chronicled (fuel : Nat) (i : Invocation) (now : Instant)
    (world : σ × Chronicle ε α) :
    (loop w.chronicled o draws fuel i now world).forget =
      loop w o draws fuel i now world.1 := by
  induction fuel generalizing i now world with
  | zero => rfl
  | succ n ih =>
    obtain ⟨inner, c⟩ := world
    rcases h : w.call now inner with ⟨_ | ⟨e | v⟩ | m, ended, inner'⟩ <;>
      simp only [loop, h, BlockingWork.chronicled_call h]
    · rfl
    · cases afterFailure o.policy i e ended (draws i.attempt) with
      | stop reason => rfl
      | overflow reason => rfl
      | retry delay =>
        simp only [BlockingWork.chronicled_cancelledFrom, BlockingWork.chronicled_wakeups]
        rcases sleep o.hasToken (w.cancelledFrom inner') (w.wakeups inner') delay ended with
          _ | ⟨_ | _, wake⟩
        · rfl
        · rfl
        · have hrest := ih i.advance wake (inner', (c.started now).shown ended
            (.finished (.error e)))
          simp only [BlockingEnd.forget] at hrest ⊢
          rw [← hrest]
    · rfl
    · rfl

/-- **The chronicle changes no blocking run.** -/
theorem runWithin_chronicled (limit : Nat) (now : Instant) (world : σ × Chronicle ε α) :
    (runWithin limit w.chronicled o draws now world).forget =
      runWithin limit w o draws now world.1 := by
  unfold runWithin
  by_cases h : (o.hasToken && tokenReads (w.cancelledFrom world.1) now) = true
  · have h' : (o.hasToken && tokenReads (w.chronicled.cancelledFrom world) now) = true := h
    rw [if_pos h, if_pos h']
    rfl
  · have h' : ¬ (o.hasToken && tokenReads (w.chronicled.cancelledFrom world) now) = true := h
    rw [if_neg h, if_neg h']
    exact loop_chronicled _ _ _ _

/-- A blocking run is the one that keeps a chronicle, without it. -/
theorem runWithin_eq_forget (limit : Nat) (w : BlockingWork σ ε α) (o : RetryOptions)
    (draws : Draws) (now : Instant) (world : σ) : runWithin limit w o draws now world =
      (runWithin limit w.chronicled o draws now (world, .empty)).forget :=
  (runWithin_chronicled limit now (world, .empty)).symm

/-- The chronicle of a blocking run that makes at most `limit` attempts. -/
def chronicle (limit : Nat) (w : BlockingWork σ ε α) (o : RetryOptions) (draws : Draws)
    (now : Instant) (world : σ) : Chronicle ε α :=
  (runWithin limit w.chronicled o draws now (world, .empty)).world.2

end Blocking

end ResilientCalls
