import ResilientCalls.Retry.Run
/-!
# Polls in a row

A run is a state machine, and what its transitions keep is kept by any
number of them, by a poll and by polls in a row. `Keeps` and `Leaves` say
this for an invariant of the run with its world and its past events, and a
condition that holds at the end. A poll may also find the token cancelled,
which ends the run from any state that the invariant admits.
-/

namespace ResilientCalls

variable {σ τ ε α : Type}

namespace Run

variable [Failure ε]

/-- Polls a run at one instant after the other, with a reading of the
token each, until it is no longer pending. -/
def pollEach (w : Work σ τ ε α) (draws : Draws) :
    List (Instant × Bool) → Run τ ε → σ → Turn σ τ ε α (Ending ε α)
  | [], r, world => ⟨r, world, [], .pending⟩
  | (now, cancelled) :: polls, r, world =>
    let t := r.poll w draws now cancelled world
    match t.result with
    | .pending =>
      let rest := pollEach w draws polls t.run t.world
      { rest with events := t.events ++ rest.events }
    | .settled _ | .crashed _ => t

/-- Polls in a row go on where the polls before them have left the run. -/
theorem pollEach_append (w : Work σ τ ε α) (draws : Draws) (first later : List (Instant × Bool))
    (r : Run τ ε) (world : σ) : r.pollEach w draws (first ++ later) world =
      match (r.pollEach w draws first world).result with
      | .pending =>
        let t := r.pollEach w draws first world
        let rest := t.run.pollEach w draws later t.world
        { rest with events := t.events ++ rest.events }
      | .settled _ | .crashed _ => r.pollEach w draws first world := by
  induction first generalizing r world with
  | nil => simp [pollEach]
  | cons q first ih =>
    obtain ⟨now, cancelled⟩ := q
    simp only [List.cons_append, pollEach]
    rcases hresult : (r.poll w draws now cancelled world).result with _ | outcome | message
    · simp only [ih]
      split
      · rename_i hpending
        simp [List.append_assoc]
      · rfl
      · rfl
    · simp [hresult]
    · simp [hresult]

end Run

section Lifting

variable (I : List RetryEvent → Run τ ε → σ → Prop)
  (E : List RetryEvent → σ → Ending ε α → Prop)

/-- A transition after `past` keeps `I`, or ends the run with `E`. -/
def Turn.Keeps (past : List RetryEvent) (t : Turn σ τ ε α (Move ε α)) : Prop :=
  match t.result with
  | .onward | .ends .pending => I (past ++ t.events) t.run t.world
  | .ends (.settled outcome) => E (past ++ t.events) t.world (.settled outcome)
  | .ends (.crashed message) => E (past ++ t.events) t.world (.crashed message)

/-- A poll after `past` leaves `I`, or ends the run with `E`. -/
def Turn.Leaves (past : List RetryEvent) (t : Turn σ τ ε α (Ending ε α)) : Prop :=
  match t.result with
  | .pending => I (past ++ t.events) t.run t.world
  | .settled outcome => E (past ++ t.events) t.world (.settled outcome)
  | .crashed message => E (past ++ t.events) t.world (.crashed message)

variable {I E} [Failure ε] {w : Work σ τ ε α} {draws : Draws}

/-- What transitions keep, any number of them leave. -/
theorem Run.steps_leaves {now : Instant}
    (hstep : ∀ past r world, I past r world → (r.step w draws now world).Keeps I E past)
    (fuel : Nat) {past : List RetryEvent} {r : Run τ ε} {world : σ} (h : I past r world) :
    (r.steps w draws now fuel world).Leaves I E past := by
  induction fuel generalizing past r world with
  | zero => simpa [Run.steps, Turn.Leaves] using h
  | succ n ih =>
    have hkeeps := hstep past r world h
    unfold Run.steps
    rcases hresult : (r.step w draws now world).result with _ | _ | outcome | message <;>
      simp only [Turn.Keeps, hresult] at hkeeps ⊢
    · have hrest := ih hkeeps
      simpa only [Turn.Leaves, List.append_assoc] using hrest
    all_goals exact hkeeps

/-- What transitions keep, a poll leaves, if cancelling ends with `E`. -/
theorem Run.poll_leaves {now : Instant} {cancelled : Bool}
    (hstep : ∀ past r world, I past r world → (r.step w draws now world).Keeps I E past)
    (hcancel : cancelled = true → ∀ past r world, I past r world →
      r.options.hasToken = true → (r.cancel now world : Turn σ τ ε α _).Leaves I E past)
    {past : List RetryEvent} {r : Run τ ε} {world : σ} (h : I past r world) :
    (r.poll w draws now cancelled world).Leaves I E past := by
  unfold Run.poll
  by_cases hread : (r.options.hasToken && cancelled && !r.phase.isSettled) = true
  · rw [if_pos hread]
    simp only [Bool.and_eq_true] at hread
    exact hcancel hread.1.2 past r world h hread.1.1
  · rw [if_neg hread]
    exact Run.steps_leaves hstep _ h

/-- **What transitions keep, polls in a row leave,** if cancelling ends
with `E` at every poll that reads a cancelled token. -/
theorem Run.pollEach_leaves {polls : List (Instant × Bool)}
    (hstep : ∀ now past r world, I past r world → (r.step w draws now world).Keeps I E past)
    (hcancel : ∀ now, (now, true) ∈ polls → ∀ past r world, I past r world →
      r.options.hasToken = true → (r.cancel now world : Turn σ τ ε α _).Leaves I E past)
    {past : List RetryEvent} {r : Run τ ε} {world : σ} (h : I past r world) :
    (r.pollEach w draws polls world).Leaves I E past := by
  induction polls generalizing past r world with
  | nil => simpa [Run.pollEach, Turn.Leaves] using h
  | cons q polls ih =>
    obtain ⟨now, cancelled⟩ := q
    have hpoll : (r.poll w draws now cancelled world).Leaves I E past := by
      refine Run.poll_leaves (hstep now) ?_ h
      rintro rfl
      exact hcancel now List.mem_cons_self
    unfold Run.pollEach
    rcases hresult : (r.poll w draws now cancelled world).result with _ | outcome | message <;>
      simp only [Turn.Leaves, hresult] at hpoll ⊢
    · have hrest := ih (fun now hmem => hcancel now (List.mem_cons_of_mem _ hmem)) hpoll
      simpa only [Turn.Leaves, List.append_assoc] using hrest
    all_goals exact hpoll

end Lifting

end ResilientCalls
