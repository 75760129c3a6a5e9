import ResilientCalls.Proofs.Retry.Outcome
import ResilientCalls.Proofs.Retry.Pacing
/-!
# Every run comes to an end

Work whose attempts all finish, under accepted options without jitter: a
run settles, and makes no more attempts than its bounds allow. A blocking
run is a loop, and each of its rounds keeps the next attempt allowed and
spaced, so the bound on the attempts bounds the rounds. A non-blocking run
is polled by a clock that goes on without end. A poll at which nothing is
due changes nothing; a poll at which the attempt has finished, or the
timer has fired, starts or ends an attempt, and there are only so many of
both.
-/

namespace ResilientCalls

variable {σ τ ε α : Type} {o : RetryOptions} {draws : Draws} {first now : Instant}

/-- Every call finishes, and takes no time back. -/
def BlockingWork.Finishes (w : BlockingWork σ ε α) : Prop :=
  ∀ now world, ∃ result ended world',
    w.call now world = (.finished result, ended, world') ∧ now.nanos ≤ ended.nanos

/-- Every attempt starts, and has finished from `endsAt` on; looking at it
breaks nothing. -/
structure Work.Finishes (w : Work σ τ ε α) (endsAt : τ → Instant) : Prop where
  starts : ∀ now world, ∃ attempt world', w.start now world = (.ok attempt, world')
  finishes : ∀ now attempt world, (endsAt attempt).nanos ≤ now.nanos →
    ∃ result world', w.look now attempt world = (.finished result, world')
  unbroken : ∀ now attempt world message world',
    w.look now attempt world ≠ (.crashed message, world')

/-- The attempts started and ended so far. -/
def Chronicle.progress (c : Chronicle ε α) : Nat := c.starts.length + c.trials.length

section

variable [Failure ε]

/-! ## Blocking runs -/

namespace Blocking

variable {w : BlockingWork σ ε α}

/-- **The loop settles.** Its next attempt is number `k + 1`; the attempts
left under the bound `N` are the rounds left. -/
theorem loop_settles (ho : o.Steady) (hw : w.Finishes) {N : Nat}
    (hN : ∀ n, o.Allows first n → n ≤ N) {k : Nat} {i : Invocation} {inner : σ}
    {c : Chronicle ε α} (fuel : Nat) (hattempt : i.attempt = min (k + 1) maxCount32)
    (hdeadline : i.deadline = o.effective first) (hallows : o.Allows first (k + 1))
    (hspaced : o.Spaced first k now) (hcount : c.starts.length = k) :
    o.Allows first
        (loop w.chronicled o draws fuel i now (inner, c)).world.2.starts.length ∧
      (N < k + fuel → ∃ outcome,
        (loop w.chronicled o draws fuel i now (inner, c)).ending = .settled outcome) := by
  induction fuel generalizing k i now inner c with
  | zero =>
    have hle := hN _ hallows
    refine ⟨?_, fun hfuel => absurd hfuel (by omega)⟩
    simp only [loop, hcount]
    exact hallows.mono (Nat.le_succ k)
  | succ n ih =>
    obtain ⟨result, ended, inner', hcall, hended⟩ := hw now inner
    have hstarts : (c.started now).starts.length = k + 1 := by simp [hcount]
    rcases result with e | v <;>
      simp only [loop, BlockingWork.chronicled_call hcall, Chronicle.shown_finished]
    · cases hdecision : afterFailure o.policy i e ended (draws i.attempt) with
      | overflow reason =>
        exact absurd hdecision (afterFailure_ne_overflow ho.noJitter i e ended _ reason)
      | stop reason => exact ⟨by rwa [Chronicle.closed_starts, hstarts], fun _ => ⟨_, rfl⟩⟩
      | retry delay =>
        obtain ⟨hnext, hlater, -, -⟩ :=
          spaced_of_retry ho hattempt hdeadline (hspaced.mono hended) hdecision
        have hadvance : i.advance.attempt = min (k + 1 + 1) maxCount32 := by
          simp only [Invocation.advance]
          omega
        simp only [sleep, ho.noToken, Bool.false_eq_true, if_false]
        have hclosed : ((c.started now).closed ended (.ok (.error e))).starts.length = k + 1 :=
          hstarts
        exact ⟨(ih hadvance hdeadline hnext hlater hclosed).1,
          fun hfuel => (ih hadvance hdeadline hnext hlater hclosed).2 (by omega)⟩
    · exact ⟨by rwa [Chronicle.closed_starts, hstarts], fun _ => ⟨_, rfl⟩⟩

/-- A blocking run settles within its bounds. -/
theorem runWithin_settles (ho : o.Steady) (hw : w.Finishes) {N : Nat}
    (hN : ∀ n, o.Allows now n → n ≤ N) (limit : Nat) (inner : σ) :
    o.Allows now (chronicle limit w o draws now inner).starts.length ∧
      (N < limit → ∃ outcome, (runWithin limit w o draws now inner).ending = .settled outcome) := by
  have hloop : runWithin limit w.chronicled o draws now (inner, .empty) =
      loop w.chronicled o draws limit (o.begin now) now (inner, .empty) := by
    rw [runWithin, ho.noToken, Bool.false_and, if_neg Bool.false_ne_true]
  rw [runWithin_eq_forget, chronicle, hloop]
  refine ⟨(loop_settles ho hw hN limit (k := 0) rfl rfl RetryOptions.allows_one
    RetryOptions.spaced_zero rfl).1, ?_⟩
  intro hlimit
  exact (loop_settles ho hw hN limit (k := 0) rfl rfl RetryOptions.allows_one
    RetryOptions.spaced_zero rfl).2 (by omega)

end Blocking

end

/-! ## Non-blocking runs -/

namespace Run

/-- At `now`, the attempt in flight is allowed and spaced, or the next one
is when the timer fires. -/
def Paces (o : RetryOptions) (first now : Instant) (r : Run τ ε) (c : Chronicle ε α) : Prop :=
  r.options = o ∧ first.nanos ≤ now.nanos ∧ c.trials.length ≤ c.starts.length ∧
    match r.phase with
    | .idle | .settled => False
    | .attempting _ i => ∃ k, c.starts.length = k + 1 ∧ c.trials.length = k ∧
        i.attempt = min (k + 1) maxCount32 ∧ i.deadline = o.effective first ∧
        o.Allows first (k + 1) ∧ o.Spaced first k now
    | .backingOff timer i => ∃ k, c.starts.length = k + 1 ∧ c.trials.length = k + 1 ∧
        i.attempt = min (k + 1) maxCount32 ∧ i.deadline = o.effective first ∧
        o.Allows first (k + 2) ∧ o.Spaced first (k + 1) timer

/-- When something happens next: the attempt in flight has finished, or the
timer fires. -/
def due (endsAt : τ → Instant) (r : Run τ ε) : Instant :=
  match r.phase with
  | .attempting attempt _ => endsAt attempt
  | .backingOff timer _ => timer
  | .idle | .settled => .start

variable {endsAt : τ → Instant} {r : Run τ ε} {c : Chronicle ε α}

/-- The pace is kept while time passes. -/
theorem Paces.mono {later : Instant} (h : r.Paces o first now c)
    (hle : now.nanos ≤ later.nanos) : r.Paces o first later c := by
  obtain ⟨ho, hfirst, hcount, hphase⟩ := h
  refine ⟨ho, by omega, hcount, ?_⟩
  cases hp : r.phase with
  | idle | settled => simp only [hp] at hphase
  | backingOff timer i => simpa only [hp] using hphase
  | attempting attempt i =>
    simp only [hp] at hphase ⊢
    obtain ⟨k, hstarts, htrials, hattempt, hdeadline, hallows, hspaced⟩ := hphase
    exact ⟨k, hstarts, htrials, hattempt, hdeadline, hallows, hspaced.mono hle⟩

/-- What a run has started is allowed. -/
theorem Paces.allows (h : r.Paces o first now c) : o.Allows first c.starts.length := by
  obtain ⟨-, -, -, hphase⟩ := h
  cases hp : r.phase with
  | idle | settled => simp only [hp] at hphase
  | attempting attempt i =>
    simp only [hp] at hphase
    obtain ⟨k, hstarts, -, -, -, hallows, -⟩ := hphase
    rwa [hstarts]
  | backingOff timer i =>
    simp only [hp] at hphase
    obtain ⟨k, hstarts, -, -, -, hallows, -⟩ := hphase
    rw [hstarts]
    exact hallows.mono (Nat.le_succ _)

/-- What a transition does to a run that keeps the pace: it waits for what
is due and changes nothing, or it goes on and makes progress, or the run
settles. -/
def Moves (o : RetryOptions) (first now : Instant) (endsAt : τ → Instant) (r : Run τ ε)
    (c : Chronicle ε α) (t : Turn (σ × Chronicle ε α) τ ε α (Move ε α)) : Prop :=
  match t.result with
  | .onward => t.run.Paces o first now t.world.2 ∧ c.progress < t.world.2.progress
  | .ends .pending => now.nanos < (r.due endsAt).nanos ∧ t.run = r ∧ t.world.2 = c
  | .ends (.settled _) => o.Allows first t.world.2.starts.length
  | .ends (.crashed _) => False

/-- What a poll does to it. -/
def Advances (o : RetryOptions) (first now : Instant) (endsAt : τ → Instant) (r : Run τ ε)
    (c : Chronicle ε α) (t : Turn (σ × Chronicle ε α) τ ε α (Ending ε α)) : Prop :=
  match t.result with
  | .pending => (now.nanos < (r.due endsAt).nanos ∧ t.run = r ∧ t.world.2 = c) ∨
      (t.run.Paces o first now t.world.2 ∧ c.progress < t.world.2.progress)
  | .settled _ => o.Allows first t.world.2.starts.length
  | .crashed _ => False

variable {w : Work σ τ ε α}

/-- The next attempt starts. -/
theorem launch_moves (ho : r.options = o) (hw : w.Finishes endsAt) {k : Nat} {i : Invocation}
    {inner : σ} (hfirst : first.nanos ≤ now.nanos) (hstarts : c.starts.length = k)
    (htrials : c.trials.length = k) (hattempt : i.attempt = min (k + 1) maxCount32)
    (hdeadline : i.deadline = o.effective first) (hallows : o.Allows first (k + 1))
    (hspaced : o.Spaced first k now) (s : Run τ ε) (d : Chronicle ε α)
    (hd : d.progress ≤ c.progress) :
    Moves o first now endsAt s d (r.launch w.chronicled now i (inner, c)) := by
  obtain ⟨attempt, inner', hstart⟩ := hw.starts now inner
  simp only [launch, Work.chronicled_start_ok hstart, Moves]
  refine ⟨⟨ho, hfirst, by simp [hstarts, htrials], k, ?_⟩, ?_⟩
  · exact ⟨by simp [hstarts], htrials, hattempt, hdeadline, hallows, hspaced⟩
  · simp only [Chronicle.progress, Chronicle.started_starts, Chronicle.started_trials,
      List.length_append, List.length_singleton] at hd ⊢
    omega

variable [Failure ε]

/-- **One transition of a run that keeps the pace.** -/
theorem step_moves (draws : Draws) (ho : o.Steady) (hw : w.Finishes endsAt)
    (hclock : o.Unhurried first) (inner : σ) (h : r.Paces o first now c) :
    Moves o first now endsAt r c (r.step w.chronicled draws now (inner, c)) := by
  obtain ⟨rfl, hfirst, hcount, hphase⟩ := h
  unfold step
  cases hp : r.phase with
  | idle | settled => simp only [hp] at hphase
  | backingOff timer i =>
    simp only [hp] at hphase ⊢
    obtain ⟨k, hstarts, htrials, hattempt, hdeadline, hallows, hspaced⟩ := hphase
    by_cases hfired : timer.reached now = true
    · rw [if_pos hfired]
      have hadvance : i.advance.attempt = min (k + 1 + 1) maxCount32 := by
        simp only [Invocation.advance]
        omega
      exact launch_moves rfl hw hfirst hstarts htrials hadvance hdeadline hallows
        (hspaced.mono (by simpa [Instant.reached] using hfired)) r c le_rfl
    · rw [if_neg hfired]
      refine ⟨?_, rfl, rfl⟩
      simpa [due, hp, Instant.reached] using hfired
  | attempting attempt i =>
    simp only [hp] at hphase ⊢
    obtain ⟨k, hstarts, htrials, hattempt, hdeadline, hallows, hspaced⟩ := hphase
    rcases hlook : w.look now attempt inner with ⟨_ | ⟨e | v⟩ | m, inner'⟩ <;>
      simp only [Work.chronicled_look hlook]
    · -- an attempt that shows nothing has not come to its end
      refine ⟨?_, rfl, rfl⟩
      by_contra hdue
      obtain ⟨result, world', hfinished⟩ := hw.finishes now attempt inner
        (by simpa [due, hp] using hdue)
      rw [hlook] at hfinished
      cases hfinished
    · unfold afterFailedAttempt
      cases hdecision : afterFailure r.options.policy i e now (draws i.attempt) with
      | overflow reason =>
        exact absurd hdecision (afterFailure_ne_overflow ho.noJitter i e now _ reason)
      | stop reason => simpa [Moves, hstarts] using hallows
      | retry delay =>
        obtain ⟨hnext, hlater, hlong, hends⟩ :=
          spaced_of_retry ho hattempt hdeadline hspaced hdecision
        refine ⟨⟨rfl, hfirst, by simp [hstarts, htrials], k, hstarts, by simp [htrials], hattempt,
          hdeadline, hnext, hlater.timer hclock hfirst hlong hends⟩, ?_⟩
        simp [Chronicle.progress]
    · simpa [Moves, hstarts] using hallows
    · exact absurd hlook (hw.unbroken now attempt inner m inner')

/-- Transitions after the first keep the pace, and no progress is lost. -/
theorem steps_keep (draws : Draws) (ho : o.Steady) (hw : w.Finishes endsAt)
    (hclock : o.Unhurried first) (m fuel : Nat) (past : List RetryEvent) {world : σ × Chronicle ε α}
    (h : r.Paces o first now world.2 ∧ m < world.2.progress) :
    (r.steps w.chronicled draws now fuel world).Leaves
      (fun _ r world => r.Paces o first now world.2 ∧ m < world.2.progress)
      (fun _ world ending => o.Allows first world.2.starts.length ∧
        ∃ outcome, ending = .settled outcome) past := by
  refine steps_leaves ?_ fuel h
  intro past r world hkept
  obtain ⟨inner, c⟩ := world
  have hmoves := step_moves draws ho hw hclock inner hkept.1
  unfold Moves at hmoves
  unfold Turn.Keeps
  rcases hresult : (r.step w.chronicled draws now (inner, c)).result with
    _ | _ | outcome | message <;> simp only [hresult] at hmoves ⊢
  · exact ⟨hmoves.1, lt_trans hkept.2 hmoves.2⟩
  · rw [hmoves.2.1, hmoves.2.2]
    exact hkept
  · exact ⟨hmoves, outcome, rfl⟩

/-- A poll that makes a first move advances the run. -/
theorem steps_advance (ho : o.Steady) (hw : w.Finishes endsAt) (hclock : o.Unhurried first)
    (fuel : Nat) {inner : σ} {s : Run τ ε} {d : Chronicle ε α}
    (hmoves : Moves o first now endsAt s d (r.step w.chronicled draws now (inner, c))) :
    Advances o first now endsAt s d (r.steps w.chronicled draws now (fuel + 1) (inner, c)) := by
  unfold Moves at hmoves
  unfold steps Advances
  rcases hresult : (r.step w.chronicled draws now (inner, c)).result with
    _ | _ | outcome | message <;> simp only [hresult] at hmoves ⊢
  · have hrest := steps_keep draws ho hw hclock d.progress fuel [] hmoves
    rcases hend : (steps w.chronicled draws now fuel
        (r.step w.chronicled draws now (inner, c)).run
        (r.step w.chronicled draws now (inner, c)).world).result with _ | outcome | message <;>
      simp only [Turn.Leaves, hend] at hrest ⊢
    · exact Or.inr hrest
    · exact hrest.1
    · obtain ⟨-, outcome, hcrash⟩ := hrest
      cases hcrash
  · exact Or.inl hmoves
  · exact hmoves

/-- **One poll of a run that keeps the pace.** -/
theorem poll_advances (draws : Draws) (ho : o.Steady) (hw : w.Finishes endsAt)
    (hclock : o.Unhurried first) (cancelled : Bool) (inner : σ) (h : r.Paces o first now c) :
    Advances o first now endsAt r c (r.poll w.chronicled draws now cancelled (inner, c)) := by
  have hread : ¬ (r.options.hasToken && cancelled && !r.phase.isSettled) = true := by
    rw [h.1, ho.noToken]
    simp
  rw [poll, if_neg hread]
  exact steps_advance ho hw hclock _ (step_moves draws ho hw hclock inner h)

/-- The first poll starts the first attempt. -/
theorem poll_new_advances (draws : Draws) (ho : o.Steady) (hw : w.Finishes endsAt)
    (hclock : o.Unhurried now) (cancelled : Bool) (inner : σ) :
    Advances o now now endsAt (new o) .empty
      ((new o : Run τ ε).poll w.chronicled draws now cancelled
        (inner, (.empty : Chronicle ε α))) := by
  have hread : ¬ ((new o : Run τ ε).options.hasToken && cancelled &&
      !(new o : Run τ ε).phase.isSettled) = true := by
    simp [new, ho.noToken]
  -- an idle run keeps no pace yet; its first transition is the launch itself
  have hlaunch : Moves o now now endsAt (new o) .empty
      ((new o : Run τ ε).launch w.chronicled now (o.begin now)
        (inner, (.empty : Chronicle ε α))) :=
    launch_moves (k := 0) rfl hw le_rfl rfl rfl rfl rfl RetryOptions.allows_one
      RetryOptions.spaced_zero _ _ le_rfl
  rw [poll, if_neg hread]
  exact steps_advance ho hw hclock _ hlaunch

/-! ## A clock that goes on -/

/-- Polls by a clock that never goes back and passes every instant. -/
structure Ticks (polls : Nat → Instant × Bool) : Prop where
  mono : ∀ j k, j ≤ k → (polls j).1.nanos ≤ (polls k).1.nanos
  unbounded : ∀ t : Instant, ∃ k, t.nanos ≤ (polls k).1.nanos

variable {polls : Nat → Instant × Bool}

/-- The polls from number `j` on, `n` of them. -/
def pollsFrom (polls : Nat → Instant × Bool) (j n : Nat) : List (Instant × Bool) :=
  (List.range' j n).map polls

theorem pollsFrom_succ (j n : Nat) :
    pollsFrom polls j (n + 1) = ((polls j).1, (polls j).2) :: pollsFrom polls (j + 1) n := by
  simp [pollsFrom, List.range'_succ]

theorem pollsFrom_add (j m n : Nat) :
    pollsFrom polls j (m + n) = pollsFrom polls j m ++ pollsFrom polls (j + m) n := by
  rw [pollsFrom, pollsFrom, pollsFrom, ← List.map_append, List.range'_append_1]

/-- A pending poll is followed by the next ones. -/
theorem pollEach_pollsFrom_succ {j n : Nat} {world : σ × Chronicle ε α}
    (h : (r.poll w.chronicled draws (polls j).1 (polls j).2 world).result = .pending) :
    let t := r.poll w.chronicled draws (polls j).1 (polls j).2 world
    let rest := t.run.pollEach w.chronicled draws (pollsFrom polls (j + 1) n) t.world
    r.pollEach w.chronicled draws (pollsFrom polls j (n + 1)) world =
      { rest with events := t.events ++ rest.events } := by
  rw [pollsFrom_succ, pollEach]
  simp only [h]

/-- A poll that settles the run is the last. -/
theorem pollEach_pollsFrom_settled {j n : Nat} {world : σ × Chronicle ε α}
    {outcome : Except (RetryError ε) α}
    (h : (r.poll w.chronicled draws (polls j).1 (polls j).2 world).result = .settled outcome) :
    r.pollEach w.chronicled draws (pollsFrom polls j (n + 1)) world =
      r.poll w.chronicled draws (polls j).1 (polls j).2 world := by
  rw [pollsFrom_succ, pollEach]
  simp only [h]

/-- No number of polls starts more attempts than are allowed. -/
theorem pollEach_allows (ho : o.Steady) (hw : w.Finishes endsAt) (hclock : o.Unhurried first)
    (hticks : Ticks polls) (n : Nat) {j : Nat} {inner : σ}
    (h : r.Paces o first (polls j).1 c) :
    o.Allows first (r.pollEach w.chronicled draws (pollsFrom polls j n)
      (inner, c)).world.2.starts.length := by
  induction n generalizing j r inner c with
  | zero => exact h.allows
  | succ n ih =>
    have hpoll := poll_advances draws ho hw hclock (polls j).2 inner h
    have hlater := hticks.mono j (j + 1) (Nat.le_succ j)
    unfold Advances at hpoll
    split at hpoll
    · rename_i hpending
      rw [pollEach_pollsFrom_succ hpending]
      rcases hpoll with ⟨-, hrun, hchronicle⟩ | ⟨hpaces, -⟩
      · exact ih (by rw [hrun, hchronicle]; exact h.mono hlater)
      · exact ih (hpaces.mono hlater)
    · rename_i outcome hsettled
      rw [pollEach_pollsFrom_settled hsettled]
      exact hpoll
    · exact hpoll.elim

/-- A run has settled, or has progressed beyond `m` and keeps the pace. -/
def Progresses (o : RetryOptions) (first later : Instant) (m : Nat)
    (t : Turn (σ × Chronicle ε α) τ ε α (Ending ε α)) : Prop :=
  (∃ outcome, t.result = .settled outcome) ∨
    t.result = .pending ∧ t.run.Paces o first later t.world.2 ∧ m < t.world.2.progress

/-- A single poll waits for what is due, or makes progress. -/
theorem pollEach_one (draws : Draws) (ho : o.Steady) (hw : w.Finishes endsAt)
    (hclock : o.Unhurried first) (hticks : Ticks polls) {j : Nat} (inner : σ)
    (h : r.Paces o first (polls j).1 c) :
    (∃ inner', (polls j).1.nanos < (r.due endsAt).nanos ∧
        (r.poll w.chronicled draws (polls j).1 (polls j).2 (inner, c)).result = .pending ∧
        (r.poll w.chronicled draws (polls j).1 (polls j).2 (inner, c)).run = r ∧
        (r.poll w.chronicled draws (polls j).1 (polls j).2 (inner, c)).world = (inner', c)) ∨
      Progresses o first (polls (j + 1)).1 c.progress
        (r.pollEach w.chronicled draws (pollsFrom polls j 1) (inner, c)) := by
  have hpoll := poll_advances draws ho hw hclock (polls j).2 inner h
  have hlater := hticks.mono j (j + 1) (Nat.le_succ j)
  unfold Advances at hpoll
  split at hpoll
  · rename_i hpending
    rcases hpoll with ⟨hdue, hrun, hchronicle⟩ | ⟨hpaces, hprogress⟩
    · exact Or.inl ⟨_, hdue, hpending, hrun, Prod.ext rfl hchronicle⟩
    · rw [pollEach_pollsFrom_succ hpending]
      exact Or.inr (Or.inr ⟨rfl, hpaces.mono hlater, hprogress⟩)
  · rename_i outcome hsettled
    rw [pollEach_pollsFrom_settled hsettled]
    exact Or.inr (Or.inl ⟨outcome, hsettled⟩)
  · exact hpoll.elim

/-- **Enough polls make progress:** they reach the instant at which
something is due. The induction is on the polls until then. -/
theorem pollEach_progresses (ho : o.Steady) (hw : w.Finishes endsAt) (hclock : o.Unhurried first)
    (hticks : Ticks polls) (n : Nat) {j : Nat} {inner : σ}
    (h : r.Paces o first (polls j).1 c)
    (hdue : (r.due endsAt).nanos ≤ (polls (j + n)).1.nanos) :
    ∃ m, Progresses o first (polls (j + m)).1 c.progress
      (r.pollEach w.chronicled draws (pollsFrom polls j m) (inner, c)) := by
  induction n generalizing j inner with
  | zero =>
    rcases pollEach_one draws ho hw hclock hticks inner h with
      ⟨inner', hearly, -⟩ | hprogresses
    · rw [Nat.add_zero] at hdue
      omega
    · exact ⟨1, hprogresses⟩
  | succ n ih =>
    rcases pollEach_one draws ho hw hclock hticks inner h with
      ⟨inner', -, hpending, hrun, hworld⟩ | hprogresses
    · have hlater := hticks.mono j (j + 1) (Nat.le_succ j)
      have hnext : ∃ m, Progresses o first (polls (j + 1 + m)).1 c.progress
          (r.pollEach w.chronicled draws (pollsFrom polls (j + 1) m) (inner', c)) :=
        ih (h.mono hlater) (by rwa [show j + 1 + n = j + (n + 1) by omega])
      obtain ⟨m, hm⟩ := hnext
      refine ⟨m + 1, ?_⟩
      rw [pollEach_pollsFrom_succ hpending, hrun, hworld]
      rw [show j + 1 + m = j + (m + 1) by omega] at hm
      exact hm
    · exact ⟨1, hprogresses⟩

/-- **The run settles.** Only so much progress is allowed; the induction is
on what is left of it. -/
theorem pollEach_settles (draws : Draws) (ho : o.Steady) (hw : w.Finishes endsAt)
    (hclock : o.Unhurried first) (hticks : Ticks polls) {N : Nat}
    (hN : ∀ n, o.Allows first n → n ≤ N) (left : Nat) {j : Nat} {inner : σ}
    (h : r.Paces o first (polls j).1 c) (hleft : 2 * N ≤ c.progress + left) :
    ∃ m outcome, (r.pollEach w.chronicled draws (pollsFrom polls j m)
      (inner, c)).result = .settled outcome := by
  have hgoesOn : ∀ (j : Nat) (r : Run τ ε) (inner : σ) (c : Chronicle ε α),
      r.Paces o first (polls j).1 c → ∃ m, Progresses o first (polls (j + m)).1 c.progress
        (r.pollEach w.chronicled draws (pollsFrom polls j m) (inner, c)) := by
    intro j r inner c h
    obtain ⟨k, hk⟩ := hticks.unbounded (r.due endsAt)
    exact pollEach_progresses ho hw hclock hticks k h
      (le_trans hk (hticks.mono k (j + k) (Nat.le_add_left k j)))
  induction left generalizing j r inner c with
  | zero =>
    obtain ⟨m, hsettled | ⟨-, hpaces, hprogress⟩⟩ := hgoesOn j r inner c h
    · exact ⟨m, hsettled⟩
    · -- each attempt progresses twice, by its start and by its end
      have hstarts := hN _ hpaces.allows
      have htrials := hpaces.2.2.1
      unfold Chronicle.progress at hprogress hleft
      omega
  | succ left ih =>
    obtain ⟨m, hsettled | ⟨hpending, hpaces, hprogress⟩⟩ := hgoesOn j r inner c h
    · exact ⟨m, hsettled⟩
    · obtain ⟨n, outcome, hsettled⟩ := ih hpaces (by omega)
      -- the later polls go on where the first `m` have left the run
      refine ⟨m + n, outcome, ?_⟩
      rw [pollsFrom_add, pollEach_append]
      simp only [hpending]
      exact hsettled

/-- A run that is polled from its beginning starts no more attempts than
are allowed, and settles. -/
theorem pollEach_new (ho : o.Steady) (hw : w.Finishes endsAt) (hticks : Ticks polls)
    (hclock : o.Unhurried (polls 0).1) {N : Nat}
    (hN : ∀ n, o.Allows (polls 0).1 n → n ≤ N) (inner : σ) :
    (∀ k, o.Allows (polls 0).1
      (Run.chronicle w draws (pollsFrom polls 0 k) o inner).starts.length) ∧
      ∃ k outcome, ((new o : Run τ ε).pollEach w draws (pollsFrom polls 0 k) inner).result =
        .settled outcome := by
  have hfirst := poll_new_advances draws ho hw hclock (polls 0).2 inner
  have hlater := hticks.mono 0 1 (Nat.zero_le 1)
  have hzero : o.Allows (polls 0).1 0 := RetryOptions.allows_one.mono (Nat.zero_le 1)
  unfold Advances at hfirst
  split at hfirst
  · rename_i hpending
    rcases hfirst with ⟨hearly, -⟩ | ⟨hpaces, -⟩
    · exact absurd hearly (Nat.not_lt_zero _)
    · constructor
      · intro k
        cases k with
        | zero => exact hzero
        | succ k =>
          rw [chronicle, pollEach_pollsFrom_succ hpending]
          exact pollEach_allows ho hw hclock hticks k (hpaces.mono hlater)
      · obtain ⟨m, outcome, hsettled⟩ := pollEach_settles draws ho hw hclock hticks hN
          (2 * N) (hpaces.mono hlater) (Nat.le_add_left _ _)
        refine ⟨m + 1, outcome, ?_⟩
        rw [pollEach_eq_forget, pollEach_pollsFrom_succ hpending]
        exact hsettled
  · rename_i outcome hsettled
    constructor
    · intro k
      cases k with
      | zero => exact hzero
      | succ k =>
        rw [chronicle, pollEach_pollsFrom_settled hsettled]
        exact hfirst
    · refine ⟨1, outcome, ?_⟩
      rw [pollEach_eq_forget, pollEach_pollsFrom_settled hsettled]
      exact hsettled
  · exact hfirst.elim

end Run

/-! ## Both kinds of run -/

/-- **No run goes on for ever.** Under accepted options without jitter,
with attempts that all finish, a blocking run settles, and so does a run
that is polled by a clock that goes on and cuts no delay short; neither
makes more attempts than the policy's number and the first delays that
fit before the effective deadline allow. -/
theorem retry_terminates [Failure ε] {policy : RetryPolicy} {deadline : Option Instant}
    (hnew : RetryOptions.new policy deadline = .ok o) (hjitter : o.policy.jitter.isZero = true)
    (hmax : o.policy.maximumAttempts ≤ maxCount32) (draws : Draws) :
    (∀ (w : BlockingWork σ ε α) (now : Instant) (world : σ), w.Finishes →
      (∀ limit, o.Allows now (Blocking.chronicle limit w o draws now world).starts.length) ∧
      ∃ N, ∀ limit, N < limit → ∃ outcome,
        (Blocking.runWithin limit w o draws now world).ending = .settled outcome) ∧
    (∀ (w : Work σ τ ε α) (endsAt : τ → Instant) (polls : Nat → Instant × Bool) (world : σ),
      w.Finishes endsAt → Run.Ticks polls → o.Unhurried (polls 0).1 →
      (∀ k, o.Allows (polls 0).1
        (Run.chronicle w draws (Run.pollsFrom polls 0 k) o world).starts.length) ∧
      ∃ k outcome, ((Run.new o : Run τ ε).pollEach w draws (Run.pollsFrom polls 0 k)
        world).result = .settled outcome) := by
  have ho := RetryOptions.steady_of_new hnew hjitter hmax
  constructor
  · intro w now world hw
    obtain ⟨N, hN⟩ := RetryOptions.exists_bound (RetryOptions.bounded_of_new hnew now)
    exact ⟨fun limit => (Blocking.runWithin_settles ho hw hN limit world).1,
      N, fun limit hlimit => (Blocking.runWithin_settles ho hw hN limit world).2 hlimit⟩
  · intro w endsAt polls world hw hticks hclock
    obtain ⟨N, hN⟩ := RetryOptions.exists_bound (RetryOptions.bounded_of_new hnew (polls 0).1)
    exact Run.pollEach_new ho hw hticks hclock hN world

/-- No limit on the attempts, but a quarter of a second for all of them. -/
def quarterSecond : RetryOptions :=
  ⟨{ RetryPolicy.draft with expiration := some (.ofMillis 250), jitter := .zero }, none, false⟩

/-- Polls every twentieth of a second. -/
def everyTwentieth (k : Nat) : Instant × Bool := (⟨k * 50000000⟩, false)

theorem ticks_everyTwentieth : Run.Ticks everyTwentieth where
  mono j k h := Nat.mul_le_mul_right _ h
  unbounded t := ⟨t.nanos, Nat.le_mul_of_pos_right _ (by decide)⟩

/-- Work that fails at once is given up after the quarter of a second. -/
theorem retry_terminates_quarterSecond :
    RetryOptions.new quarterSecond.policy none = .ok quarterSecond ∧
    (∀ limit, quarterSecond.Allows ⟨0⟩
      (Blocking.chronicle limit unavailableBlocking quarterSecond .still ⟨0⟩ ()).starts.length) ∧
    (∃ N, ∀ limit, N < limit → ∃ outcome,
      (Blocking.runWithin limit unavailableBlocking quarterSecond .still ⟨0⟩ ()).ending =
        .settled outcome) ∧
    ∃ k outcome, ((Run.new quarterSecond : Run Unit String).pollEach unavailable .still
      (Run.pollsFrom everyTwentieth 0 k) ()).result = .settled outcome := by
  have hnew : RetryOptions.new quarterSecond.policy none = .ok quarterSecond := by
    decide +kernel
  have hboth := retry_terminates (σ := Unit) (τ := Unit) (ε := String) (α := Nat) hnew
    (by decide +kernel) (by decide) .still
  obtain ⟨hallows, hsettles⟩ := hboth.1 unavailableBlocking ⟨0⟩ ()
    (fun now _ => ⟨.error "UNAVAILABLE", now, (), rfl, le_rfl⟩)
  have hclock : quarterSecond.Unhurried ⟨0⟩ := by
    refine RetryOptions.unhurried_of_le ?_
    intro d hd
    obtain rfl : (⟨250000000⟩ : Instant) = d := by
      rw [← Option.some.injEq, ← hd]
      decide +kernel
    decide
  have hw : unavailable.Finishes (fun _ => ⟨0⟩) :=
    ⟨fun _ _ => ⟨(), (), rfl⟩, fun _ _ _ _ => ⟨.error "UNAVAILABLE", (), rfl⟩,
      fun _ _ _ _ _ h => by cases h⟩
  exact ⟨hnew, hallows, hsettles,
    (hboth.2 unavailable (fun _ => ⟨0⟩) everyTwentieth () hw ticks_everyTwentieth hclock).2⟩

end ResilientCalls
