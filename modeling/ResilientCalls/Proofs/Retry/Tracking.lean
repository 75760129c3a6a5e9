import ResilientCalls.Proofs.Retry.Standing
/-!
# Every run stands where its attempts put it

A non-blocking run keeps its standing in pieces: the invocation in its
phase, the failure and the counter in fields of their own, the delays in
what it has reported. `Tracks` says that the pieces agree with the
chronicle. One transition keeps `Tracks` or closes the run as the last
attempt demands; polls only repeat transitions, and a token that is read
as cancelled closes the run where it stands. A blocking run is shown to
close in the same way, by induction on its loop, and may also break down
over a sleep whose end the clock cannot count to.
-/

namespace ResilientCalls

variable {σ τ ε α : Type}

/-! ## A non-blocking run -/

variable [Failure ε] {o : RetryOptions} {draws : Draws} {past : List RetryEvent}

/-- An open standing with the pieces that a run keeps of it. -/
structure Standing.Is (s : Standing ε α) (i : Invocation) (last : Option ε)
    (past : List RetryEvent) : Prop where
  isOpen : s.IsOpen
  invocation_eq : s.invocation = i
  last_eq : s.last = last
  delays_eq : s.delays = RetryEvent.delays past

/-- An attempt that asks for no pause and ends the standing closes the
run. -/
theorem Standing.Is.closes {c : Chronicle ε α} {i : Invocation} {last : Option ε}
    {now : Instant} {result : Except String (Except ε α)} {events : List RetryEvent}
    {ending : Ending ε α} (his : (c.standing o draws).Is i last past)
    (hcount : c.starts.length = c.trials.length + 1) (hevents : RetryEvent.delays events = [])
    (hpauses : ((c.standing o draws).after o.policy draws ⟨result, now⟩).pauses =
      (c.standing o draws).pauses)
    (hending : ((c.standing o draws).after o.policy draws ⟨result, now⟩).ending = ending) :
    (c.closed now result).ClosedByAttempt o draws (RetryEvent.delays (past ++ events)) ending where
  complete := by simpa using hcount
  wasOpen := ⟨c.trials, ⟨result, now⟩, rfl, his.isOpen⟩
  delays_eq := by
    rw [Chronicle.standing_closed, Standing.delays, hpauses, RetryEvent.delays_append, hevents,
      List.append_nil]
    exact his.delays_eq
  ending_eq := by rw [Chronicle.standing_closed, hending]

/-- What follows a failure is decided at the invocation that the run keeps. -/
theorem Standing.Is.after_failure {c : Chronicle ε α} {i : Invocation} {last : Option ε}
    (his : (c.standing o draws).Is i last past) (e : ε) (ended : Instant) :
    let s := c.standing o draws
    s.after o.policy draws ⟨.ok (.error e), ended⟩ =
      match afterFailure o.policy i e ended (draws i.attempt) with
      | .retry delay => ⟨i.advance, s.pauses ++ [(ended, delay)], some e, .pending⟩
      | .stop reason =>
        { s with ending := .settled (.error (reason.toError e i.attempt (i.elapsed ended))) }
      | .overflow reason => { s with ending := .crashed reason.message } := by
  obtain ⟨hopen, rfl, -, -⟩ := his
  exact Standing.after_failure o.policy draws hopen e ended

/-- A retried failure leaves an open standing at the next attempt. -/
theorem Standing.Is.retried {c : Chronicle ε α} {i : Invocation} {last : Option ε} {e : ε}
    {ended : Instant} {delay : Duration} (his : (c.standing o draws).Is i last past)
    (hdecision : afterFailure o.policy i e ended (draws i.attempt) = .retry delay) :
    ((c.closed ended (.ok (.error e))).standing o draws).Is i.advance (some e)
      (past ++ [.retrying i.attempt delay (Failure.text e)]) := by
  have hafter := his.after_failure e ended
  rw [hdecision] at hafter
  rw [Chronicle.standing_closed, hafter]
  exact ⟨rfl, rfl, rfl, by simp [Standing.delays, ← his.delays_eq]⟩

namespace Run

/-- The run agrees with its chronicle; `past` is what it has reported. -/
def Tracks (o : RetryOptions) (draws : Draws) (past : List RetryEvent) (r : Run τ ε)
    (c : Chronicle ε α) : Prop :=
  r.options = o ∧ r.attempts = c.starts.length % (maxCount32 + 1) ∧
    match r.phase with
    | .idle => c = .empty ∧ r.lastError = none ∧ RetryEvent.delays past = []
    | .attempting _ i =>
      c.starts.length = c.trials.length + 1 ∧ (c.standing o draws).Is i r.lastError past
    | .backingOff _ i =>
      c.starts ≠ [] ∧ c.starts.length = c.trials.length ∧
        (c.standing o draws).Is i.advance r.lastError past
    | .settled => False

/-- A run that has closed: by its last attempt, or by a cancelled token at
one of the polls. -/
def Closes (o : RetryOptions) (draws : Draws) (polls : List (Instant × Bool))
    (past : List RetryEvent) (c : Chronicle ε α) (ending : Ending ε α) : Prop :=
  c.ClosedByAttempt o draws (RetryEvent.delays past) ending ∨
    ∃ now, (now, true) ∈ polls ∧ c.ClosedByToken o draws now ending

/-- The run agrees with the chronicle in its world. -/
abbrev TracksWorld (o : RetryOptions) (draws : Draws) (past : List RetryEvent) (r : Run τ ε)
    (world : σ × Chronicle ε α) : Prop :=
  r.Tracks o draws past world.2

/-- A run with the chronicle in its world has closed. -/
abbrev ClosesWorld (o : RetryOptions) (draws : Draws) (polls : List (Instant × Bool))
    (past : List RetryEvent) (world : σ × Chronicle ε α) (ending : Ending ε α) : Prop :=
  Closes o draws polls past world.2 ending

variable {polls : List (Instant × Bool)} {w : Work σ τ ε α} {now : Instant} {r : Run τ ε}

/-- A run that agrees with its chronicle has not settled. -/
theorem Tracks.isSettled_eq_false {c : Chronicle ε α} (h : r.Tracks o draws past c) :
    r.phase.isSettled = false := by
  obtain ⟨-, -, hphase⟩ := h
  cases hp : r.phase with
  | settled => simp only [hp] at hphase
  | idle | attempting | backingOff => rfl

/-- A run that agrees with its chronicle stands open, and keeps its last
failure. -/
theorem Tracks.stands {c : Chronicle ε α} (h : r.Tracks o draws past c) :
    (c.standing o draws).IsOpen ∧ (c.standing o draws).last = r.lastError := by
  obtain ⟨-, -, hphase⟩ := h
  cases hp : r.phase with
  | idle =>
    simp only [hp] at hphase
    obtain ⟨rfl, hlast, -⟩ := hphase
    exact ⟨rfl, hlast.symm⟩
  | attempting attempt i =>
    simp only [hp] at hphase
    exact ⟨hphase.2.isOpen, hphase.2.last_eq⟩
  | backingOff timer i =>
    simp only [hp] at hphase
    exact ⟨hphase.2.2.isOpen, hphase.2.2.last_eq⟩
  | settled =>
    simp only [hp] at hphase

/-- An attempt is started from a standing that the chronicle has with its
start. -/
theorem launch_keeps {i : Invocation} {world : σ × Chronicle ε α} (ho : r.options = o)
    (hattempts : r.attempts = world.2.starts.length % (maxCount32 + 1))
    (hcount : world.2.starts.length = world.2.trials.length)
    (his : ((world.2.started now).standing o draws).Is i r.lastError past) :
    (r.launch w.chronicled now i world).Keeps (TracksWorld o draws)
      (ClosesWorld o draws polls) past := by
  have hissued : (r.attempts + 1) % (maxCount32 + 1) =
      (world.2.starts.length + 1) % (maxCount32 + 1) := by
    rw [hattempts, Nat.mod_add_mod]
  obtain ⟨inner, c⟩ := world
  rcases h : w.start now inner with ⟨message | attempt, inner'⟩
  · -- an attempt that breaks down on the way is counted, started and ended at once
    simp only [launch, Work.chronicled_start_error h, Turn.Keeps]
    refine Or.inl (his.closes (by simp [hcount]) (RetryEvent.delays_starting _) ?_ ?_) <;>
      rw [Standing.after_crash his.isOpen]
  · simp only [launch, Work.chronicled_start_ok h, Turn.Keeps]
    refine ⟨ho, by simpa using hissued, by simp [hcount], his.isOpen, his.invocation_eq,
      his.last_eq, ?_⟩
    simpa using his.delays_eq

/-- What the run does after a failed attempt is what the standing does. -/
theorem afterFailedAttempt_keeps {i : Invocation} {e : ε} {inner : σ} {c : Chronicle ε α}
    (ho : r.options = o) (hattempts : r.attempts = c.starts.length % (maxCount32 + 1))
    (hcount : c.starts.length = c.trials.length + 1)
    (his : (c.standing o draws).Is i r.lastError past) :
    (r.afterFailedAttempt draws now i e
        (inner, c.shown now (.finished (.error e))) : Turn _ τ ε α _).Keeps (TracksWorld o draws)
      (ClosesWorld o draws polls) past := by
  unfold afterFailedAttempt
  subst ho
  have hafter := his.after_failure e now
  cases hdecision : afterFailure r.options.policy i e now (draws i.attempt) with
  | retry delay =>
    refine ⟨rfl, hattempts, ?_, by simpa [Chronicle.shown] using hcount, his.retried hdecision⟩
    simp only [Chronicle.shown, Chronicle.closed_starts]
    intro hnil
    simp [hnil] at hcount
  | stop reason | overflow reason =>
    rw [hdecision] at hafter
    refine Or.inl (his.closes hcount (by simp) ?_ ?_) <;> rw [hafter]

/-- **One transition keeps track of the chronicle,** or closes the run by
its last attempt. -/
theorem step_keeps {world : σ × Chronicle ε α} (h : r.Tracks o draws past world.2) :
    (r.step w.chronicled draws now world).Keeps (TracksWorld o draws)
      (ClosesWorld o draws polls) past := by
  obtain ⟨inner, c⟩ := world
  have htracks := h
  obtain ⟨ho, hattempts, hphase⟩ := h
  unfold step
  cases hp : r.phase with
  | idle =>
    simp only [hp] at hphase ⊢
    obtain ⟨rfl, hlast, hdelays⟩ := hphase
    refine launch_keeps ho hattempts rfl ?_
    rw [Chronicle.standing_empty_started, ho, hlast]
    exact ⟨rfl, rfl, rfl, hdelays.symm⟩
  | backingOff timer i =>
    simp only [hp] at hphase ⊢
    obtain ⟨hne, hcount, his⟩ := hphase
    by_cases hfired : timer.reached now = true
    · rw [if_pos hfired]
      refine launch_keeps ho hattempts hcount ?_
      -- a start decides nothing, so the standing is that of the failures so far
      rwa [Chronicle.standing_started hne]
    · rw [if_neg hfired]
      simpa [Turn.Keeps] using htracks
  | attempting attempt i =>
    simp only [hp] at hphase ⊢
    obtain ⟨hcount, his⟩ := hphase
    rcases hlook : w.look now attempt inner with ⟨_ | ⟨e | v⟩ | m, inner'⟩ <;>
      simp only [Work.chronicled_look hlook]
    · simpa [Turn.Keeps, Chronicle.shown] using htracks
    · exact afterFailedAttempt_keeps ho hattempts hcount his
    · refine Or.inl (his.closes hcount (RetryEvent.delays_succeeded _ _) ?_ ?_) <;>
        rw [Standing.after_value his.isOpen]
    · refine Or.inl (his.closes hcount RetryEvent.delays_nil ?_ ?_) <;>
        rw [Standing.after_crash his.isOpen]
  | settled =>
    simp only [hp] at hphase

/-- A run that is cancelled is closed by the token where it stands. -/
theorem cancel_leaves {world : σ × Chronicle ε α} (hmem : (now, true) ∈ polls)
    (h : r.Tracks o draws past world.2) (htoken : r.options.hasToken = true) :
    (r.cancel now world : Turn _ τ ε α _).Leaves (TracksWorld o draws)
      (ClosesWorld o draws polls) past := by
  obtain ⟨inner, c⟩ := world
  obtain ⟨rfl, hattempts, hphase⟩ := h
  -- the counter of a run wraps around, the chronicle does not
  have hsmall : c.starts.length ≤ maxCount32 → r.attempts = c.starts.length := by
    intro hle
    rw [hattempts]
    exact Nat.mod_eq_of_lt (Nat.lt_succ_of_le hle)
  have hfirst := Chronicle.standing_firstAttempt r.options draws c
  simp only [cancel, Turn.Leaves]
  cases hp : r.phase with
  | idle =>
    simp only [hp] at hphase
    obtain ⟨rfl, hlast, -⟩ := hphase
    refine Or.inr ⟨now, hmem, htoken, rfl, r.attempts, hsmall, ?_⟩
    rw [hlast]
    rfl
  | attempting attempt i =>
    simp only [hp] at hphase
    obtain ⟨hcount, his⟩ := hphase
    have hne : c.starts ≠ [] := by
      intro hnil
      simp [hnil] at hcount
    refine Or.inr ⟨now, hmem, htoken, his.isOpen, r.attempts, hsmall, ?_⟩
    rw [if_neg hne, his.last_eq, ← hfirst, his.invocation_eq]
    rfl
  | backingOff timer i =>
    simp only [hp] at hphase
    obtain ⟨hne, hcount, his⟩ := hphase
    refine Or.inr ⟨now, hmem, htoken, his.isOpen, r.attempts, hsmall, ?_⟩
    rw [if_neg hne, his.last_eq, ← hfirst, his.invocation_eq]
    rfl
  | settled =>
    simp only [hp] at hphase

/-- **A run that is polled from its beginning** keeps track of its
chronicle until its last attempt or the token closes it. -/
theorem pollEach_closes (o : RetryOptions) (draws : Draws) (polls : List (Instant × Bool))
    (w : Work σ τ ε α) (world : σ) :
    ((Run.new o).pollEach w.chronicled draws polls (world, Chronicle.empty)).Leaves
      (TracksWorld o draws) (ClosesWorld o draws polls) [] :=
  pollEach_leaves (fun _ _ _ _ h => step_keeps h) (fun _ hmem _ _ _ h => cancel_leaves hmem h)
    ⟨rfl, rfl, rfl, rfl, rfl⟩

end Run

/-! ## A blocking run -/

namespace Blocking

/-- A sleep that is cut short reads a cancelled token. -/
theorem tokenReads_of_sleepUntil {wakeAt now ended : Instant} {cancelledFrom : Option Instant}
    {wakeups : List Instant}
    (h : sleepUntil wakeAt cancelledFrom wakeups now = (false, ended)) :
    tokenReads cancelledFrom ended = true := by
  induction wakeups generalizing now with
  | nil =>
    unfold sleepUntil at h
    split at h
    · rename_i hread
      obtain rfl : now = ended := congrArg Prod.snd h
      exact hread
    split at h
    · cases h
    · simp only [Prod.mk.injEq, Bool.not_eq_false'] at h
      rw [← h.2]
      exact h.1
  | cons woken wakeups ih =>
    unfold sleepUntil at h
    split at h
    · rename_i hread
      obtain rfl : now = ended := congrArg Prod.snd h
      exact hread
    split at h
    · cases h
    · exact ih h

/-- Only a sleep that the token watches is cut short. -/
theorem tokenReads_of_sleep {hasToken : Bool} {cancelledFrom : Option Instant}
    {wakeups : List Instant} {delay : Duration} {now ended : Instant}
    (h : sleep hasToken cancelledFrom wakeups delay now = some (false, ended)) :
    hasToken = true ∧ tokenReads cancelledFrom ended = true := by
  unfold sleep at h
  split at h
  · rename_i htoken
    obtain ⟨wakeAt, -, hsleep⟩ := Option.map_eq_some_iff.1 h
    exact ⟨htoken, tokenReads_of_sleepUntil hsleep⟩
  · cases h

/-- How a blocking run ends: it is still going, its last attempt closed
it, the token closed it, or it broke down over a sleep. -/
def Closes (o : RetryOptions) (draws : Draws) (w : BlockingWork σ ε α)
    (past : List RetryEvent) (b : BlockingEnd (σ × Chronicle ε α) ε α) : Prop :=
  b.ending = .pending ∨
    b.world.2.ClosedByAttempt o draws (RetryEvent.delays (past ++ b.events)) b.ending ∨
    (tokenReads (w.cancelledFrom b.world.1) b.now = true ∧
      b.world.2.ClosedByToken o draws b.now b.ending) ∨
    b.ending = .crashed Instant.overflowText

variable {w : BlockingWork σ ε α}

/-- **The loop closes as its attempts demand.** The invariant is that the
chronicle, with the start of the next attempt, stands at the attempt that
the loop is at. -/
theorem loop_closes (fuel : Nat) {i : Invocation} {now : Instant} {inner : σ}
    {c : Chronicle ε α} {last : Option ε} (hcount : c.starts.length = c.trials.length)
    (his : ((c.started now).standing o draws).Is i last past) :
    Closes o draws w past (loop w.chronicled o draws fuel i now (inner, c)) := by
  induction fuel generalizing i now inner c last past with
  | zero => exact Or.inl rfl
  | succ n ih =>
    have hstarted : (c.started now).starts.length = (c.started now).trials.length + 1 := by
      simp [hcount]
    rcases hcall : w.call now inner with ⟨_ | ⟨e | v⟩ | m, ended, inner'⟩ <;>
      simp only [loop, BlockingWork.chronicled_call hcall]
    · exact Or.inl rfl
    · have hafter := his.after_failure e ended
      cases hdecision : afterFailure o.policy i e ended (draws i.attempt) with
      | stop reason | overflow reason =>
        rw [hdecision] at hafter
        refine Or.inr (Or.inl ?_)
        refine his.closes hstarted (by simp) ?_ ?_ <;> rw [hafter]
      | retry delay =>
        have hnext := his.retried hdecision
        simp only [BlockingWork.chronicled_cancelledFrom, BlockingWork.chronicled_wakeups,
          Chronicle.shown_finished]
        rcases hsleep : sleep o.hasToken (w.cancelledFrom inner') (w.wakeups inner') delay ended
          with _ | ⟨_ | _, wake⟩
        · exact Or.inr (Or.inr (Or.inr rfl))
        · -- a sleep that the token cuts short reports the attempt before it
          obtain ⟨htoken, hread⟩ := tokenReads_of_sleep hsleep
          have hattempt := Chronicle.standing_attempt his.isOpen
          have hfirst := Chronicle.standing_firstAttempt o draws
            ((c.started now).closed ended (.ok (.error e)))
          rw [his.invocation_eq, Chronicle.started_trials] at hattempt
          rw [hnext.invocation_eq] at hfirst
          refine Or.inr (Or.inr (Or.inl ⟨hread, htoken, hnext.isOpen, i.attempt, ?_, ?_⟩))
          · intro hle
            simp only [Chronicle.closed_starts, hstarted,
              Chronicle.started_trials] at hle ⊢
            omega
          · simp only [hnext.last_eq, ← hfirst]
            simp [Invocation.elapsed, Invocation.advance]
        · have hrest : Closes o draws w (past ++ [.retrying i.attempt delay (Failure.text e)])
              (loop w.chronicled o draws n i.advance wake
                (inner', (c.started now).closed ended (.ok (.error e)))) :=
            ih (by simpa using hstarted) (by rwa [Chronicle.standing_started (by simp)])
          simpa only [Closes, List.append_assoc, List.singleton_append] using hrest
    · refine Or.inr (Or.inl ?_)
      refine his.closes hstarted (RetryEvent.delays_succeeded _ _) ?_ ?_ <;>
        rw [Standing.after_value his.isOpen]
    · refine Or.inr (Or.inl ?_)
      refine his.closes hstarted RetryEvent.delays_nil ?_ ?_ <;>
        rw [Standing.after_crash his.isOpen]

/-- **A blocking run closes as its attempts or the token demand.** -/
theorem runWithin_closes (limit : Nat) (w : BlockingWork σ ε α) (o : RetryOptions)
    (draws : Draws) (now : Instant) (inner : σ) :
    Closes o draws w [] (runWithin limit w.chronicled o draws now (inner, Chronicle.empty)) := by
  unfold runWithin
  by_cases hread : (o.hasToken && tokenReads (w.cancelledFrom inner) now) = true
  · rw [if_pos (by exact hread)]
    rw [Bool.and_eq_true] at hread
    exact Or.inr (Or.inr (Or.inl ⟨hread.2, hread.1, rfl, 0, fun _ => rfl, rfl⟩))
  · rw [if_neg (by exact hread)]
    have his : (((Chronicle.empty : Chronicle ε α).started now).standing o draws).Is
        (o.begin now) none [] := ⟨rfl, rfl, rfl, rfl⟩
    exact loop_closes limit rfl his

end Blocking

end ResilientCalls
