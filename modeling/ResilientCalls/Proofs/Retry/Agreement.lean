import ResilientCalls.Proofs.Retry.Outcome
/-!
# Blocking and non-blocking runs agree

A blocking run is given the attempts of a non-blocking one: each call ends
as the other run's attempt did, at the same reading of the clock. With no
cancellation in between, the blocking run then makes exactly these
attempts, asks for the same delays and ends in the same way. Both walk the
same standing, one transition at a time or one round of the loop at a
time.

There is one exception. A thread that a token can wake computes when its
sleep ends before it sleeps, and breaks down where the clock cannot count
so far; the timer of a non-blocking run is cut instead. The exception is
exact: a blocking run with a token breaks down if and only if the clock
cannot count to the end of one of the pauses, and agrees otherwise.
-/

namespace ResilientCalls

variable {σ τ ε α : Type}

/-- What an attempt that ends in this way shows. -/
def Trial.progress (t : Trial ε α) : Progress ε α :=
  match t.result with
  | .ok result => .finished result
  | .error message => .crashed message

/-- Blocking work that follows a script: each call ends as the next
attempt of the script. Threads may be woken for no reason, and nothing is
cancelled. -/
def BlockingWork.replay (wakeups : List (Trial ε α) → List Instant) :
    BlockingWork (List (Trial ε α)) ε α where
  call now script :=
    match script with
    | [] => (.waiting, now, [])
    | t :: rest => (t.progress, t.ended, rest)
  cancelledFrom _ := none
  wakeups := wakeups

/-- The clock can count to the end of every pause of a standing. -/
def Standing.PausesCount (s : Standing ε α) : Prop :=
  ∀ p ∈ s.pauses, (p.1.plus p.2).isCountable = true

variable [Failure ε]

/-! ## Pauses -/

namespace Standing

variable {p : RetryPolicy} {draws : Draws} {s : Standing ε α} {ts : List (Trial ε α)}

/-- Pauses are only added. -/
theorem PausesCount.of_afterAll (ts : List (Trial ε α))
    (h : (s.afterAll p draws ts).PausesCount) : s.PausesCount := by
  induction ts generalizing s with
  | nil => exact h
  | cons t ts ih =>
    intro pause hmem
    refine ih h pause ?_
    unfold after
    split
    · exact hmem
    · exact hmem
    · split
      · exact hmem
      · exact hmem
      · split
        · exact List.mem_append_left _ hmem
        · exact hmem
        · exact hmem

/-- The pauses of an open run begin at the ends of its attempts. -/
theorem pauses_of_isOpen (h : (s.afterAll p draws ts).IsOpen) :
    (s.afterAll p draws ts).pauses.map Prod.fst =
      s.pauses.map Prod.fst ++ ts.map Trial.ended := by
  induction ts generalizing s with
  | nil => simp
  | cons t ts ih =>
    obtain ⟨e, delay, -, -, hafter⟩ := isOpen_after (isOpen_of_afterAll h)
    rw [afterAll_cons, ih h, hafter]
    simp

/-- The attempt that ends a run asks for no pause. -/
theorem pauses_of_not_isOpen {t : Trial ε α} (h : ¬ (s.after p draws t).IsOpen) :
    (s.after p draws t).pauses = s.pauses := by
  by_cases hs : s.IsOpen
  · obtain ⟨m | e | v, ended⟩ := t
    · rw [after_crash hs]
    · rw [after_failure p draws hs] at h ⊢
      cases hdecision : afterFailure p s.invocation e ended (draws s.invocation.attempt) with
      | retry delay =>
        rw [hdecision] at h
        exact absurd rfl h
      | stop reason | overflow reason => rfl
    · rw [after_value hs]
  · rw [after_of_not_isOpen hs]

end Standing

/-! ## The loop over a script -/

namespace Blocking

variable {o : RetryOptions} {draws : Draws} (wakeups : List (Trial ε α) → List Instant)

omit [Failure ε] in
/-- A sleep that nothing cancels comes to its end. -/
theorem sleepUntil_none (wakeAt : Instant) (woken : List Instant) (now : Instant) :
    ∃ ended, sleepUntil wakeAt none woken now = (true, ended) := by
  induction woken generalizing now with
  | nil =>
    unfold sleepUntil
    simp only [tokenReads, Option.any_none, Bool.false_eq_true, if_false]
    split <;> exact ⟨_, rfl⟩
  | cons t woken ih =>
    unfold sleepUntil
    simp only [tokenReads, Option.any_none, Bool.false_eq_true, if_false]
    split
    · exact ⟨_, rfl⟩
    · exact ih _

/-- A round of the loop that ends in a retry. -/
theorem loop_replay_retry {i : Invocation} {t : Trial ε α} {e : ε} {delay : Duration}
    (hresult : t.result = .ok (.error e))
    (hdecision : afterFailure o.policy i e t.ended (draws i.attempt) = .retry delay)
    (fuel : Nat) (now : Instant) (script : List (Trial ε α)) :
    ∃ wake, loop (.replay wakeups) o draws (fuel + 1) i now (t :: script) =
      if o.hasToken = true ∧ (t.ended.plus delay).isCountable = false then
        ⟨t.ended, script, [.retrying i.attempt delay (Failure.text e)],
          .crashed Instant.overflowText⟩
      else
        let rest := loop (.replay wakeups) o draws fuel i.advance wake script
        { rest with events := .retrying i.attempt delay (Failure.text e) :: rest.events } := by
  have hcall : (BlockingWork.replay wakeups).call now (t :: script) =
      (.finished (.error e), t.ended, script) := by
    simp only [BlockingWork.replay, Trial.progress, hresult]
  simp only [loop, hcall, hdecision]
  cases htoken : o.hasToken with
  | false =>
    refine ⟨t.ended.plus delay, ?_⟩
    simp [sleep]
  | true =>
    cases hcount : (t.ended.plus delay).isCountable with
    | false => exact ⟨t.ended, by simp [sleep, Instant.plus?, hcount]⟩
    | true =>
      obtain ⟨wake, hwake⟩ := sleepUntil_none (t.ended.plus delay) (wakeups script) t.ended
      refine ⟨wake, ?_⟩
      simp [sleep, Instant.plus?, hcount, BlockingWork.replay, hwake]

/-- A round of the loop that ends the run. -/
theorem loop_replay_last {s : Standing ε α} {t : Trial ε α} (hs : s.IsOpen)
    (hclosed : ¬ (s.after o.policy draws t).IsOpen) (fuel : Nat) (now : Instant)
    (script : List (Trial ε α)) :
    (loop (.replay wakeups) o draws (fuel + 1) s.invocation now (t :: script)).ending =
        (s.after o.policy draws t).ending ∧
      (loop (.replay wakeups) o draws (fuel + 1) s.invocation now (t :: script)).world = script ∧
      RetryEvent.delays
        (loop (.replay wakeups) o draws (fuel + 1) s.invocation now (t :: script)).events = [] := by
  obtain ⟨m | e | v, ended⟩ := t
  · rw [Standing.after_crash hs]
    exact ⟨rfl, rfl, rfl⟩
  · rw [Standing.after_failure o.policy draws hs] at hclosed ⊢
    cases hdecision : afterFailure o.policy s.invocation e ended (draws s.invocation.attempt) with
    | retry delay =>
      rw [hdecision] at hclosed
      exact absurd rfl hclosed
    | stop reason | overflow reason =>
      simp [loop, BlockingWork.replay, Trial.progress, hdecision]
  · rw [Standing.after_value hs]
    refine ⟨rfl, rfl, ?_⟩
    simp [loop, BlockingWork.replay, Trial.progress]

/-- **The loop over a script walks the standing,** if no pause overflows.
The induction is on the attempts before the last. -/
theorem loop_replay_agrees {s : Standing ε α} (hs : s.IsOpen) {ts : List (Trial ε α)}
    {t : Trial ε α} (hopen : (s.afterAll o.policy draws ts).IsOpen)
    (hclosed : ¬ ((s.afterAll o.policy draws ts).after o.policy draws t).IsOpen)
    (hcount : o.hasToken = true →
      ((s.afterAll o.policy draws ts).after o.policy draws t).PausesCount)
    {fuel : Nat} (hfuel : ts.length < fuel) (now : Instant) (rest : List (Trial ε α)) :
    (loop (.replay wakeups) o draws fuel s.invocation now (ts ++ t :: rest)).ending =
        ((s.afterAll o.policy draws ts).after o.policy draws t).ending ∧
      (loop (.replay wakeups) o draws fuel s.invocation now (ts ++ t :: rest)).world = rest ∧
      s.delays ++ RetryEvent.delays
          (loop (.replay wakeups) o draws fuel s.invocation now (ts ++ t :: rest)).events =
        ((s.afterAll o.policy draws ts).after o.policy draws t).delays := by
  obtain ⟨fuel, rfl⟩ : ∃ n, fuel = n + 1 := ⟨fuel - 1, by omega⟩
  induction ts generalizing s fuel now with
  | nil =>
    rw [Standing.afterAll_nil] at hclosed ⊢
    obtain ⟨hending, hworld, hdelays⟩ := loop_replay_last wakeups hs hclosed fuel now rest
    refine ⟨hending, hworld, ?_⟩
    rw [List.nil_append, hdelays, List.append_nil, Standing.delays, Standing.delays,
      Standing.pauses_of_not_isOpen hclosed]
  | cons u ts ih =>
    rw [Standing.afterAll_cons] at hopen hclosed hcount
    have hu := Standing.isOpen_of_afterAll hopen
    obtain ⟨e, delay, hresult, hdecision, hafter⟩ := Standing.isOpen_after hu
    obtain ⟨wake, hround⟩ := loop_replay_retry wakeups hresult hdecision fuel now
      (ts ++ t :: rest)
    -- this round's pause is among those of the whole run, and the clock can count to its end
    have hthis : ¬ (o.hasToken = true ∧ (u.ended.plus delay).isCountable = false) := by
      rintro ⟨htoken, hfalse⟩
      have hpauses : (s.after o.policy draws u).PausesCount :=
        .of_afterAll (ts ++ [t]) (by simpa using hcount htoken)
      have hcountable := hpauses (u.ended, delay) (by rw [hafter]; simp)
      rw [hfalse] at hcountable
      cases hcountable
    obtain ⟨n, rfl⟩ : ∃ n, fuel = n + 1 := ⟨fuel - 1, by simp at hfuel; omega⟩
    have hrest := ih hu hopen hclosed hcount wake n (by simpa using hfuel)
    rw [List.cons_append, hround, if_neg hthis]
    rw [show (s.after o.policy draws u).invocation = s.invocation.advance by rw [hafter]] at hrest
    refine ⟨hrest.1, hrest.2.1, ?_⟩
    rw [Standing.afterAll_cons, ← hrest.2.2, RetryEvent.delays_retrying]
    simp [Standing.delays, hafter]

/-- **The loop over a script breaks down** at the first pause whose end
the clock cannot count to, on a thread that a token can wake. -/
theorem loop_replay_overflows (htoken : o.hasToken = true) {s : Standing ε α}
    (hcount : s.PausesCount) {ts : List (Trial ε α)} {t : Trial ε α}
    (hopen : (s.afterAll o.policy draws ts).IsOpen)
    (hoverflow : ¬ (s.afterAll o.policy draws ts).PausesCount)
    {fuel : Nat} (hfuel : ts.length < fuel) (now : Instant) (rest : List (Trial ε α)) :
    (loop (.replay wakeups) o draws fuel s.invocation now (ts ++ t :: rest)).ending =
      .crashed Instant.overflowText := by
  obtain ⟨fuel, rfl⟩ : ∃ n, fuel = n + 1 := ⟨fuel - 1, by omega⟩
  induction ts generalizing s fuel now with
  | nil => exact absurd hcount hoverflow
  | cons u ts ih =>
    rw [Standing.afterAll_cons] at hopen hoverflow
    have hu := Standing.isOpen_of_afterAll hopen
    obtain ⟨e, delay, hresult, hdecision, hafter⟩ := Standing.isOpen_after hu
    obtain ⟨wake, hround⟩ := loop_replay_retry wakeups hresult hdecision fuel now
      (ts ++ t :: rest)
    rw [List.cons_append, hround]
    by_cases hthis : o.hasToken = true ∧ (u.ended.plus delay).isCountable = false
    · rw [if_pos hthis]
    · -- the pause that overflows comes later, and those up to here do not
      rw [if_neg hthis]
      have hnext : (s.after o.policy draws u).PausesCount := by
        rw [hafter]
        intro pause hmem
        rcases List.mem_append.1 hmem with hold | hnew
        · exact hcount pause hold
        · obtain rfl := List.mem_singleton.1 hnew
          simpa [htoken] using hthis
      obtain ⟨n, rfl⟩ : ∃ n, fuel = n + 1 := ⟨fuel - 1, by simp at hfuel; omega⟩
      have hrest := ih hnext hopen hoverflow wake n (by simpa using hfuel)
      rw [show (s.after o.policy draws u).invocation = s.invocation.advance by rw [hafter]]
        at hrest
      exact hrest

/-- What is taken off a script is what the chronicle records, one attempt
for each call. -/
theorem loop_replay_script (fuel : Nat) (i : Invocation) (now : Instant)
    (script : List (Trial ε α)) (c : Chronicle ε α)
    (hended : (loop (BlockingWork.replay wakeups).chronicled o draws fuel i now
      (script, c)).ending ≠ .pending)
    (hcount : c.starts.length = c.trials.length) :
    (loop (BlockingWork.replay wakeups).chronicled o draws fuel i now
        (script, c)).world.2.trials ++
        (loop (BlockingWork.replay wakeups).chronicled o draws fuel i now (script, c)).world.1 =
      c.trials ++ script ∧
    (loop (BlockingWork.replay wakeups).chronicled o draws fuel i now
        (script, c)).world.2.starts.length =
      (loop (BlockingWork.replay wakeups).chronicled o draws fuel i now
        (script, c)).world.2.trials.length := by
  induction fuel generalizing i now script c with
  | zero => exact absurd rfl hended
  | succ n ih =>
    cases script with
    | nil => exact absurd rfl hended
    | cons t script =>
      obtain ⟨m | e | v, ended⟩ := t
      · simp [loop, BlockingWork.chronicled, BlockingWork.replay, Trial.progress, hcount]
      · have hcall : (BlockingWork.replay wakeups).chronicled.call now
            (⟨.ok (.error e), ended⟩ :: script, c) =
            (.finished (.error e), ended, script,
              (c.started now).closed ended (.ok (.error e))) := rfl
        simp only [loop, hcall, BlockingWork.chronicled_cancelledFrom,
          BlockingWork.chronicled_wakeups] at hended ⊢
        cases hdecision : afterFailure o.policy i e ended (draws i.attempt) with
        | stop reason | overflow reason => simp [hcount]
        | retry delay =>
          simp only [hdecision] at hended ⊢
          rcases hsleep : sleep o.hasToken ((BlockingWork.replay wakeups).cancelledFrom script)
            ((BlockingWork.replay wakeups).wakeups script) delay ended with _ | ⟨_ | _, wake⟩ <;>
            simp only [hsleep] at hended ⊢
          · simp [hcount]
          · simp [hcount]
          · have hrest := ih i.advance wake script _ hended (by simp [hcount])
            simpa using hrest
      · simp [loop, BlockingWork.chronicled, BlockingWork.replay, Trial.progress, hcount]

omit [Failure ε] in
theorem tokenReads_none (now : Instant) : tokenReads none now = false := rfl

/-- Nothing keeps a blocking run over a script from beginning. -/
theorem runWithin_replay (limit : Nat) (now : Instant) (script : List (Trial ε α)) :
    runWithin limit (.replay wakeups) o draws now script =
      loop (.replay wakeups) o draws limit (o.begin now) now script := by
  unfold runWithin
  rw [show (BlockingWork.replay wakeups).cancelledFrom script = none from rfl, tokenReads_none,
    Bool.and_false, if_neg Bool.false_ne_true]

/-- A blocking run over a script makes attempts of the script only, one
for each call. -/
theorem chronicle_replay {limit : Nat} {now : Instant} {script : List (Trial ε α)}
    (hended : (runWithin limit (.replay wakeups) o draws now script).ending ≠ .pending) :
    (chronicle limit (.replay wakeups) o draws now script).trials ++
        (runWithin limit (.replay wakeups) o draws now script).world = script ∧
      (chronicle limit (.replay wakeups) o draws now script).starts.length =
        (chronicle limit (.replay wakeups) o draws now script).trials.length := by
  have hloop : runWithin limit (BlockingWork.replay wakeups).chronicled o draws now
        (script, .empty) =
      loop (BlockingWork.replay wakeups).chronicled o draws limit (o.begin now) now
        (script, .empty) := by
    unfold runWithin
    rw [BlockingWork.chronicled_cancelledFrom,
      show (BlockingWork.replay wakeups).cancelledFrom script = none from rfl, tokenReads_none,
      Bool.and_false, if_neg Bool.false_ne_true]
  rw [runWithin_eq_forget] at hended ⊢
  unfold chronicle
  rw [hloop] at hended ⊢
  exact loop_replay_script wakeups limit (o.begin now) now script .empty hended rfl

end Blocking

/-! ## The two kinds of run -/

/-- A run that ends without a cancelled token is ended by its last
attempt. -/
theorem Run.closedByAttempt_of_uncancelled (o : RetryOptions) (draws : Draws) (w : Work σ τ ε α)
    {polls : List (Instant × Bool)} (world : σ) (hpolls : ∀ q ∈ polls, q.2 = false)
    (hended : ((Run.new o).pollEach w draws polls world).result ≠ .pending) :
    (Run.chronicle w draws polls o world).ClosedByAttempt o draws
      (RetryEvent.delays ((Run.new o).pollEach w draws polls world).events)
      ((Run.new o).pollEach w draws polls world).result := by
  have hcloses := Run.pollEach_closes o draws polls w world
  rw [Run.pollEach_eq_forget] at hended ⊢
  unfold Turn.Leaves at hcloses
  simp only [Turn.forget] at hended ⊢
  split at hcloses
  · rename_i hpending
    exact absurd hpending hended
  all_goals
    rename_i hresult
    rw [hresult]
    rcases hcloses with hattempt | ⟨now, hmem, -⟩
    · exact hattempt
    · exact absurd (hpolls _ hmem) (by simp)

/-- The clock can count to the end of every delay that was asked for, each
counted from the end of the attempt before it, if a token is watched. -/
def Chronicle.DelaysCount (o : RetryOptions) (c : Chronicle ε α) (delays : List Duration) :
    Prop :=
  o.hasToken = true →
    ∀ q ∈ (c.trials.map Trial.ended).zip delays, (q.1.plus q.2).isCountable = true

variable {o : RetryOptions} {draws : Draws} {c : Chronicle ε α}

omit [Failure ε] in
/-- The delays asked for, with the instants they begin at, are the
pauses. -/
theorem Standing.zip_delays {s : Standing ε α} {ends : List Instant}
    (h : s.pauses.map Prod.fst <+: ends) : ends.zip s.delays = s.pauses := by
  obtain ⟨rest, rfl⟩ := h
  have hlen : (s.pauses.map Prod.fst).length = s.delays.length := by simp [Standing.delays]
  rw [← List.append_nil s.delays, List.zip_append hlen, List.zip_nil_right, List.append_nil]
  exact (List.zip_of_prod rfl rfl).symm

omit [Failure ε] in
/-- The clock counts to the end of the delays asked for just when it counts
to the end of the pauses. -/
theorem Chronicle.delaysCount_iff {ts : List (Trial ε α)} {t : Trial ε α} {s : Standing ε α}
    (htrials : c.trials = ts ++ [t]) (hends : s.pauses.map Prod.fst = ts.map Trial.ended) :
    c.DelaysCount o s.delays ↔ (o.hasToken = true → s.PausesCount) := by
  have hfirst : s.pauses.map Prod.fst <+: c.trials.map Trial.ended := by
    rw [htrials, List.map_append, hends]
    exact List.prefix_append _ _
  unfold Chronicle.DelaysCount Standing.PausesCount
  rw [Standing.zip_delays hfirst]

namespace Chronicle.ClosedByAttempt

variable {delays : List Duration} {ending : Ending ε α}

/-- The attempts of a run that has come to its end: those that were
retried, and the one that was not. -/
theorem exists_last (h : c.ClosedByAttempt o draws delays ending) (hended : ending ≠ .pending) :
    ∃ ts t, c.trials = ts ++ [t] ∧
      ((Standing.initial (o.begin c.first)).afterAll o.policy draws ts).IsOpen ∧
      ¬ (c.standing o draws).IsOpen ∧
      c.standing o draws =
        ((Standing.initial (o.begin c.first)).afterAll o.policy draws ts).after o.policy draws t ∧
      (c.DelaysCount o delays ↔ (o.hasToken = true → (c.standing o draws).PausesCount)) := by
  obtain ⟨ts, t, htrials, hopen⟩ := h.wasOpen
  have hnot : ¬ (c.standing o draws).IsOpen := fun hpending =>
    hended (h.ending_eq.symm.trans hpending)
  have hstanding : c.standing o draws =
      ((Standing.initial (o.begin c.first)).afterAll o.policy draws ts).after o.policy draws t := by
    rw [standing, htrials, Standing.afterAll_append]
    rfl
  have hends : (c.standing o draws).pauses.map Prod.fst = ts.map Trial.ended := by
    rw [hstanding, Standing.pauses_of_not_isOpen (hstanding ▸ hnot),
      Standing.pauses_of_isOpen hopen]
    rfl
  refine ⟨ts, t, htrials, hopen, hnot, hstanding, ?_⟩
  rw [← h.delays_eq]
  exact delaysCount_iff htrials hends

variable (wakeups : List (Trial ε α) → List Instant) (rest : List (Trial ε α)) {limit : Nat}

/-- **A blocking run of the attempts agrees,** if the clock can count to
the end of every delay. -/
theorem replay_agrees (h : c.ClosedByAttempt o draws delays ending) (hended : ending ≠ .pending)
    (hlimit : c.trials.length ≤ limit) (hcount : c.DelaysCount o delays) :
    let b := Blocking.runWithin limit (.replay wakeups) o draws c.first (c.trials ++ rest)
    let d := Blocking.chronicle limit (.replay wakeups) o draws c.first (c.trials ++ rest)
    b.ending = ending ∧ d.trials = c.trials ∧ d.starts.length = c.starts.length ∧
      RetryEvent.delays b.events = delays := by
  intro b d
  obtain ⟨ts, t, htrials, hopen, hnot, hstanding, hpauses⟩ := h.exists_last hended
  have hfuel : ts.length < limit := by
    rw [htrials, List.length_append, List.length_singleton] at hlimit
    omega
  have hb : b = Blocking.loop (.replay wakeups) o draws limit
      (Standing.initial (o.begin c.first) : Standing ε α).invocation c.first
      (ts ++ t :: rest) := by
    rw [← List.singleton_append, ← List.append_assoc, ← htrials]
    exact Blocking.runWithin_replay wakeups limit c.first (c.trials ++ rest)
  obtain ⟨hending, hworld, hasked⟩ := Blocking.loop_replay_agrees wakeups
    (Standing.isOpen_initial (o.begin c.first)) hopen (hstanding ▸ hnot)
    (hstanding ▸ hpauses.1 hcount) hfuel c.first rest
  rw [← hb] at hending hworld hasked
  rw [← hstanding] at hending hasked
  have hresult : b.ending = ending := hending.trans h.ending_eq
  -- the script is consumed up to `rest`, so what was called is the chronicle's own attempts
  obtain ⟨htaken, hcalls⟩ := Blocking.chronicle_replay wakeups (hresult ▸ hended)
  rw [show (Blocking.runWithin limit (.replay wakeups) o draws c.first
    (c.trials ++ rest)).world = rest from hworld] at htaken
  have hsame : d.trials = c.trials := List.append_cancel_right htaken
  refine ⟨hresult, hsame, ?_, ?_⟩
  · rw [hcalls, h.complete]
    exact congrArg List.length hsame
  · rw [← h.delays_eq, ← hasked]
    rfl

/-- **A blocking run of the attempts breaks down** if a token is watched
and the clock cannot count to the end of some delay. -/
theorem replay_overflows (h : c.ClosedByAttempt o draws delays ending) (hended : ending ≠ .pending)
    (hlimit : c.trials.length ≤ limit) (hcount : ¬ c.DelaysCount o delays) :
    (Blocking.runWithin limit (.replay wakeups) o draws c.first (c.trials ++ rest)).ending =
      .crashed Instant.overflowText := by
  obtain ⟨ts, t, htrials, hopen, hnot, hstanding, hpauses⟩ := h.exists_last hended
  rw [hpauses, Classical.not_imp] at hcount
  obtain ⟨htoken, hoverflow⟩ := hcount
  have hfuel : ts.length < limit := by
    rw [htrials, List.length_append, List.length_singleton] at hlimit
    omega
  rw [Blocking.runWithin_replay, htrials, List.append_assoc, List.singleton_append]
  refine Blocking.loop_replay_overflows wakeups htoken ?_ hopen ?_ hfuel c.first rest
  · intro pause hmem
    cases hmem
  · -- the last attempt asks for no pause
    rwa [Standing.PausesCount, hstanding, Standing.pauses_of_not_isOpen (hstanding ▸ hnot)]
      at hoverflow

end Chronicle.ClosedByAttempt

/-- A run whose token is cancelled before its first poll makes no
attempt. -/
theorem Run.pollEach_cancelled (htoken : o.hasToken = true) (draws : Draws) (w : Work σ τ ε α)
    (polls : List (Instant × Bool)) (now : Instant) (world : σ) :
    ((Run.new o).pollEach w draws ((now, true) :: polls) world).result =
        .settled (.error (.cancelled none 0 .zero)) ∧
      (Run.chronicle w draws ((now, true) :: polls) o world).starts = [] := by
  have hread : ((Run.new o : Run τ ε).options.hasToken && true &&
      !(Run.new o : Run τ ε).phase.isSettled) = true := by
    simp [Run.new, htoken, Phase.isSettled]
  constructor
  · rw [Run.pollEach, Run.poll, if_pos hread]
    rfl
  · rw [Run.chronicle, Run.pollEach, Run.poll, if_pos hread]
    rfl

/-- A blocking run whose token is cancelled at its beginning makes none
either. -/
theorem Blocking.runWithin_cancelled (htoken : o.hasToken = true) (draws : Draws)
    (w : BlockingWork σ ε α) (limit : Nat) (now : Instant) (world : σ)
    (hread : tokenReads (w.cancelledFrom world) now = true) :
    (runWithin limit w o draws now world).ending = .settled (.error (.cancelled none 0 .zero)) ∧
      (chronicle limit w o draws now world).starts = [] := by
  have hstop : (o.hasToken && tokenReads (w.cancelledFrom world) now) = true := by
    rw [htoken, hread]
    rfl
  constructor
  · rw [runWithin, if_pos hstop]
  · rw [chronicle, runWithin, if_pos (by exact hstop)]
    rfl

/-- **A blocking run of a non-blocking run's attempts.** Whatever the work,
the policy, the draws and the clock: if no poll reads a cancelled token
and the run ends, then each of its attempts has ended, and a blocking run
over a script that begins with these attempts makes the same ones, asks
for the same delays and ends in the same way, unless a token is watched
and the clock cannot count to the end of some delay; then the blocking
run breaks down. A token that is cancelled before the beginning ends both
kinds of run without an attempt. -/
theorem blocking_agrees (o : RetryOptions) (draws : Draws) :
    (∀ (w : Work σ τ ε α) (polls : List (Instant × Bool)) (world : σ),
      (∀ q ∈ polls, q.2 = false) →
      ((Run.new o).pollEach w draws polls world).result ≠ .pending →
      (Run.chronicle w draws polls o world).starts.length =
        (Run.chronicle w draws polls o world).trials.length ∧
      ∀ (wakeups : List (Trial ε α) → List Instant) (rest : List (Trial ε α)) (limit : Nat),
        (Run.chronicle w draws polls o world).trials.length ≤ limit →
        let a := (Run.new o).pollEach w draws polls world
        let c := Run.chronicle w draws polls o world
        let b := Blocking.runWithin limit (.replay wakeups) o draws c.first (c.trials ++ rest)
        let d := Blocking.chronicle limit (.replay wakeups) o draws c.first (c.trials ++ rest)
        (c.DelaysCount o (RetryEvent.delays a.events) →
          b.ending = a.result ∧ d.trials = c.trials ∧ d.starts.length = c.starts.length ∧
            RetryEvent.delays b.events = RetryEvent.delays a.events) ∧
        (¬ c.DelaysCount o (RetryEvent.delays a.events) →
          b.ending = .crashed Instant.overflowText)) ∧
    (o.hasToken = true →
      (∀ (w : Work σ τ ε α) (polls : List (Instant × Bool)) (now : Instant) (world : σ),
        ((Run.new o).pollEach w draws ((now, true) :: polls) world).result =
            .settled (.error (.cancelled none 0 .zero)) ∧
          (Run.chronicle w draws ((now, true) :: polls) o world).starts = []) ∧
      (∀ (w : BlockingWork σ ε α) (limit : Nat) (now : Instant) (world : σ),
        Blocking.tokenReads (w.cancelledFrom world) now = true →
        (Blocking.runWithin limit w o draws now world).ending =
            .settled (.error (.cancelled none 0 .zero)) ∧
          (Blocking.chronicle limit w o draws now world).starts = [])) := by
  refine ⟨?_, fun htoken => ⟨?_, ?_⟩⟩
  · intro w polls world hpolls hended
    have hclosed := Run.closedByAttempt_of_uncancelled o draws w world hpolls hended
    refine ⟨hclosed.complete, ?_⟩
    intro wakeups rest limit hlimit
    exact ⟨fun hcount => hclosed.replay_agrees wakeups rest hended hlimit hcount,
      fun hcount => hclosed.replay_overflows wakeups rest hended hlimit hcount⟩
  · intro w polls now world
    exact Run.pollEach_cancelled htoken draws w polls now world
  · intro w limit now world hread
    exact Blocking.runWithin_cancelled htoken draws w limit now world hread

/-- Both kinds of run make two attempts a tenth of a second apart and use
them up; with a cancelled token they make none. -/
theorem blocking_agrees_twoAttempts :
    let o := twoAttempts.withToken
    let polls : List (Instant × Bool) := [(⟨0⟩, false), (⟨100000000⟩, false)]
    let c := Run.chronicle unavailable .still polls o ()
    let b := Blocking.runWithin 2 (.replay fun _ => []) o .still c.first (c.trials ++ [])
    c.trials.length = 2 ∧
    b.ending = .settled (.error (.attemptsExhausted "UNAVAILABLE" 2 ⟨100000000⟩)) ∧
    RetryEvent.delays b.events = [⟨100000000⟩] ∧
    ((Run.new o).pollEach unavailable .still [(⟨0⟩, true)] ()).result =
      .settled (.error (.cancelled none 0 .zero)) ∧
    (Blocking.runWithin 2 { unavailableBlocking with cancelledFrom := fun _ => some ⟨0⟩ } o
      .still ⟨0⟩ ()).ending = .settled (.error (.cancelled none 0 .zero)) := by
  intro o polls c b
  have hagrees := blocking_agrees (σ := Unit) (τ := Unit) (ε := String) (α := Nat) o .still
  obtain ⟨-, hscript⟩ := hagrees.1 unavailable polls () (by decide) (by decide +kernel)
  have hlength : c.trials.length = 2 := by decide +kernel
  obtain ⟨hending, -, -, hdelays⟩ := (hscript (fun _ => []) [] 2 (le_of_eq hlength)).1
    (by unfold Chronicle.DelaysCount; decide +kernel)
  refine ⟨hlength, hending.trans (by decide +kernel), hdelays.trans (by decide +kernel), ?_, ?_⟩
  · exact ((hagrees.2 rfl).1 unavailable [] ⟨0⟩ ()).1
  · exact ((hagrees.2 rfl).2 { unavailableBlocking with cancelledFrom := fun _ => some ⟨0⟩ } 2
      ⟨0⟩ () (by decide)).1

/-- Two attempts with the longest pause that there is, and a token. -/
def longestPause : RetryOptions :=
  ⟨{ RetryPolicy.draft with
      initialInterval := .longest, maximumAttempts := 2, jitter := .zero }, none, true⟩

/-- Work that fails once. -/
def failsOnce : Work Nat Nat String Nat where
  start _ n := (.ok n, n + 1)
  look _ attempt n := (.finished (if attempt = 0 then .error "UNAVAILABLE" else .ok 1), n)
  timers _ := []

/-- **Past the end of the clock the two kinds of run part.** The options
are accepted and the token is never cancelled. The timer of the
non-blocking run is cut to thirty years, and its second attempt succeeds;
the blocking run breaks down before its first pause. -/
theorem blocking_overflows_longestPause :
    let polls : List (Instant × Bool) := [(⟨0⟩, false), (⟨946080000000000000⟩, false)]
    let c := Run.chronicle failsOnce .still polls longestPause 0
    longestPause.Accepted ∧
    ((Run.new longestPause).pollEach failsOnce .still polls 0).result = .settled (.ok 1) ∧
    (Blocking.runWithin 2 (.replay fun _ => []) longestPause .still c.first c.trials).ending =
      .crashed Instant.overflowText := by
  refine ⟨?_, by decide +kernel, by decide +kernel⟩
  unfold RetryOptions.Accepted
  decide +kernel

end ResilientCalls
