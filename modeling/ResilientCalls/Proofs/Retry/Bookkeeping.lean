import ResilientCalls.Proofs.Retry.Cancellation
import ResilientCalls.Proofs.Retry.Expiry
import ResilientCalls.Proofs.Retry.Waiting
/-!
# The books of a run

A run keeps four things beside its options: its phase with the invocation
in it, the last failure, the counter of attempts issued, and, while it
waits, a timer. `Accounts` says what each of them is in terms of the
chronicle, phase by phase. The attempts are told apart by two numbers that
stop differing only when 32 bits run out: the invocation stays at the
largest count, the counter starts again. An attempt is not started before
the timer that was set after the failure before it, which takes an
invariant over all the pauses: `Rests` carries them.
-/

namespace ResilientCalls

variable {σ τ ε α : Type}

variable [Failure ε] {o : RetryOptions} {draws : Draws} {past : List RetryEvent}
  {c : Chronicle ε α} {now : Instant}

/-! ## The first attempt -/

namespace Run

variable {w : Work σ τ ε α} {r : Run τ ε}

/-- The first attempt was started at `first`. -/
abbrev BegunAt (first : Instant) (world : σ × Chronicle ε α) : Prop :=
  world.2.starts.head? = some first

/-- The first start stays the first. -/
theorem step_begunAt {first : Instant} {world : σ × Chronicle ε α} (h : BegunAt first world) :
    (r.step w.chronicled draws now world).Keeps (fun _ _ => BegunAt first)
      (fun _ world _ => BegunAt first world) past := by
  refine step_keeps_grown (P := fun c => c.starts.head? = some first) ?_
  intro move c' hgrows
  obtain ⟨rest, hrest⟩ := hgrows.starts_prefix
  unfold BegunAt at h
  rw [← hrest, List.head?_append, h]
  rfl

/-- A first poll that is pending has started an attempt. -/
theorem begunAt_of_poll {cancelled : Bool} {world : σ}
    (h : ((Run.new o).poll w.chronicled draws now cancelled (world, .empty)).result = .pending) :
    BegunAt now ((Run.new o).poll w.chronicled draws now cancelled
      (world, Chronicle.empty)).world := by
  have hsteps := (poll_eq_steps h).2
  rw [show stepLimit = stepLimit - 1 + 1 from rfl, steps] at hsteps
  rw [hsteps] at h ⊢
  rcases hstart : w.start now world with ⟨message | attempt, inner⟩
  · simp [step, new, launch, Work.chronicled_start_error hstart] at h
  · simp only [step, new, launch, Work.chronicled_start_ok hstart] at h ⊢
    have hrest : (steps w.chronicled draws now (stepLimit - 1)
        ⟨o, .attempting attempt (o.begin now), none, (0 + 1) % (maxCount32 + 1)⟩
        (inner, Chronicle.empty.started now)).Leaves (fun _ _ => BegunAt now)
        (fun _ world _ => BegunAt now world) [] :=
      steps_leaves (fun _ _ _ => step_begunAt) (stepLimit - 1) rfl
    simpa only [Turn.Leaves, h] using hrest

/-- **The first attempt is started by the first poll.** -/
theorem begunAt_of_pollEach {cancelled : Bool} {polls : List (Instant × Bool)} {world : σ}
    (h : ((Run.new o).pollEach w.chronicled draws ((now, cancelled) :: polls)
      (world, .empty)).result = .pending) :
    BegunAt now ((Run.new o).pollEach w.chronicled draws ((now, cancelled) :: polls)
      (world, Chronicle.empty)).world := by
  unfold pollEach at h ⊢
  rcases hresult : ((Run.new o).poll w.chronicled draws now cancelled (world, .empty)).result
    with _ | outcome | message <;> simp only [hresult] at h ⊢
  · have hrest : (((Run.new o).poll w.chronicled draws now cancelled
        (world, Chronicle.empty)).run.pollEach w.chronicled draws polls
        ((Run.new o).poll w.chronicled draws now cancelled (world, Chronicle.empty)).world).Leaves
        (fun _ _ => BegunAt now) (fun _ world _ => BegunAt now world) [] :=
      pollEach_leaves (fun _ _ _ _ => step_begunAt) (fun _ _ _ _ _ hkept _ => hkept)
        (begunAt_of_poll hresult)
    simpa only [Turn.Leaves, h] using hrest
  all_goals cases h

end Run

/-! ## Timers -/

/-- No attempt was started before the timer of the pause before it. -/
def Chronicle.Waited (o : RetryOptions) (draws : Draws) (c : Chronicle ε α) : Prop :=
  ∀ (k : Nat) (q : Instant × Duration) (s : Instant), (c.standing o draws).pauses[k]? = some q →
    c.starts[k + 1]? = some s → (q.1.timer q.2).nanos ≤ s.nanos

/-- One more attempt asks for one more pause at most. -/
theorem Standing.pauses_after (p : RetryPolicy) (draws : Draws) (s : Standing ε α)
    (t : Trial ε α) : (s.after p draws t).pauses = s.pauses ∨
      ∃ delay, (s.after p draws t).pauses = s.pauses ++ [(t.ended, delay)] := by
  by_cases hopen : (s.after p draws t).IsOpen
  · obtain ⟨e, delay, -, -, hafter⟩ := isOpen_after hopen
    exact Or.inr ⟨delay, by rw [hafter]⟩
  · exact Or.inl (pauses_of_not_isOpen hopen)

namespace Chronicle

/-- An open run has paused after each of its attempts. -/
theorem length_pauses (h : (c.standing o draws).IsOpen) :
    (c.standing o draws).pauses.length = c.trials.length := by
  have hends := congrArg List.length (Standing.pauses_of_isOpen h)
  rw [List.length_map] at hends
  exact hends.trans (by simp [Standing.initial])

/-- An attempt may be started when the timer of the last pause has
fired. -/
theorem Waited.started (h : c.Waited o draws) (hne : c.starts ≠ [])
    (hfired : ∀ q, (c.standing o draws).pauses[c.starts.length - 1]? = some q →
      (q.1.timer q.2).nanos ≤ now.nanos) : (c.started now).Waited o draws := by
  intro k q s hq hs
  rw [standing_started hne] at hq
  have hpos : 0 < c.starts.length := List.length_pos_iff.2 hne
  rw [started_starts, List.getElem?_append] at hs
  split at hs
  · exact h k q s hq hs
  · rename_i hlast
    rw [List.getElem?_singleton] at hs
    split at hs
    · rename_i hzero
      obtain rfl := Option.some.inj hs
      obtain rfl : k = c.starts.length - 1 := by omega
      exact hfired q hq
    · cases hs

/-- The end of an attempt starts none. -/
theorem Waited.closed (h : c.Waited o draws) (hopen : (c.standing o draws).IsOpen)
    (hcount : c.starts.length ≤ c.trials.length + 1) (result : Except String (Except ε α)) :
    (c.closed now result).Waited o draws := by
  intro k q s hq hs
  have hlength := length_pauses hopen
  have hk : k + 1 < c.starts.length := (List.getElem?_eq_some_iff.1 hs).1
  have hold : (c.standing o draws).pauses[k]? = some q := by
    rw [standing_closed] at hq
    rcases Standing.pauses_after o.policy draws (c.standing o draws) ⟨result, now⟩ with
      hsame | ⟨delay, hmore⟩
    · rwa [hsame] at hq
    · rwa [hmore, List.getElem?_append_left (by omega)] at hq
  exact h k q s hold hs

end Chronicle

namespace Run

/-- While the run rests, its invocation is that of the attempt that failed
last, and its timer is that of the last pause; no attempt was started
before a timer. -/
structure Rests (o : RetryOptions) (draws : Draws) (r : Run τ ε) (c : Chronicle ε α) :
    Prop where
  waited : c.Waited o draws
  resting : ∀ timer i, r.phase = .backingOff timer i →
    i.attempt = min c.starts.length maxCount32 ∧
      ∃ q, (c.standing o draws).pauses[c.starts.length - 1]? = some q ∧ timer = q.1.timer q.2

variable {w : Work σ τ ε α} {r : Run τ ε}

/-- The next attempt starts, or breaks down on the way. -/
theorem launch_rests {i : Invocation} {world : σ × Chronicle ε α}
    (hopen : ((world.2.started now).standing o draws).IsOpen)
    (hcount : world.2.starts.length = world.2.trials.length)
    (hwaited : (world.2.started now).Waited o draws) :
    (r.launch w.chronicled now i world).Keeps (fun _ r world => r.Rests o draws world.2)
      (fun _ world _ => world.2.Waited o draws) past := by
  obtain ⟨inner, c⟩ := world
  rcases h : w.start now inner with ⟨message | attempt, inner'⟩
  · simp only [launch, Work.chronicled_start_error h, Turn.Keeps]
    exact hwaited.closed hopen (by simp [hcount]) _
  · simp only [launch, Work.chronicled_start_ok h, Turn.Keeps]
    exact ⟨hwaited, fun timer i hphase => by cases hphase⟩

/-- **One transition keeps the timers.** -/
theorem step_rests {world : σ × Chronicle ε α} (htracks : r.Tracks o draws past world.2)
    (h : r.Rests o draws world.2) :
    (r.step w.chronicled draws now world).Keeps (fun _ r world => r.Rests o draws world.2)
      (fun _ world _ => world.2.Waited o draws) past := by
  obtain ⟨inner, c⟩ := world
  obtain ⟨ho, -, hphase⟩ := htracks
  unfold step
  cases hp : r.phase with
  | idle =>
    simp only [hp] at hphase ⊢
    obtain ⟨rfl, -, -⟩ := hphase
    refine launch_rests rfl rfl ?_
    intro k q s hq
    rw [Chronicle.standing_empty_started] at hq
    cases hq
  | settled => simp only [hp] at hphase
  | backingOff timer i =>
    simp only [hp] at hphase ⊢
    obtain ⟨hne, hcount, his⟩ := hphase
    by_cases hfired : timer.reached now = true
    · rw [if_pos hfired]
      obtain ⟨-, q, hq, rfl⟩ := h.resting timer i hp
      refine launch_rests ?_ hcount (h.waited.started hne ?_)
      · rw [Chronicle.standing_started hne]
        exact his.isOpen
      · intro q' hq'
        obtain rfl : q = q' := Option.some.inj (hq.symm.trans hq')
        simpa [Instant.reached] using hfired
    · rw [if_neg hfired]
      exact h
  | attempting attempt i =>
    simp only [hp] at hphase ⊢
    obtain ⟨hcount, his⟩ := hphase
    have hclosed : ∀ result, (c.closed now result).Waited o draws :=
      h.waited.closed his.isOpen (Nat.le_of_eq hcount)
    rcases hlook : w.look now attempt inner with ⟨_ | ⟨e | v⟩ | m, inner'⟩ <;>
      simp only [Work.chronicled_look hlook]
    · exact h
    · subst ho
      unfold afterFailedAttempt
      cases hdecision : afterFailure r.options.policy i e now (draws i.attempt) with
      | stop reason | overflow reason => exact hclosed _
      | retry delay =>
        refine ⟨hclosed _, ?_⟩
        intro timer i' hphase
        cases hphase
        -- the pause is the last one, after as many as there were attempts before
        have hafter := his.after_failure e now
        have hattempt := Chronicle.standing_attempt his.isOpen
        have hlength := Chronicle.length_pauses his.isOpen
        rw [hdecision] at hafter
        rw [his.invocation_eq] at hattempt
        refine ⟨by simpa [hcount] using hattempt, (now, delay), ?_, rfl⟩
        simp [Chronicle.standing_closed, hafter, hcount, ← hlength]
    · exact hclosed _
    · exact hclosed _

/-- **The timers of a run are waited for,** whether it has ended or not. -/
theorem pollEach_waited (o : RetryOptions) (draws : Draws) (polls : List (Instant × Bool))
    (w : Work σ τ ε α) (world : σ) :
    ((Run.new o).pollEach w.chronicled draws polls (world, Chronicle.empty)).Leaves
      (fun past r world => r.Tracks o draws past world.2 ∧ r.Rests o draws world.2)
      (fun past world _ => world.2.Follows o draws (RetryEvent.delays past) ∧
        world.2.Waited o draws) [] := by
  refine pollEach_leaves ?_ ?_ ⟨⟨rfl, rfl, rfl, rfl, rfl⟩, ?_, ?_⟩
  · rintro now past r world ⟨htracks, hrests⟩
    exact (step_follows htracks).and (step_rests htracks hrests)
  · rintro now - past r world ⟨htracks, hrests⟩ -
    exact ⟨cancel_follows htracks, hrests.waited⟩
  · intro k q s hq
    cases hq
  · intro timer i hphase
    cases hphase

end Run

/-! ## A poll made again -/

namespace Run

/-- The attempt in flight, looked at again, waits and changes nothing. -/
def IsUnchanged (w : Work σ τ ε α) (now : Instant) (r : Run τ ε) (world : σ) : Prop :=
  ∀ attempt i, r.phase = .attempting attempt i → w.look now attempt world = (.waiting, world)

variable {w : Work σ τ ε α} {r : Run τ ε} {cancelled : Bool}

/-- A run that waits is left as it is by a poll that reads no cancelled
token. -/
theorem poll_of_isWaiting {world : σ} (h : r.IsWaiting w now world)
    (hsame : r.IsUnchanged w now world) (hread : (r.options.hasToken && cancelled) = false) :
    r.poll w draws now cancelled world = ⟨r, world, [], .pending⟩ := by
  have hstep : r.step w draws now world = ⟨r, world, [], .ends .pending⟩ := by
    unfold step
    cases hp : r.phase with
    | idle | settled => simp only [IsWaiting, hp] at h
    | attempting attempt i => simp only [hsame attempt i hp]
    | backingOff timer i =>
      simp only [IsWaiting, hp] at h
      simp only []
      rw [if_neg (by simpa [Instant.reached] using h)]
  rw [poll, hread, Bool.false_and, if_neg Bool.false_ne_true,
    show stepLimit = stepLimit - 1 + 1 from rfl, steps, hstep]

theorem pollEach_singleton (w : Work σ τ ε α) (draws : Draws) (now : Instant) (cancelled : Bool)
    (r : Run τ ε) (world : σ) :
    r.pollEach w draws [(now, cancelled)] world = r.poll w draws now cancelled world := by
  rcases hpoll : r.poll w draws now cancelled world with ⟨r', world', events, result⟩
  cases result <;> simp [pollEach, hpoll]

/-- Polls that are pending after one more were pending before it. -/
theorem pollEach_concat {before : List (Instant × Bool)} {world : σ}
    (h : (r.pollEach w draws (before ++ [(now, cancelled)]) world).result = .pending) :
    let a := r.pollEach w draws before world
    let t := a.run.poll w draws now cancelled a.world
    a.result = .pending ∧ t.result = .pending ∧
      (r.pollEach w draws (before ++ [(now, cancelled)]) world).run = t.run ∧
      (r.pollEach w draws (before ++ [(now, cancelled)]) world).world = t.world := by
  rw [pollEach_append] at h ⊢
  rcases hbefore : (r.pollEach w draws before world).result with _ | outcome | message
  · simp only [hbefore, pollEach_singleton] at h ⊢
    exact ⟨trivial, h, trivial, trivial⟩
  all_goals
    simp only [hbefore] at h
    cases h

end Run

/-! ## The books -/

/-- The failure kept is that of attempt number `n`. Attempts count from
one; for number zero there is none. -/
def Chronicle.KeepsFailureOf (c : Chronicle ε α) (n : Nat) (kept : Option ε) : Prop :=
  (n = 0 ∧ kept = none) ∨
    ∃ t e, 0 < n ∧ c.trials[n - 1]? = some t ∧ t.result = .ok (.error e) ∧ kept = some e

/-- The numbers and the instants that a run has begun with, or counts on:
`first` is when it was polled first. The invocation and the counter both
number the attempt that was started last, and agree while 32 bits are
enough. -/
structure Run.Counts (o : RetryOptions) (first : Option Instant) (r : Run τ ε) (i : Invocation)
    (c : Chronicle ε α) : Prop where
  attempt_eq : i.attempt = min c.starts.length maxCount32
  attempts_eq : r.attempts = c.starts.length % (maxCount32 + 1)
  agree : c.starts.length ≤ maxCount32 →
    i.attempt = c.starts.length ∧ r.attempts = c.starts.length
  first_eq : first = some i.firstAttempt
  deadline_eq : i.deadline = o.effective i.firstAttempt

/-- **What the fields of a run say about its attempts,** phase by phase. -/
structure Run.Accounts (o : RetryOptions) (first : Option Instant) (r : Run τ ε)
    (c : Chronicle ε α) : Prop where
  idle : r.phase = .idle → c.starts = [] ∧ r.attempts = 0 ∧ r.lastError = none
  attempting : ∀ attempt i, r.phase = .attempting attempt i →
    r.Counts o first i c ∧ c.starts.length = c.trials.length + 1 ∧
      c.KeepsFailureOf (c.starts.length - 1) r.lastError
  backingOff : ∀ timer i, r.phase = .backingOff timer i →
    r.Counts o first i c ∧ c.starts.length = c.trials.length ∧ 0 < c.starts.length ∧
      c.KeepsFailureOf c.starts.length r.lastError
  unsettled : r.phase ≠ .settled

/-- An open run keeps the failure of its last attempt. -/
theorem Chronicle.keepsFailureOf_length (h : (c.standing o draws).IsOpen) :
    c.KeepsFailureOf c.trials.length (c.standing o draws).last := by
  unfold standing at h ⊢
  rcases List.eq_nil_or_concat c.trials with hnil | ⟨ts, t, htrials⟩
  · rw [hnil]
    exact Or.inl ⟨rfl, rfl⟩
  · rw [List.concat_eq_append] at htrials
    rw [htrials, Standing.afterAll_append, Standing.afterAll_cons, Standing.afterAll_nil] at h ⊢
    obtain ⟨e, delay, hresult, -, hafter⟩ := Standing.isOpen_after h
    refine Or.inr ⟨t, e, by simp, ?_, hresult, by rw [hafter]⟩
    rw [htrials]
    simp

namespace Run

variable {r : Run τ ε} {first : Option Instant}

/-- A run counts as its chronicle does. -/
theorem Tracks.counts (h : r.Tracks o draws past c) {i : Invocation}
    (hattempt : i.attempt = min c.starts.length maxCount32)
    (hfirst : (c.standing o draws).invocation.firstAttempt = i.firstAttempt)
    (hdeadline : (c.standing o draws).invocation.deadline = i.deadline)
    (hbegun : first = some c.first) : r.Counts o first i c := by
  obtain ⟨-, hattempts, -⟩ := h
  rw [Chronicle.standing_firstAttempt] at hfirst
  refine ⟨hattempt, hattempts, ?_, by rw [hbegun, hfirst], ?_⟩
  · intro hle
    exact ⟨by omega, hattempts.trans (Nat.mod_eq_of_lt (Nat.lt_succ_of_le hle))⟩
  · rw [← hdeadline, ← hfirst]
    exact (Standing.afterAll_fixed o.policy draws (.initial (o.begin c.first)) c.trials).2

/-- **A run that tracks its chronicle and rests at its timers accounts for
its attempts.** -/
theorem Tracks.accounts (h : r.Tracks o draws past c) (hrests : r.Rests o draws c)
    (hbegun : c.starts ≠ [] → first = some c.first) : r.Accounts o first c := by
  have htracks := h
  obtain ⟨-, hattempts, hphase⟩ := h
  refine ⟨?_, ?_, ?_, ?_⟩
  · intro hp
    simp only [hp] at hphase
    obtain ⟨rfl, hlast, -⟩ := hphase
    exact ⟨rfl, hattempts, hlast⟩
  · intro attempt i hp
    simp only [hp] at hphase
    obtain ⟨hcount, his⟩ := hphase
    have hne : c.starts ≠ [] := by
      intro hnil
      simp [hnil] at hcount
    have hattempt := Chronicle.standing_attempt his.isOpen
    have hkept := Chronicle.keepsFailureOf_length his.isOpen
    rw [his.last_eq] at hkept
    rw [his.invocation_eq, ← hcount] at hattempt
    refine ⟨htracks.counts hattempt ?_ ?_ (hbegun hne), hcount, by rwa [hcount]⟩ <;>
      rw [his.invocation_eq]
  · intro timer i hp
    simp only [hp] at hphase
    obtain ⟨hne, hcount, his⟩ := hphase
    have hattempt := (hrests.resting timer i hp).1
    have hkept := Chronicle.keepsFailureOf_length his.isOpen
    rw [his.last_eq, ← hcount] at hkept
    -- the standing is at the next attempt, which keeps the instants of this one
    refine ⟨htracks.counts hattempt ?_ ?_ (hbegun hne), hcount, List.length_pos_iff.2 hne,
      hkept⟩ <;> rw [his.invocation_eq] <;> rfl
  · intro hp
    simp only [hp] at hphase

end Run

/-- The first attempt of a run that is going was started by the first
poll. -/
theorem Run.first_of_pollEach (o : RetryOptions) (draws : Draws) (w : Work σ τ ε α)
    {polls : List (Instant × Bool)} {world : σ}
    (h : ((Run.new o).pollEach w.chronicled draws polls (world, .empty)).result = .pending)
    (hne : ((Run.new o).pollEach w.chronicled draws polls
      (world, Chronicle.empty)).world.2.starts ≠ []) : polls.head?.map Prod.fst =
        some ((Run.new o).pollEach w.chronicled draws polls
          (world, Chronicle.empty)).world.2.first := by
  cases polls with
  | nil => exact absurd rfl hne
  | cons q polls =>
    obtain ⟨now, cancelled⟩ := q
    have hbegun := Run.begunAt_of_pollEach h
    unfold Run.BegunAt at hbegun
    rw [Chronicle.first, hbegun]
    rfl

/-- A last poll that is pending, made again, changes nothing. -/
theorem Run.poll_again (o : RetryOptions) (draws : Draws) (w : Work σ τ ε α)
    {before : List (Instant × Bool)} {now : Instant} {cancelled : Bool} {world : σ} :
    let t := (Run.new o).pollEach w.chronicled draws (before ++ [(now, cancelled)])
      (world, Chronicle.empty)
    t.result = .pending → t.world.2.starts.count now ≤ maxCount32 →
      t.run.IsUnchanged w now t.world.1 →
      t.run.poll w.chronicled draws now cancelled t.world = ⟨t.run, t.world, [], .pending⟩ := by
  intro t hpending hcount hsame
  obtain ⟨hbefore, hpoll, hrun, hworld⟩ := Run.pollEach_concat hpending
  have hcloses := Run.pollEach_closes o draws before w world
  simp only [Turn.Leaves, hbefore] at hcloses
  -- the token was not read as cancelled, and the options are still the same
  have hread := (Run.poll_eq_steps hpoll).1
  have htracks := hcloses.of_poll hpoll
  rw [hcloses.isSettled_eq_false, hcloses.1, Bool.not_false, Bool.and_true] at hread
  rw [← hworld] at htracks
  have hwaits := Run.isWaiting_of_poll hcloses hpoll (by rwa [← hworld])
  rw [← hrun, ← hworld] at hwaits
  rw [← hrun] at htracks
  refine Run.poll_of_isWaiting hwaits ?_ (by rw [htracks.1, hread])
  intro attempt i hphase
  exact Work.chronicled_look (c := t.world.2) (hsame attempt i hphase)

/-- **The books of a run.** Whatever the work, the draws, the polls and
their readings of the token, seen with the chronicle, which changes no
poll: while the run goes on, its fields account for its attempts, with the
first attempt at the first poll; an attempt that follows a delay never
starts before the timer of that delay; a pending poll made again, with the
attempt in flight unchanged, is pending and changes nothing, if the
attempts that started at its instant can be counted; and a run that has
come to its end is settled, breaks down at every later poll and starts
nothing. -/
theorem books_kept (o : RetryOptions) (draws : Draws) (w : Work σ τ ε α)
    (polls later : List (Instant × Bool)) (world : σ) :
    let t := (Run.new o).pollEach w.chronicled draws polls (world, .empty)
    let c := t.world.2
    (t.result = .pending → t.run.Accounts o (polls.head?.map Prod.fst) c) ∧
    (∀ (k : Nat) (q : Instant × Duration) (s : Instant),
      ((c.trials.map Trial.ended).zip (RetryEvent.delays t.events))[k]? = some q →
      c.starts[k + 1]? = some s → (q.1.timer q.2).nanos ≤ s.nanos) ∧
    (∀ q, polls.getLast? = some q → t.result = .pending → c.starts.count q.1 ≤ maxCount32 →
      t.run.IsUnchanged w q.1 t.world.1 →
      t.run.poll w.chronicled draws q.1 q.2 t.world = ⟨t.run, t.world, [], .pending⟩) ∧
    (t.result ≠ .pending → t.run.phase = .settled ∧
      t.run.pollOn w.chronicled draws later t.world =
        ⟨t.run, t.world, [], List.replicate later.length (.crashed Run.completedText)⟩) := by
  intro t c
  have hleaves := Run.pollEach_waited o draws polls w world
  refine ⟨?_, ?_, ?_, ?_⟩
  · intro hpending
    simp only [Turn.Leaves, show ((Run.new o).pollEach w.chronicled draws polls
      (world, .empty)).result = .pending from hpending] at hleaves
    exact hleaves.1.accounts hleaves.2 (Run.first_of_pollEach o draws w hpending)
  · have hkept : c.Follows o draws (RetryEvent.delays t.events) ∧ c.Waited o draws := by
      unfold Turn.Leaves at hleaves
      split at hleaves
      · exact ⟨hleaves.1.follows, hleaves.2.waited⟩
      all_goals exact hleaves
    rw [← hkept.1.delays_eq, Chronicle.zip_delays]
    exact hkept.2
  · rintro ⟨now, cancelled⟩ hlast hpending hcount hsame
    obtain ⟨before, rfl⟩ := List.getLast?_eq_some_iff.1 hlast
    exact Run.poll_again o draws w hpending hcount hsame
  · intro hended
    have hsettled := Run.settled_of_pollEach hended
    exact ⟨hsettled, Run.pollOn_of_settled hsettled w.chronicled draws later t.world⟩

/-- Two polls in the pause after the first failure, and one at its end. -/
theorem books_kept_twoAttempts :
    let t := (Run.new twoAttempts).pollEach unavailable.chronicled .still
      [(⟨0⟩, false), (⟨50000000⟩, false)] ((), .empty)
    let e := (Run.new twoAttempts).pollEach unavailable.chronicled .still
      [(⟨0⟩, false), (⟨100000000⟩, false)] ((), .empty)
    t.result = .pending ∧ t.run.Accounts twoAttempts (some ⟨0⟩) t.world.2 ∧
    t.run.poll unavailable.chronicled .still ⟨50000000⟩ false t.world =
      ⟨t.run, t.world, [], .pending⟩ ∧
    e.world.2.starts = [⟨0⟩, ⟨100000000⟩] ∧
    ((⟨0⟩ : Instant).timer ⟨100000000⟩).nanos ≤ (⟨100000000⟩ : Instant).nanos ∧
    e.result ≠ .pending ∧ e.run.phase = .settled := by
  obtain ⟨haccounts, -, hagain, -⟩ := books_kept twoAttempts .still unavailable
    [(⟨0⟩, false), (⟨50000000⟩, false)] [] ()
  obtain ⟨-, htimers, -, hsettled⟩ := books_kept twoAttempts .still unavailable
    [(⟨0⟩, false), (⟨100000000⟩, false)] [] ()
  dsimp only
  refine ⟨?pending, haccounts ?pending,
    hagain (⟨50000000⟩, false) rfl ?pending (by decide +kernel) ?unchanged, by decide +kernel,
    htimers 0 (⟨0⟩, ⟨100000000⟩) ⟨100000000⟩ (by decide +kernel) (by decide +kernel),
    ?ended, (hsettled ?ended).1⟩
  case pending => decide +kernel
  case ended => decide +kernel
  case unchanged =>
    -- nothing is in flight in a pause
    intro attempt i hphase
    exact absurd (congrArg Phase.name hphase) (show _ ≠ "attempt" by decide +kernel)

end ResilientCalls
