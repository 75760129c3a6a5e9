import ResilientCalls.Proofs.Retry.Timeline
/-!
# What a cancelled run reports

A run keeps what it reports of itself in pieces: the counter moves when an
attempt is issued, the last failure when one is retried, and the time of
the first attempt is in the phase. A cancellation may find the run in any
phase, and what it reports is the same function of the chronicle in all of
them. Then the run has settled, and a settled run breaks down at every
poll and touches nothing.
-/

namespace ResilientCalls

variable {σ τ ε α : Type}

/-- The failure of the last attempt that failed. -/
def Chronicle.lastFailure (c : Chronicle ε α) : Option ε :=
  (c.trials.filterMap Trial.failure?).getLast?

/-- The time since the first attempt was started, or no time if none
was. -/
def Chronicle.elapsedAt (now : Instant) (c : Chronicle ε α) : Duration :=
  if c.starts = [] then .zero else now.since c.first

variable [Failure ε]

/-! ## Settled runs -/

namespace Run

/-- The text of a settled run that is polled. -/
def completedText : String := "RetryFuture polled after completion"

/-- Polls a run at one instant after the other, whatever the polls give. -/
def pollOn (w : Work σ τ ε α) (draws : Draws) :
    List (Instant × Bool) → Run τ ε → σ → Turn σ τ ε α (List (Ending ε α))
  | [], r, world => ⟨r, world, [], []⟩
  | (now, cancelled) :: polls, r, world =>
    let t := r.poll w draws now cancelled world
    let rest := pollOn w draws polls t.run t.world
    ⟨rest.run, rest.world, t.events ++ rest.events, t.result :: rest.result⟩

variable {w : Work σ τ ε α} {draws : Draws} {now : Instant} {r : Run τ ε}

/-- A settled run breaks down when it is polled, and touches nothing. -/
theorem poll_of_settled (h : r.phase = .settled) (w : Work σ τ ε α) (draws : Draws)
    (now : Instant) (cancelled : Bool) (world : σ) :
    r.poll w draws now cancelled world = ⟨r, world, [], .crashed completedText⟩ := by
  have hread : ¬ (r.options.hasToken && cancelled && !r.phase.isSettled) = true := by
    simp [h, Phase.isSettled]
  have hstep : r.step w draws now world = ⟨r, world, [], .ends (.crashed completedText)⟩ := by
    unfold step
    simp only [h]
    rfl
  rw [poll, if_neg hread, show stepLimit = stepLimit - 1 + 1 from rfl, steps, hstep]

/-- **A settled run stays as it is,** however often it is polled. -/
theorem pollOn_of_settled (h : r.phase = .settled) (w : Work σ τ ε α) (draws : Draws)
    (polls : List (Instant × Bool)) (world : σ) : r.pollOn w draws polls world =
      ⟨r, world, [], List.replicate polls.length (.crashed completedText)⟩ := by
  induction polls with
  | nil => rfl
  | cons q polls ih =>
    simp only [pollOn, poll_of_settled h, ih, List.nil_append, List.length_cons,
      List.replicate_succ]

/-- A transition that ends a poll, and not because something has to be
waited for, settles the run. -/
theorem settled_of_step {world : σ} {ending : Ending ε α}
    (h : (r.step w draws now world).result = .ends ending) (hended : ending ≠ .pending) :
    (r.step w draws now world).run.phase = .settled := by
  have hlaunch : ∀ i, (r.launch w now i world).result = .ends ending →
      (r.launch w now i world).run.phase = .settled := by
    intro i hends
    rcases r.launch_cases w now i world with ⟨-, honward⟩ | ⟨hsettled, -⟩
    · rw [honward] at hends
      cases hends
    · exact hsettled
  unfold step at h ⊢
  cases hp : r.phase with
  | idle =>
    simp only [hp] at h ⊢
    exact hlaunch _ h
  | backingOff timer i =>
    simp only [hp] at h ⊢
    split at h
    · rename_i hfired
      rw [if_pos hfired]
      exact hlaunch _ h
    · exact absurd (Move.ends.inj h).symm hended
  | attempting attempt i =>
    simp only [hp] at h ⊢
    rcases hlook : w.look now attempt world with ⟨_ | ⟨e | v⟩ | m, world'⟩ <;>
      simp only [hlook] at h ⊢
    · exact absurd (Move.ends.inj h).symm hended
    · unfold afterFailedAttempt at h ⊢
      cases hdecision : afterFailure r.options.policy i e now (draws i.attempt) with
      | retry delay => simp [hdecision] at h
      | stop reason | overflow reason => rfl
  | settled =>
    simp only [hp]

theorem settled_of_steps (fuel : Nat) {world : σ}
    (hended : (r.steps w draws now fuel world).result ≠ .pending) :
    (r.steps w draws now fuel world).run.phase = .settled := by
  induction fuel generalizing r world with
  | zero => exact absurd rfl hended
  | succ n ih =>
    unfold steps at hended ⊢
    rcases hresult : (r.step w draws now world).result with _ | ending <;>
      simp only [hresult] at hended ⊢
    · exact ih hended
    · exact settled_of_step hresult hended

theorem settled_of_poll {cancelled : Bool} {world : σ}
    (hended : (r.poll w draws now cancelled world).result ≠ .pending) :
    (r.poll w draws now cancelled world).run.phase = .settled := by
  unfold poll at hended ⊢
  split
  · rfl
  · rename_i hread
    rw [if_neg hread] at hended
    exact settled_of_steps _ hended

/-- **Polls that come to an end leave the run settled.** -/
theorem settled_of_pollEach {polls : List (Instant × Bool)} {world : σ}
    (hended : (r.pollEach w draws polls world).result ≠ .pending) :
    (r.pollEach w draws polls world).run.phase = .settled := by
  induction polls generalizing r world with
  | nil => exact absurd rfl hended
  | cons q polls ih =>
    obtain ⟨now, cancelled⟩ := q
    unfold pollEach at hended ⊢
    rcases hresult : (r.poll w draws now cancelled world).result with _ | outcome | message <;>
      simp only [hresult] at hended ⊢
    · exact ih hended
    all_goals exact settled_of_poll (by rw [hresult]; simp)

end Run

/-! ## What is reported -/

/-- Attempts that leave a run open all failed, and the last failure is kept. -/
theorem Standing.last_eq_getLast? {p : RetryPolicy} {draws : Draws} {s : Standing ε α}
    {ts : List (Trial ε α)} (h : (s.afterAll p draws ts).IsOpen) :
    (s.afterAll p draws ts).last = (ts.filterMap Trial.failure?).getLast?.or s.last := by
  induction ts generalizing s with
  | nil => rfl
  | cons t ts ih =>
    obtain ⟨e, delay, hresult, -, hafter⟩ := isOpen_after (isOpen_of_afterAll h)
    have hfailure : t.failure? = some e := by simp [Trial.failure?, hresult]
    rw [afterAll_cons, ih h, hafter, List.filterMap_cons_some hfailure, List.getLast?_cons]
    cases (ts.filterMap Trial.failure?).getLast? <;> rfl

variable {o : RetryOptions} {draws : Draws} {past : List RetryEvent} {c : Chronicle ε α}

/-- The failure that an open run keeps is that of the last attempt that
failed. -/
theorem Standing.Is.lastFailure {i : Invocation} {last : Option ε}
    (h : (c.standing o draws).Is i last past) : last = c.lastFailure := by
  have hlast := Standing.last_eq_getLast? h.isOpen
  rw [← h.last_eq]
  exact hlast.trans (Option.or_none)

/-- **A cancellation reports what the chronicle says,** in whichever phase
it finds the run. -/
theorem Run.Tracks.cancel_result {r : Run τ ε} (h : r.Tracks o draws past c) (now : Instant)
    (world : σ) : (r.cancel now world : Turn σ τ ε α _).result =
      .settled (.error (.cancelled c.lastFailure (c.starts.length % (maxCount32 + 1))
        (c.elapsedAt now))) := by
  obtain ⟨-, hattempts, hphase⟩ := h
  have hfirst := Chronicle.standing_firstAttempt o draws c
  simp only [Run.cancel, hattempts]
  cases hp : r.phase with
  | idle =>
    simp only [hp] at hphase
    obtain ⟨rfl, hlast, -⟩ := hphase
    rw [hlast]
    rfl
  | attempting attempt i =>
    simp only [hp] at hphase
    obtain ⟨hcount, his⟩ := hphase
    have hne : c.starts ≠ [] := by
      intro hnil
      simp [hnil] at hcount
    rw [his.lastFailure, Chronicle.elapsedAt, if_neg hne, ← hfirst, his.invocation_eq]
    rfl
  | backingOff timer i =>
    simp only [hp] at hphase
    obtain ⟨hne, -, his⟩ := hphase
    rw [his.lastFailure, Chronicle.elapsedAt, if_neg hne, ← hfirst, his.invocation_eq]
    rfl
  | settled =>
    simp only [hp] at hphase

/-- **Cancelling a non-blocking run.** A run with a token is polled any
number of times, and then the token is cancelled; the chronicle is kept in
the world and changes no poll. If the run was still going, then whatever
the attempt in flight or the timer would show, the next poll reports the
cancellation with the last failure, the number of attempts started, counted
in 32 bits, and the time since the first of them. No later poll touches the
world, so none starts an attempt. If the run had settled, nothing
changes. -/
theorem cancellation_reported (o : RetryOptions) (htoken : o.hasToken = true) (draws : Draws)
    (w : Work σ τ ε α) (before later : List (Instant × Bool)) (now : Instant) (world : σ) :
    let t := (Run.new o).pollEach w.chronicled draws before (world, .empty)
    let next := t.run.poll w.chronicled draws now true t.world
    let c := t.world.2
    (t.result = .pending →
      (∃ n, next.result = .settled (.error (.cancelled c.lastFailure n (c.elapsedAt now))) ∧
        n = c.starts.length % (maxCount32 + 1) ∧
        (c.starts.length ≤ maxCount32 → n = c.starts.length)) ∧
      next.world = t.world ∧
      next.run.pollOn w.chronicled draws later next.world =
        ⟨next.run, t.world, [], List.replicate later.length (.crashed Run.completedText)⟩) ∧
    (t.result ≠ .pending →
      t.run.pollOn w.chronicled draws ((now, true) :: later) t.world =
        ⟨t.run, t.world, [],
          List.replicate (later.length + 1) (.crashed Run.completedText)⟩) := by
  intro t next c
  constructor
  · intro hpending
    have htracks : t.run.Tracks o draws t.events c := by
      have hcloses := Run.pollEach_closes o draws before w world
      simp only [Turn.Leaves, show ((Run.new o).pollEach w.chronicled draws before
        (world, .empty)).result = .pending from hpending] at hcloses
      exact hcloses
    have hread : (t.run.options.hasToken && true && !t.run.phase.isSettled) = true := by
      rw [htracks.1, htoken, htracks.isSettled_eq_false]
      rfl
    have hnext : next = t.run.cancel now t.world := if_pos hread
    refine ⟨⟨_, ?_, rfl, fun hle => Nat.mod_eq_of_lt (Nat.lt_succ_of_le hle)⟩, ?_, ?_⟩
    · rw [hnext]
      exact htracks.cancel_result now t.world
    · rw [hnext]
      rfl
    · rw [hnext]
      exact Run.pollOn_of_settled rfl w.chronicled draws later t.world
  · intro hended
    exact Run.pollOn_of_settled (Run.settled_of_pollEach hended) w.chronicled draws
      ((now, true) :: later) t.world

/-- A run that is cancelled in its first pause reports the one failure. -/
theorem cancellation_reported_twoAttempts :
    let o := twoAttempts.withToken
    let t := (Run.new o).pollEach unavailable.chronicled .still [(⟨0⟩, false)] ((), .empty)
    let next := t.run.poll unavailable.chronicled .still ⟨50000000⟩ true t.world
    o.hasToken = true ∧ t.result = .pending ∧
    next.result = .settled (.error (.cancelled (some "UNAVAILABLE") 1 ⟨50000000⟩)) ∧
    next.run.pollOn unavailable.chronicled .still [(⟨100000000⟩, true)] next.world =
      ⟨next.run, t.world, [], [.crashed Run.completedText]⟩ := by
  intro o t next
  have hreported := cancellation_reported (τ := Unit) (α := Nat) o rfl .still unavailable
    [(⟨0⟩, false)] [(⟨100000000⟩, true)] ⟨50000000⟩ ()
  have hpending : t.result = .pending := by decide +kernel
  obtain ⟨⟨n, hresult, -, hn⟩, -, hlater⟩ := hreported.1 hpending
  obtain rfl : n = 1 := (hn (by decide +kernel)).trans (by decide +kernel)
  exact ⟨rfl, hpending, hresult.trans (by decide +kernel), hlater⟩

end ResilientCalls
