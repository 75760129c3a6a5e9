import ResilientCalls.Proofs.Retry.Tracking
/-!
# What an outcome says about the attempts

The outcome of a run is read as a statement about its chronicle: which
attempt was the last one made, what it ended with, what the policy says of
that failure, how many attempts there were, and that every attempt before
it failed in a way that may be retried. `Supports` writes this down for
each outcome, and every run that settles, blocking or not, supports its
own. The options have to be accepted ones: under a policy that a run would
never be given, a first interval of nothing reads as a deadline.
-/

namespace ResilientCalls

variable {σ τ ε α : Type}

/-- The options are ones that a run is given: they are built from their
policy and deadline, and perhaps a token is added. -/
def RetryOptions.Accepted (o : RetryOptions) : Prop :=
  RetryOptions.new o.policy o.deadline = .ok { o with hasToken := false }

/-- The policy of accepted options waits. -/
theorem RetryOptions.Accepted.waits {o : RetryOptions} (h : o.Accepted) : o.policy.Waits := by
  refine RetryPolicy.waits_of_validate ?_
  unfold Accepted new at h
  cases hvalid : o.policy.validate with
  | ok u => rfl
  | error reason =>
    rw [hvalid] at h
    cases h

/-- The failure of an attempt that failed. -/
def Trial.failure? (t : Trial ε α) : Option ε :=
  match t.result with
  | .ok (.error e) => some e
  | _ => none

variable [Failure ε]

/-- Every attempt failed in a way that may be retried. -/
def RetryPolicy.Retries (p : RetryPolicy) (ts : List (Trial ε α)) : Prop :=
  ∀ t ∈ ts, ∃ e, t.result = .ok (.error e) ∧ ¬ p.Lists e ∧ Failure.isCancelled e = false

/-! ## What an open standing says -/

namespace Standing

variable {p : RetryPolicy} {draws : Draws} {s : Standing ε α} {ts : List (Trial ε α)}

/-- Attempts that leave a run open were all retried. -/
theorem retries_of_isOpen (hp : p.Waits) (h : (s.afterAll p draws ts).IsOpen) :
    p.Retries ts := by
  induction ts generalizing s with
  | nil => exact fun t ht => absurd ht List.not_mem_nil
  | cons t ts ih =>
    obtain ⟨e, delay, hresult, hdecision, -⟩ := isOpen_after (isOpen_of_afterAll h)
    have hjust := afterFailure_justified hp s.invocation e t.ended (draws s.invocation.attempt)
    rw [hdecision] at hjust
    intro u hu
    rcases List.mem_cons.1 hu with rfl | hmem
    · exact ⟨e, hresult, hjust.1, hjust.2.1⟩
    · exact ih h u hmem

/-- Attempts that leave a run open have not used up the policy's. -/
theorem lt_maximum_of_isOpen (hp : p.Waits) (hs : s.invocation.attempt ≤ maxCount32)
    (hne : ts ≠ []) (h : (s.afterAll p draws ts).IsOpen) (hmax : 0 < p.maximumAttempts) :
    min (s.invocation.attempt + ts.length - 1) maxCount32 < p.maximumAttempts := by
  induction ts generalizing s with
  | nil => exact absurd rfl hne
  | cons t ts ih =>
    obtain ⟨e, delay, -, hdecision, hafter⟩ := isOpen_after (isOpen_of_afterAll h)
    have hjust := afterFailure_justified hp s.invocation e t.ended (draws s.invocation.attempt)
    rw [hdecision] at hjust
    have hleft : ¬ (0 < p.maximumAttempts ∧ p.maximumAttempts ≤ s.invocation.attempt) := by
      rw [← Invocation.isExhausted_iff]
      simp [hjust.2.2.1]
    have hadvance : (s.after p draws t).invocation.attempt =
        min (s.invocation.attempt + 1) maxCount32 := by
      rw [hafter]
      rfl
    rcases List.eq_nil_or_concat ts with rfl | ⟨us, u, rfl⟩
    · simp only [List.length_cons, List.length_nil]
      omega
    · have hrest := ih (s := s.after p draws t) (by omega) (by simp) h
      simp only [List.length_cons, List.concat_eq_append, List.length_append,
        List.length_nil] at hrest ⊢
      omega

/-- The last failure of an open run is that of its last attempt. -/
theorem last_of_isOpen (hs : s.last = none ∨ ts ≠ [])
    (h : (s.afterAll p draws ts).IsOpen) :
    (s.afterAll p draws ts).last = ts.getLast?.bind Trial.failure? := by
  induction ts generalizing s with
  | nil =>
    rcases hs with hnone | hne
    · exact hnone
    · exact absurd rfl hne
  | cons t ts ih =>
    obtain ⟨e, delay, hresult, -, hafter⟩ := isOpen_after (isOpen_of_afterAll h)
    cases ts with
    | nil =>
      rw [afterAll_cons, afterAll_nil, hafter]
      simp [Trial.failure?, hresult]
    | cons u ts =>
      rw [afterAll_cons, ih (Or.inr (by simp)) h, List.getLast?_cons_cons]

end Standing

/-! ## Outcomes -/

namespace Chronicle

/-- The attempt is the last one made, and all before it were retried. -/
structure EndsWith (p : RetryPolicy) (c : Chronicle ε α) (t : Trial ε α) : Prop where
  complete : c.starts.length = c.trials.length
  earlier : ∃ ts, c.trials = ts ++ [t] ∧ p.Retries ts

/-- **What an outcome says about the attempts of a run.** `TokenRead` says
that the run has read a cancelled token. -/
def Supports (o : RetryOptions) (c : Chronicle ε α) (TokenRead : Prop) :
    Except (RetryError ε) α → Prop
  | .ok value => ∃ t, c.EndsWith o.policy t ∧ t.result = .ok (.ok value)
  | .error (.nonRetryable e n elapsed) =>
    ∃ t, c.EndsWith o.policy t ∧ t.result = .ok (.error e) ∧ o.policy.Lists e ∧
      n = c.starts.length ∧ elapsed = t.ended.since c.first
  | .error (.attemptsExhausted e n elapsed) =>
    ∃ t, c.EndsWith o.policy t ∧ t.result = .ok (.error e) ∧ ¬ o.policy.Lists e ∧
      Failure.isCancelled e = false ∧ 0 < o.policy.maximumAttempts ∧
      n = o.policy.maximumAttempts ∧ n = c.starts.length ∧ elapsed = t.ended.since c.first
  | .error (.deadlineExceeded last n elapsed) =>
    ∃ t e d, c.EndsWith o.policy t ∧ t.result = .ok (.error e) ∧ last = some e ∧
      ¬ o.policy.Lists e ∧ Failure.isCancelled e = false ∧
      Deadline.effective o.policy o.deadline c.first = some d ∧ d.nanos ≤ t.ended.nanos ∧
      n = c.starts.length ∧ elapsed = t.ended.since c.first
  | .error (.cancelled last n elapsed) =>
    n = c.starts.length ∧
      ((o.hasToken = true ∧ TokenRead ∧ o.policy.Retries c.trials ∧
          last = c.trials.getLast?.bind Trial.failure?) ∨
        ∃ t e, c.EndsWith o.policy t ∧ t.result = .ok (.error e) ∧ last = some e ∧
          ¬ o.policy.Lists e ∧ Failure.isCancelled e = true ∧
          elapsed = t.ended.since c.first)
  | .error (.configuration _) => False

variable {o : RetryOptions} {draws : Draws} {c : Chronicle ε α}

/-- The attempt that closes a run, and the standing it meets: the run is at
this attempt, which the policy's number allows. -/
theorem ClosedByAttempt.exists_closing (ho : o.Accepted) {delays : List Duration}
    {ending : Ending ε α} (hcount : c.starts.length ≤ maxCount32)
    (h : c.ClosedByAttempt o draws delays ending) :
    ∃ (t : Trial ε α) (s : Standing ε α), c.EndsWith o.policy t ∧ s.IsOpen ∧
      s.invocation.attempt = c.starts.length ∧
      (∀ now, s.invocation.elapsed now = now.since c.first) ∧
      s.invocation.deadline = Deadline.effective o.policy o.deadline c.first ∧
      (0 < o.policy.maximumAttempts → c.starts.length ≤ o.policy.maximumAttempts) ∧
      (s.after o.policy draws t).ending = ending := by
  obtain ⟨ts, t, htrials, hopen⟩ := h.wasOpen
  have hlen : c.starts.length = ts.length + 1 := by
    rw [h.complete, htrials, List.length_append]
    rfl
  -- the invocation counts in 32 bits and stops at the largest count, from the first attempt on
  have hone : (Standing.initial (o.begin c.first) : Standing ε α).invocation.attempt ≤
      maxCount32 := show 1 ≤ maxCount32 by decide
  obtain ⟨hfirst, hdeadline⟩ := Standing.afterAll_fixed o.policy draws
    (Standing.initial (o.begin c.first)) ts
  refine ⟨t, (Standing.initial (o.begin c.first)).afterAll o.policy draws ts,
    ⟨h.complete, ts, htrials, Standing.retries_of_isOpen ho.waits hopen⟩, hopen, ?_, ?_, hdeadline,
    ?_, ?_⟩
  · rw [Standing.afterAll_attempt hone hopen, hlen]
    simp only [Standing.initial, RetryOptions.begin, Invocation.begin]
    omega
  · intro now
    rw [Invocation.elapsed, hfirst]
    rfl
  · intro hmax
    rcases eq_or_ne ts [] with rfl | hne
    · rw [hlen]
      exact hmax
    · -- the retry before this attempt left room for it
      have hlt : min (1 + ts.length - 1) maxCount32 < o.policy.maximumAttempts :=
        Standing.lt_maximum_of_isOpen ho.waits hone hne hopen hmax
      omega
  · rw [← h.ending_eq, standing, htrials, Standing.afterAll_append]
    rfl

/-- A run that its last attempt closed supports its outcome. -/
theorem supports_of_closedByAttempt (ho : o.Accepted) {TokenRead : Prop}
    {delays : List Duration} {outcome : Except (RetryError ε) α}
    (hcount : c.starts.length ≤ maxCount32)
    (h : c.ClosedByAttempt o draws delays (.settled outcome)) :
    c.Supports o TokenRead outcome := by
  obtain ⟨t, s, hends, hopen, hn, helapsed, hdeadline, hmaximum, hending⟩ :=
    h.exists_closing ho hcount
  obtain ⟨m | e | v, now⟩ := t
  · rw [Standing.after_crash hopen] at hending
    cases hending
  · have hjust := afterFailure_justified ho.waits s.invocation e now (draws s.invocation.attempt)
    rw [Standing.after_failure o.policy draws hopen] at hending
    cases hdecision : afterFailure o.policy s.invocation e now (draws s.invocation.attempt) with
    | retry delay =>
      rw [hdecision] at hending
      cases hending
    | overflow reason =>
      rw [hdecision] at hending
      cases hending
    | stop reason =>
      rw [hdecision] at hending hjust
      obtain rfl := Ending.settled.inj hending
      cases reason with
      | nonRetryable => exact ⟨_, hends, rfl, hjust, hn, helapsed now⟩
      | cancelled => exact ⟨hn, Or.inr ⟨_, e, hends, rfl, rfl, hjust.1, hjust.2, helapsed now⟩⟩
      | deadlineExceeded =>
        obtain ⟨hlist, hcancel, d, hd, hle⟩ := hjust
        exact ⟨_, e, d, hends, rfl, rfl, hlist, hcancel, hdeadline.symm.trans hd, hle, hn,
          helapsed now⟩
      | attemptsExhausted =>
        -- the policy's number is reached here and was not passed before
        obtain ⟨hlist, hcancel, hexhausted⟩ := hjust
        obtain ⟨hpos, hle⟩ := Invocation.isExhausted_iff.1 hexhausted
        have hroom := hmaximum hpos
        exact ⟨_, hends, rfl, hlist, hcancel, hpos, by omega, hn, helapsed now⟩
  · rw [Standing.after_value hopen] at hending
    obtain rfl := Ending.settled.inj hending
    exact ⟨_, hends, rfl⟩

/-- A run that the token closed supports its outcome. -/
theorem supports_of_closedByToken (ho : o.Accepted) {TokenRead : Prop} (hread : TokenRead)
    {now : Instant} {outcome : Except (RetryError ε) α} (hcount : c.starts.length ≤ maxCount32)
    (h : c.ClosedByToken o draws now (.settled outcome)) :
    c.Supports o TokenRead outcome := by
  obtain ⟨n, hn, hending⟩ := h.ending_eq
  obtain rfl := Ending.settled.inj hending
  exact ⟨hn hcount, Or.inl ⟨h.hasToken, hread, Standing.retries_of_isOpen ho.waits h.isOpen,
    Standing.last_of_isOpen (Or.inl rfl) h.isOpen⟩⟩

end Chronicle

/-! ## Every run supports its outcome -/

/-- **The outcome of a run is sound.** Whatever the attempts show, whatever
the clock, the draws and the token read, a run under accepted options that
settles in a countable number of attempts supports its outcome, a
non-blocking run as well as a blocking one. -/
theorem outcome_supported (o : RetryOptions) (draws : Draws) (ho : o.Accepted) :
    (∀ (w : Work σ τ ε α) (polls : List (Instant × Bool)) (world : σ) (outcome),
      ((Run.new o).pollEach w draws polls world).result = .settled outcome →
      (Run.chronicle w draws polls o world).starts.length ≤ maxCount32 →
      (Run.chronicle w draws polls o world).Supports o (∃ now, (now, true) ∈ polls) outcome) ∧
    (∀ (w : BlockingWork σ ε α) (limit : Nat) (now : Instant) (world : σ) (outcome),
      (Blocking.runWithin limit w o draws now world).ending = .settled outcome →
      (Blocking.chronicle limit w o draws now world).starts.length ≤ maxCount32 →
      (Blocking.chronicle limit w o draws now world).Supports o
        (Blocking.tokenReads
          (w.cancelledFrom (Blocking.runWithin limit w o draws now world).world)
          (Blocking.runWithin limit w o draws now world).now = true) outcome) := by
  constructor
  · intro w polls world outcome hsettled hcount
    have hcloses := Run.pollEach_closes o draws polls w world
    rw [Run.pollEach_eq_forget] at hsettled
    unfold Turn.Leaves at hcloses
    simp only [Turn.forget] at hsettled
    rw [hsettled] at hcloses
    rcases hcloses with hattempt | ⟨now, hmem, htoken⟩
    · exact Chronicle.supports_of_closedByAttempt ho hcount hattempt
    · exact Chronicle.supports_of_closedByToken ho ⟨now, hmem⟩ hcount htoken
  · intro w limit now world outcome hsettled hcount
    have hcloses := Blocking.runWithin_closes limit w o draws now world
    rw [Blocking.runWithin_eq_forget] at hsettled ⊢
    unfold Blocking.Closes at hcloses
    simp only [BlockingEnd.forget] at hsettled ⊢
    rw [hsettled] at hcloses
    rcases hcloses with hpending | hattempt | ⟨hread, htoken⟩ | hcrash
    · cases hpending
    · exact Chronicle.supports_of_closedByAttempt ho hcount hattempt
    · exact Chronicle.supports_of_closedByToken ho hread hcount htoken
    · cases hcrash

/-- Two attempts a tenth of a second apart. -/
def twoAttempts : RetryOptions :=
  ⟨{ RetryPolicy.draft with maximumAttempts := 2, jitter := .zero }, none, false⟩

/-- Work that fails at once, whenever it is tried. -/
def unavailable : Work Unit Unit String Nat where
  start _ _ := (.ok (), ())
  look _ _ _ := (.finished (.error "UNAVAILABLE"), ())
  timers _ := []

/-- The same work for a blocking run. -/
def unavailableBlocking : BlockingWork Unit String Nat where
  call now _ := (.finished (.error "UNAVAILABLE"), now, ())
  cancelledFrom _ := none
  wakeups _ := []

/-- Both kinds of run use up two attempts, and their outcome says so. -/
theorem outcome_supported_twoAttempts :
    twoAttempts.Accepted ∧
    (Run.chronicle unavailable .still [(⟨0⟩, false), (⟨100000000⟩, false)] twoAttempts ()).Supports
      twoAttempts (∃ now, (now, true) ∈ [((⟨0⟩ : Instant), false), (⟨100000000⟩, false)])
      (.error (.attemptsExhausted "UNAVAILABLE" 2 ⟨100000000⟩)) ∧
    (Blocking.chronicle 2 unavailableBlocking twoAttempts .still ⟨0⟩ ()).Supports twoAttempts
      (Blocking.tokenReads none
        (Blocking.runWithin 2 unavailableBlocking twoAttempts .still ⟨0⟩ ()).now = true)
      (.error (.attemptsExhausted "UNAVAILABLE" 2 ⟨100000000⟩)) := by
  have ho : twoAttempts.Accepted := by
    unfold RetryOptions.Accepted
    decide +kernel
  have hboth := outcome_supported (σ := Unit) (τ := Unit) (ε := String) (α := Nat) twoAttempts
    .still ho
  refine ⟨ho, hboth.1 unavailable _ () _ (by decide +kernel) (by decide +kernel), ?_⟩
  exact hboth.2 unavailableBlocking 2 ⟨0⟩ () _ (by decide +kernel) (by decide +kernel)

end ResilientCalls
