import ResilientCalls.Proofs.Retry.Termination
import ResilientCalls.Proofs.Retry.Timeline
/-!
# Attempts and pauses at the deadline

The deadline of a run is merged once, when the run begins, and no
transition looks at it directly: a failure is retried only while time is
left, and the delay is cut to that time. So every pause is asked for
before the deadline and ends by it, and an attempt that starts at the
deadline or later fails too late to be followed by another. Whether the
attempt fails for good, has used up the policy or is cancelled plays no
part. The run may be at its end, cancelled or still going.
-/

namespace ResilientCalls

variable {σ τ ε α : Type}

/-- No draw makes a delay longer. -/
def RetryPolicy.NeverLengthens (p : RetryPolicy) (draws : Draws) : Prop :=
  ∀ (n : Nat) (delay jittered : Duration), delay.nanos ≤ (p.baseDelay n).nanos →
    p.jittered (draws n) delay = .ok jittered → jittered.nanos ≤ delay.nanos

/-- Without jitter no delay changes. -/
theorem RetryPolicy.neverLengthens_of_isZero {p : RetryPolicy} (h : p.jitter.isZero = true)
    (draws : Draws) : p.NeverLengthens draws := by
  intro n delay jittered _ hjittered
  rw [RetryPolicy.jittered_of_isZero h] at hjittered
  rw [← Except.ok.inj hjittered]

variable [Failure ε] {p : RetryPolicy} {o : RetryOptions} {draws : Draws}

/-! ## Pauses -/

namespace Standing

variable {s : Standing ε α} {ts : List (Trial ε α)}

/-- Pauses begin at the ends of the first attempts, one each. -/
theorem pauses_prefix (p : RetryPolicy) (draws : Draws) (s : Standing ε α)
    (ts : List (Trial ε α)) : (s.afterAll p draws ts).pauses.map Prod.fst <+:
      s.pauses.map Prod.fst ++ ts.map Trial.ended := by
  induction ts generalizing s with
  | nil => simp
  | cons t ts ih =>
    by_cases hopen : (s.after p draws t).IsOpen
    · obtain ⟨e, delay, -, -, hafter⟩ := isOpen_after hopen
      have hrest := ih (s.after p draws t)
      rw [hafter] at hrest
      simpa [afterAll_cons, hafter] using hrest
    · rw [afterAll_cons, afterAll_of_not_isOpen hopen, pauses_of_not_isOpen hopen]
      exact List.prefix_append _ _

/-- **Each pause was asked for by a retry** under the deadline of the
beginning. -/
theorem retry_of_mem_pauses {q : Instant × Duration} (h : q ∈ (s.afterAll p draws ts).pauses) :
    q ∈ s.pauses ∨ ∃ (i : Invocation) (e : ε), i.deadline = s.invocation.deadline ∧
      afterFailure p i e q.1 (draws i.attempt) = .retry q.2 := by
  induction ts generalizing s with
  | nil => exact Or.inl h
  | cons t ts ih =>
    by_cases hopen : (s.after p draws t).IsOpen
    · obtain ⟨e, delay, -, hdecision, hafter⟩ := isOpen_after hopen
      rcases ih h with hmem | ⟨i, e', hdeadline, hretry⟩
      · rw [hafter] at hmem
        rcases List.mem_append.1 hmem with hold | hnew
        · exact Or.inl hold
        · obtain rfl := List.mem_singleton.1 hnew
          exact Or.inr ⟨s.invocation, e, rfl, hdecision⟩
      · rw [hafter] at hdeadline
        exact Or.inr ⟨i, e', hdeadline, hretry⟩
    · rw [afterAll_cons, afterAll_of_not_isOpen hopen, pauses_of_not_isOpen hopen] at h
      exact Or.inl h

/-- An attempt that an open run has left behind was retried. -/
theorem retry_of_isOpen_take {k : Nat} {t : Trial ε α}
    (h : (s.afterAll p draws (ts.take (k + 1))).IsOpen) (ht : ts[k]? = some t) :
    ∃ (i : Invocation) (e : ε) (delay : Duration), i.deadline = s.invocation.deadline ∧
      afterFailure p i e t.ended (draws i.attempt) = .retry delay := by
  rw [List.take_add_one, ht, Option.toList_some, afterAll_append, afterAll_cons, afterAll_nil] at h
  obtain ⟨e, delay, -, hdecision, -⟩ := isOpen_after h
  exact ⟨_, e, delay, (afterAll_fixed p draws s (ts.take k)).2, hdecision⟩

end Standing

namespace Chronicle

variable {c : Chronicle ε α} {delays : List Duration} {d : Instant}

/-- The delays asked for, each with the end of the attempt that it
follows, are the pauses. -/
theorem zip_delays (o : RetryOptions) (draws : Draws) (c : Chronicle ε α) :
    (c.trials.map Trial.ended).zip (c.standing o draws).delays =
      (c.standing o draws).pauses :=
  Standing.zip_delays (Standing.pauses_prefix o.policy draws (.initial (o.begin c.first)) c.trials)

/-! ## The deadline -/

/-- **What a deadline says about the attempts and the delays of a run:** an
attempt that starts at the deadline or later is the last, and each delay is
asked for before the deadline, at the end of the attempt that it follows;
if no draw makes a delay longer, it also ends by the deadline. -/
structure HeedsDeadline (p : RetryPolicy) (draws : Draws) (c : Chronicle ε α)
    (delays : List Duration) (d : Instant) : Prop where
  last_start : ∀ (k : Nat) (s : Instant), c.starts[k]? = some s → d.nanos ≤ s.nanos →
    c.starts.length = k + 1
  delays_le : delays.length ≤ c.trials.length
  asked_before : ∀ q ∈ (c.trials.map Trial.ended).zip delays, q.1.nanos < d.nanos
  ends_by : p.NeverLengthens draws →
    ∀ q ∈ (c.trials.map Trial.ended).zip delays, q.1.nanos + q.2.nanos ≤ d.nanos

/-- Attempts that follow from one another in time heed the deadline. -/
theorem Follows.heedsDeadline (h : c.Follows o draws delays) {now : Instant}
    (htimely : c.Timely now) (hd : o.effective c.first = some d) :
    c.HeedsDeadline o.policy draws delays d := by
  -- every retry was decided under the deadline of the first attempt
  have hfixed : (Standing.initial (o.begin c.first) : Standing ε α).invocation.deadline =
      some d := hd
  have hpause : ∀ q ∈ (c.standing o draws).pauses, ∃ (i : Invocation) (e : ε),
      i.deadline = some d ∧ afterFailure o.policy i e q.1 (draws i.attempt) = .retry q.2 := by
    intro q hq
    rcases Standing.retry_of_mem_pauses hq with hnone | ⟨i, e, hdeadline, hretry⟩
    · exact absurd hnone List.not_mem_nil
    · exact ⟨i, e, hdeadline.trans hfixed, hretry⟩
  have hzip := zip_delays o draws c
  rw [h.delays_eq] at hzip
  refine ⟨?_, ?_, ?_, ?_⟩
  · intro k s hs hlate
    have hk : k < c.starts.length := (List.getElem?_eq_some_iff.1 hs).1
    by_contra hmore
    -- the attempt has ended, since another one has been started
    have hended : k < c.trials.length := by
      have := h.inFlight_le
      omega
    have ht : c.trials[k]? = some c.trials[k] := List.getElem?_eq_getElem hended
    obtain ⟨i, e, delay, hdeadline, hretry⟩ := Standing.retry_of_isOpen_take
      (Standing.isOpen_take_of_le h.followed (by omega : k + 1 ≤ c.starts.length - 1)) ht
    have hbefore := lt_deadline_of_retry hretry (hdeadline.trans hfixed)
    have hforward := htimely.forward k s _ hs ht
    omega
  · have hlength := (Standing.pauses_prefix o.policy draws (.initial (o.begin c.first))
      c.trials).length_le
    rw [← h.delays_eq]
    simpa [Standing.delays, Standing.initial, standing] using hlength
  · intro q hq
    obtain ⟨i, e, hdeadline, hretry⟩ := hpause q (hzip ▸ hq)
    exact lt_deadline_of_retry hretry hdeadline
  · intro hshort q hq
    obtain ⟨i, e, hdeadline, hretry⟩ := hpause q (hzip ▸ hq)
    exact le_deadline_of_retry hretry hdeadline (hshort i.attempt)

end Chronicle

/-- **After the deadline at most one attempt starts, and it is the last.**
Whatever the work, the policy, the draws and the token: the attempts and
the delays of a run heed the effective deadline that was fixed when the
run began, in a run that is polled by a clock that never goes back as well
as in a blocking run whose calls take no time back. -/
theorem deadline_heeded (o : RetryOptions) (draws : Draws) :
    (∀ (w : Work σ τ ε α) (polls : List (Instant × Bool)) (world : σ) (d : Instant),
      Run.InOrder polls →
      o.effective (Run.chronicle w draws polls o world).first = some d →
      (Run.chronicle w draws polls o world).HeedsDeadline o.policy draws
        (RetryEvent.delays ((Run.new o).pollEach w draws polls world).events) d) ∧
    (∀ (w : BlockingWork σ ε α) (limit : Nat) (now : Instant) (world : σ) (d : Instant),
      w.Forward →
      o.effective (Blocking.chronicle limit w o draws now world).first = some d →
      (Blocking.chronicle limit w o draws now world).HeedsDeadline o.policy draws
        (RetryEvent.delays (Blocking.runWithin limit w o draws now world).events) d) := by
  constructor
  · intro w polls world d horder hd
    obtain ⟨hfollows, last, htimely⟩ := Run.chronicle_inOrder horder w o draws world
    exact hfollows.heedsDeadline htimely hd
  · intro w limit now world d hw hd
    obtain ⟨hfollows, last, htimely⟩ := Blocking.chronicle_forward hw limit o draws now world
    exact hfollows.heedsDeadline htimely hd

/-- With a quarter of a second for all attempts, the third one starts at
the deadline and is the last, after delays of a tenth of a second and of
what is left. -/
theorem deadline_heeded_quarterSecond :
    let polls := Run.pollsFrom everyTwentieth 0 8
    let c := Run.chronicle unavailable .still polls quarterSecond ()
    let b := Blocking.chronicle 8 unavailableBlocking quarterSecond .still ⟨0⟩ ()
    Run.InOrder polls ∧ unavailableBlocking.Forward ∧
    c.starts = [⟨0⟩, ⟨100000000⟩, ⟨250000000⟩] ∧ b.starts = c.starts ∧
    quarterSecond.effective c.first = some ⟨250000000⟩ ∧
    c.HeedsDeadline quarterSecond.policy .still [⟨100000000⟩, ⟨150000000⟩] ⟨250000000⟩ ∧
    b.HeedsDeadline quarterSecond.policy .still [⟨100000000⟩, ⟨150000000⟩] ⟨250000000⟩ ∧
    quarterSecond.policy.NeverLengthens .still := by
  intro polls c b
  have hboth := deadline_heeded (σ := Unit) (τ := Unit) (ε := String) (α := Nat) quarterSecond
    .still
  have horder : Run.InOrder polls := by
    unfold Run.InOrder
    decide
  have hw : unavailableBlocking.Forward := fun _ _ => le_rfl
  have hc : quarterSecond.effective c.first = some ⟨250000000⟩ := by decide +kernel
  have hb : quarterSecond.effective b.first = some ⟨250000000⟩ := by decide +kernel
  have hkept := hboth.1 unavailable polls () ⟨250000000⟩ horder hc
  have hblocking := hboth.2 unavailableBlocking 8 ⟨0⟩ () ⟨250000000⟩ hw hb
  have hdelays : RetryEvent.delays
      ((Run.new quarterSecond).pollEach unavailable .still polls ()).events =
        [⟨100000000⟩, ⟨150000000⟩] := by decide +kernel
  have hsleeps : RetryEvent.delays
      (Blocking.runWithin 8 unavailableBlocking quarterSecond .still ⟨0⟩ ()).events =
        [⟨100000000⟩, ⟨150000000⟩] := by decide +kernel
  rw [hdelays] at hkept
  rw [hsleeps] at hblocking
  exact ⟨horder, hw, by decide +kernel, by decide +kernel, hc, hkept, hblocking,
    RetryPolicy.neverLengthens_of_isZero (by decide +kernel) .still⟩

end ResilientCalls
