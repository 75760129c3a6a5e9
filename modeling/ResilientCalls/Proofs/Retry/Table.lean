import Mathlib.Data.List.Nodup
import ResilientCalls.Proofs.Retry.Outcome
import ResilientCalls.Proofs.Retry.Rules
import ResilientCalls.Retry.Settings
/-!
# The do-not-retry table

A table is built matcher by matcher, and a matcher that is listed already
is left out: what comes of it is the list of first occurrences
(`withDoNotRetryAll_doNotRetry`). Classification asks only which matchers
are listed, so it takes no notice of what was left out. A failure that the
table lists is not retried wherever it turns up in a run, and no standing
that is open has one behind it; so the attempt that shows it is the last
and its failure is the outcome (`Run.stops_of_lists`).
-/

namespace ResilientCalls

/-! ## What is listed -/

/-- A value at the end of a list is a first occurrence unless it is there
already. -/
theorem eraseDups_concat {α : Type} [DecidableEq α] (l : List α) (a : α) :
    (l ++ [a]).eraseDups = if a ∈ l then l.eraseDups else l.eraseDups ++ [a] := by
  rw [List.eraseDups_append]
  by_cases hmem : a ∈ l
  · simp [List.removeAll, hmem]
  · simp [List.removeAll, hmem, List.eraseDups_cons]

namespace RetryPolicy

variable {p : RetryPolicy}

/-- **A table lists the first occurrences** of all that was added. -/
theorem withDoNotRetryAll_doNotRetry (added : List Matcher) (ms : List Matcher)
    (h : p.doNotRetry = added.eraseDups) :
    (p.withDoNotRetryAll ms).doNotRetry = (added ++ ms).eraseDups := by
  induction ms generalizing p added with
  | nil =>
    rw [List.append_nil]
    exact h
  | cons m rest ih =>
    have hone : (p.withDoNotRetry m).doNotRetry = (added ++ [m]).eraseDups := by
      have hmem : m ∈ p.doNotRetry ↔ m ∈ added := by rw [h, List.mem_eraseDups]
      rw [eraseDups_concat, ← h]
      unfold withDoNotRetry
      simp only [hmem]
      split <;> rfl
    have hrest := ih (added ++ [m]) hone
    rwa [List.append_assoc, List.singleton_append] at hrest

/-- No matcher is listed twice. -/
theorem withDoNotRetryAll_nodup (ms : List Matcher) (h : p.doNotRetry.Nodup) :
    (p.withDoNotRetryAll ms).doNotRetry.Nodup := by
  induction ms generalizing p with
  | nil => exact h
  | cons m rest ih =>
    refine ih ?_
    unfold withDoNotRetry
    split
    · exact h
    · rename_i hnew
      exact List.Nodup.append h (List.nodup_singleton m) (by simpa using hnew)

/-- Matchers that are not listed twice are added as they are. -/
theorem withDoNotRetryAll_eq {ms : List Matcher} (h : (p.doNotRetry ++ ms).Nodup) :
    p.withDoNotRetryAll ms = { p with doNotRetry := p.doNotRetry ++ ms } := by
  induction ms generalizing p with
  | nil => simp [withDoNotRetryAll]
  | cons m rest ih =>
    have hnew : m ∉ p.doNotRetry := fun hmem =>
      (List.nodup_append.1 h).2.2 m hmem m List.mem_cons_self rfl
    have hrest := ih (p := { p with doNotRetry := p.doNotRetry ++ [m] }) (by simpa using h)
    rw [withDoNotRetryAll, List.foldl_cons, withDoNotRetry, if_neg hnew]
    rw [withDoNotRetryAll, List.append_assoc] at hrest
    exact hrest

end RetryPolicy

/-- The table of configured settings is that of the first occurrences. -/
theorem PolicySettings.doNotRetry_of_toPolicy {s : PolicySettings} {p : RetryPolicy}
    (h : s.toPolicy = .ok p) : p.doNotRetry.Nodup ∧ p.doNotRetry = s.doNotRetry.eraseDups := by
  rw [RetryPolicy.eq_of_checked h]
  exact ⟨RetryPolicy.withDoNotRetryAll_nodup s.doNotRetry List.nodup_nil,
    RetryPolicy.withDoNotRetryAll_doNotRetry [] s.doNotRetry rfl⟩

variable {σ τ ε α : Type} [Failure ε]

/-- **Classification asks only what is listed,** not how often or where. -/
theorem classify_congr {table table' : List Matcher} (h : ∀ m, m ∈ table ↔ m ∈ table') (e : ε)
    (elapsed : Bool) : classify table e elapsed = classify table' e elapsed := by
  have hany : table.any (·.matchesFailure e) = table'.any (·.matchesFailure e) := by
    rw [Bool.eq_iff_iff, List.any_eq_true, List.any_eq_true]
    simp only [h]
  rw [classify, classify, hany]

/-! ## Runs that meet a listed failure -/

/-- A listed failure is never retried, whatever else it reports and however
much time is left. -/
theorem afterFailure_of_lists {p : RetryPolicy} {e : ε} (h : p.Lists e) (i : Invocation)
    (now : Instant) (draw : Binary64) : afterFailure p i e now draw = .stop .nonRetryable := by
  have hlisted : p.doNotRetry.any (·.matchesFailure e) = true := List.any_eq_true.2 h
  simp only [afterFailure, classify, hlisted, if_true]

variable {o : RetryOptions} {draws : Draws} {c : Chronicle ε α} {e : ε}

namespace Chronicle

/-- A run that is open has met no listed failure. -/
theorem not_lists_of_isOpen (ho : o.Accepted) (hopen : (c.standing o draws).IsOpen) {t : Trial ε α}
    (ht : t ∈ c.trials) (hresult : t.result = .ok (.error e)) : ¬ o.policy.Lists e := by
  obtain ⟨e', hresult', hlists, -⟩ := Standing.retries_of_isOpen ho.waits hopen t ht
  obtain rfl : e = e' := Except.error.inj (Except.ok.inj (hresult.symm.trans hresult'))
  exact hlists

/-- **A listed failure closes the run:** its attempt is the last one, and
the outcome tells the failure with the number of the attempt. -/
theorem ClosedByAttempt.of_lists (ho : o.Accepted) {delays : List Duration} {ending : Ending ε α}
    (h : c.ClosedByAttempt o draws delays ending) {k : Nat} {t : Trial ε α}
    (hk : c.trials[k]? = some t) (hresult : t.result = .ok (.error e)) (hlists : o.policy.Lists e) :
    c.trials.length = k + 1 ∧ ending = .settled (.error (.nonRetryable e
      (min (k + 1) maxCount32) (t.ended.since c.first))) := by
  obtain ⟨ts, last, htrials, hopen⟩ := h.wasOpen
  have hlength : k = ts.length := by
    have hlt : k < c.trials.length := (List.getElem?_eq_some_iff.1 hk).1
    rw [htrials, List.length_append, List.length_singleton] at hlt
    by_contra hne
    -- an attempt before the last one was retried, so its failure is not listed
    rw [htrials, List.getElem?_append_left (by omega)] at hk
    obtain ⟨e', hresult', hretried, -⟩ :=
      Standing.retries_of_isOpen ho.waits hopen t (List.mem_of_getElem? hk)
    obtain rfl : e = e' := Except.error.inj (Except.ok.inj (hresult.symm.trans hresult'))
    exact hretried hlists
  subst hlength
  rw [htrials, List.getElem?_concat_length, Option.some.injEq] at hk
  subst hk
  refine ⟨by rw [htrials, List.length_append, List.length_singleton], ?_⟩
  have hone : (Standing.initial (o.begin c.first) : Standing ε α).invocation.attempt ≤
      maxCount32 := show 1 ≤ maxCount32 by decide
  have hattempt := Standing.afterAll_attempt hone hopen
  have hfirst := (Standing.afterAll_fixed o.policy draws
    (Standing.initial (o.begin c.first) : Standing ε α) ts).1
  obtain ⟨result, ended⟩ := last
  obtain rfl : result = .ok (.error e) := hresult
  rw [← h.ending_eq, standing, htrials, Standing.afterAll_append, Standing.afterAll_cons,
    Standing.afterAll_nil, Standing.after_failure o.policy draws hopen,
    afterFailure_of_lists hlists]
  simp only [Stop.toError, hattempt, Invocation.elapsed, hfirst]
  rw [show (Standing.initial (o.begin c.first) : Standing ε α).invocation.attempt = 1 from rfl,
    Nat.add_comm 1]
  rfl

end Chronicle

/-- **A listed failure ends a run,** however it is polled: nothing is
started after it, and the run has settled with it. -/
theorem Run.stops_of_lists (ho : o.Accepted) (draws : Draws) (polls : List (Instant × Bool))
    (w : Work σ τ ε α) (world : σ) {k : Nat} {t : Trial ε α} :
    let r := (Run.new o).pollEach w.chronicled draws polls (world, Chronicle.empty)
    let c := r.world.2
    c.trials[k]? = some t → t.result = .ok (.error e) → o.policy.Lists e →
      c.starts.length = k + 1 ∧ c.trials.length = k + 1 ∧
        r.result = .settled (.error (.nonRetryable e (min (k + 1) maxCount32)
          (t.ended.since c.first))) := by
  intro r c hk hresult hlists
  have hnever : ¬ (c.standing o draws).IsOpen := fun hopen =>
    Chronicle.not_lists_of_isOpen ho hopen (List.mem_of_getElem? hk) hresult hlists
  have hclosed : ∀ past ending, ClosesWorld o draws polls past r.world ending →
      c.starts.length = k + 1 ∧ c.trials.length = k + 1 ∧
        ending = .settled (.error (.nonRetryable e (min (k + 1) maxCount32)
          (t.ended.since c.first))) := by
    rintro past ending (hattempt | ⟨now, -, htoken⟩)
    · obtain ⟨hlength, hending⟩ := hattempt.of_lists ho hk hresult hlists
      exact ⟨hattempt.complete.trans hlength, hlength, hending⟩
    · exact absurd htoken.isOpen hnever
  have hcloses : r.Leaves (TracksWorld o draws) (ClosesWorld o draws polls) [] :=
    Run.pollEach_closes o draws polls w world
  unfold Turn.Leaves at hcloses
  split at hcloses
  · exact absurd hcloses.stands.1 hnever
  all_goals
    rename_i hsettled
    rw [hsettled]
    exact hclosed _ _ hcloses

end ResilientCalls
