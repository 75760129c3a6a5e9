import ResilientCalls.Proofs.Retry.Rules
import ResilientCalls.Proofs.Retry.Table
import ResilientCalls.Proofs.Time.Millis
/-!
# Policies through their millisecond form

A policy is checked where it is made, and its table is made matcher by
matcher; so every policy that can be come by keeps the rules and lists no
matcher twice. The millisecond form rounds each duration by itself. The
rules survive it because rounding up keeps the order of the two intervals
and leaves nothing at zero, and the table survives being made once more
because it has nothing to leave out (`policy_staysValid`).
-/

namespace ResilientCalls

namespace RetryPolicy

variable {p q : RetryPolicy}

/-! ## Where policies come from -/

/-- What is set by one call on a builder. -/
inductive Setting where
  | initialInterval (d : Duration)
  | backoffCoefficient (c : Binary64)
  | maximumInterval (d : Duration)
  | maximumAttempts (n : Nat)
  | expiration (d : Duration)
  | doNotRetry (m : Matcher)
  | jitter (j : Binary64)

/-- The policy under construction after one call. -/
def set (p : RetryPolicy) : Setting → RetryPolicy
  | .initialInterval d => { p with initialInterval := d }
  | .backoffCoefficient c => { p with backoffCoefficient := c }
  | .maximumInterval d => { p with configuredMaximum := some d }
  | .maximumAttempts n => { p with maximumAttempts := n }
  | .expiration d => { p with expiration := some d }
  | .doNotRetry m => p.withDoNotRetry m
  | .jitter j => { p with jitter := j }

/-- What a builder that starts from a policy makes of some calls. -/
def build (p : RetryPolicy) (settings : List Setting) : Except ConfigurationError RetryPolicy :=
  (settings.foldl set p).checked

/-- The policies that can be come by: the standard one, those that are
configured, and those that a builder makes, whether it starts afresh or
from a policy there is. -/
inductive Obtainable : RetryPolicy → Prop
  | standard : Obtainable standard
  | configured (s : PolicySettings) {p : RetryPolicy} : s.toPolicy = .ok p → Obtainable p
  | built (settings : List Setting) {p : RetryPolicy} :
      draft.build settings = .ok p → Obtainable p
  | rebuilt (settings : List Setting) {p q : RetryPolicy} :
      Obtainable q → q.build settings = .ok p → Obtainable p

theorem Obtainable.keepsRules (h : p.Obtainable) : p.KeepsRules := by
  cases h with
  | standard => exact validate_eq_ok_iff.1 (by decide +kernel)
  | configured s hs => exact keepsRules_of_checked hs
  | built settings hbuilt => exact keepsRules_of_checked hbuilt
  | rebuilt settings hq hbuilt => exact keepsRules_of_checked hbuilt

theorem set_nodup (h : p.doNotRetry.Nodup) (setting : Setting) :
    (p.set setting).doNotRetry.Nodup := by
  cases setting with
  | doNotRetry m => exact withDoNotRetryAll_nodup [m] h
  | _ => exact h

theorem build_nodup (h : p.doNotRetry.Nodup) {settings : List Setting}
    (hbuilt : p.build settings = .ok q) : q.doNotRetry.Nodup := by
  rw [eq_of_checked hbuilt]
  clear hbuilt
  induction settings generalizing p with
  | nil => exact h
  | cons setting rest ih => exact ih (set_nodup h setting)

/-- **No policy that can be come by lists a matcher twice.** -/
theorem Obtainable.nodup (h : p.Obtainable) : p.doNotRetry.Nodup := by
  induction h with
  | standard => exact List.nodup_nil
  | configured s hs => exact (PolicySettings.doNotRetry_of_toPolicy hs).1
  | built settings hbuilt => exact build_nodup List.nodup_nil hbuilt
  | rebuilt settings _ hbuilt ih => exact build_nodup ih hbuilt

/-! ## Rounding a policy up -/

/-- The durations that a policy has. -/
def durations (p : RetryPolicy) : List Duration :=
  p.initialInterval :: (p.configuredMaximum.toList ++ p.expiration.toList)

/-- The policy with each of its durations rounded up. -/
def rounded (p : RetryPolicy) : RetryPolicy :=
  { p with
    initialInterval := p.initialInterval.roundUp
    configuredMaximum := p.configuredMaximum.map .roundUp
    expiration := p.expiration.map .roundUp }

/-- `q` has the durations of `p` rounded up, the absent ones absent, and
is `p` in everything else. -/
structure IsRounded (p q : RetryPolicy) : Prop where
  initial : p.initialInterval.IsRoundedUp q.initialInterval
  coefficient : q.backoffCoefficient = p.backoffCoefficient
  maximum : Option.Rel Duration.IsRoundedUp p.configuredMaximum q.configuredMaximum
  attempts : q.maximumAttempts = p.maximumAttempts
  expiration : Option.Rel Duration.IsRoundedUp p.expiration q.expiration
  table : q.doNotRetry = p.doNotRetry
  jitter : q.jitter = p.jitter

theorem isRounded_rounded (p : RetryPolicy) : p.IsRounded p.rounded := by
  have hrel : ∀ o : Option Duration, Option.Rel Duration.IsRoundedUp o (o.map .roundUp) := by
    intro o
    cases o with
    | none => exact .none
    | some d => exact .some d.isRoundedUp_roundUp
  -- unfolded first, so that the fields kept are read off without comparing those rounded
  unfold rounded
  exact ⟨p.initialInterval.isRoundedUp_roundUp, rfl, hrel _, rfl, hrel _, rfl, rfl⟩

/-- Only a policy whose durations are all counted is left as it is. -/
theorem rounded_eq_self_iff : p.rounded = p ↔ ∀ d ∈ p.durations, d.IsCounted := by
  obtain ⟨initial, coefficient, maximum, attempts, expiration, table, jitter⟩ := p
  simp only [rounded, mk.injEq, durations, Duration.roundUp_eq_self_iff,
    Duration.map_roundUp_eq_self_iff, List.forall_mem_cons, List.forall_mem_append,
    Option.mem_toList, Option.mem_def, true_and, and_true]

/-- **Rounding up breaks no rule.** -/
theorem KeepsRules.rounded (h : p.KeepsRules) : p.rounded.KeepsRules := by
  unfold RetryPolicy.rounded
  refine ⟨(Duration.isZero_roundUp _).trans h.initial, h.coefficient, ?_, ?_, h.jitter⟩
  · intro m hm
    obtain ⟨d, hd, rfl⟩ := Option.map_eq_some_iff.1 hm
    exact Duration.roundUp_mono (h.maximum d hd)
  · simp only [Option.any_map, Duration.isZero_roundUp]
    exact h.expiration

/-- The settings of a policy describe the rounded policy. -/
theorem toPolicy_ofPolicy (h : p.doNotRetry.Nodup) :
    (PolicySettings.ofPolicy p).toPolicy = p.rounded.checked := by
  unfold PolicySettings.toPolicy
  rw [withDoNotRetryAll_eq (by simpa [draft, PolicySettings.ofPolicy] using h)]
  simp only [PolicySettings.ofPolicy, Option.map_map, Duration.ofMillis_comp_millisUp, draft,
    List.nil_append, rounded, Duration.roundUp]

/-- A rounded policy has the same settings. -/
theorem ofPolicy_rounded (p : RetryPolicy) :
    PolicySettings.ofPolicy p.rounded = PolicySettings.ofPolicy p := by
  have hcount : Duration.millisUp ∘ Duration.roundUp = Duration.millisUp := by
    funext d
    rw [Function.comp_apply, d.millisUp_roundUp]
  unfold rounded PolicySettings.ofPolicy
  simp only [Option.map_map, hcount, Duration.millisUp_roundUp]

end RetryPolicy

/-- **A valid policy stays valid through its millisecond form.** It comes
back with its durations rounded up and nothing else changed, so as it was
exactly when these were counted in milliseconds; from then on it has the
same form. A builder that starts from the policy gives it back. -/
theorem policy_staysValid {p : RetryPolicy} (hp : p.Obtainable) :
    p.build [] = .ok p ∧
      ∃ q, (PolicySettings.ofPolicy p).toPolicy = .ok q ∧ p.IsRounded q ∧
        (q = p ↔ ∀ d ∈ p.durations, d.IsCounted) ∧
        PolicySettings.ofPolicy q = PolicySettings.ofPolicy p := by
  have hrounded := (RetryPolicy.toPolicy_ofPolicy hp.nodup).trans hp.keepsRules.rounded.checked_eq
  exact ⟨hp.keepsRules.checked_eq, p.rounded, hrounded, p.isRounded_rounded,
    RetryPolicy.rounded_eq_self_iff, p.ofPolicy_rounded⟩

/-- A policy of half a millisecond at first and one and a half at most,
that never expires in practice. -/
def subMillisecond : RetryPolicy :=
  { RetryPolicy.draft with
    initialInterval := ⟨500000⟩
    configuredMaximum := some ⟨1500000⟩
    expiration := some .longest }

/-- It comes back with one millisecond, two, and the largest count. -/
theorem policy_staysValid_subMillisecond :
    subMillisecond.Obtainable ∧
      ∃ q, (PolicySettings.ofPolicy subMillisecond).toPolicy = .ok q ∧
        q.durations = [.ofMillis 1, .ofMillis 2, .ofMillis maxCount64] ∧
        subMillisecond.IsRounded q ∧
        PolicySettings.ofPolicy q = PolicySettings.ofPolicy subMillisecond := by
  have hp : subMillisecond.Obtainable :=
    .built [.initialInterval ⟨500000⟩, .maximumInterval ⟨1500000⟩, .expiration .longest]
      (by decide +kernel)
  obtain ⟨-, q, hq, hrounded, -, hsame⟩ := policy_staysValid hp
  have hvalue : (PolicySettings.ofPolicy subMillisecond).toPolicy = .ok subMillisecond.rounded := by
    decide +kernel
  obtain rfl := Except.ok.inj (hq.symm.trans hvalue)
  exact ⟨hp, _, hq, by decide +kernel, hrounded, hsame⟩

end ResilientCalls
