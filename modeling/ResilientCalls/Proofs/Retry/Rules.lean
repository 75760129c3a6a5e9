import ResilientCalls.Retry.Policy
/-!
# The rules of a policy

Validation reports the first rule that a policy breaks, in a fixed order.
A policy breaks none exactly when it keeps each of them, in any order
(`validate_eq_ok_iff`), so what a valid policy keeps is read off one by one.
-/

namespace ResilientCalls

namespace RetryPolicy

variable {p q : RetryPolicy}

/-- The rules that a policy keeps, one by one. -/
structure KeepsRules (p : RetryPolicy) : Prop where
  initial : p.initialInterval.isZero = false
  coefficient : coefficientInRange p.backoffCoefficient = true
  maximum : ∀ m ∈ p.configuredMaximum, p.initialInterval.nanos ≤ m.nanos
  expiration : p.expiration.any Duration.isZero = false
  jitter : jitterInRange p.jitter = true

theorem filter_shorter_eq_none_iff :
    p.configuredMaximum.filter (fun m => decide (m.nanos < p.initialInterval.nanos)) = none ↔
      ∀ m ∈ p.configuredMaximum, p.initialInterval.nanos ≤ m.nanos := by
  cases p.configuredMaximum <;> simp [Option.filter]

/-- **A policy is valid exactly when it keeps every rule.** -/
theorem validate_eq_ok_iff : p.validate = .ok () ↔ p.KeepsRules := by
  constructor
  · intro h
    unfold validate at h
    split at h
    · cases h
    next hinitial =>
    split at h
    · cases h
    next hcoefficient =>
    split at h
    · cases h
    next hmaximum =>
    split at h
    · cases h
    next hexpiration =>
    split at h
    · cases h
    next hjitter =>
    exact ⟨by simpa using hinitial, by simpa using hcoefficient,
      filter_shorter_eq_none_iff.1 hmaximum, by simpa using hexpiration, by simpa using hjitter⟩
  · rintro ⟨hinitial, hcoefficient, hmaximum, hexpiration, hjitter⟩
    simp only [validate, hinitial, hcoefficient, filter_shorter_eq_none_iff.2 hmaximum,
      hexpiration, hjitter, Bool.not_true, Bool.false_eq_true, if_false]

/-- A policy that keeps every rule is itself when it is checked. -/
theorem KeepsRules.checked_eq (h : p.KeepsRules) : p.checked = .ok p := by
  rw [checked, validate_eq_ok_iff.2 h]

/-- A policy is checked as a whole or not at all. -/
theorem eq_of_checked (h : p.checked = .ok q) : q = p := by
  unfold checked at h
  split at h
  · exact (Except.ok.inj h).symm
  · cases h

/-- A policy that was checked keeps every rule. -/
theorem keepsRules_of_checked (h : p.checked = .ok q) : q.KeepsRules := by
  obtain rfl := eq_of_checked h
  refine validate_eq_ok_iff.1 ?_
  unfold checked at h
  split at h
  · assumption
  · cases h

end RetryPolicy

end ResilientCalls
