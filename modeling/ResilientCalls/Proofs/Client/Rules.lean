import ResilientCalls.Client.Config
import ResilientCalls.Proofs.Retry.Rules
/-!
# The rules of a configuration

A configuration is valid exactly when it keeps every rule, in any order
(`validate_eq_ok_iff`). Its policy is checked with the table of the service
behind the configured one; since no rule asks about the table, only the
settings matter (`exists_retryPolicy_iff`).
-/

namespace ResilientCalls

namespace RetryPolicy

variable {p : RetryPolicy}

/-- Matchers change nothing but the table. -/
theorem exists_withDoNotRetryAll (p : RetryPolicy) (ms : List Matcher) :
    ∃ table, p.withDoNotRetryAll ms = { p with doNotRetry := table } := by
  induction ms generalizing p with
  | nil => exact ⟨p.doNotRetry, rfl⟩
  | cons m rest ih =>
    obtain ⟨table, htable⟩ := ih (p.withDoNotRetry m)
    refine ⟨table, htable.trans ?_⟩
    unfold withDoNotRetry
    split <;> rfl

/-- No rule asks about the table. -/
theorem validate_withDoNotRetryAll (p : RetryPolicy) (ms : List Matcher) :
    (p.withDoNotRetryAll ms).validate = p.validate := by
  obtain ⟨table, htable⟩ := exists_withDoNotRetryAll p ms
  rw [htable]
  rfl

theorem keepsRules_withDoNotRetryAll_iff {ms : List Matcher} :
    (p.withDoNotRetryAll ms).KeepsRules ↔ p.KeepsRules := by
  rw [← validate_eq_ok_iff, validate_withDoNotRetryAll, validate_eq_ok_iff]

theorem exists_checked_iff : (∃ q, p.checked = .ok q) ↔ p.KeepsRules := by
  refine ⟨fun ⟨q, hq⟩ => ?_, fun h => ⟨p, h.checked_eq⟩⟩
  obtain rfl := eq_of_checked hq
  exact keepsRules_of_checked hq

/-- The rules leave the attempts free, and the expiration unless it is
zero. -/
theorem KeepsRules.rebound {attempts : Nat} {expiration : Option Duration} (h : p.KeepsRules) :
    { p with maximumAttempts := attempts, expiration := expiration }.KeepsRules ↔
      expiration.any Duration.isZero = false :=
  ⟨fun h => h.expiration, fun hexp => ⟨h.initial, h.coefficient, h.maximum, hexp, h.jitter⟩⟩

end RetryPolicy

/-- The policy that settings describe, before it has their matchers. -/
def PolicySettings.withoutTable (s : PolicySettings) : RetryPolicy :=
  { RetryPolicy.draft with
    initialInterval := .ofMillis s.initialIntervalMs
    backoffCoefficient := s.backoffCoefficient
    configuredMaximum := s.maximumIntervalMs.map Duration.ofMillis
    maximumAttempts := s.maximumAttempts
    expiration := s.expirationMs.map Duration.ofMillis
    jitter := s.jitter }

theorem PolicySettings.exists_toPolicy_iff {s : PolicySettings} :
    (∃ p, s.toPolicy = .ok p) ↔ s.withoutTable.KeepsRules := by
  have heq : s.toPolicy = (s.withoutTable.withDoNotRetryAll s.doNotRetry).checked := rfl
  rw [heq, RetryPolicy.exists_checked_iff, RetryPolicy.keepsRules_withDoNotRetryAll_iff]

theorem Duration.isZero_ofMillis (ms : Nat) : (Duration.ofMillis ms).isZero = (ms == 0) := by
  have hunit : Duration.perMillisecond ≠ 0 := by decide
  rw [Duration.isZero, Duration.ofMillis, Bool.eq_iff_iff, beq_iff_eq, beq_iff_eq,
    Nat.mul_eq_zero, or_iff_left hunit]

theorem any_isZero_map_ofMillis_iff {ms : Option Nat} :
    (ms.map Duration.ofMillis).any Duration.isZero = false ↔ ms ≠ some 0 := by
  cases ms with
  | none => simp
  | some ms =>
    rw [Option.map_some, Option.any_some, Duration.isZero_ofMillis, beq_eq_false_iff_ne]
    exact (not_congr Option.some_inj).symm

theorem Text.isBlankText_eq_false_iff {s : String} :
    Text.isBlankText s = false ↔ ∃ c ∈ s.toList, Text.isBlank c = false := by
  simp [Text.isBlankText]

namespace ClientConfig

variable {c d : ClientConfig} {name value : String} {e : ClientError}

/-- The rules that a configuration keeps, one by one. -/
structure KeepsRules (c : ClientConfig) : Prop where
  target : ∃ ch ∈ c.target.toList, Text.isBlank ch = false
  nspace : ∃ ch ∈ c.nspace.toList, Text.isBlank ch = false
  rpcTimeout : 0 < c.rpcTimeout.nanos
  longPollTimeout : 0 < c.longPollTimeout.nanos
  rpcRetry : ∃ p, c.rpcRetry.toPolicy = .ok p

/-- **The table of the service breaks no rule:** the client has a policy
exactly when its settings describe one. -/
theorem exists_retryPolicy_iff :
    (∃ p, c.retryPolicy = .ok p) ↔ ∃ p, c.rpcRetry.toPolicy = .ok p := by
  constructor
  · rintro ⟨p, hp⟩
    unfold retryPolicy at hp
    split at hp
    · cases hp
    next configured hconfigured => exact ⟨configured, hconfigured⟩
  · rintro ⟨p, hp⟩
    have hrules : (p.withDoNotRetryAll Code.defaultTable).KeepsRules :=
      RetryPolicy.keepsRules_withDoNotRetryAll_iff.2 (RetryPolicy.keepsRules_of_checked hp)
    refine ⟨p.withDoNotRetryAll Code.defaultTable, ?_⟩
    simp only [retryPolicy, hp, hrules.checked_eq]

/-- **A configuration is valid exactly when it keeps every rule.** -/
theorem validate_eq_ok_iff : c.validate = .ok () ↔ c.KeepsRules := by
  constructor
  · intro h
    unfold validate at h
    split at h
    · cases h
    next htarget =>
    split at h
    · cases h
    next hnspace =>
    split at h
    · cases h
    next hrpc =>
    split at h
    · cases h
    next hpoll =>
    split at h
    · cases h
    next p hpolicy =>
    exact ⟨Text.isBlankText_eq_false_iff.1 (by simpa using htarget),
      Text.isBlankText_eq_false_iff.1 (by simpa using hnspace),
      by simpa [Duration.isZero, Nat.pos_iff_ne_zero] using hrpc,
      by simpa [Duration.isZero, Nat.pos_iff_ne_zero] using hpoll,
      exists_retryPolicy_iff.1 ⟨p, hpolicy⟩⟩
  · rintro ⟨htarget, hnspace, hrpc, hpoll, hpolicy⟩
    obtain ⟨p, hp⟩ := exists_retryPolicy_iff.2 hpolicy
    have hzero : ∀ {d : Duration}, 0 < d.nanos → d.isZero = false := fun h => by
      simpa [Duration.isZero] using Nat.pos_iff_ne_zero.1 h
    simp only [validate, Text.isBlankText_eq_false_iff.2 htarget,
      Text.isBlankText_eq_false_iff.2 hnspace, hzero hrpc, hzero hpoll, hp, Bool.false_eq_true,
      if_false]

theorem checked_eq_ok_iff : c.checked = .ok d ↔ c = d ∧ c.validate = .ok () := by
  unfold checked
  cases c.validate <;> simp

theorem checked_eq_error_iff : c.checked = .error e ↔ c.validate = .error e := by
  unfold checked
  cases c.validate <;> simp

/-- No rule is about a variable. -/
theorem validate_ne_notANumber : c.validate ≠ .error (.config (.notANumber name value)) := by
  have hpolicy : ∀ e, c.retryPolicy = .error e → ∃ reason, e = .retryPolicy reason := by
    intro e he
    unfold retryPolicy at he
    split at he
    next reason _ => exact ⟨reason, (Except.error.inj he).symm⟩
    next p _ =>
    split at he
    next reason _ => exact ⟨reason, (Except.error.inj he).symm⟩
    · cases he
  intro h
  unfold validate at h
  iterate 4
    split at h
    · cases h
  split at h
  next e he =>
    obtain ⟨reason, rfl⟩ := hpolicy e he
    cases h
  · cases h

end ClientConfig

end ResilientCalls
