import ResilientCalls.Proofs.Client.Rules
import ResilientCalls.Proofs.Text.Counts
/-!
# Configurations from the environment

A configuration heeds the environment if every variable that is set decides
its field and every other field has its default (`ClientConfig.Heeds`). The
environment gives the one configuration that heeds it, if that one breaks
no rule, and an error otherwise: the first numeric variable that spells no
number of its range, or else the first rule that is broken
(`environment_heeded`).
-/

namespace ResilientCalls

namespace ClientConfig

variable {process name value : String} {env : Environment} {limit : Nat} {number : Option Nat}
  {c d : ClientConfig} {e : ClientError}

/-! ## What the variables say -/

/-- **What a numeric variable sets:** nothing if it is unset, else the
number of its range that it spells out. -/
def Sets (env : Environment) (name : String) (limit : Nat) : Option Nat → Prop
  | none => env name = none
  | some n => n ≤ limit ∧ ∃ value, env name = some value ∧ Text.Spells value n

/-- A field whose variable decides it: the default if the variable is
unset, else what is made of its number. -/
def Decides {α : Type} (env : Environment) (name : String) (limit : Nat) (make : Nat → α)
    (default field : α) : Prop :=
  ∃ number, Sets env name limit number ∧ field = (number.map make).getD default

/-- **A configuration that heeds the environment:** every variable that is
set decides its field, every other field has its default. -/
structure Heeds (process : String) (env : Environment) (c : ClientConfig) : Prop where
  target : c.target = (env "TURBOFLOW_TARGET").getD (standard process).target
  nspace : c.nspace = (env "TURBOFLOW_NAMESPACE").getD (standard process).nspace
  identity : c.identity = (env "TURBOFLOW_IDENTITY").getD (standard process).identity
  rpcTimeout : Decides env "TURBOFLOW_RPC_TIMEOUT_MS" maxCount64 Duration.ofMillis
    (standard process).rpcTimeout c.rpcTimeout
  maximumAttempts : Decides env "TURBOFLOW_RPC_MAX_ATTEMPTS" maxCount32 id
    (standard process).rpcRetry.maximumAttempts c.rpcRetry.maximumAttempts
  expirationMs : Decides env "TURBOFLOW_RPC_EXPIRATION_MS" maxCount64 some
    (standard process).rpcRetry.expirationMs c.rpcRetry.expirationMs
  longPollTimeout : c.longPollTimeout = (standard process).longPollTimeout
  rpcRetry : c.rpcRetry = { (standard process).rpcRetry with
    maximumAttempts := c.rpcRetry.maximumAttempts
    expirationMs := c.rpcRetry.expirationMs }

/-- The numeric variables and their ranges, in the order in which they are
read. -/
def numeric : List (String × Nat) :=
  [("TURBOFLOW_RPC_TIMEOUT_MS", maxCount64), ("TURBOFLOW_RPC_MAX_ATTEMPTS", maxCount32),
    ("TURBOFLOW_RPC_EXPIRATION_MS", maxCount64)]

/-- A variable that is set to anything but a number of its range. -/
def Misspelled (env : Environment) (entry : String × Nat) (value : String) : Prop :=
  env entry.1 = some value ∧ ∀ n, Text.Spells value n → entry.2 < n

/-- The first misspelled variable. -/
def FirstMisspelled (env : Environment) (name value : String) : Prop :=
  ∃ earlier limit later, numeric = earlier ++ (name, limit) :: later ∧
    Misspelled env (name, limit) value ∧ ∀ v ∈ earlier, ∀ value', ¬ Misspelled env v value'

/-! ## How the variables are read -/

/-- The number that a variable sets is read. -/
theorem Sets.numberOf_eq (h : Sets env name limit number) :
    numberOf env name limit = .ok number := by
  cases number with
  | none =>
    rw [Sets] at h
    simp only [numberOf, h]
  | some n =>
    obtain ⟨hlimit, value, henv, hspells⟩ := h
    simp only [numberOf, henv, Text.readCount?_trim_iff.2 ⟨hspells, hlimit⟩]

/-- A misspelled variable is an error that names it. -/
theorem Misspelled.numberOf_eq (h : Misspelled env (name, limit) value) :
    numberOf env name limit = .error (.config (.notANumber name value)) := by
  obtain ⟨henv, hspells⟩ := h
  have hread : Text.readCount? limit (Text.trim value.toList) = none := by
    refine Option.eq_none_iff_forall_ne_some.2 fun n hn => ?_
    obtain ⟨hn, hlimit⟩ := Text.readCount?_trim_iff.1 hn
    exact absurd (hspells n hn) (Nat.not_lt.2 hlimit)
  simp only [numberOf, henv, hread]

/-- A variable is misspelled, or it sets what it should. -/
theorem misspelled_or_sets (env : Environment) (name : String) (limit : Nat) :
    (∃ value, Misspelled env (name, limit) value) ∨ ∃ number, Sets env name limit number := by
  cases henv : env name with
  | none => exact .inr ⟨none, henv⟩
  | some value =>
    by_cases hspells : ∃ n, n ≤ limit ∧ Text.Spells value n
    · obtain ⟨n, hlimit, hspells⟩ := hspells
      exact .inr ⟨some n, hlimit, value, henv, hspells⟩
    · exact .inl ⟨value, henv, fun n hn => Nat.lt_of_not_le fun hle => hspells ⟨n, hle, hn⟩⟩

theorem Sets.unique {number' : Option Nat} (h : Sets env name limit number)
    (h' : Sets env name limit number') : number = number' :=
  Except.ok.inj (h.numberOf_eq.symm.trans h'.numberOf_eq)

theorem Sets.not_misspelled (h : Sets env name limit number) :
    ¬ Misspelled env (name, limit) value := by
  intro hmis
  cases h.numberOf_eq.symm.trans hmis.numberOf_eq

theorem Decides.unique {α : Type} {make : Nat → α} {default field field' : α}
    (h : Decides env name limit make default field)
    (h' : Decides env name limit make default field') : field = field' := by
  obtain ⟨number, hsets, rfl⟩ := h
  obtain ⟨number', hsets', rfl⟩ := h'
  rw [hsets.unique hsets']

/-- **At most one configuration heeds the environment.** -/
theorem Heeds.unique (hc : c.Heeds process env) (hd : d.Heeds process env) : c = d := by
  have hattempts := hc.maximumAttempts.unique hd.maximumAttempts
  have hexpiration := hc.expirationMs.unique hd.expirationMs
  have hretry : c.rpcRetry = d.rpcRetry := by
    rw [hc.rpcRetry, hd.rpcRetry, hattempts, hexpiration]
  cases c
  cases d
  simp only [mk.injEq]
  exact ⟨hc.target.trans hd.target.symm, hc.nspace.trans hd.nspace.symm,
    hc.identity.trans hd.identity.symm, hc.rpcTimeout.unique hd.rpcTimeout,
    hc.longPollTimeout.trans hd.longPollTimeout.symm, hretry⟩

/-- Where a configuration heeds the environment, no variable is
misspelled. -/
theorem Heeds.not_misspelled (hc : c.Heeds process env) :
    ∀ v ∈ numeric, ∀ value, ¬ Misspelled env v value := by
  obtain ⟨_, htimeout, -⟩ := hc.rpcTimeout
  obtain ⟨_, hattempts, -⟩ := hc.maximumAttempts
  obtain ⟨_, hexpiration, -⟩ := hc.expirationMs
  simp only [numeric, List.forall_mem_cons]
  exact ⟨fun _ => htimeout.not_misspelled, fun _ => hattempts.not_misspelled,
    fun _ => hexpiration.not_misspelled, by simp⟩

theorem FirstMisspelled.exists_misspelled (h : FirstMisspelled env name value) :
    ∃ v ∈ numeric, ∃ value, Misspelled env v value := by
  obtain ⟨earlier, limit, later, hsplit, hmis, -⟩ := h
  exact ⟨(name, limit), by simp [hsplit], value, hmis⟩

theorem Heeds.not_firstMisspelled (hc : c.Heeds process env) :
    ¬ FirstMisspelled env name value := by
  intro h
  obtain ⟨v, hv, value, hmis⟩ := h.exists_misspelled
  exact hc.not_misspelled v hv value hmis

/-- There is only one first misspelled variable. -/
theorem FirstMisspelled.unique {name' value' : String} (h : FirstMisspelled env name value)
    (h' : FirstMisspelled env name' value') : name = name' ∧ value = value' := by
  obtain ⟨earlier, limit, later, hsplit, hmis, hfirst⟩ := h
  obtain ⟨earlier', limit', later', hsplit', hmis', hfirst'⟩ := h'
  have hname : name = name' := by
    -- Neither stands in front of the other.
    rcases List.append_eq_append_iff.1 (hsplit.symm.trans hsplit') with
      ⟨between, hearlier, hlater⟩ | ⟨between, hearlier, hlater⟩
    · rcases between with - | ⟨v, between⟩
      · exact congrArg Prod.fst (List.cons.inj hlater).1
      · exact absurd hmis (hfirst' _ (by simp [hearlier, (List.cons.inj hlater).1]) _)
    · rcases between with - | ⟨v, between⟩
      · exact (congrArg Prod.fst (List.cons.inj hlater).1).symm
      · exact absurd hmis' (hfirst _ (by simp [hearlier, (List.cons.inj hlater).1]) _)
  subst hname
  exact ⟨rfl, Option.some.inj (hmis.1.symm.trans hmis'.1)⟩

/-- **The environment gives what heeds it, checked, or the error of the
first misspelled variable.** -/
theorem heeds_or_firstMisspelled (process : String) (env : Environment) :
    (∃ c : ClientConfig, c.Heeds process env ∧ ofEnvironment process env = c.checked) ∨
    ∃ name value, FirstMisspelled env name value ∧
      ofEnvironment process env = .error (.config (.notANumber name value)) := by
  unfold ofEnvironment
  rcases misspelled_or_sets env "TURBOFLOW_RPC_TIMEOUT_MS" maxCount64 with
    ⟨value, hmis⟩ | ⟨timeout, htimeout⟩
  · refine .inr ⟨_, value, ⟨[], _, _, rfl, hmis, by simp⟩, ?_⟩
    rw [hmis.numberOf_eq]
    rfl
  rcases misspelled_or_sets env "TURBOFLOW_RPC_MAX_ATTEMPTS" maxCount32 with
    ⟨value, hmis⟩ | ⟨attempts, hattempts⟩
  · refine .inr ⟨_, value, ⟨[_], _, _, rfl, hmis, ?_⟩, ?_⟩
    · simp only [List.forall_mem_singleton]
      exact fun _ => htimeout.not_misspelled
    · rw [htimeout.numberOf_eq, hmis.numberOf_eq]
      rfl
  rcases misspelled_or_sets env "TURBOFLOW_RPC_EXPIRATION_MS" maxCount64 with
    ⟨value, hmis⟩ | ⟨expiration, hexpiration⟩
  · refine .inr ⟨_, value, ⟨[_, _], _, _, rfl, hmis, ?_⟩, ?_⟩
    · simp only [List.forall_mem_cons]
      exact ⟨fun _ => htimeout.not_misspelled, fun _ => hattempts.not_misspelled, by simp⟩
    · rw [htimeout.numberOf_eq, hattempts.numberOf_eq, hmis.numberOf_eq]
      rfl
  rw [htimeout.numberOf_eq, hattempts.numberOf_eq, hexpiration.numberOf_eq]
  refine .inl ⟨_, ?_, rfl⟩
  exact {
    target := rfl
    nspace := rfl
    identity := rfl
    rpcTimeout := ⟨timeout, htimeout, rfl⟩
    maximumAttempts := ⟨attempts, hattempts, by simp⟩
    expirationMs := ⟨expiration, hexpiration, by cases expiration <;> rfl⟩
    longPollTimeout := rfl
    rpcRetry := rfl }

/-- What comes of the variables, if none is misspelled. -/
theorem Heeds.ofEnvironment_eq (hc : c.Heeds process env) :
    ofEnvironment process env = c.checked := by
  rcases heeds_or_firstMisspelled process env with ⟨d, hd, heq⟩ | ⟨name, value, hfirst, -⟩
  · rw [heq, hd.unique hc]
  · exact absurd hfirst hc.not_firstMisspelled

/-- What comes of a misspelled variable. -/
theorem FirstMisspelled.ofEnvironment_eq (h : FirstMisspelled env name value) :
    ofEnvironment process env = .error (.config (.notANumber name value)) := by
  rcases heeds_or_firstMisspelled process env with ⟨c, hc, -⟩ | ⟨name', value', h', heq⟩
  · exact absurd h hc.not_firstMisspelled
  · obtain ⟨rfl, rfl⟩ := h.unique h'
    exact heq

/-- The settings of a configuration that heeds the environment describe a
policy unless their expiration is zero. -/
theorem Heeds.exists_toPolicy_iff (hc : c.Heeds process env) :
    (∃ p, c.rpcRetry.toPolicy = .ok p) ↔ c.rpcRetry.expirationMs ≠ some 0 := by
  have hstandard : ∃ p, PolicySettings.standard.toPolicy = .ok p :=
    ⟨RetryPolicy.standard, by decide +kernel⟩
  rw [PolicySettings.exists_toPolicy_iff] at hstandard
  rw [PolicySettings.exists_toPolicy_iff, hc.rpcRetry, ← any_isZero_map_ofMillis_iff]
  exact hstandard.rebound

/-- **The rules where the environment is heeded:** an address and a
namespace that are not blank, and time for each attempt and for all of
them. -/
theorem Heeds.validate_eq_ok_iff (hc : c.Heeds process env) :
    c.validate = .ok () ↔
      (∃ ch ∈ c.target.toList, Text.isBlank ch = false) ∧
      (∃ ch ∈ c.nspace.toList, Text.isBlank ch = false) ∧
      0 < c.rpcTimeout.nanos ∧ c.rpcRetry.expirationMs ≠ some 0 := by
  rw [ClientConfig.validate_eq_ok_iff]
  refine ⟨fun h => ⟨h.target, h.nspace, h.rpcTimeout, hc.exists_toPolicy_iff.1 h.rpcRetry⟩,
    fun ⟨htarget, hnspace, hrpc, hexpiration⟩ => ?_⟩
  have hpoll : 0 < c.longPollTimeout.nanos := by
    have hpositive : 0 < (Duration.ofSeconds 70).nanos := by decide
    rwa [hc.longPollTimeout]
  exact ⟨htarget, hnspace, hrpc, hpoll, hc.exists_toPolicy_iff.2 hexpiration⟩

end ClientConfig

open ClientConfig in
/-- **No variable is silently left out.** A process gets the configuration
that heeds its environment, if that is valid, and no other; it gets an
error exactly if a numeric variable is misspelled, and then the error names
the first one, or if what heeds the environment breaks a rule, and then the
error says which. -/
theorem environment_heeded (process : String) (env : Environment) :
    (∀ c, ofEnvironment process env = .ok c ↔ c.Heeds process env ∧ c.validate = .ok ()) ∧
    (∀ e, ofEnvironment process env = .error e ↔
      (∃ name value, FirstMisspelled env name value ∧ e = .config (.notANumber name value)) ∨
      ∃ c : ClientConfig, c.Heeds process env ∧ c.validate = .error e) ∧
    ((∃ name value, FirstMisspelled env name value) ↔
      ∃ v ∈ numeric, ∃ value, Misspelled env v value) ∧
    (∀ c : ClientConfig, c.Heeds process env → (c.validate = .ok () ↔
      (∃ ch ∈ c.target.toList, Text.isBlank ch = false) ∧
      (∃ ch ∈ c.nspace.toList, Text.isBlank ch = false) ∧
      0 < c.rpcTimeout.nanos ∧ c.rpcRetry.expirationMs ≠ some 0)) ∧
    ∀ name value, (ClientError.config (.notANumber name value)).message =
      "invalid configuration: " ++ (name ++ " must be a valid number, got: '" ++ value ++ "'") := by
  refine ⟨fun c => ?_, fun e => ?_, ?_, fun c hc => hc.validate_eq_ok_iff, fun _ _ => rfl⟩
  · constructor
    · intro h
      rcases heeds_or_firstMisspelled process env with ⟨d, hd, heq⟩ | ⟨name, value, -, heq⟩
      · obtain ⟨rfl, hvalid⟩ := checked_eq_ok_iff.1 (heq.symm.trans h)
        exact ⟨hd, hvalid⟩
      · cases heq.symm.trans h
    · rintro ⟨hc, hvalid⟩
      exact hc.ofEnvironment_eq.trans (checked_eq_ok_iff.2 ⟨rfl, hvalid⟩)
  · constructor
    · intro h
      rcases heeds_or_firstMisspelled process env with ⟨d, hd, heq⟩ | ⟨name, value, hfirst, heq⟩
      · exact .inr ⟨d, hd, checked_eq_error_iff.1 (heq.symm.trans h)⟩
      · exact .inl ⟨name, value, hfirst, Except.error.inj (h.symm.trans heq)⟩
    · rintro (⟨name, value, hfirst, rfl⟩ | ⟨c, hc, hvalid⟩)
      · exact hfirst.ofEnvironment_eq
      · exact hc.ofEnvironment_eq.trans (checked_eq_error_iff.2 hvalid)
  · constructor
    · rintro ⟨name, value, hfirst⟩
      exact hfirst.exists_misspelled
    · rintro ⟨v, hv, value, hmis⟩
      rcases heeds_or_firstMisspelled process env with ⟨c, hc, -⟩ | ⟨name, value, hfirst, -⟩
      · exact absurd hmis (hc.not_misspelled v hv value)
      · exact ⟨name, value, hfirst⟩

/-- An address, a timeout with a plus sign and white space around it, and a
number of attempts with zeros in front. -/
def spacedOut : ClientConfig.Environment := fun name =>
  [("TURBOFLOW_TARGET", "service:7233"), ("TURBOFLOW_RPC_TIMEOUT_MS", "\t+2500 "),
    ("TURBOFLOW_RPC_MAX_ATTEMPTS", "007")].lookup name

/-- Three numbers: the first is one, the second is too large, the third has
a minus sign. -/
def outOfRange : ClientConfig.Environment := fun name =>
  [("TURBOFLOW_RPC_TIMEOUT_MS", "250"), ("TURBOFLOW_RPC_MAX_ATTEMPTS", "4294967296"),
    ("TURBOFLOW_RPC_EXPIRATION_MS", "-1")].lookup name

open ClientConfig in
/-- The first numbers are taken as they are meant; among the others, the
attempts are reported. -/
theorem environment_heeded_spacedOut :
    (∃ c : ClientConfig, c.Heeds "worker" spacedOut ∧ c.validate = .ok () ∧
      c.target = "service:7233" ∧ c.nspace = "default" ∧ c.identity = "worker@turboflow" ∧
      c.rpcTimeout = .ofMillis 2500 ∧ c.rpcRetry.maximumAttempts = 7 ∧
      c.rpcRetry.expirationMs = some 60000) ∧
    ∃ name value, FirstMisspelled outOfRange name value ∧
      ofEnvironment "worker" outOfRange = .error (.config (.notANumber name value)) ∧
      name = "TURBOFLOW_RPC_MAX_ATTEMPTS" ∧ value = "4294967296" := by
  constructor
  · obtain ⟨hheeds, hvalid⟩ := ((environment_heeded "worker" spacedOut).1
      { standard "worker" with
        target := "service:7233"
        rpcTimeout := .ofMillis 2500
        rpcRetry := { PolicySettings.standard with maximumAttempts := 7 } }).1 (by decide +kernel)
    exact ⟨_, hheeds, hvalid, rfl, rfl, by decide, rfl, rfl, by decide⟩
  · have herror : ofEnvironment "worker" outOfRange =
        .error (.config (.notANumber "TURBOFLOW_RPC_MAX_ATTEMPTS" "4294967296")) := by
      decide +kernel
    rcases ((environment_heeded "worker" outOfRange).2.1 _).1 herror with
      ⟨name, value, hfirst, heq⟩ | ⟨c, -, hvalid⟩
    · cases heq
      exact ⟨_, _, hfirst, herror, rfl, rfl⟩
    · exact absurd hvalid validate_ne_notANumber

end ResilientCalls
