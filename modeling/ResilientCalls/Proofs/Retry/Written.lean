import ResilientCalls.Proofs.Document.Fields
import ResilientCalls.Proofs.Retry.Rules
import ResilientCalls.Proofs.Retry.Table
import ResilientCalls.Proofs.Time.Millis
import ResilientCalls.Proofs.Toml.RoundTrip
import ResilientCalls.Retry.Written
/-!
# Policies written and read back

The settings of a policy are written as TOML and read back field by field,
except that an absent longest interval and an absent expiration are left
out of the text and come back as those of the standard policy
(`PolicySettings.read_write`). So a policy with both comes back as it was,
and any other policy does not (`policy_restored`): an unlimited one is
limited to a minute, and one whose first interval is longer than ten
seconds is refused.
-/

namespace ResilientCalls

theorem Matcher.read_write (reading : Reading) (m : Matcher) :
    Matcher.read reading m.write = some m := by
  obtain ⟨code, detail⟩ := m
  cases detail <;>
    simp [Matcher.read, Matcher.write, entryIfSome, Record.ofNode?, Record.collect, Record.need,
      Record.get, List.lookup_cons, Reader.text, Reader.optional]

/-! ## Settings -/

/-- The greatest integer of a TOML document. -/
def Toml.maxInteger : Nat := 9223372036854775807

namespace PolicySettings

variable {s : PolicySettings}

/-- The numbers of the settings fit a TOML document. -/
structure Fits (s : PolicySettings) : Prop where
  initial : s.initialIntervalMs ≤ Toml.maxInteger
  maximum : ∀ ms ∈ s.maximumIntervalMs, ms ≤ Toml.maxInteger
  attempts : s.maximumAttempts ≤ maxCount32
  expiration : ∀ ms ∈ s.expirationMs, ms ≤ Toml.maxInteger

/-- The settings with those of the standard policy for what is absent. -/
def filled (s : PolicySettings) : PolicySettings :=
  { s with
    maximumIntervalMs := s.maximumIntervalMs.or standard.maximumIntervalMs
    expirationMs := s.expirationMs.or standard.expirationMs }

theorem keys_sublist_names (s : PolicySettings) : (s.entries.map Prod.fst).Sublist names := by
  have hmaximum := map_fst_entryIfSome_sublist "maximum_interval_ms"
    (s.maximumIntervalMs.map fun n : Nat => .integer n)
  have hexpiration := map_fst_entryIfSome_sublist "expiration_ms"
    (s.expirationMs.map fun n : Nat => .integer n)
  simp only [entries, List.map_append]
  exact ((((List.Sublist.refl ["initial_interval_ms", "backoff_coefficient"]).append
    hmaximum).append (List.Sublist.refl ["maximum_attempts"])).append hexpiration).append
    (List.Sublist.refl ["jitter", "do_not_retry"])

/-- What is found under each name in the entries of settings. -/
structure Found (s : PolicySettings) : Prop where
  initial : s.entries.lookup "initial_interval_ms" = some (.integer s.initialIntervalMs)
  coefficient : s.entries.lookup "backoff_coefficient" = some (.real s.backoffCoefficient)
  maximum : s.entries.lookup "maximum_interval_ms" =
    s.maximumIntervalMs.map fun n : Nat => .integer n
  attempts : s.entries.lookup "maximum_attempts" = some (.integer s.maximumAttempts)
  expiration : s.entries.lookup "expiration_ms" = s.expirationMs.map fun n : Nat => .integer n
  jitter : s.entries.lookup "jitter" = some (.real s.jitter)
  table : s.entries.lookup "do_not_retry" = some (.sequence (s.doNotRetry.map Matcher.write))

theorem found (s : PolicySettings) : s.Found where
  initial := rfl
  coefficient := rfl
  maximum := by simp [entries, List.lookup_append, List.lookup_cons, lookup_entryIfSome]
  attempts := by simp [entries, List.lookup_append, List.lookup_cons, lookup_entryIfSome]
  expiration := by simp [entries, List.lookup_append, List.lookup_cons, lookup_entryIfSome]
  jitter := by simp [entries, List.lookup_append, List.lookup_cons, lookup_entryIfSome]
  table := by simp [entries, List.lookup_append, List.lookup_cons, lookup_entryIfSome]

/-- **Settings are read back from their node with the absent filled in.** -/
theorem read_write (h : s.Fits) (reading : Reading) : read reading s.write = some s.filled := by
  have hcount : ∀ {n : Nat}, n ≤ Toml.maxInteger →
      Reader.count maxCount64 reading.inside (.integer n) = some n :=
    fun hn => Reader.count_integer (Nat.le_trans hn (by decide)) _
  have htable : Reader.list Matcher.read reading.inside
      (.sequence (s.doNotRetry.map Matcher.write)) = some s.doNotRetry :=
    Reader.list_map (fun m => m.read_write _) s.doNotRetry
  have hfound := s.found
  have hmaximum : Record.get ⟨s.entries, reading.inside⟩ "maximum_interval_ms"
      standard.maximumIntervalMs (.optional (.count maxCount64)) =
      some (s.maximumIntervalMs.or standard.maximumIntervalMs) :=
    Record.get_optional hfound.maximum fun ms hms => by
      rw [Reader.optional, hcount (h.maximum ms hms), Option.map_some]; nofun
  have hexpiration : Record.get ⟨s.entries, reading.inside⟩ "expiration_ms"
      standard.expirationMs (.optional (.count maxCount64)) =
      some (s.expirationMs.or standard.expirationMs) :=
    Record.get_optional hfound.expiration fun ms hms => by
      rw [Reader.optional, hcount (h.expiration ms hms), Option.map_some]; nofun
  rw [read, write, Record.ofNode?_mapping s.keys_sublist_names (by decide)]
  simp only [Option.bind_eq_bind, Option.bind_some, hmaximum, hexpiration,
    Record.get_of_lookup hfound.initial, Record.get_of_lookup hfound.coefficient,
    Record.get_of_lookup hfound.attempts, Record.get_of_lookup hfound.jitter,
    Record.get_of_lookup hfound.table, hcount h.initial, Reader.count_integer h.attempts,
    Reader.real, htable]
  rfl

theorem keysDistinct_matchers (table : List Matcher) :
    Node.ItemsDistinct (table.map Matcher.write) := by
  induction table with
  | nil => trivial
  | cons m rest ih =>
    refine ⟨?_, ih⟩
    obtain ⟨code, detail⟩ := m
    cases detail <;> simp [Matcher.write, entryIfSome, Node.KeysDistinct, Node.EntriesDistinct]

theorem keysDistinct_write (s : PolicySettings) : s.write.KeysDistinct := by
  have htable := keysDistinct_matchers s.doNotRetry
  have hnodup : (s.entries.map Prod.fst).Nodup :=
    List.Nodup.sublist s.keys_sublist_names (by decide)
  refine ⟨hnodup, ?_⟩
  unfold entries
  cases s.maximumIntervalMs <;> cases s.expirationMs <;>
    simp [entryIfSome, Node.KeysDistinct, Node.EntriesDistinct, htable]

theorem depth_matchers (table : List Matcher) : Node.itemsDepth (table.map Matcher.write) ≤ 1 := by
  induction table with
  | nil => exact Nat.zero_le 1
  | cons m rest ih =>
    rw [List.map_cons, Node.itemsDepth]
    refine Nat.max_le.2 ⟨?_, ih⟩
    obtain ⟨code, detail⟩ := m
    cases detail <;> simp [Matcher.write, entryIfSome, Node.depth, Node.entriesDepth]

theorem depth_write (s : PolicySettings) : s.write.depth ≤ 3 := by
  have htable := depth_matchers s.doNotRetry
  unfold write entries
  cases s.maximumIntervalMs <;> cases s.expirationMs <;>
    simp [entryIfSome, Node.depth, Node.entriesDepth] <;> omega

theorem itemsFitToml_matchers (table : List Matcher) :
    Node.ItemsFitToml (table.map Matcher.write) := by
  induction table with
  | nil => trivial
  | cons m rest ih =>
    refine ⟨?_, ih⟩
    obtain ⟨code, detail⟩ := m
    cases detail <;> simp [Matcher.write, entryIfSome, Node.FitsToml, Node.EntriesFitToml]

theorem fitsToml_write (h : s.Fits) : s.write.FitsToml := by
  obtain ⟨initial, coefficient, maximum, attempts, expiration, jitter, table⟩ := s
  obtain ⟨hinitial, hmaximum, hattempts, hexpiration⟩ := h
  have hholds : ∀ {n : Nat}, n ≤ Toml.maxInteger → Toml.holdsInteger n = true := by
    intro n hn
    simp only [Toml.holdsInteger, Bool.and_eq_true, decide_eq_true_eq]
    unfold Toml.maxInteger at hn
    omega
  have hattempts : Toml.holdsInteger attempts = true :=
    hholds (Nat.le_trans hattempts (by decide))
  have htable := itemsFitToml_matchers table
  cases maximum <;> cases expiration <;>
    simp_all [write, entries, entryIfSome, Node.FitsToml, Node.EntriesFitToml]

/-- **Settings that fit a TOML document are written,** and read back with
the absent filled in. -/
theorem exists_toml (h : s.Fits) :
    ∃ text, s.toToml? = some text ∧ ofToml? text = some s.filled := by
  obtain ⟨text, htext⟩ := Option.isSome_iff_exists.1 (Toml.print?_isSome_iff.2 (fitsToml_write h))
  have hread : Toml.read? text = some s.write :=
    Toml.read?_print? htext s.keysDistinct_write
      (Nat.le_trans s.depth_write (by decide))
  exact ⟨text, htext, by rw [ofToml?, hread, Option.bind_some, read_write h]⟩

end PolicySettings

/-! ## Policies -/

/-- What a TOML document can hold is counted in 64 bits. -/
theorem Toml.maxInteger_le : Toml.maxInteger ≤ maxCount64 := by decide

namespace RetryPolicy

variable {p : RetryPolicy}

/-- A policy as it is built and as TOML can hold it: its intervals and its
expiration are whole milliseconds of less than 64 bits, the number of
attempts is a count of 32 bits, and its table lists no matcher twice. -/
structure IsWritable (p : RetryPolicy) : Prop where
  initial : ∃ ms ≤ Toml.maxInteger, p.initialInterval = .ofMillis ms
  maximum : ∀ d ∈ p.configuredMaximum, ∃ ms ≤ Toml.maxInteger, d = .ofMillis ms
  expiration : ∀ d ∈ p.expiration, ∃ ms ≤ Toml.maxInteger, d = .ofMillis ms
  attempts : p.maximumAttempts ≤ maxCount32
  table : p.doNotRetry.Nodup

/-- The policy with the longest interval and the expiration of the
standard policy where it has none. -/
def restored (p : RetryPolicy) : RetryPolicy :=
  { p with
    configuredMaximum := p.configuredMaximum.or standard.configuredMaximum
    expiration := p.expiration.or standard.expiration }

/-- Only a policy that has both is left as it is. -/
theorem restored_eq_self_iff :
    p.restored = p ↔ p.configuredMaximum.isSome = true ∧ p.expiration.isSome = true := by
  obtain ⟨initial, coefficient, maximum, attempts, expiration, table, jitter⟩ := p
  cases maximum <;> cases expiration <;> simp [restored, standard]

/-- A whole number of milliseconds is the same going to the settings and
back. -/
theorem map_ofMillis_millisUp {d : Option Duration}
    (h : ∀ x ∈ d, ∃ ms ≤ Toml.maxInteger, x = Duration.ofMillis ms) :
    (d.map Duration.millisUp).map Duration.ofMillis = d := by
  rw [Option.map_map, Duration.ofMillis_comp_millisUp]
  refine Duration.map_roundUp_eq_self_iff.2 fun x hx => ?_
  obtain ⟨ms, hms, hx⟩ := h x hx
  exact ⟨ms, Nat.le_trans hms Toml.maxInteger_le, hx⟩

/-- What reading back makes of the settings of a policy. -/
theorem toPolicy_filled (h : p.IsWritable) :
    (PolicySettings.ofPolicy p).filled.toPolicy = p.restored.checked := by
  obtain ⟨ms, hms, hinitial⟩ := h.initial
  have hmaximum := map_ofMillis_millisUp h.maximum
  have hexpiration := map_ofMillis_millisUp h.expiration
  have hstandard : (PolicySettings.standard.maximumIntervalMs.map Duration.ofMillis,
      PolicySettings.standard.expirationMs.map Duration.ofMillis) =
      (standard.configuredMaximum, standard.expiration) := by decide +kernel
  obtain ⟨hstandardMaximum, hstandardExpiration⟩ := Prod.mk.inj hstandard
  unfold PolicySettings.toPolicy
  congr 1
  simp only [PolicySettings.filled, PolicySettings.ofPolicy]
  rw [withDoNotRetryAll_eq (by simpa [draft] using h.table)]
  simp only [Option.map_or, hmaximum, hexpiration, hstandardMaximum, hstandardExpiration, hinitial,
    Duration.millisUp_ofMillis (Nat.le_trans hms Toml.maxInteger_le), draft, List.nil_append,
    restored]

theorem fits_ofPolicy (h : p.IsWritable) : (PolicySettings.ofPolicy p).Fits := by
  have hmillis : ∀ {d : Option Duration},
      (∀ x ∈ d, ∃ ms ≤ Toml.maxInteger, x = Duration.ofMillis ms) →
      ∀ n ∈ d.map Duration.millisUp, n ≤ Toml.maxInteger := by
    intro d hd n hn
    obtain ⟨x, hx, rfl⟩ := Option.map_eq_some_iff.1 hn
    obtain ⟨ms, hms, rfl⟩ := hd x hx
    rwa [Duration.millisUp_ofMillis (Nat.le_trans hms Toml.maxInteger_le)]
  obtain ⟨ms, hms, hinitial⟩ := h.initial
  refine ⟨?_, hmillis h.maximum, h.attempts, hmillis h.expiration⟩
  simp only [PolicySettings.ofPolicy, hinitial]
  rwa [Duration.millisUp_ofMillis (Nat.le_trans hms Toml.maxInteger_le)]

/-- A policy without a longest interval may break a rule when it is given
one, and no other rule. -/
theorem checked_restored (h : p.KeepsRules) :
    p.restored.checked =
      if p.configuredMaximum = none ∧ (Duration.ofSeconds 10).nanos < p.initialInterval.nanos then
        .error (.maximumIntervalTooShort p.initialInterval (.ofSeconds 10))
      else .ok p.restored := by
  split
  · next hshort =>
    obtain ⟨hnone, hlt⟩ := hshort
    have hfilter : p.restored.configuredMaximum.filter
        (fun m => decide (m.nanos < p.restored.initialInterval.nanos)) =
        some (.ofSeconds 10) := by
      simp only [restored, hnone, standard, Option.none_or, Option.filter_some]
      exact if_pos (decide_eq_true hlt)
    have hvalidate : p.restored.validate =
        .error (.maximumIntervalTooShort p.initialInterval (.ofSeconds 10)) := by
      rw [validate, if_neg, if_neg, hfilter]
      · rfl
      · simp [restored, h.coefficient]
      · simp [restored, h.initial]
    rw [checked, hvalidate]
  · next hlong =>
    have hrules : p.restored.KeepsRules := by
      refine ⟨h.initial, h.coefficient, fun m hm => ?_, ?_, h.jitter⟩
      · cases hmaximum : p.configuredMaximum with
        | none =>
          simp only [restored, hmaximum, standard, Option.none_or] at hm
          obtain rfl := Option.some.inj hm
          exact Nat.not_lt.1 fun hlt => hlong ⟨hmaximum, hlt⟩
        | some d =>
          simp only [restored, hmaximum, Option.some_or] at hm
          obtain rfl := Option.some.inj hm
          exact h.maximum d hmaximum
      · cases hexpiration : p.expiration with
        | none =>
          simp only [restored, hexpiration, standard, Option.none_or]
          rfl
        | some d =>
          have hpositive := h.expiration
          simp only [restored, hexpiration, Option.some_or] at hpositive ⊢
          exact hpositive
    exact hrules.checked_eq

end RetryPolicy

/-- **A policy is written as TOML and read back** as it was exactly when it
has a longest interval and an expiration. In place of those it lacks it
gets ten seconds and a minute, and it is refused when its first interval
is longer than ten seconds. -/
theorem policy_restored (p : RetryPolicy) (hvalid : p.validate = .ok ()) (hp : p.IsWritable) :
    ∃ text s, (PolicySettings.ofPolicy p).toToml? = some text ∧
      PolicySettings.ofToml? text = some s ∧
      s.toPolicy =
        (if p.configuredMaximum = none ∧
            (Duration.ofSeconds 10).nanos < p.initialInterval.nanos then
          .error (.maximumIntervalTooShort p.initialInterval (.ofSeconds 10))
        else .ok p.restored) ∧
      (s.toPolicy = .ok p ↔ p.configuredMaximum.isSome = true ∧ p.expiration.isSome = true) := by
  obtain ⟨text, hwritten, hread⟩ := PolicySettings.exists_toml (RetryPolicy.fits_ofPolicy hp)
  have hpolicy := (RetryPolicy.toPolicy_filled hp).trans
    (RetryPolicy.checked_restored (RetryPolicy.validate_eq_ok_iff.1 hvalid))
  refine ⟨text, _, hwritten, hread, hpolicy, ?_⟩
  rw [hpolicy, ← RetryPolicy.restored_eq_self_iff]
  split
  · next hrefused =>
    refine ⟨fun heq => (nomatch heq), fun heq => ?_⟩
    have hsome := (RetryPolicy.restored_eq_self_iff.1 heq).1
    rw [hrefused.1] at hsome
    cases hsome
  · exact ⟨fun heq => Except.ok.inj heq, fun heq => congrArg Except.ok heq⟩

/-- A policy of three attempts that starts slowly and sets no longest
interval. -/
def slowStart : RetryPolicy :=
  { RetryPolicy.draft with
    initialInterval := .ofSeconds 20
    maximumAttempts := 3
    doNotRetry := [.ofCode "NOT_FOUND"] }

/-- A valid policy without a longest interval is refused when it is read
back. -/
theorem policy_restored_slowStart :
    slowStart.validate = .ok () ∧ slowStart.IsWritable ∧
      ∃ text s, (PolicySettings.ofPolicy slowStart).toToml? = some text ∧
        PolicySettings.ofToml? text = some s ∧
        s.toPolicy = .error (.maximumIntervalTooShort (.ofSeconds 20) (.ofSeconds 10)) := by
  have hvalid : slowStart.validate = .ok () := by decide +kernel
  have hwritable : slowStart.IsWritable :=
    ⟨⟨20000, by decide, rfl⟩, nofun, nofun, by decide, by decide⟩
  obtain ⟨text, s, hwritten, hread, hpolicy, -⟩ := policy_restored slowStart hvalid hwritable
  exact ⟨hvalid, hwritable, text, s, hwritten, hread, hpolicy⟩

/-- A policy of three attempts and no expiration. -/
def threeAttempts : RetryPolicy :=
  { RetryPolicy.draft with configuredMaximum := some (.ofSeconds 10), maximumAttempts := 3 }

/-- A valid policy without an expiration comes back with one of a
minute. -/
theorem policy_unrestored_threeAttempts :
    threeAttempts.validate = .ok () ∧ threeAttempts.IsWritable ∧
      ∃ text s, (PolicySettings.ofPolicy threeAttempts).toToml? = some text ∧
        PolicySettings.ofToml? text = some s ∧
        s.toPolicy = .ok { threeAttempts with expiration := some (.ofSeconds 60) } ∧
        s.toPolicy ≠ .ok threeAttempts := by
  have hvalid : threeAttempts.validate = .ok () := by decide +kernel
  have hwritable : threeAttempts.IsWritable := by
    refine ⟨⟨100, by decide, rfl⟩, ?_, nofun, by decide, List.nodup_nil⟩
    rintro d ⟨⟩
    exact ⟨10000, by decide, rfl⟩
  obtain ⟨text, hwritten, hread⟩ := PolicySettings.exists_toml (RetryPolicy.fits_ofPolicy hwritable)
  have hpolicy : (PolicySettings.ofPolicy threeAttempts).filled.toPolicy =
      .ok { threeAttempts with expiration := some (.ofSeconds 60) } :=
    (RetryPolicy.toPolicy_filled hwritable).trans
      (RetryPolicy.checked_restored (RetryPolicy.validate_eq_ok_iff.1 hvalid))
  refine ⟨hvalid, hwritable, text, _, hwritten, hread, hpolicy, ?_⟩
  rw [hpolicy]
  exact fun heq => nomatch congrArg RetryPolicy.expiration (Except.ok.inj heq)

end ResilientCalls
