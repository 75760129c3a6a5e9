import ResilientCalls.Proofs.Client.Counting
import ResilientCalls.Proofs.Retry.Table
/-!
# Codes that are never retried

A client that is built from a configuration has the default table behind
the configured matchers, and the builder that puts the two together leaves
out what is listed twice. A configured matcher with a detail type is
narrower than a default one of the same code and takes nothing away from
it: each of the default codes is listed with any detail. So the first
attempt of a call that shows one of these codes settles it.
-/

namespace ResilientCalls

variable {σ τ ε α : Type}

/-! ## What the attempts of a run show -/

/-- An attempt with a failure has ended with it. -/
theorem Trial.result_of_failure? {t : Trial ε α} {e : ε} (h : t.failure? = some e) :
    t.result = .ok (.error e) := by
  unfold failure? at h
  split at h
  · rename_i hresult
    rw [hresult, Option.some.inj h]
  · cases h

/-- Every attempt that has ended with a result has shown it at its end. -/
def Chronicle.ShownBy (w : Work σ τ ε α) (c : Chronicle ε α) : Prop :=
  ∀ t ∈ c.trials, ∀ result, t.result = .ok result →
    ∃ attempt world, (w.look t.ended attempt world).1 = .finished result

theorem Chronicle.ShownBy.closed {w : Work σ τ ε α} {c : Chronicle ε α} {now : Instant}
    {result : Except String (Except ε α)} (h : c.ShownBy w)
    (hshown : ∀ r, result = .ok r → ∃ attempt world, (w.look now attempt world).1 = .finished r) :
    (c.closed now result).ShownBy w := by
  intro t ht
  rcases List.mem_append.1 ht with hold | hnew
  · exact h t hold
  · obtain rfl := List.mem_singleton.1 hnew
    exact hshown

/-- An attempt that broke down has no result to show. -/
theorem Chronicle.ShownBy.brokeDown {w : Work σ τ ε α} {c : Chronicle ε α} (h : c.ShownBy w)
    (now : Instant) (message : String) : (c.closed now (.error message)).ShownBy w := by
  refine h.closed ?_
  intro result hresult
  cases hresult

/-- One transition records what the attempt shows. -/
theorem Run.step_shownBy [Failure ε] {w : Work σ τ ε α} (draws : Draws) (now : Instant)
    (r : Run τ ε) (world : σ × Chronicle ε α) (h : world.2.ShownBy w) :
    (r.step w.chronicled draws now world).world.2.ShownBy w := by
  obtain ⟨inner, c⟩ := world
  have hlaunch : ∀ i : Invocation,
      (r.launch w.chronicled now i (inner, c)).world.2.ShownBy w := by
    intro i
    rcases hstart : w.start now inner with ⟨message | attempt, inner'⟩
    · simp only [launch, Work.chronicled_start_error hstart]
      exact Chronicle.ShownBy.brokeDown h now message
    · simp only [launch, Work.chronicled_start_ok hstart]
      exact h
  unfold Run.step
  cases hp : r.phase with
  | idle => exact hlaunch _
  | settled => exact h
  | backingOff timer i =>
    simp only []
    split
    · exact hlaunch _
    · exact h
  | attempting attempt i =>
    have hlooked : ∀ result inner', w.look now attempt inner = (.finished result, inner') →
        (c.closed now (.ok result)).ShownBy w := by
      intro result inner' hlook
      refine h.closed ?_
      rintro _ ⟨⟩
      exact ⟨attempt, inner, by rw [hlook]⟩
    rcases hlook : w.look now attempt inner with ⟨_ | ⟨e | v⟩ | m, inner'⟩ <;>
      simp only [Work.chronicled_look hlook]
    · exact h
    · unfold afterFailedAttempt
      split <;> exact hlooked _ _ hlook
    · exact hlooked _ _ hlook
    · exact Chronicle.ShownBy.brokeDown h now m

/-- **A run records what its attempts show.** -/
theorem Run.pollEach_shownBy [Failure ε] (w : Work σ τ ε α) (o : RetryOptions) (draws : Draws)
    (polls : List (Instant × Bool)) (world : σ) :
    ((Run.new o).pollEach w.chronicled draws polls
      (world, Chronicle.empty)).world.2.ShownBy w := by
  refine Run.pollEach_preserves (Q := fun (_ : Run τ ε) (world : σ × Chronicle ε α) =>
    world.2.ShownBy w) ?_ ?_ polls ?_
  · intro now r world h
    exact r.step_shownBy draws now world h
  · intro now r world h
    exact h
  · intro t ht
    cases ht

/-- A failure that is no timeout is an answer of the service. -/
theorem Call.answered_of_look {call : Call} {stub : Stub σ τ} {now : Instant}
    {a : CallAttempt τ} {world : σ} {s : Status}
    (h : (call.look stub now a world).1 = .finished (.error s))
    (hcode : s.code ≠ .deadlineExceeded) :
    (stub.look call.request now a.inner world).1 = some (.error s) := by
  unfold look at h
  rcases hseen : stub.look call.request now a.inner world with ⟨_ | result, world'⟩ <;>
    simp only [hseen] at h ⊢
  · split at h
    · obtain rfl := Except.error.inj (Progress.finished.inj h)
      exact absurd rfl hcode
    · cases h
  · rw [Progress.finished.inj h]

/-! ## The table of a client -/

/-- The policy of a configuration lists the configured matchers and then
the default ones, each once. -/
theorem ClientConfig.doNotRetry_of_retryPolicy {config : ClientConfig} {p : RetryPolicy}
    (h : config.retryPolicy = .ok p) : p.doNotRetry.Nodup ∧
      p.doNotRetry = (config.rpcRetry.doNotRetry ++ Code.defaultTable).eraseDups := by
  unfold retryPolicy at h
  cases hconfigured : config.rpcRetry.toPolicy with
  | error e => simp [hconfigured] at h
  | ok configured =>
    simp only [hconfigured] at h
    obtain ⟨hnodup, htable⟩ := PolicySettings.doNotRetry_of_toPolicy hconfigured
    cases hchecked : (configured.withDoNotRetryAll Code.defaultTable).checked with
    | error e => simp [hchecked] at h
    | ok q =>
      simp only [hchecked, Except.ok.injEq] at h
      rw [← h, RetryPolicy.eq_of_checked hchecked]
      exact ⟨RetryPolicy.withDoNotRetryAll_nodup _ hnodup,
        RetryPolicy.withDoNotRetryAll_doNotRetry _ _ htable⟩

/-- A client retries as its configuration says. -/
theorem Client.retryPolicy_of_new {config : ClientConfig} {client : Client}
    (h : Client.new config = .ok client) : config.retryPolicy = .ok client.policy := by
  unfold Client.new withPolicy at h
  cases hvalid : config.validate with
  | error e => simp [hvalid] at h
  | ok u =>
    cases hpolicy : config.retryPolicy with
    | error e => simp [hvalid, hpolicy] at h
    | ok p =>
      simp only [hvalid, hpolicy, Except.ok.injEq] at h
      rw [← h]

/-- A status of a default code is listed, whatever its detail. -/
theorem Code.lists_of_neverRetried {p : RetryPolicy} {configured : List Matcher} {s : Status}
    (h : p.doNotRetry = (configured ++ Code.defaultTable).eraseDups)
    (hcode : s.code ∈ Code.neverRetried) : p.Lists s := by
  refine ⟨s.code.matcher, ?_, ?_⟩
  · rw [h, List.mem_eraseDups]
    exact List.mem_append_right _ (List.mem_map_of_mem hcode)
  · simp [Matcher.matchesFailure, Code.matcher, Matcher.ofCode, Failure.code]

/-! ## Calls -/

/-- **A call is settled by the first listed status** that one of its
attempts ends with. -/
theorem Client.call_of_lists (c : Client) (stub : Stub σ τ) (draws : Draws) (request : Request)
    (o : CallOptions) (cancelledFrom : Option Instant) (limit now : Instant) (world : σ) {k : Nat}
    {t : Trial Status Answer} {s : Status} (hlists : c.policy.Lists s)
    (hcode : s.code ≠ .deadlineExceeded) :
    let e := c.call stub draws request o cancelledFrom limit now world
    let kept := c.chronicle stub draws request o cancelledFrom limit now world
    kept.trials[k]? = some t → t.result = .ok (.error s) →
      (∃ sent before, (stub.look request t.ended sent before).1 = some (.error s)) ∧
        kept.starts.length = k + 1 ∧ kept.trials.length = k + 1 ∧
        e.result = .failed (.rpc request.method (.nonRetryable s (min (k + 1) maxCount32)
          (t.ended.since kept.first))) := by
  intro e kept hk hresult
  cases hprepare : c.prepare request o with
  | error refusal =>
    -- a call that is refused makes no attempt
    have hnone : kept = .empty := by simp only [kept, chronicle, hprepare]
    rw [hnone] at hk
    cases hk
  | ok options =>
    obtain ⟨hcall, hkept⟩ := call_eq_course hprepare stub draws cancelledFrom limit now world
    obtain ⟨hoptions, haccepted⟩ := options_of_prepare hprepare
    obtain ⟨polls, hpolls⟩ := Course.follow_eq_pollEach
      ((c.callOf request options now).work stub).chronicled draws cancelledFrom limit options now
      (world, Chronicle.empty)
    have hstops := Run.stops_of_lists haccepted draws polls
      ((c.callOf request options now).work stub) world (k := k) (t := t) (e := s)
    have hshown := Run.pollEach_shownBy ((c.callOf request options now).work stub) options draws
      polls world
    rw [hpolls] at hstops hshown
    simp only [← hkept] at hstops hshown
    obtain ⟨hstarts, htrials, hended⟩ := hstops hk hresult (by rwa [hoptions])
    obtain ⟨attempt, before, hlook⟩ := hshown t (List.mem_of_getElem? hk) _ hresult
    refine ⟨⟨attempt.inner, before, Call.answered_of_look hlook hcode⟩, hstarts, htrials, ?_⟩
    simp only [e, hcall, hended]
    rfl

/-- **The default codes always stop a configured client.** The client's
table lists what is configured, in the order of first occurrence, and then
the default codes that are not listed yet, nothing twice; and it classifies
every failure as the two lists one after the other would. Whatever the
service answers, and whenever it does, a call is followed on its own clock:
if attempt number `k + 1` ends with a status of a default code, which is
then an answer of the service and no timeout, that attempt is the last one
and the call fails with this status and this number, counted in 32 bits. An
attempt that was timed out or given up by a cancelled call has not ended
so. -/
theorem neverRetried_settles {config : ClientConfig} {client : Client}
    (hnew : Client.new config = .ok client) :
    let configured := config.rpcRetry.doNotRetry
    let table := client.policy.doNotRetry
    (table.Nodup ∧ configured.eraseDups <+: table ∧
      table = (configured ++ Code.defaultTable).eraseDups ∧
      ∀ (ε : Type) [Failure ε] (e : ε) (elapsed : Bool),
        classify table e elapsed = classify (configured ++ Code.defaultTable) e elapsed) ∧
    ∀ (stub : Stub σ τ) (draws : Draws) (request : Request) (o : CallOptions)
      (cancelledFrom : Option Instant) (limit now : Instant) (world : σ) (k : Nat)
      (t : Trial Status Answer) (s : Status),
      let e := client.call stub draws request o cancelledFrom limit now world
      let kept := client.chronicle stub draws request o cancelledFrom limit now world
      kept.trials[k]? = some t → t.result = .ok (.error s) → s.code ∈ Code.neverRetried →
        (∃ sent before, (stub.look request t.ended sent before).1 = some (.error s)) ∧
        kept.starts.length = k + 1 ∧ kept.trials.length = k + 1 ∧
        e.result = .failed (.rpc request.method (.nonRetryable s (min (k + 1) maxCount32)
          (t.ended.since kept.first))) := by
  intro configured table
  obtain ⟨hnodup, htable⟩ :=
    ClientConfig.doNotRetry_of_retryPolicy (Client.retryPolicy_of_new hnew)
  replace htable : table = (configured ++ Code.defaultTable).eraseDups := htable
  refine ⟨⟨hnodup, ?_, htable, ?_⟩, ?_⟩
  · rw [htable, List.eraseDups_append]
    exact List.prefix_append _ _
  · intro ε _ e elapsed
    refine classify_congr ?_ e elapsed
    intro m
    rw [htable, List.mem_eraseDups]
  · intro stub draws request o cancelledFrom limit now world k t s e kept hk hresult hcode
    have hdeadline : s.code ≠ .deadlineExceeded := by
      intro heq
      rw [heq] at hcode
      revert hcode
      decide
    exact client.call_of_lists stub draws request o cancelledFrom limit now world
      (Code.lists_of_neverRetried htable hcode) hdeadline hk hresult

/-- Two matchers, one of them listed twice and narrower than a default one. -/
def guardedConfig : ClientConfig :=
  { ClientConfig.standard "worker" with
    rpcRetry := { PolicySettings.standard with
      doNotRetry := [⟨"NOT_FOUND", some "Workflow"⟩, .ofCode "INTERNAL",
        ⟨"NOT_FOUND", some "Workflow"⟩] } }

/-- The client that it makes. -/
def guardedClient : Client :=
  ⟨guardedConfig, { RetryPolicy.standard with
    doNotRetry := [⟨"NOT_FOUND", some "Workflow"⟩, .ofCode "INTERNAL"] ++ Code.defaultTable }⟩

/-- A service that is unavailable first and then does not find a namespace. -/
def forgetfulStore : Store :=
  Store.new.failNext .describeNamespace [.new .unavailable "starting", .new .notFound "gone"]

/-- The second attempt of a description is its last. -/
theorem neverRetried_settles_forgetful :
    Client.new guardedConfig = .ok guardedClient ∧
    guardedConfig.rpcRetry.doNotRetry.eraseDups <+: guardedClient.policy.doNotRetry ∧
    (guardedClient.call Store.stub .still (.describe ⟨"default"⟩) .none none ⟨1000000000⟩ ⟨0⟩
      forgetfulStore).result = .failed (.rpc .describeNamespace
        (.nonRetryable (.new .notFound "gone") 2 ⟨100000000⟩)) := by
  have hnew : Client.new guardedConfig = .ok guardedClient := by decide +kernel
  obtain ⟨⟨-, hconfigured, -, -⟩, hcalls⟩ := neverRetried_settles hnew
  have hseen : ((guardedClient.chronicle Store.stub .still (.describe ⟨"default"⟩) .none none
      ⟨1000000000⟩ ⟨0⟩ forgetfulStore).trials[1]?).map (fun t => (t.failure?, t.ended)) =
        some (some (.new .notFound "gone"), ⟨100000000⟩) := by decide +kernel
  obtain ⟨t, hk, hpair⟩ := Option.map_eq_some_iff.1 hseen
  obtain ⟨hfailure, hended⟩ := Prod.mk.inj hpair
  obtain ⟨-, -, -, hresult⟩ := hcalls Store.stub .still (.describe ⟨"default"⟩) .none none
    ⟨1000000000⟩ ⟨0⟩ forgetfulStore 1 t (.new .notFound "gone") hk
    (Trial.result_of_failure? hfailure) (by decide)
  have hfirst : (guardedClient.chronicle Store.stub .still (.describe ⟨"default"⟩) .none none
      ⟨1000000000⟩ ⟨0⟩ forgetfulStore).first = ⟨0⟩ := by decide +kernel
  refine ⟨hnew, hconfigured, hresult.trans ?_⟩
  rw [hended, hfirst]
  rfl

end ResilientCalls
