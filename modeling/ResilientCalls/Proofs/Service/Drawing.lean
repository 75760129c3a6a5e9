import ResilientCalls.Proofs.Client.Punctual
import ResilientCalls.Proofs.Service.Serving
/-!
# Calls that draw injected failures

An attempt to describe a registered namespace is answered in time: with
the next injected failure, or with the description when none is left. A
policy that allows more attempts than there are failures, and retries
each, never gives such a call up, however many of the failures other
calls draw. What carries this is one inequality, `Run.Lasts`: the attempts
of a call and the failures that are left add up to no more than there were
at first.
-/

namespace ResilientCalls

/-! ## Timers of longer waits -/

/-- A timer for a longer time fires later, or has fired when it is set. -/
theorem Instant.timer_le_timer {now : Instant} {d e : Duration} (h : d.nanos ≤ e.nanos) :
    (now.timer d).nanos ≤ (now.timer e).nanos ∨ (now.timer d).nanos ≤ now.nanos := by
  by_cases hd : d.isZero = true
  · right
    rw [timer, if_pos hd]
  · left
    have he : ¬ e.isZero = true := by
      simp only [Duration.isZero, beq_iff_eq] at hd ⊢
      omega
    have hahead : (now.ahead d).nanos ≤ (now.ahead e).nanos := by
      simp only [ahead, plus, Duration.shorter]
      omega
    have hfiring := firing_mono hahead
    rw [timer, timer, if_neg hd, if_neg he]
    simp only [earlier]
    omega

/-! ## Failures that a policy retries -/

/-- The policy retries the failure: it reports no cancellation and is not
listed. -/
def RetryPolicy.Tolerates (p : RetryPolicy) (status : Status) : Prop :=
  status.code ≠ .cancelled ∧ ¬ p.Lists status

/-- A valid policy without jitter and without expiration that allows more
than `k` attempts. -/
structure RetryPolicy.Outlasts (p : RetryPolicy) (k : Nat) : Prop where
  valid : p.validate = .ok ()
  still : p.jitter.isZero = true
  unlimited : p.expiration = none
  enough : k < p.maximumAttempts
  counted : p.maximumAttempts ≤ maxCount32

/-- **A failure is retried while attempts are left,** if nothing else ends
the run. -/
theorem RetryPolicy.Outlasts.afterFailure {p : RetryPolicy} {k : Nat} (h : p.Outlasts k)
    {status : Status} (htolerates : p.Tolerates status) {i : Invocation}
    (hdeadline : i.deadline = none) (hattempt : i.attempt ≤ k) (now : Instant) (draw : Binary64) :
    afterFailure p i status now draw = .retry (p.baseDelay i.attempt) := by
  have hlist := RetryPolicy.not_lists_iff.1 htolerates.2
  have hcancel : Failure.isCancelled status = false := by
    simpa [Failure.isCancelled] using htolerates.1
  have hbudget : i.budget now = .unbounded := by
    rw [Invocation.budget, hdeadline]
  have hexpired : i.isExpired now = false := by
    rw [Invocation.isExpired, hbudget]
    rfl
  have hexhausted : ¬ i.isExhausted p = true := by
    have := h.enough
    rw [Invocation.isExhausted_iff]
    omega
  have hclass : classify p.doNotRetry status (i.isExpired now) = .retryable := by
    simp [classify, hlist, hcancel, hexpired]
  rw [ResilientCalls.afterFailure, hclass]
  simp only [if_neg hexhausted, Invocation.nextBackoff, hbudget,
    jittered_of_isZero h.still draw (p.baseDelay i.attempt)]

/-! ## The service -/

namespace Store

/-- The injected failures that are left for the description of a
namespace. -/
def left (s : Store) : List Status := s.failures.get .describeNamespace

/-- The descriptions asked for so far, failed ones included. -/
def asked (s : Store) : Nat := s.calls.get .describeNamespace

/-- The namespace is registered, and answers to its description come in
time for an attempt. -/
structure Describes (nspace : String) (timeout : Duration) (s : Store) : Prop where
  registered : s.namespaces.contains nspace = true
  prompt : ∀ latency, s.latency.get .describeNamespace = some latency →
    latency.nanos ≤ timeout.nanos

/-- The answer that describes a registered namespace. -/
def description (nspace : String) : Answer := .describe ⟨nspace, "REGISTERED", 3⟩

variable {nspace : String} {timeout : Duration} {s : Store}

@[simp] theorem left_enter : (s.enter .describeNamespace).left = s.left := rfl

@[simp] theorem asked_enter : (s.enter .describeNamespace).asked = s.asked + 1 := s.calls_enter _

theorem Describes.enter (h : s.Describes nspace timeout) :
    (s.enter .describeNamespace).Describes nspace timeout := ⟨h.registered, h.prompt⟩

/-- The store after the next failure was drawn. -/
def draw (s : Store) : Store :=
  { s with failures := s.failures.set .describeNamespace s.left.tail }

@[simp] theorem left_draw : s.draw.left = s.left.tail := by
  simp [left, draw]

@[simp] theorem asked_draw : s.draw.asked = s.asked := rfl

theorem Describes.draw (h : s.Describes nspace timeout) : s.draw.Describes nspace timeout :=
  ⟨h.registered, h.prompt⟩

/-- **A description draws the next failure,** or is given when none is
left. -/
theorem settle_describe (h : s.Describes nspace timeout) :
    s.settle (.describe ⟨nspace⟩) =
      match s.left with
      | status :: _ => (.error status, s.draw)
      | [] => (.ok (description nspace), s) := by
  have hmethod : (Request.describe ⟨nspace⟩).method = .describeNamespace := rfl
  unfold settle left
  rw [hmethod]
  rcases hleft : s.failures.get .describeNamespace with _ | ⟨status, rest⟩
  · simp only [serve, describe]
    rw [if_pos h.registered]
    rfl
  · simp only [draw, left, hleft, List.tail_cons]

end Store

/-! ## One call -/

/-- The call that describes a namespace, without a deadline. -/
def describing (nspace : String) (timeout : Duration) : Call := ⟨.describe ⟨nspace⟩, timeout, none⟩

namespace Run

variable {o : RetryOptions} {k left fewer : Nat} {now later : Instant}
  {r : Run (CallAttempt Instant) Status}

/-- At `now`, with so many injected failures left, the run of a call has
attempts for all of them, and no attempt in flight is cut before its
answer. -/
def Lasts (o : RetryOptions) (k left : Nat) (now : Instant) (r : Run (CallAttempt Instant) Status) :
    Prop :=
  r.options = o ∧ match r.phase with
    | .idle => left ≤ k
    | .attempting attempt i => i.deadline = none ∧ i.attempt + left ≤ k + 1 ∧
        (attempt.inner.nanos ≤ attempt.cutAt.nanos ∨ attempt.inner.nanos ≤ now.nanos)
    | .backingOff _ i => i.deadline = none ∧ i.attempt + left ≤ k
    | .settled => False

/-- A run lasts also later, and with fewer failures left. -/
theorem Lasts.mono (h : r.Lasts o k left now) (hleft : fewer ≤ left)
    (hlater : now.nanos ≤ later.nanos) : r.Lasts o k fewer later := by
  obtain ⟨ho, hphase⟩ := h
  refine ⟨ho, ?_⟩
  cases hp : r.phase with
  | idle =>
    simp only [hp] at hphase ⊢
    omega
  | attempting attempt i =>
    simp only [hp] at hphase ⊢
    exact ⟨hphase.1, by omega, by omega⟩
  | backingOff timer i =>
    simp only [hp] at hphase ⊢
    exact ⟨hphase.1, by omega⟩
  | settled => simp only [hp] at hphase

/-- The attempts in flight: one or none. -/
def inFlight (r : Run (CallAttempt Instant) Status) : Nat :=
  match r.phase with
  | .attempting _ _ => 1
  | .idle | .backingOff _ _ | .settled => 0

/-- A timer of the run of a call has fired. -/
def IsDue (call : Call) (now : Instant) (r : Run (CallAttempt Instant) Status) : Prop :=
  ∃ t ∈ r.timers (call.work Store.stub), t.reached now = true

end Run

/-- The text of the failure that an event retries. -/
def RetryEvent.retried? : RetryEvent → Option String
  | .retrying _ _ error => some error
  | _ => none

section

variable (nspace : String) (timeout : Duration) (o : RetryOptions) (k : Nat) (now : Instant)

/-- **What one transition of a call does:** nothing, since nothing is due;
or it asks for a description, or draws the next injected failure and is
going to try again, or finds none left and answers. -/
inductive DescribeStep (r : Run (CallAttempt Instant) Status) (s : Store) :
    Turn Store (CallAttempt Instant) Status Answer (Move Status Answer) → Prop
  | waits (hbegun : r.phase ≠ .idle) (hdue : ¬ r.IsDue (describing nspace timeout) now) :
    DescribeStep r s ⟨r, s, [], .ends .pending⟩
  | asks (r' : Run (CallAttempt Instant) Status) (n : Nat) (hlasts : r'.Lasts o k s.left.length now)
      (hbefore : r.inFlight = 0) (hafter : r'.inFlight = 1) :
      DescribeStep r s ⟨r', s.enter .describeNamespace, [.starting n], .onward⟩
  | draws (r' : Run (CallAttempt Instant) Status) (status : Status) (rest : List Status) (n : Nat)
      (delay : Duration) (hleft : s.left = status :: rest) (hlasts : r'.Lasts o k rest.length now)
      (hbefore : r.inFlight = 1) (hafter : r'.inFlight = 0) :
      DescribeStep r s ⟨r', s.draw, [.retrying n delay status.text], .onward⟩
  | answers (r' : Run (CallAttempt Instant) Status) (events : List RetryEvent) (hleft : s.left = [])
      (hevents : events.filterMap RetryEvent.retried? = []) (hbefore : r.inFlight = 1) :
      DescribeStep r s ⟨r', s, events, .ends (.settled (.ok (Store.description nspace)))⟩

end

namespace Run

variable {nspace : String} {timeout : Duration} {s : Store}

theorem launch_describeStep {i : Invocation} (ho : r.options = o)
    (hdescribes : s.Describes nspace timeout) (hdeadline : i.deadline = none)
    (hattempt : i.attempt + s.left.length ≤ k + 1) (hbefore : r.inFlight = 0) :
    DescribeStep nspace timeout o k now r s
      (r.launch ((describing nspace timeout).work Store.stub) now i s) := by
  have hlaunch : (describing nspace timeout).launch Store.stub now s =
      (⟨(Store.stub.send (.describe ⟨nspace⟩) now s).1, timeout, now.timer timeout⟩,
        s.enter .describeNamespace) := rfl
  unfold launch
  simp only [Call.work_start, hlaunch]
  refine .asks _ _ ⟨ho, hdeadline, hattempt, ?_⟩ hbefore rfl
  -- the answer is due at once, or its latency is not longer than the timeout
  simp only [Store.stub, show (Request.describe ⟨nspace⟩).method = .describeNamespace from rfl]
  cases hlatency : s.latency.get .describeNamespace with
  | none => exact Or.inr le_rfl
  | some latency => exact Instant.timer_le_timer (hdescribes.prompt latency hlatency)

/-- An attempt whose answer is due is answered. -/
theorem look_describe {attempt : CallAttempt Instant}
    (hreached : attempt.inner.reached now = true) :
    ((describing nspace timeout).work Store.stub).look now attempt s =
      (.finished (s.settle (.describe ⟨nspace⟩)).1, (s.settle (.describe ⟨nspace⟩)).2) := by
  simp only [Call.work, Call.look, Store.stub, describing, if_pos hreached]

/-- An attempt whose answer is not due waits, unless it is cut. -/
theorem look_describe_waiting {attempt : CallAttempt Instant}
    (hreached : ¬ attempt.inner.reached now = true) (hcut : ¬ attempt.cutAt.reached now = true) :
    ((describing nspace timeout).work Store.stub).look now attempt s = (.waiting, s) := by
  simp only [Call.work, Call.look, Store.stub, describing, if_neg hreached, if_neg hcut]

/-- An attempt that is answered draws the next failure, or has the
description. -/
theorem answered_describeStep (hp : o.policy.Outlasts k) (draws : Draws)
    (hdescribes : s.Describes nspace timeout)
    (htolerates : ∀ status ∈ s.left, o.policy.Tolerates status)
    {attempt : CallAttempt Instant} {i : Invocation} (hphase : r.phase = .attempting attempt i)
    (hoptions : r.options = o) (hdeadline : i.deadline = none)
    (hattempt : i.attempt + s.left.length ≤ k + 1)
    (hreached : attempt.inner.reached now = true) :
    DescribeStep nspace timeout o k now r s
      (r.step ((describing nspace timeout).work Store.stub) draws now s) := by
  have hflying : r.inFlight = 1 := by simp [inFlight, hphase]
  unfold step
  simp only [hphase]
  rw [look_describe hreached, Store.settle_describe hdescribes]
  cases hleft : s.left with
  | nil => exact .answers _ _ hleft (by split <;> rfl) hflying
  | cons status rest =>
    simp only [hleft, List.length_cons] at hattempt
    have hretry := hp.afterFailure (htolerates status (by simp [hleft])) hdeadline
      (by omega) now (draws i.attempt)
    simp only [afterFailedAttempt, hoptions, hretry]
    exact .draws _ status rest _ _ hleft ⟨rfl, hdeadline, by omega⟩ hflying rfl

/-- **Each transition of a call that lasts is one of these.** -/
theorem step_describeStep (hp : o.policy.Outlasts k) (ho : o.deadline = none) (draws : Draws)
    (hlasts : r.Lasts o k s.left.length now) (hdescribes : s.Describes nspace timeout)
    (htolerates : ∀ status ∈ s.left, o.policy.Tolerates status) :
    DescribeStep nspace timeout o k now r s
      (r.step ((describing nspace timeout).work Store.stub) draws now s) := by
  obtain ⟨hoptions, hphase⟩ := hlasts
  cases hp' : r.phase with
  | idle =>
    simp only [hp'] at hphase
    have hbegin : (r.options.begin now).deadline = none := by
      simp [RetryOptions.begin, Invocation.begin, Deadline.effective, hoptions, ho, hp.unlimited]
    simp only [step, hp']
    exact launch_describeStep hoptions hdescribes hbegin
      (show 1 + s.left.length ≤ k + 1 by omega) (by simp [inFlight, hp'])
  | backingOff timer i =>
    simp only [hp'] at hphase
    simp only [step, hp']
    split
    · refine launch_describeStep hoptions hdescribes hphase.1 ?_ (by simp [inFlight, hp'])
      simp only [Invocation.advance]
      omega
    · rename_i hfired
      refine .waits (by simp [hp']) ?_
      rintro ⟨t, ht, hreached⟩
      obtain rfl : t = timer := by simpa [timers, hp'] using ht
      exact hfired hreached
  | settled => simp only [hp'] at hphase
  | attempting attempt i =>
    simp only [hp'] at hphase
    obtain ⟨hdeadline, hattempt, hcut⟩ := hphase
    by_cases hreached : attempt.inner.reached now = true
    · exact answered_describeStep hp draws hdescribes htolerates hp' hoptions hdeadline hattempt
        hreached
    · -- an attempt that is cut has its answer, so this one goes on
      have hnot : ¬ attempt.cutAt.reached now = true := by
        simp only [Instant.reached, decide_eq_true_eq] at hreached ⊢
        omega
      simp only [step, hp', look_describe_waiting hreached hnot]
      refine .waits (by simp [hp']) ?_
      rintro ⟨t, ht, hfired⟩
      simp only [timers, hp', Call.work, Call.timers, Store.stub, List.cons_append,
        List.nil_append, List.mem_cons, List.not_mem_nil, or_false] at ht
      rcases ht with rfl | rfl
      · exact hreached hfired
      · exact hnot hfired

end Run

/-! ## One poll -/

section

variable (nspace : String) (timeout : Duration) (o : RetryOptions) (k : Nat) (now : Instant)
  (s₀ : Store) (flying : Nat)

/-- What a run has made of the store `s₀`, after the events `past`, while
it goes on. It had `flying` attempts in flight, and has made `spent`
transitions at least. Each description that was asked for has drawn a
failure, or is in flight; and the failures that were drawn are those that
were retried, in their order. -/
structure Drawing (spent : Nat) (past : List RetryEvent) (r : Run (CallAttempt Instant) Status)
    (s : Store) : Prop where
  lasts : r.Lasts o k s.left.length now
  describes : s.Describes nspace timeout
  suffix : s.left <:+ s₀.left
  balance : s.asked + s.left.length + flying = s₀.asked + s₀.left.length + r.inFlight
  drawn : past.filterMap RetryEvent.retried? ++ s.left.map Status.text = s₀.left.map Status.text
  effort : 2 * s.left.length + flying + spent ≤ 2 * s₀.left.length + r.inFlight

/-- What a run has made of the store `s₀`, after the events `past`, when it
ends: it has the answer, and no failures are left. -/
structure Answered (past : List RetryEvent) (s : Store) (ending : Ending Status Answer) : Prop where
  answer : ending = .settled (.ok (Store.description nspace))
  describes : s.Describes nspace timeout
  none_left : s.left = []
  balance : s.asked + flying = s₀.asked + s₀.left.length + 1
  drawn : past.filterMap RetryEvent.retried? = s₀.left.map Status.text

end

variable {nspace : String} {timeout : Duration} {o : RetryOptions} {k : Nat} {now : Instant}
  {s₀ s : Store} {flying spent : Nat} {past : List RetryEvent}
  {r : Run (CallAttempt Instant) Status}
  {t : Turn Store (CallAttempt Instant) Status Answer (Move Status Answer)}

/-- A transition that goes on draws further. -/
theorem Drawing.onward (h : Drawing nspace timeout o k now s₀ flying spent past r s)
    (hstep : DescribeStep nspace timeout o k now r s t) (honward : t.result = .onward) :
    Drawing nspace timeout o k now s₀ flying (spent + 1) (past ++ t.events) t.run t.world := by
  obtain ⟨hlasts, hdescribes, hsuffix, hbalance, hdrawn, heffort⟩ := h
  cases hstep with
  | waits hbegun hdue => cases honward
  | answers r' events hleft hevents hbefore => cases honward
  | asks r' n hlasts' hbefore hafter =>
    refine ⟨hlasts', hdescribes.enter, hsuffix, ?_, ?_, ?_⟩
    · simp only [Store.asked_enter, Store.left_enter]
      omega
    · simpa [List.filterMap_cons, RetryEvent.retried?] using hdrawn
    · simp only [Store.left_enter]
      omega
  | draws r' status rest n delay hleft hlasts' hbefore hafter =>
    have htail : s.draw.left = rest := by rw [Store.left_draw, hleft, List.tail_cons]
    rw [hleft, List.length_cons] at hbalance heffort
    refine ⟨?_, hdescribes.draw, ?_, ?_, ?_, ?_⟩
    · simpa only [htail] using hlasts'
    · simp only [htail]
      exact (List.suffix_cons status rest).trans (hleft ▸ hsuffix)
    · simp only [htail, Store.asked_draw]
      omega
    · simpa [htail, hleft, List.filterMap_cons, RetryEvent.retried?] using hdrawn
    · simp only [htail]
      omega

/-- A transition that ends draws no more, or has the answer. -/
theorem Drawing.ends (h : Drawing nspace timeout o k now s₀ flying spent past r s)
    (hstep : DescribeStep nspace timeout o k now r s t) {ending : Ending Status Answer}
    (hends : t.result = .ends ending) :
    (ending = .pending ∧ (r.phase ≠ .idle ∧ ¬ r.IsDue (describing nspace timeout) now) ∧
      t = ⟨r, s, [], .ends .pending⟩) ∨
      Answered nspace timeout s₀ flying (past ++ t.events) t.world ending := by
  obtain ⟨hlasts, hdescribes, hsuffix, hbalance, hdrawn, heffort⟩ := h
  cases hstep with
  | asks | draws => cases hends
  | waits hbegun hdue =>
    cases hends
    exact Or.inl ⟨rfl, ⟨hbegun, hdue⟩, rfl⟩
  | answers r' events hleft hevents hbefore =>
    cases hends
    rw [hleft] at hbalance hdrawn
    refine Or.inr ⟨rfl, hdescribes, hleft, ?_, ?_⟩
    · simp only [List.length_nil] at hbalance ⊢
      omega
    · simpa [hevents] using hdrawn

/-- Less may have been spent. -/
theorem Drawing.mono {less : Nat} (h : Drawing nspace timeout o k now s₀ flying spent past r s)
    (hle : less ≤ spent) : Drawing nspace timeout o k now s₀ flying less past r s :=
  ⟨h.lasts, h.describes, h.suffix, h.balance, h.drawn, by have := h.effort; omega⟩

/-- **What transitions of a call keep.** -/
theorem Run.step_drawing (hp : o.policy.Outlasts k) (ho : o.deadline = none) (draws : Draws)
    (htolerates : ∀ status ∈ s₀.left, o.policy.Tolerates status)
    (h : Drawing nspace timeout o k now s₀ flying spent past r s) :
    (r.step ((describing nspace timeout).work Store.stub) draws now s).Keeps
      (Drawing nspace timeout o k now s₀ flying spent)
      (Answered nspace timeout s₀ flying) past := by
  have hstep := Run.step_describeStep hp ho draws h.lasts h.describes
    fun status hmem => htolerates status (h.suffix.subset hmem)
  unfold Turn.Keeps
  rcases hresult : (r.step ((describing nspace timeout).work Store.stub) draws now s).result with
    _ | _ | outcome | message <;> simp only []
  · exact (h.onward hstep hresult).mono (Nat.le_succ _)
  · rcases h.ends hstep hresult with ⟨-, -, heq⟩ | hanswered
    · rw [heq, List.append_nil]
      exact h
    · cases hanswered.answer
  · rcases h.ends hstep hresult with ⟨hpending, -⟩ | hanswered
    · cases hpending
    · exact hanswered
  · rcases h.ends hstep hresult with ⟨hpending, -⟩ | hanswered
    · cases hpending
    · cases hanswered.answer

/-- **One poll of a call that lasts:** nothing is due and nothing happens,
or the call goes on by one transition at least, or it is answered. -/
theorem Run.poll_drawing (hp : o.policy.Outlasts k) (ho : o.deadline = none)
    (htoken : o.hasToken = false) (draws : Draws) (cancelled : Bool)
    (hlasts : r.Lasts o k s.left.length now) (hdescribes : s.Describes nspace timeout)
    (htolerates : ∀ status ∈ s.left, o.policy.Tolerates status) :
    ((r.phase ≠ .idle ∧ ¬ r.IsDue (describing nspace timeout) now) ∧
      r.poll ((describing nspace timeout).work Store.stub) draws now cancelled s =
        ⟨r, s, [], .pending⟩) ∨
    (r.poll ((describing nspace timeout).work Store.stub) draws now cancelled s).Leaves
      (Drawing nspace timeout o k now s r.inFlight 1)
      (Answered nspace timeout s r.inFlight) [] := by
  have hbegin : Drawing nspace timeout o k now s r.inFlight 0 [] r s :=
    ⟨hlasts, hdescribes, List.suffix_refl _, rfl, rfl, le_rfl⟩
  have hstep := Run.step_describeStep hp ho draws hlasts hdescribes htolerates
  have hread : ¬ (r.options.hasToken && cancelled && !r.phase.isSettled) = true := by
    simp [hlasts.1, htoken]
  rw [poll, if_neg hread, show stepLimit = stepLimit - 1 + 1 from rfl, steps]
  rcases hresult : (r.step ((describing nspace timeout).work Store.stub) draws now s).result with
    _ | ending <;> simp only []
  · right
    have hrest := Run.steps_leaves (w := (describing nspace timeout).work Store.stub)
      (fun _ _ _ => Run.step_drawing hp ho draws htolerates)
      (stepLimit - 1) (hbegin.onward hstep hresult)
    simpa only [Turn.Leaves, List.nil_append] using hrest
  · rcases hbegin.ends hstep hresult with ⟨rfl, hdue, heq⟩ | hanswered
    · left
      rw [heq]
      exact ⟨hdue, rfl⟩
    · right
      obtain rfl := hanswered.answer
      exact hanswered

end ResilientCalls
