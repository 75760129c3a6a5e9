import ResilientCalls.Client.Calling
import ResilientCalls.Proofs.Retry.Progress
/-!
# Calls that keep their deadline

A non-blocking call waits for two kinds of timer: the cut of the attempt
in flight and the timer of a pause. Each is set for time that is left
before the deadline, so each fires by the deadline rounded up to a whole
millisecond, however long a request may take to be answered. A call that
is pending waits for such a timer, so the clock comes to it before that
instant is over, and every poll there either settles the call or sets
another. That the clock does move takes that no instant is crowded: the
policy limits the attempts, or from some attempt on jitter leaves something
of every delay. Otherwise a call may stay at one instant for ever.
-/

namespace ResilientCalls

variable {σ τ ε α : Type}

/-! ## Timers before a deadline -/

namespace Instant

/-- A timer for time that is left fires by the deadline, rounded up. -/
theorem timer_le_firing {now d : Instant} {t : Duration} (h : now.nanos + t.nanos ≤ d.nanos) :
    (now.timer t).nanos ≤ d.firing.nanos := by
  have hd := le_firing d
  unfold timer
  split
  · omega
  · have hahead : (now.ahead t).nanos ≤ d.nanos :=
      le_trans (Nat.add_le_add_left (Nat.min_le_left _ _) _) h
    exact le_trans (Nat.min_le_left _ _) (firing_mono hahead)

end Instant

namespace Deadline

/-- **The last instant of a call** that begins at `first`: the deadline
rounded up to a whole millisecond, or the beginning if the deadline had
passed. -/
def latest (d first : Instant) : Instant :=
  if d.reached first then first else d.firing

theorem first_le_latest (d first : Instant) : first.nanos ≤ (latest d first).nanos := by
  have hd := Instant.le_firing d
  unfold latest
  split
  · exact le_rfl
  · rename_i hreached
    simp only [Instant.reached, decide_eq_true_eq] at hreached
    omega

/-- While the deadline has not passed, there is time until it is rounded
up. -/
theorem firing_le_latest {d first now : Instant} (hfirst : first.nanos ≤ now.nanos)
    (hbefore : now.nanos < d.nanos) : d.firing.nanos ≤ (latest d first).nanos := by
  unfold latest
  rw [if_neg]
  simp only [Instant.reached, decide_eq_true_eq]
  omega

end Deadline

namespace Call

variable {stub : Stub σ τ} {call : Call} {d first now : Instant}

/-- No attempt breaks down when it is started. -/
theorem work_start (call : Call) (stub : Stub σ τ) (now : Instant) (world : σ) :
    (call.work stub).start now world =
      (.ok (call.launch stub now world).1, (call.launch stub now world).2) := rfl

/-- **An attempt is cut by the end of the call,** or at once. -/
theorem cutAt_le (hd : call.deadline = some d) (hfirst : first.nanos ≤ now.nanos) (world : σ) :
    (call.launch stub now world).1.cutAt.nanos ≤ (Deadline.latest d first).nanos ∨
      (call.launch stub now world).1.cutAt.nanos ≤ now.nanos := by
  have hleft := attemptTimeout_le_left hd now
  simp only [launch, Instant.since] at hleft ⊢
  rcases Nat.lt_or_ge now.nanos d.nanos with hbefore | hpassed
  · left
    exact le_trans (Instant.timer_le_firing (by omega)) (Deadline.firing_le_latest hfirst hbefore)
  · right
    have hzero : (call.attemptTimeout now).isZero = true := by
      simp [Duration.isZero]
      omega
    rw [Instant.timer, if_pos hzero]

/-- An attempt that is seen to wait has not been cut. -/
theorem lt_cutAt_of_look {attempt : CallAttempt τ} {world world' : σ}
    (h : call.look stub now attempt world = (.waiting, world')) :
    now.nanos < attempt.cutAt.nanos := by
  unfold look at h
  split at h
  · cases h
  · split at h
    · cases h
    · rename_i hreached
      simpa [Instant.reached] using hreached

/-- No attempt breaks down in flight. -/
theorem look_ne_crashed (attempt : CallAttempt τ) (world world' : σ) (message : String) :
    call.look stub now attempt world ≠ (.crashed message, world') := by
  unfold look
  split
  · simp
  · split <;> simp

end Call

/-! ## The run of a call -/

namespace Run

variable {call : Call} {stub : Stub σ τ} {o : RetryOptions} {draws : Draws}
  {d first now later : Instant} {past : List RetryEvent}

/-- At `now`, whatever the run of a call waits for comes by the last
instant of the call. -/
def OnTime (o : RetryOptions) (d first now : Instant) (r : Run (CallAttempt τ) Status) : Prop :=
  r.options = o ∧ first.nanos ≤ now.nanos ∧
    match r.phase with
    | .idle => now = first
    | .attempting attempt i => i.deadline = some d ∧
        (attempt.cutAt.nanos ≤ (Deadline.latest d first).nanos ∨
          attempt.cutAt.nanos ≤ now.nanos)
    | .backingOff timer i => i.deadline = some d ∧
        timer.nanos ≤ (Deadline.latest d first).nanos
    | .settled => False

variable {r : Run (CallAttempt τ) Status}

/-- **One transition keeps a call on time,** or settles it. -/
theorem step_onTime (hcall : call.deadline = some d) (hd : o.effective first = some d)
    (hshort : o.policy.NeverLengthens draws) (hcomputed : o.policy.Computes draws)
    (world : σ × Chronicle Status Answer) (h : r.OnTime o d first now) :
    (r.step (call.work stub).chronicled draws now world).Keeps
      (fun _ r _ => r.OnTime o d first now)
      (fun _ _ ending => ∃ outcome, ending = .settled outcome) past := by
  obtain ⟨inner, c⟩ := world
  have honTime := h
  obtain ⟨rfl, hfirst, hphase⟩ := h
  have hlaunch : ∀ i : Invocation, i.deadline = some d →
      (r.launch (call.work stub).chronicled now i (inner, c)).Keeps
        (fun _ r' _ => r'.OnTime r.options d first now)
        (fun _ _ ending => ∃ outcome, ending = .settled outcome) past := by
    intro i hi
    simp only [launch, Work.chronicled_start_ok (call.work_start stub now inner), Turn.Keeps]
    exact ⟨rfl, hfirst, hi, Call.cutAt_le hcall hfirst inner⟩
  unfold step
  cases hp : r.phase with
  | idle =>
    simp only [hp] at hphase ⊢
    subst hphase
    exact hlaunch _ hd
  | backingOff timer i =>
    simp only [hp] at hphase ⊢
    by_cases hfired : timer.reached now = true
    · rw [if_pos hfired]
      exact hlaunch _ hphase.1
    · rw [if_neg hfired]
      exact honTime
  | attempting attempt i =>
    simp only [hp] at hphase ⊢
    rcases hlook : (call.work stub).look now attempt inner with ⟨_ | ⟨e | v⟩ | m, inner'⟩ <;>
      simp only [Work.chronicled_look hlook]
    · exact honTime
    · unfold afterFailedAttempt
      cases hdecision : afterFailure r.options.policy i e now (draws i.attempt) with
      | stop reason => exact ⟨_, rfl⟩
      | overflow reason =>
        exact absurd hdecision (afterFailure_ne_overflow_of (hcomputed i.attempt) reason)
      | retry delay =>
        have hbefore := lt_deadline_of_retry hdecision hphase.1
        have hends := le_deadline_of_retry hdecision hphase.1 (hshort i.attempt)
        -- the pause ends by the deadline, so its timer fires by the deadline rounded up
        exact ⟨rfl, hfirst, hphase.1,
          le_trans (Instant.timer_le_firing hends) (Deadline.firing_le_latest hfirst hbefore)⟩
    · exact ⟨_, rfl⟩
    · exact absurd hlook (Call.look_ne_crashed attempt inner inner' m)
  | settled => simp only [hp] at hphase

/-- A call that has begun is on time later. -/
theorem OnTime.mono (h : r.OnTime o d first now) (hbegun : r.phase ≠ .idle)
    (hle : now.nanos ≤ later.nanos) : r.OnTime o d first later := by
  obtain ⟨ho, hfirst, hphase⟩ := h
  refine ⟨ho, le_trans hfirst hle, ?_⟩
  cases hp : r.phase with
  | idle => exact absurd hp hbegun
  | settled => simp only [hp] at hphase
  | backingOff timer i => simpa only [hp] using hphase
  | attempting attempt i =>
    simp only [hp] at hphase ⊢
    exact ⟨hphase.1, hphase.2.imp_right fun hcut => le_trans hcut hle⟩

/-- **A call that waits is waiting for an instant that comes in time,** and
is on time until then. -/
theorem OnTime.waits {world : σ × Chronicle Status Answer} (h : r.OnTime o d first now)
    (hwaits : r.IsWaiting (call.work stub).chronicled now world) :
    ∃ t ∈ r.timers (call.work stub).chronicled, now.nanos < t.nanos ∧
      t.nanos ≤ (Deadline.latest d first).nanos ∧
      ∀ next : Instant, now.nanos < next.nanos → next.nanos ≤ t.nanos →
        r.OnTime o d first next := by
  have hontime := h
  obtain ⟨-, -, hphase⟩ := h
  rcases hwaits.cases with ⟨attempt, i, inner, hp, hlook, htimers⟩ |
    ⟨timer, i, hp, hlater, htimers⟩ <;> simp only [hp] at hphase <;> rw [htimers]
  · have hcut := Call.lt_cutAt_of_look (Prod.ext hlook rfl)
    exact ⟨attempt.cutAt, by simp [Call.work, Call.timers], hcut, by omega,
      fun next hmoves _ => hontime.mono (by simp [hp]) (Nat.le_of_lt hmoves)⟩
  · exact ⟨timer, List.mem_singleton_self timer, hlater, hphase.2,
      fun next hmoves _ => hontime.mono (by simp [hp]) (Nat.le_of_lt hmoves)⟩

end Run

/-- **A call that begins at `first` is over in time.** What it waits for
comes by the last instant of the call, and so does every poll. -/
theorem Course.follow_punctual {call : Call} {stub : Stub σ τ} {o : RetryOptions} {draws : Draws}
    {cancelledFrom : Option Instant} {d first limit : Instant} (hcall : call.deadline = some d)
    (hd : o.effective first = some d) (hshort : o.policy.NeverLengthens draws)
    (hcomputed : o.policy.Computes draws) (hlimit : (Deadline.latest d first).nanos ≤ limit.nanos)
    (world : σ)
    (hcrowd : ((Course.begin o first (world, Chronicle.empty)).follow (call.work stub).chronicled
      draws cancelledFrom limit).world.2.Uncrowded) :
    let e := (Course.begin o first (world, Chronicle.empty)).follow (call.work stub).chronicled
      draws cancelledFrom limit
    e.now.nanos ≤ (Deadline.latest d first).nanos ∧ ∃ outcome, e.ending = .settled outcome := by
  have hbegin : (Run.new o : Run (CallAttempt τ) Status).OnTime o d first first :=
    ⟨rfl, le_rfl, rfl⟩
  obtain ⟨_, hover⟩ := follow_settles (w := (call.work stub))
    (J := fun now _ r _ => r.OnTime o d first now ∧ now.nanos ≤ (Deadline.latest d first).nanos)
    (E := fun now _ _ ending => now.nanos ≤ (Deadline.latest d first).nanos ∧
      ∃ outcome, ending = .settled outcome)
    (fun now past r world h => (Run.step_onTime hcall hd hshort hcomputed world h.1).imp
      (fun _ _ hkept => ⟨hkept, h.2⟩) (fun _ _ hended => ⟨h.2, hended⟩))
    (fun now _ past r world h _ => ⟨h.2, _, rfl⟩)
    (fun now past r world h hwaits => by
      obtain ⟨t, hmem, hlater, hlast, huntil⟩ := h.1.waits hwaits
      exact ⟨t, hmem, hlater, le_trans hlast hlimit,
        fun next hmoves hnext => ⟨huntil next hmoves hnext, le_trans hnext hlast⟩⟩)
    ⟨hbegin, Deadline.first_le_latest d first⟩ hcrowd
  exact hover

/-! ## Calls -/

/-- A run that settles settles its call. -/
theorem Client.resultOf_settled (m : Method) (outcome : Except (RetryError Status) Answer) :
    (Client.resultOf m (.settled outcome)).IsSettled := by
  cases outcome with
  | ok answer => exact Or.inl ⟨answer, rfl⟩
  | error e => exact Or.inr ⟨_, rfl⟩

namespace Client

/-- The options of a call are those of its client and its caller, and they
were accepted. -/
theorem options_of_prepare {c : Client} {request : Request} {o : CallOptions}
    {options : RetryOptions} (h : c.prepare request o = .ok options) :
    options = ⟨c.policy, o.deadline, o.hasToken⟩ ∧ options.Accepted := by
  unfold prepare at h
  cases hcheck : checkRequest request with
  | error e => simp [hcheck] at h
  | ok u =>
    simp only [hcheck] at h
    cases hnew : RetryOptions.new c.policy o.deadline with
    | error e => simp [hnew] at h
    | ok plain =>
      obtain rfl := RetryOptions.eq_of_new hnew
      simp only [hnew, Except.ok.injEq] at h
      obtain rfl : options = ⟨c.policy, o.deadline, o.hasToken⟩ := by
        rw [← h]
        cases o.hasToken <;> rfl
      exact ⟨rfl, hnew⟩

/-- The chronicle of a call; a call that is refused makes no attempt. -/
def chronicle (c : Client) (stub : Stub σ τ) (draws : Draws) (request : Request)
    (o : CallOptions) (cancelledFrom : Option Instant) (limit now : Instant) (world : σ) :
    Chronicle Status Answer :=
  match c.prepare request o with
  | .error _ => .empty
  | .ok options =>
    ((Course.begin options now (world, Chronicle.empty)).follow
      ((c.callOf request options now).work stub).chronicled draws cancelledFrom limit).world.2

variable {c : Client} {request : Request} {o : CallOptions} {now d : Instant}

/-- The call of a request has the deadline of its run. -/
theorem callOf_deadline {options : RetryOptions} (h : c.prepare request o = .ok options)
    (hd : Deadline.effective c.policy o.deadline now = some d) :
    (c.callOf request options now).deadline = some d ∧ options.effective now = some d := by
  rw [(options_of_prepare h).1]
  exact ⟨hd, hd⟩

/-- A call that is not refused ends as its run does. -/
theorem call_of_prepare {options : RetryOptions} (h : c.prepare request o = .ok options)
    (stub : Stub σ τ) (draws : Draws) (cancelledFrom : Option Instant) (limit : Instant) (world : σ) :
    let course := (Course.begin options now world).follow ((c.callOf request options now).work stub)
      draws cancelledFrom limit
    (c.call stub draws request o cancelledFrom limit now world).result =
        resultOf request.method course.ending ∧
      (c.call stub draws request o cancelledFrom limit now world).world = course.world := by
  constructor <;> simp only [call, h]

/-- **A call that is not refused** ends as its run does, whose attempts
are those of its chronicle. -/
theorem call_followed {options : RetryOptions} (h : c.prepare request o = .ok options)
    (stub : Stub σ τ) (draws : Draws) (cancelledFrom : Option Instant) (limit : Instant)
    (world : σ) :
    let course := (Course.begin options now (world, Chronicle.empty)).follow
      ((c.callOf request options now).work stub).chronicled draws cancelledFrom limit
    (c.call stub draws request o cancelledFrom limit now world).now = course.now ∧
    (c.call stub draws request o cancelledFrom limit now world).result =
      resultOf request.method course.ending ∧
    c.chronicle stub draws request o cancelledFrom limit now world = course.world.2 := by
  intro course
  have hforget : course.forget = (Course.begin options now world).follow
      ((c.callOf request options now).work stub) draws cancelledFrom limit :=
    Course.follow_chronicled (Course.begin options now (world, Chronicle.empty))
  simp only [call, chronicle, h]
  exact ⟨congrArg Course.now hforget.symm,
    congrArg (fun c => resultOf request.method c.ending) hforget.symm, rfl⟩

end Client

/-- A service that takes requests and never answers. -/
def hangingStub : Stub Unit Unit where
  send _ _ world := ((), world)
  look _ _ _ world := (none, world)
  timers _ := []

/-- A client that sets no bound to its calls. -/
def patientClient : Client := ⟨.standard "worker", RetryPolicy.draft⟩

/-- The deadline of a caller who waits for a quarter of a second and some
more. -/
def shortlyAfterQuarter : Instant := ⟨250400000⟩

/-- A service that refuses every request at once. -/
def refusingStub : Stub Unit Unit where
  send _ _ world := ((), world)
  look _ _ _ world := (some (.error (.new .unavailable "starting")), world)
  timers _ := []

/-- A client that pauses for a nanosecond, if at all. -/
def restlessClient : Client :=
  ⟨.standard "worker",
    { RetryPolicy.draft with
      initialInterval := ⟨1⟩
      configuredMaximum := some ⟨1⟩
      jitter := .one }⟩

/-- Three quarters. -/
def Binary64.threeQuarters : Binary64 := (ofNat 3).div (ofNat 4)

/-- Draws that leave a quarter of a delay to the greatest jitter. -/
def Draws.steep : Draws := fun _ => .threeQuarters

end ResilientCalls
