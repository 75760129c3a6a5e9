import ResilientCalls.Proofs.Client.Punctual
import ResilientCalls.Proofs.Service.Serving
/-!
# Every counter of a call agrees

The attempts of a call are counted in several places. The service counts
the requests that reach it, a non-blocking run counts the attempts it
issues, a blocking call counts them in a counter of its own, the record of
the settled call tells a number, and so does its error. Every transition
that issues an attempt sends one request, and every other leaves both
counts alone; what all transitions keep a course keeps, and what all
attempts keep a blocking run keeps. The number in an error is that of the
chronicle (`Chronicle.Supports.attempts_eq`), and so all counters are the
length of one list.
-/

namespace ResilientCalls

variable {σ τ ε α : Type}

/-! ## What all transitions keep -/

namespace Course

variable [Failure ε] {w : Work σ τ ε α} {draws : Draws} {cancelledFrom : Option Instant}
  {limit : Instant}

/-- **A course is its run, polled at one instant after the other.** -/
theorem followFor_eq_pollEach (fuel : Nat) {c : Course σ τ ε α} (h : c.ending = .pending) :
    ∃ polls, c.run.pollEach w draws polls c.world =
      let e := c.followFor w draws cancelledFrom limit fuel
      ⟨e.run, e.world, e.events, e.ending⟩ := by
  induction fuel generalizing c with
  | zero => exact ⟨[], by rw [Run.pollEach, ← h]; rfl⟩
  | succ n ih =>
    let reading := cancelledFrom.any (·.reached c.now)
    rcases hending : (c.pollNow w draws cancelledFrom).ending with _ | outcome | message
    · have hresult : (c.run.poll w draws c.now reading c.world).result = .pending := hending
      rcases hnext : earliestWithin c.now limit
        ((c.pollNow w draws cancelledFrom).run.timers w ++ cancelledFrom.toList) with _ | next
      · refine ⟨[(c.now, reading)], ?_⟩
        simp only [followFor_waits n hending hnext, Run.pollEach, hresult, List.append_nil]
        rw [hending]
        rfl
      · obtain ⟨polls, hpolls⟩ := ih (c := { c.pollNow w draws cancelledFrom with now := next })
          hending
        refine ⟨(c.now, reading) :: polls, ?_⟩
        simp only [followFor_goesOn n hending hnext, Run.pollEach, hresult] at hpolls ⊢
        exact congrArg (fun rest : Turn σ τ ε α (Ending ε α) => { rest with
          events := (c.run.poll w draws c.now reading c.world).events ++ rest.events }) hpolls
    all_goals
      refine ⟨[(c.now, reading)], ?_⟩
      rw [followFor_ended n (by simp [hending])]
      simp only [Run.pollEach, show (c.run.poll w draws c.now reading c.world).result = _
        from hending]
      rfl

/-- A course from its beginning is a run from its beginning. -/
theorem follow_eq_pollEach (w : Work σ τ ε α) (draws : Draws) (cancelledFrom : Option Instant)
    (limit : Instant) (o : RetryOptions) (now : Instant) (world : σ) :
    ∃ polls, (Run.new o).pollEach w draws polls world =
      let e := (Course.begin o now world).follow w draws cancelledFrom limit
      ⟨e.run, e.world, e.events, e.ending⟩ :=
  followFor_eq_pollEach (limit.nanos - now.nanos + 1) (c := Course.begin o now world) rfl

end Course

/-- **What transitions and cancelling keep, polls in a row keep,** of a run
that goes on and of one that ends. -/
theorem Run.pollEach_preserves [Failure ε] {w : Work σ τ ε α} {draws : Draws}
    {Q : Run τ ε → σ → Prop}
    (hstep : ∀ now r world, Q r world →
      Q (r.step w draws now world).run (r.step w draws now world).world)
    (hcancel : ∀ now r world, Q r world → Q (r.cancel now world : Turn σ τ ε α _).run world)
    (polls : List (Instant × Bool)) {r : Run τ ε} {world : σ} (h : Q r world) :
    Q (r.pollEach w draws polls world).run (r.pollEach w draws polls world).world := by
  have hsteps : ∀ (now : Instant) (fuel : Nat) (r : Run τ ε) (world : σ), Q r world →
      Q (r.steps w draws now fuel world).run (r.steps w draws now fuel world).world := by
    intro now fuel
    induction fuel with
    | zero => exact fun _ _ h => h
    | succ n ih =>
      intro r world h
      have hnext := hstep now r world h
      rcases hresult : (r.step w draws now world).result with _ | ending <;>
        simp only [Run.steps, hresult]
      · exact ih _ _ hnext
      · exact hnext
  have hpoll : ∀ now cancelled r world, Q r world →
      Q (r.poll w draws now cancelled world).run (r.poll w draws now cancelled world).world := by
    intro now cancelled r world h
    unfold Run.poll
    split
    · exact hcancel now r world h
    · exact hsteps now _ r world h
  induction polls generalizing r world with
  | nil => exact h
  | cons q polls ih =>
    have hnext := hpoll q.1 q.2 r world h
    rcases hresult : (r.poll w draws q.1 q.2 world).result with _ | outcome | message <;>
      simp only [Run.pollEach, hresult]
    · exact ih hnext
    · exact hnext
    · exact hnext

/-- **What every attempt keeps, a blocking run keeps.** -/
theorem Blocking.runWithin_preserves [Failure ε] {w : BlockingWork σ ε α} {Q : σ → Prop}
    (hcall : ∀ now world, Q world → Q (w.call now world).2.2) (limit : Nat) (o : RetryOptions)
    (draws : Draws) (now : Instant) {world : σ} (h : Q world) :
    Q (runWithin limit w o draws now world).world := by
  have hloop : ∀ (fuel : Nat) (i : Invocation) (now : Instant) (world : σ), Q world →
      Q (loop w o draws fuel i now world).world := by
    intro fuel
    induction fuel with
    | zero => exact fun _ _ _ h => h
    | succ n ih =>
      intro i now world h
      have hmade := hcall now world h
      rcases hend : w.call now world with ⟨_ | ⟨e | v⟩ | m, ended, world'⟩ <;>
        simp only [loop, hend] at hmade ⊢
      · exact hmade
      · cases afterFailure o.policy i e ended (draws i.attempt) with
        | stop reason => exact hmade
        | overflow reason => exact hmade
        | retry delay =>
          simp only []
          rcases sleep o.hasToken (w.cancelledFrom world') (w.wakeups world') delay ended with
            _ | ⟨_ | _, wake⟩
          · exact hmade
          · exact hmade
          · exact ih _ _ _ hmade
      · exact hmade
      · exact hmade
  unfold runWithin
  split
  · exact h
  · exact hloop _ _ _ _ h

/-! ## Requests that reach the service -/

/-- The service counts each request when it is sent, under its call, and at
no other time. -/
structure Stub.Counts (stub : Stub σ τ) (entered : σ → Method → Nat) : Prop where
  send : ∀ (r : Request) (now : Instant) (world : σ) (m : Method),
    entered (stub.send r now world).2 m = entered world m + if m = r.method then 1 else 0
  look : ∀ (r : Request) (now : Instant) (attempt : τ) (world : σ) (m : Method),
    entered (stub.look r now attempt world).2 m = entered world m

/-- **The service in memory counts its calls.** -/
theorem Store.stub_counts : Store.stub.Counts fun s => s.calls.get where
  send r now s m := by
    simp only [stub, enter]
    by_cases hm : m = r.method
    · rw [hm, PerMethod.get_set, if_pos rfl]
    · rw [PerMethod.get_set_of_ne _ hm, if_neg hm, Nat.add_zero]
  look r now answerAt s m := by
    simp only [stub]
    split
    · unfold settle
      split
      · rfl
      · exact congrArg (fun arranged => arranged.2.2.get m) (serve_arranged r s)
    · rfl

namespace Call

variable {stub : Stub σ τ} {entered : σ → Method → Nat}

/-- Looking at an attempt sends nothing. -/
theorem entered_look (hcounts : stub.Counts entered) (call : Call) (now : Instant)
    (a : CallAttempt τ) (world : σ) (m : Method) :
    entered (call.look stub now a world).2 m = entered world m := by
  have hlook := hcounts.look call.request now a.inner world m
  rcases hseen : stub.look call.request now a.inner world with ⟨_ | result, world'⟩ <;>
    simp only [look, hseen] at hlook ⊢
  · split <;> exact hlook
  · exact hlook

/-- An attempt is one request. -/
theorem entered_launch (hcounts : stub.Counts entered) (call : Call) (now : Instant)
    (world : σ) (m : Method) : entered (call.launch stub now world).2 m =
      entered world m + if m = call.request.method then 1 else 0 :=
  hcounts.send call.request now world m

theorem entered_await (hcounts : stub.Counts entered) (call : Call) (fuel : Nat) (now : Instant)
    (a : CallAttempt τ) (world : σ) (m : Method) :
    entered (call.await stub fuel now a world).2.2 m = entered world m := by
  induction fuel generalizing now world with
  | zero => rfl
  | succ n ih =>
    have hlook := entered_look hcounts call now a world m
    rcases hend : call.look stub now a world with ⟨_ | result | message, world'⟩ <;>
      simp only [await, hend] at hlook ⊢
    · split
      · exact hlook
      · exact (ih _ _).trans hlook
    · exact hlook
    · exact hlook

theorem entered_runAttempt (hcounts : stub.Counts entered) (call : Call) (now : Instant)
    (world : σ) (m : Method) : entered (call.runAttempt stub now world).2.2 m =
      entered world m + if m = call.request.method then 1 else 0 :=
  (entered_await hcounts call _ now _ _ m).trans (entered_launch hcounts call now world m)

end Call

/-! ## Counters that go together -/

/-- Since `before`, exactly `n` requests have reached the service, all of
them for one call. -/
def Reached (entered : σ → Method → Nat) (m : Method) (before : Method → Nat) (n : Nat)
    (world : σ) : Prop :=
  ∀ k, entered world k = before k + if k = m then n else 0

theorem Reached.succ {entered : σ → Method → Nat} {m : Method} {before : Method → Nat} {n : Nat}
    {world world' : σ} (h : Reached entered m before n world)
    (hone : ∀ k, entered world' k = entered world k + if k = m then 1 else 0) :
    Reached entered m before (n + 1) world' := by
  intro k
  rw [hone k, h k]
  split <;> rfl

theorem Reached.congr {entered : σ → Method → Nat} {m : Method} {before : Method → Nat} {n : Nat}
    {world world' : σ} (h : Reached entered m before n world)
    (hsame : ∀ k, entered world' k = entered world k) : Reached entered m before n world' :=
  fun k => (hsame k).trans (h k)

@[simp] theorem Chronicle.shown_starts (now : Instant) (c : Chronicle ε α)
    (progress : Progress ε α) : (c.shown now progress).starts = c.starts := by
  cases progress <;> rfl

/-- The counter of a run and that of the service agree with the
chronicle. -/
def Run.CountsRequests (entered : σ → Method → Nat) (m : Method) (before : Method → Nat)
    (r : Run (CallAttempt τ) Status) (world : σ × Chronicle Status Answer) : Prop :=
  r.attempts = world.2.starts.length % (maxCount32 + 1) ∧
    Reached entered m before world.2.starts.length world.1

/-- **One transition keeps the counters together.** -/
theorem Run.CountsRequests.step {stub : Stub σ τ} {entered : σ → Method → Nat} {call : Call}
    {before : Method → Nat} (hcounts : stub.Counts entered) (draws : Draws) (now : Instant)
    (r : Run (CallAttempt τ) Status) (world : σ × Chronicle Status Answer)
    (h : r.CountsRequests entered call.request.method before world) :
    (r.step (call.work stub).chronicled draws now world).run.CountsRequests entered call.request.method
      before (r.step (call.work stub).chronicled draws now world).world := by
  obtain ⟨inner, c⟩ := world
  have hsame := h
  obtain ⟨hissued, hreached⟩ := h
  have hlaunch : ∀ i : Invocation,
      (r.launch (call.work stub).chronicled now i (inner, c)).run.CountsRequests entered
        call.request.method before
        (r.launch (call.work stub).chronicled now i (inner, c)).world := by
    intro i
    simp only [launch, Work.chronicled_start_ok (call.work_start stub now inner)]
    refine ⟨?_, ?_⟩
    · simp only [Chronicle.started_starts, List.length_append, List.length_singleton, hissued,
        Nat.mod_add_mod]
    · rw [Chronicle.started_starts, List.length_append, List.length_singleton]
      exact hreached.succ (Call.entered_launch hcounts call now inner)
  unfold Run.step
  cases hp : r.phase with
  | idle => exact hlaunch _
  | backingOff timer i =>
    simp only []
    split
    · exact hlaunch _
    · exact hsame
  | attempting attempt i =>
    have hlook : ∀ progress inner', call.look stub now attempt inner = (progress, inner') →
        Reached entered call.request.method before (c.shown now progress).starts.length inner' := by
      intro progress inner' hseen
      rw [Chronicle.shown_starts]
      refine hreached.congr fun k => ?_
      rw [← Call.entered_look hcounts call now attempt inner k, hseen]
    rcases hseen : (call.work stub).look now attempt inner with ⟨_ | ⟨e | v⟩ | m, inner'⟩ <;>
      simp only [Work.chronicled_look hseen]
    · exact ⟨hissued, hlook _ _ hseen⟩
    · unfold afterFailedAttempt
      split <;> exact ⟨hissued, hlook _ _ hseen⟩
    · exact ⟨hissued, hlook _ _ hseen⟩
    · exact ⟨hissued, hlook _ _ hseen⟩
  | settled => exact hsame

/-- The counter of a blocking call and that of the service agree with the
chronicle. -/
theorem Client.blockingWork_counts {stub : Stub σ τ} {entered : σ → Method → Nat} {call : Call}
    {before : Method → Nat} (hcounts : stub.Counts entered) (cancelledFrom : Option Instant)
    (now : Instant) (world : (σ × Nat) × Chronicle Status Answer)
    (h : world.1.2 = world.2.starts.length ∧
      Reached entered call.request.method before world.2.starts.length world.1.1) :
    let after := ((blockingWork call stub cancelledFrom).chronicled.call now world).2.2
    after.1.2 = after.2.starts.length ∧
      Reached entered call.request.method before after.2.starts.length after.1.1 := by
  obtain ⟨⟨inner, made⟩, c⟩ := world
  obtain ⟨hmade, hreached⟩ := h
  simp only [BlockingWork.chronicled, blockingWork, Chronicle.shown_starts,
    Chronicle.started_starts, List.length_append, List.length_singleton]
  exact ⟨congrArg (· + 1) hmade, hreached.succ (Call.entered_runAttempt hcounts call now inner)⟩

/-! ## The number in the error -/

/-- **The number in an error is that of the attempts made.** -/
theorem Chronicle.Supports.attempts_eq [Failure ε] {o : RetryOptions} {c : Chronicle ε α}
    {TokenRead : Prop} {e : RetryError ε} (h : c.Supports o TokenRead (.error e)) :
    e.attempts = c.starts.length := by
  cases e with
  | nonRetryable e n elapsed =>
    obtain ⟨t, -, -, -, hn, -⟩ := h
    exact hn
  | attemptsExhausted e n elapsed =>
    obtain ⟨t, -, -, -, -, -, -, hn, -⟩ := h
    exact hn
  | deadlineExceeded last n elapsed =>
    obtain ⟨t, e, d, -, -, -, -, -, -, -, hn, -⟩ := h
    exact hn
  | cancelled last n elapsed => exact h.1
  | configuration reason => exact h.elim

/-! ## The log of a call -/

/-- The record is one of the call itself and not one of its run. -/
def LogRecord.isOfCall (r : LogRecord) : Bool :=
  r.message == "Sending service call" || r.message == "Service call succeeded" ||
    r.message == "Service call failed"

/-- A log in which a call is sent once, and is then settled once, after a
number of attempts. -/
def Logged (attempts : Nat) (log : List LogRecord) : Prop :=
  ∃ sent settled, log.filter LogRecord.isOfCall = [sent, settled] ∧
    sent.message = "Sending service call" ∧
    (settled.message = "Service call succeeded" ∨ settled.message = "Service call failed") ∧
    settled.fields.lookup "attempts" = some (toString attempts)

/-- What a run reports is not of the call. -/
theorem RetryEvent.isOfCall_record (e : RetryEvent) : e.record.isOfCall = false := by
  cases e <;> rfl

namespace Client

variable {stub : Stub σ τ} {draws : Draws} {request : Request} {o : CallOptions}
  {cancelledFrom : Option Instant}

/-- **A call that settles is logged** as sent and as settled. -/
theorem logged_of_isSettled (c : Client) (m : Method) (events : List RetryEvent)
    (elapsed : Duration) (attempts : Nat) {result : CallResult} (h : result.IsSettled) :
    Logged attempts (c.sending m :: events.map RetryEvent.record ++
      c.settling m elapsed attempts result) := by
  have hbetween : (events.map RetryEvent.record).filter LogRecord.isOfCall = [] := by
    rw [List.filter_eq_nil_iff]
    intro r hr
    obtain ⟨e, -, rfl⟩ := List.mem_map.1 hr
    simp [RetryEvent.isOfCall_record e]
  have hsent : (c.sending m).isOfCall = true := rfl
  have hsettled : ∃ settled, c.settling m elapsed attempts result = [settled] ∧
      (settled.message = "Service call succeeded" ∨ settled.message = "Service call failed") ∧
      settled.fields.lookup "attempts" = some (toString attempts) := by
    obtain ⟨answer, rfl⟩ | ⟨error, rfl⟩ := h
    · exact ⟨_, rfl, Or.inl rfl, rfl⟩
    · exact ⟨_, rfl, Or.inr rfl, rfl⟩
  obtain ⟨settled, hlast, hmessage, hattempts⟩ := hsettled
  have hofCall : settled.isOfCall = true := by
    obtain hmessage | hmessage := hmessage <;> simp [LogRecord.isOfCall, hmessage]
  refine ⟨c.sending m, settled, ?_, rfl, hmessage, hattempts⟩
  rw [hlast, List.cons_append, List.filter_cons_of_pos hsent, List.filter_append, hbetween,
    List.nil_append, List.filter_cons_of_pos hofCall, List.filter_nil]

end Client

/-! ## Calls -/

/-- The error of a call that was not sent: its request is invalid, or its
policy cannot be used. -/
def ClientError.IsRefusal : ClientError → Prop
  | .invalidRequest _ | .retryPolicy _ => True
  | .rpc _ _ | .config _ | .io _ => False

/-- A call at its end of which every counter tells `n` attempts: the
service, the log, and the error if there is one. -/
structure CallEnd.Tells (entered : σ → Method → Nat) (m : Method) (before : σ) (n : Nat)
    (e : CallEnd σ) : Prop where
  reached : Reached entered m (entered before) n e.world
  logged : Logged n e.log
  reported : ∀ error, e.result = .failed error → error.attempts = n ∧ ¬ error.IsRefusal

namespace Client

variable {c : Client} {stub : Stub σ τ} {entered : σ → Method → Nat} {request : Request}
  {o : CallOptions} {options : RetryOptions}

/-- Only a run that settles settles its call. -/
theorem settled_of_resultOf {m : Method} {ending : Ending Status Answer}
    (h : (resultOf m ending).IsSettled) : ∃ outcome, ending = .settled outcome := by
  cases ending with
  | settled outcome => exact ⟨outcome, rfl⟩
  | pending => obtain ⟨_, h⟩ | ⟨_, h⟩ := h <;> cases h
  | crashed message => obtain ⟨_, h⟩ | ⟨_, h⟩ := h <;> cases h

/-- The error of a call is that of its run, which tells its attempts. -/
theorem reported_of_supports {m : Method} {k : Chronicle Status Answer} {TokenRead : Prop}
    {outcome : Except (RetryError Status) Answer} (h : k.Supports options TokenRead outcome)
    (error : ClientError) (hfailed : resultOf m (.settled outcome) = .failed error) :
    error.attempts = k.starts.length ∧ ¬ error.IsRefusal := by
  cases outcome with
  | ok answer => cases hfailed
  | error e =>
    cases hfailed
    exact ⟨h.attempts_eq, fun hrefusal => hrefusal⟩

/-- **A settled call tells its attempts** if the service has seen them, the
client has counted them and the outcome of the run tells them. -/
theorem tells_of_settled {k : Chronicle Status Answer} {ending : Ending Status Answer}
    {events : List RetryEvent} {now : Instant} {elapsed : Duration} {before world : σ}
    (hsettled : (resultOf request.method ending).IsSettled)
    (hreached : Reached entered request.method (entered before) k.starts.length world)
    (hsupports : ∀ outcome, ending = .settled outcome → k.Supports options True outcome) :
    CallEnd.Tells entered request.method before k.starts.length
      ⟨now, world, resultOf request.method ending,
        c.sending request.method :: events.map RetryEvent.record ++
          c.settling request.method elapsed k.starts.length (resultOf request.method ending)⟩ := by
  refine ⟨hreached, c.logged_of_isSettled _ _ _ _ hsettled, ?_⟩
  obtain ⟨outcome, rfl⟩ := settled_of_resultOf hsettled
  exact reported_of_supports (hsupports outcome rfl)

/-- **A call that is not refused is a course,** and so is its chronicle. -/
theorem call_eq_course (hprepare : c.prepare request o = .ok options) (stub : Stub σ τ)
    (draws : Draws) (cancelledFrom : Option Instant) (limit now : Instant) (world : σ) :
    let course := (Course.begin options now (world, Chronicle.empty)).follow
      ((c.callOf request options now).work stub).chronicled draws cancelledFrom limit
    let result := resultOf request.method course.ending
    c.call stub draws request o cancelledFrom limit now world = ⟨course.now, course.world.1, result,
        c.sending request.method :: course.events.map RetryEvent.record ++
          c.settling request.method (course.now.since now) course.run.attempts result⟩ ∧
      c.chronicle stub draws request o cancelledFrom limit now world = course.world.2 := by
  intro course result
  have hforget : course.forget = (Course.begin options now world).follow
      ((c.callOf request options now).work stub) draws cancelledFrom limit :=
    Course.follow_chronicled (Course.begin options now (world, Chronicle.empty))
  constructor
  · simp only [call, hprepare]
    rw [← hforget]
    rfl
  · simp only [chronicle, hprepare, course]

/-- **Every counter of a non-blocking call tells its attempts.** -/
theorem call_tells (hprepare : c.prepare request o = .ok options) (hcounts : stub.Counts entered)
    (draws : Draws) (cancelledFrom : Option Instant) (limit now : Instant) (world : σ)
    (hsettled : (c.call stub draws request o cancelledFrom limit now world).result.IsSettled)
    (hfew : (c.chronicle stub draws request o cancelledFrom limit now world).starts.length ≤
      maxCount32) :
    (c.call stub draws request o cancelledFrom limit now world).Tells entered request.method world
      (c.chronicle stub draws request o cancelledFrom limit now world).starts.length := by
  obtain ⟨hcall, hchronicle⟩ :=
    call_eq_course hprepare stub draws cancelledFrom limit now world
  rw [hchronicle] at hfew ⊢
  rw [hcall] at hsettled ⊢
  let w := ((c.callOf request options now).work stub).chronicled
  obtain ⟨polls, hpolls⟩ :=
    Course.follow_eq_pollEach w draws cancelledFrom limit options now (world, Chronicle.empty)
  have hcounters :
      let t := (Run.new options).pollEach w draws polls (world, Chronicle.empty)
      t.run.CountsRequests entered request.method (entered world) t.world :=
    Run.pollEach_preserves (Q := Run.CountsRequests entered request.method (entered world))
      (fun now r world h => Run.CountsRequests.step hcounts draws now r world h)
      (fun _ _ _ h => h) polls ⟨rfl, fun _ => by simp [Chronicle.empty]⟩
  have hcloses := Run.pollEach_closes options draws polls ((c.callOf request options now).work stub)
    world
  rw [hpolls] at hcounters hcloses
  generalize (Course.begin options now (world, Chronicle.empty)).follow w draws cancelledFrom
    limit = course at hsettled hfew hcounters hcloses ⊢
  have hissued : course.run.attempts = course.world.2.starts.length :=
    hcounters.1.trans (Nat.mod_eq_of_lt (Nat.lt_succ_of_le hfew))
  have hsupports : ∀ outcome, course.ending = .settled outcome →
      course.world.2.Supports options True outcome := by
    intro outcome hending
    have haccepted := (options_of_prepare hprepare).2
    simp only [Turn.Leaves, hending] at hcloses
    obtain hattempt | ⟨_, -, htoken⟩ := hcloses
    · exact Chronicle.supports_of_closedByAttempt haccepted hfew hattempt
    · exact Chronicle.supports_of_closedByToken haccepted trivial hfew htoken
  rw [hissued]
  exact tells_of_settled hsettled hcounters.2 hsupports

/-- The chronicle of a blocking call; a call that is refused makes no
attempt. -/
def blockingChronicle (c : Client) (stub : Stub σ τ) (draws : Draws) (request : Request)
    (o : CallOptions) (cancelledFrom : Option Instant) (now : Instant) (world : σ) :
    Chronicle Status Answer :=
  match c.prepare request o with
  | .error _ => .empty
  | .ok options =>
    Blocking.chronicle (maxCount32 + 1)
      (blockingWork (c.callOf request options now) stub cancelledFrom) options draws now (world, 0)

/-- **A blocking call that is not refused is a blocking run,** and so is
its chronicle. -/
theorem callBlocking_eq_run (hprepare : c.prepare request o = .ok options) (stub : Stub σ τ)
    (draws : Draws) (cancelledFrom : Option Instant) (now : Instant) (world : σ) :
    let ended := Blocking.runWithin (maxCount32 + 1)
      (blockingWork (c.callOf request options now) stub cancelledFrom).chronicled options draws now
      ((world, 0), Chronicle.empty)
    let result := resultOf request.method ended.ending
    c.callBlocking stub draws request o cancelledFrom now world =
        ⟨ended.now, ended.world.1.1, result,
          c.sending request.method :: ended.events.map RetryEvent.record ++
            c.settling request.method (ended.now.since now) ended.world.1.2 result⟩ ∧
      c.blockingChronicle stub draws request o cancelledFrom now world = ended.world.2 := by
  intro ended result
  have hforget : Blocking.run (blockingWork (c.callOf request options now) stub cancelledFrom)
      options draws now (world, 0) = ended.forget :=
    Blocking.runWithin_eq_forget (maxCount32 + 1) _ options draws now (world, 0)
  constructor
  · simp only [callBlocking, hprepare]
    rw [hforget]
    rfl
  · simp only [blockingChronicle, hprepare, Blocking.chronicle, ended]

/-- **Every counter of a blocking call tells its attempts.** -/
theorem callBlocking_tells (hprepare : c.prepare request o = .ok options)
    (hcounts : stub.Counts entered) (draws : Draws) (cancelledFrom : Option Instant)
    (now : Instant) (world : σ)
    (hsettled : (c.callBlocking stub draws request o cancelledFrom now world).result.IsSettled)
    (hfew : (c.blockingChronicle stub draws request o cancelledFrom now world).starts.length ≤
      maxCount32) :
    (c.callBlocking stub draws request o cancelledFrom now world).Tells entered request.method
      world (c.blockingChronicle stub draws request o cancelledFrom now world).starts.length := by
  obtain ⟨hcall, hchronicle⟩ := callBlocking_eq_run hprepare stub draws cancelledFrom now world
  rw [hchronicle] at hfew ⊢
  rw [hcall] at hsettled ⊢
  have hcounters :
      let e := Blocking.runWithin (maxCount32 + 1)
        (blockingWork (c.callOf request options now) stub cancelledFrom).chronicled options draws
        now ((world, 0), Chronicle.empty)
      e.world.1.2 = e.world.2.starts.length ∧
        Reached entered request.method (entered world) e.world.2.starts.length e.world.1.1 :=
    Blocking.runWithin_preserves
      (Q := fun world' => world'.1.2 = world'.2.starts.length ∧
        Reached entered request.method (entered world) world'.2.starts.length world'.1.1)
      (fun now world' h => blockingWork_counts hcounts cancelledFrom now world' h)
      (maxCount32 + 1) options draws now ⟨rfl, fun _ => by simp [Chronicle.empty]⟩
  have hcloses := Blocking.runWithin_closes (maxCount32 + 1)
    (blockingWork (c.callOf request options now) stub cancelledFrom) options draws now (world, 0)
  generalize Blocking.runWithin (maxCount32 + 1)
    (blockingWork (c.callOf request options now) stub cancelledFrom).chronicled options draws now
    ((world, 0), Chronicle.empty) = ended at hsettled hfew hcounters hcloses ⊢
  have hsupports : ∀ outcome, ended.ending = .settled outcome →
      ended.world.2.Supports options True outcome := by
    intro outcome hending
    have haccepted := (options_of_prepare hprepare).2
    simp only [Blocking.Closes, hending] at hcloses
    obtain hpending | hattempt | ⟨-, htoken⟩ | hcrash := hcloses
    · cases hpending
    · exact Chronicle.supports_of_closedByAttempt haccepted hfew hattempt
    · exact Chronicle.supports_of_closedByToken haccepted trivial hfew htoken
    · cases hcrash
  rw [hcounters.1]
  exact tells_of_settled hsettled hcounters.2 hsupports

/-- Only a refusal keeps a call from being sent. -/
theorem isRefusal_of_prepare {refusal : ClientError}
    (h : c.prepare request o = .error refusal) : refusal.IsRefusal := by
  unfold prepare at h
  cases hcheck : checkRequest request with
  | error e =>
    simp only [hcheck, Except.error.injEq] at h
    rw [← h]
    trivial
  | ok u =>
    simp only [hcheck] at h
    cases hnew : RetryOptions.new c.policy o.deadline with
    | error e =>
      simp only [hnew, Except.error.injEq] at h
      rw [← h]
      trivial
    | ok plain => simp [hnew] at h

end Client

/-- **Every counter of a call tells the same number.** A call that is sent
and settles in a countable number of attempts, through either client,
whatever the service answers and whenever attempts are timed out or the
call is cancelled: the service has counted as many requests of its method,
and no others, as attempts were started; the log holds one record that the
call is sent and after it one that it is settled, which tells this number;
and an error tells it too. A call that is refused reaches no service and
logs nothing. -/
theorem attempts_counted (c : Client) {stub : Stub σ τ} {entered : σ → Method → Nat}
    (hcounts : stub.Counts entered) (draws : Draws) (request : Request) (o : CallOptions)
    (cancelledFrom : Option Instant) (limit now : Instant) (world : σ) :
    let polled := c.call stub draws request o cancelledFrom limit now world
    let pollStarts := (c.chronicle stub draws request o cancelledFrom limit now world).starts
    let blocked := c.callBlocking stub draws request o cancelledFrom now world
    let blockedStarts := (c.blockingChronicle stub draws request o cancelledFrom now world).starts
    (∀ options, c.prepare request o = .ok options →
      (polled.result.IsSettled → pollStarts.length ≤ maxCount32 →
        polled.Tells entered request.method world pollStarts.length) ∧
      (blocked.result.IsSettled → blockedStarts.length ≤ maxCount32 →
        blocked.Tells entered request.method world blockedStarts.length)) ∧
    (∀ refusal, c.prepare request o = .error refusal → refusal.IsRefusal ∧
      polled = ⟨now, world, .failed refusal, []⟩ ∧ blocked = ⟨now, world, .failed refusal, []⟩ ∧
      pollStarts = [] ∧ blockedStarts = []) := by
  intro polled pollStarts blocked blockedStarts
  constructor
  · intro options hprepare
    exact ⟨Client.call_tells hprepare hcounts draws cancelledFrom limit now world,
      Client.callBlocking_tells hprepare hcounts draws cancelledFrom now world⟩
  · intro refusal hprepare
    refine ⟨Client.isRefusal_of_prepare hprepare, ?_, ?_, ?_, ?_⟩
    · simp only [polled, Client.call, hprepare]
    · simp only [blocked, Client.callBlocking, hprepare]
    · simp only [pollStarts, Client.chronicle, hprepare, Chronicle.empty]
    · simp only [blockedStarts, Client.blockingChronicle, hprepare, Chronicle.empty]

/-- A client that makes up to three attempts. -/
def insistentClient : Client :=
  ⟨.standard "worker", { RetryPolicy.draft with maximumAttempts := 3, jitter := .zero }⟩

/-- A service that is unavailable to the first description of a
namespace. -/
def stumblingStore : Store := Store.new.failTimes .describeNamespace .unavailable 1

/-- A description that fails once takes two attempts, by every counter. -/
theorem attempts_counted_stumbling :
    let request := Request.describe ⟨"default"⟩
    let polled := insistentClient.call Store.stub .still request .none none ⟨1000000000⟩ ⟨0⟩
      stumblingStore
    let blocked := insistentClient.callBlocking Store.stub .still request .none none ⟨0⟩
      stumblingStore
    polled.Tells (fun s => s.calls.get) .describeNamespace stumblingStore 2 ∧
      blocked.Tells (fun s => s.calls.get) .describeNamespace stumblingStore 2 := by
  have hprepare : insistentClient.prepare (.describe ⟨"default"⟩) .none =
      .ok ⟨insistentClient.policy, none, false⟩ := by decide +kernel
  have htells := attempts_counted insistentClient Store.stub_counts .still (.describe ⟨"default"⟩)
    .none none ⟨1000000000⟩ ⟨0⟩ stumblingStore
  obtain ⟨hpolled, hblocked⟩ := htells.1 _ hprepare
  have hpollStarts : (insistentClient.chronicle Store.stub .still (.describe ⟨"default"⟩) .none none
    ⟨1000000000⟩ ⟨0⟩ stumblingStore).starts.length = 2 := by decide +kernel
  have hblockedStarts : (insistentClient.blockingChronicle Store.stub .still
    (.describe ⟨"default"⟩) .none none ⟨0⟩ stumblingStore).starts.length = 2 := by decide +kernel
  rw [hpollStarts] at hpolled
  rw [hblockedStarts] at hblocked
  exact ⟨hpolled (by decide +kernel) (by decide), hblocked (by decide +kernel) (by decide)⟩

end ResilientCalls
