import ResilientCalls.Client.Outcome
import ResilientCalls.Retry.Blocking

/-!
# Making a call

A call is made without blocking, on a clock that moves from timer to
timer, or blocking, with one attempt after the other run to its end. Both
send the same attempts under the same timeouts and log the same two
records around their run.
-/

namespace ResilientCalls

namespace Client

variable {σ τ : Type}

/-- **A non-blocking call** that begins now, followed until it ends or the
clock reaches `limit`. Its token is cancelled from an instant on, or
never. -/
def call (c : Client) (stub : Stub σ τ) (draws : Draws) (request : Request) (o : CallOptions)
    (cancelledFrom : Option Instant) (limit now : Instant) (world : σ) : CallEnd σ :=
  match c.prepare request o with
  | .error e => ⟨now, world, .failed e, []⟩
  | .ok options =>
    let course := (Course.begin options now world).follow
      ((c.callOf request options now).work stub) draws cancelledFrom limit
    let result := resultOf request.method course.ending
    ⟨course.now, course.world, result,
      c.sending request.method :: course.events.map RetryEvent.record ++
        c.settling request.method (course.now.since now) course.run.attempts result⟩

/-- The work of a blocking call. Its world also counts the attempts. -/
def blockingWork (call : Call) (stub : Stub σ τ) (cancelledFrom : Option Instant) :
    BlockingWork (σ × Nat) Status Answer where
  call now world :=
    let (progress, now, inner) := call.runAttempt stub now world.1
    (progress, now, (inner, world.2 + 1))
  cancelledFrom _ := cancelledFrom
  wakeups _ := []

/-- **A blocking call** that begins now. -/
def callBlocking (c : Client) (stub : Stub σ τ) (draws : Draws) (request : Request)
    (o : CallOptions) (cancelledFrom : Option Instant) (now : Instant) (world : σ) :
    CallEnd σ :=
  match c.prepare request o with
  | .error e => ⟨now, world, .failed e, []⟩
  | .ok options =>
    let ended := Blocking.run
      (blockingWork (c.callOf request options now) stub cancelledFrom) options draws now
      (world, 0)
    let result := resultOf request.method ended.ending
    ⟨ended.now, ended.world.1, result,
      c.sending request.method :: ended.events.map RetryEvent.record ++
        c.settling request.method (ended.now.since now) ended.world.2 result⟩

end Client

end ResilientCalls
