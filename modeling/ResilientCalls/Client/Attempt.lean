import ResilientCalls.Protocol.Payload
import ResilientCalls.Retry.Course

/-!
# One attempt of a call

A stub is what stands between the client and a service: it takes requests
and shows their answers as the clock goes on. An attempt of a call is a
request sent through a stub under a timeout, the configured one or the
time that is left to the call, whichever is shorter. An answer that is
there when the timeout fires still counts.
-/

namespace ResilientCalls

/-- A connection to a service whose state is of type `σ`; `τ` is a request
on its way. -/
structure Stub (σ τ : Type) where
  /-- A request is sent and reaches the service. -/
  send : Request → Instant → σ → τ × σ
  /-- Looks for the answer to a request. -/
  look : Request → Instant → τ → σ → Option (Except Status Answer) × σ
  /-- The timers that may bring the answer. -/
  timers : τ → List Instant

/-- A call as all its attempts see it. -/
structure Call where
  request : Request
  /-- The configured timeout of an attempt. -/
  timeout : Duration
  /-- The deadline of the whole call. -/
  deadline : Option Instant

/-- An attempt in flight. -/
structure CallAttempt (τ : Type) where
  inner : τ
  timeout : Duration
  /-- When the timeout fires. -/
  cutAt : Instant

namespace Call

variable {σ τ : Type}

/-- The timeout of an attempt that starts now. -/
def attemptTimeout (c : Call) (now : Instant) : Duration :=
  match c.deadline with
  | none => c.timeout
  | some d => c.timeout.shorter (d.since now)

/-- No attempt gets more than the time that is left to the call. -/
theorem attemptTimeout_le_left {c : Call} {d : Instant} (h : c.deadline = some d)
    (now : Instant) : (c.attemptTimeout now).nanos ≤ (d.since now).nanos := by
  simp only [attemptTimeout, h]
  exact Nat.min_le_right _ _

/-- The status of an attempt that was cut short. -/
def timedOut (c : Call) (timeout : Duration) : Status :=
  .new .deadlineExceeded
    (c.request.method.name ++ " attempt timed out after " ++ timeout.text)

/-- Starts an attempt. -/
def launch (c : Call) (stub : Stub σ τ) (now : Instant) (world : σ) : CallAttempt τ × σ :=
  let (inner, world) := stub.send c.request now world
  let timeout := c.attemptTimeout now
  (⟨inner, timeout, now.timer timeout⟩, world)

/-- Looks at an attempt: for its answer first, and then at the timeout. -/
def look (c : Call) (stub : Stub σ τ) (now : Instant) (a : CallAttempt τ) (world : σ) :
    Progress Status Answer × σ :=
  match stub.look c.request now a.inner world with
  | (some result, world) => (.finished result, world)
  | (none, world) =>
    if a.cutAt.reached now then (.finished (.error (c.timedOut a.timeout)), world)
    else (.waiting, world)

/-- The timers of an attempt. -/
def timers (stub : Stub σ τ) (a : CallAttempt τ) : List Instant :=
  stub.timers a.inner ++ [a.cutAt]

/-- **The work of a call,** polled. -/
def work (c : Call) (stub : Stub σ τ) : Work σ (CallAttempt τ) Status Answer where
  start now world :=
    let (a, world) := c.launch stub now world
    (.ok a, world)
  look now a world := c.look stub now a world
  timers a := timers stub a

/-- Waits for the end of an attempt, looking at it whenever a timer fires,
at most `fuel` times. -/
def await (c : Call) (stub : Stub σ τ) :
    Nat → Instant → CallAttempt τ → σ → Progress Status Answer × Instant × σ
  | 0, now, _, world => (.waiting, now, world)
  | fuel + 1, now, a, world =>
    match c.look stub now a world with
    | (.waiting, world) =>
      match earliestWithin now a.cutAt (timers stub a) with
      | none => (.waiting, now, world)
      | some next => await c stub fuel next a world
    | (progress, world) => (progress, now, world)

/-- Runs an attempt to its end. The timeout fires at last, and the clock
moves with every look, so the nanoseconds up to it bound the looks. -/
def runAttempt (c : Call) (stub : Stub σ τ) (now : Instant) (world : σ) :
    Progress Status Answer × Instant × σ :=
  let (a, world) := c.launch stub now world
  c.await stub (a.cutAt.nanos - now.nanos + 1) now a world

end Call

end ResilientCalls
