import ResilientCalls.Client.Outcome

/-!
# Calls at the same time

Several calls through one client share a service. What happens is a list
of actions in any order: a call is issued, a call is polled, the token of
a call is cancelled, time passes. `finish` is one such order, the one of a
single thread that polls every call whenever something is due, the calls
in the order in which they were issued.
-/

namespace ResilientCalls

/-- A call among others. -/
inductive CallTask (τ : Type) where
  /-- It was not sent. -/
  | rejected (error : ClientError)
  /-- It is under way since an instant; its token may have been cancelled. -/
  | underWay (call : Call) (begunAt : Instant) (cancelled : Bool)
      (run : Run (CallAttempt τ) Status)
  /-- It has ended. -/
  | ended (call : Call) (run : Run (CallAttempt τ) Status) (result : CallResult)

namespace CallTask

variable {τ : Type}

/-- The result of a call as far as it is known. -/
def result : CallTask τ → CallResult
  | rejected e => .failed e
  | underWay _ _ _ _ => .unfinished
  | ended _ _ r => r

/-- The call is under way. -/
def isUnderWay : CallTask τ → Bool
  | underWay _ _ _ _ => true
  | _ => false

/-- The call with its token cancelled. -/
def cancel : CallTask τ → CallTask τ
  | underWay call begunAt _ run => underWay call begunAt true run
  | task => task

end CallTask

/-- Calls through one client to one service, in the order in which they
were issued. -/
structure Traffic (σ τ : Type) where
  now : Instant
  world : σ
  tasks : List (CallTask τ)

/-- Something that happens. -/
inductive TrafficAction where
  /-- A call is issued; its token may have been cancelled before. -/
  | issue (request : Request) (options : CallOptions) (cancelled : Bool)
  | poll (task : Nat)
  | cancel (task : Nat)
  | wait (d : Duration)

namespace Traffic

variable {σ τ : Type}

/-- Polls a call under way. -/
def pollTask (client : Client) (stub : Stub σ τ) (draws : Draws) (now : Instant) (call : Call)
    (begunAt : Instant) (cancelled : Bool) (run : Run (CallAttempt τ) Status) (world : σ) :
    CallTask τ × σ × List LogRecord :=
  let turn := run.poll (call.work stub) draws now cancelled world
  let events := turn.events.map RetryEvent.record
  match Client.resultOf call.request.method turn.result with
  | .unfinished => (.underWay call begunAt cancelled turn.run, turn.world, events)
  | result =>
    (.ended call turn.run result, turn.world,
      events ++ client.settling call.request.method (now.since begunAt) turn.run.attempts result)

/-- Polls the call at a place, if there is one under way. -/
def pollAt (client : Client) (stub : Stub σ τ) (draws : Draws) (i : Nat) (t : Traffic σ τ) :
    Traffic σ τ × List LogRecord :=
  match t.tasks[i]? with
  | some (.underWay call begunAt cancelled run) =>
    let (task, world, log) :=
      pollTask client stub draws t.now call begunAt cancelled run t.world
    ({ t with world := world, tasks := t.tasks.set i task }, log)
  | _ => (t, [])

/-- Issues a call: it is sent and polled for the first time, or
rejected. -/
def issue (client : Client) (stub : Stub σ τ) (draws : Draws) (request : Request)
    (o : CallOptions) (cancelled : Bool) (t : Traffic σ τ) : Traffic σ τ × List LogRecord :=
  match client.prepare request o with
  | .error e => ({ t with tasks := t.tasks ++ [.rejected e] }, [])
  | .ok options =>
    let (task, world, log) := pollTask client stub draws t.now
      (client.callOf request options t.now) t.now cancelled (.new options) t.world
    ({ t with world := world, tasks := t.tasks ++ [task] }, client.sending request.method :: log)

/-- **One action.** -/
def act (client : Client) (stub : Stub σ τ) (draws : Draws) (t : Traffic σ τ) :
    TrafficAction → Traffic σ τ × List LogRecord
  | .issue request o cancelled => t.issue client stub draws request o cancelled
  | .poll i => t.pollAt client stub draws i
  | .cancel i => ({ t with tasks := t.tasks.modify i CallTask.cancel }, [])
  | .wait d => ({ t with now := t.now.plus d }, [])

/-- The timers that may bring a call further. -/
def timers (stub : Stub σ τ) (t : Traffic σ τ) : List Instant :=
  t.tasks.flatMap fun task => match task with
    | .underWay call _ _ run => run.timers (call.work stub)
    | _ => []

/-- Polls the calls at the given places, one after the other. -/
def pollAll (client : Client) (stub : Stub σ τ) (draws : Draws) :
    List Nat → Traffic σ τ → Traffic σ τ × List LogRecord
  | [], t => (t, [])
  | i :: rest, t =>
    let (t, log) := t.pollAt client stub draws i
    let (t, later) := pollAll client stub draws rest t
    (t, log ++ later)

/-- Issues the same call several times at once. -/
def issueMany (client : Client) (stub : Stub σ τ) (draws : Draws) (request : Request)
    (o : CallOptions) (cancelled : Bool) : Nat → Traffic σ τ → Traffic σ τ × List LogRecord
  | 0, t => (t, [])
  | n + 1, t =>
    let (t, log) := t.issue client stub draws request o cancelled
    let (t, later) := issueMany client stub draws request o cancelled n t
    (t, log ++ later)

/-- Moves the clock to an instant; all tokens are cancelled if it is the
instant of cancellation. -/
def moveTo (cancelledFrom : Option Instant) (next : Instant) (t : Traffic σ τ) : Traffic σ τ :=
  { t with
    now := next
    tasks := if cancelledFrom.any (·.reached next) then t.tasks.map CallTask.cancel else t.tasks }

/-- Polls at the instants up to `limit` at which something happens, at
most `fuel` of them, until no call is under way. -/
def finishFor (client : Client) (stub : Stub σ τ) (draws : Draws)
    (cancelledFrom : Option Instant) (limit : Instant) :
    Nat → Traffic σ τ → Traffic σ τ × List LogRecord
  | 0, t => (t, [])
  | fuel + 1, t =>
    if t.tasks.any CallTask.isUnderWay then
      match earliestWithin t.now limit (t.timers stub ++ cancelledFrom.toList) with
      | none => (t, [])
      | some next =>
        let (t, log) := (t.moveTo cancelledFrom next).pollAll client stub draws
          (List.range t.tasks.length)
        let (t, later) := finishFor client stub draws cancelledFrom limit fuel t
        (t, log ++ later)
    else (t, [])

/-- **Brings all calls to their end,** or the clock to `limit`. The clock
moves with every round, so the nanoseconds up to the limit bound them. -/
def finish (client : Client) (stub : Stub σ τ) (draws : Draws)
    (cancelledFrom : Option Instant) (limit : Instant) (t : Traffic σ τ) :
    Traffic σ τ × List LogRecord :=
  t.finishFor client stub draws cancelledFrom limit (limit.nanos - t.now.nanos + 1)

end Traffic

end ResilientCalls
