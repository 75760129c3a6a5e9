import ResilientCalls.Rehearsal.Script

/-!
# Polling by hand

A rehearsal of a run that is polled by hand on a clock moved by hand. A
poll that has to wait leaves a waker with the timer it waits for and with
the token, and whatever happens first invokes it. The waker with the token
stays when a poll breaks down, since the run is not settled in order then.
-/

namespace ResilientCalls

namespace Rehearsal

/-- What is done to a run. -/
inductive PollingStep where
  | poll
  | advance (d : Duration)
  | cancel
deriving DecidableEq

/-- A run polled by hand. -/
structure Polling (α : Type) where
  now : Instant
  run : Run (Flight α) ScriptedFailure
  stage : Stage
  /-- The token has been cancelled. -/
  cancelled : Bool
  /-- The timer that holds a waker. -/
  timerWaker : Option Instant
  /-- The token holds a waker. -/
  tokenWaker : Bool
  /-- A waker was invoked since the last poll began. -/
  woken : Bool

/-- What a step shows. -/
structure PollingView (α : Type) where
  /-- How the poll ended, if the step was one. -/
  polled : Option (Ending ScriptedFailure α)
  debugText : String
  attempts : Nat
  calls : Nat
  woken : Bool
  now : Instant

namespace Polling

variable {α : Type}

/-- A run that has not been polled. -/
def begin (o : RetryOptions) : Polling α :=
  ⟨.start, .new o, .empty, false, none, false, false⟩

/-- The wakers that a poll leaves behind: the timer's, and whether the
token holds one. -/
def wakersAfter (s : Script α) (wasSettled : Bool) (p : Polling α)
    (t : Turn Stage (Flight α) ScriptedFailure α (Ending ScriptedFailure α)) :
    Option Instant × Bool :=
  match t.result with
  | .pending => ((t.run.timers s.work).head?, t.run.options.hasToken)
  | .settled _ => (none, false)
  | .crashed _ => (none, if wasSettled then p.tokenWaker else t.run.options.hasToken)

/-- One step; the events are those of its poll. -/
def step (s : Script α) (draws : Draws) (p : Polling α) :
    PollingStep → Polling α × Option (Ending ScriptedFailure α) × List RetryEvent
  | .poll =>
    let t := p.run.poll s.work draws p.now p.cancelled p.stage
    let wakers := wakersAfter s p.run.phase.isSettled p t
    ({ p with
        run := t.run
        stage := t.world
        timerWaker := wakers.1
        tokenWaker := wakers.2
        woken := false }, some t.result, t.events)
  | .advance d =>
    let now := p.now.plus d
    if p.timerWaker.any (·.reached now) then
      ({ p with now := now, timerWaker := none, woken := true }, none, [])
    else ({ p with now := now }, none, [])
  | .cancel =>
    ({ p with
        cancelled := true
        tokenWaker := false
        woken := p.woken || (p.tokenWaker && !p.cancelled) }, none, [])

/-- What can be seen after a step. -/
def view (polled : Option (Ending ScriptedFailure α)) (p : Polling α) : PollingView α :=
  ⟨polled, p.run.debugText, p.run.attempts, p.stage.calls, p.woken, p.now⟩

/-- The views of all steps, and the events. -/
def steps (s : Script α) (draws : Draws) :
    Polling α → List PollingStep → List (PollingView α) × List RetryEvent
  | _, [] => ([], [])
  | p, a :: rest =>
    let (next, polled, events) := p.step s draws a
    let (views, later) := steps s draws next rest
    (next.view polled :: views, events ++ later)

end Polling

end Rehearsal

end ResilientCalls
