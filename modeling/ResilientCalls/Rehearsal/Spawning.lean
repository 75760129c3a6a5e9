import ResilientCalls.Retry.Handle
import ResilientCalls.Rehearsal.Script

/-!
# Spawned rehearsals

A rehearsal of a spawned run, seen through its handle while the caller
sleeps, cancels, drops the handle or awaits it. After most steps the run
goes on until it has to wait.
-/

namespace ResilientCalls

namespace Rehearsal

/-- What the caller does. -/
inductive SpawnStep where
  | observe
  | sleep (d : Duration)
  /-- Cancels through the handle; `atOnce` looks before the run goes on. -/
  | cancel (atOnce : Bool)
  /-- Cancels the caller's token. -/
  | cancelToken
  | drop
  | await
deriving DecidableEq

/-- A spawned run and its caller. -/
structure Spawning (α : Type) where
  now : Instant
  handle : Handle Stage (Flight α) ScriptedFailure α
  tokenCancelled : Bool

/-- What a step shows. -/
structure SpawnView (α : Type) where
  /-- How the run ended, if the step awaited it. -/
  awaited : Option (Ending ScriptedFailure α)
  /-- Attempts and whether the run is over, while the handle is held. -/
  seen : Option (Nat × Bool)
  calls : Nat
  tokenCancelled : Bool
  now : Instant

/-- How long a run is awaited. -/
def patience : Duration := .ofSeconds (365 * 86400)

namespace Spawning

variable {α : Type}

/-- A run spawned at the start of the clock. -/
def begin (o : RetryOptions) : Spawning α := ⟨.start, .spawn o .start .empty, false⟩

/-- The run goes on until `limit`, and the caller is there then. -/
def goOn (s : Script α) (draws : Draws) (limit : Instant) (p : Spawning α) :
    Spawning α × List RetryEvent :=
  let handle := p.handle.follow s.work draws limit
  ({ p with now := limit, handle := handle }, handle.course.events)

/-- The caller awaits the run, which ends the handle. The caller looks
before the run goes on, so a run that has not ended when the patience has
is dropped, also if it could end at that very instant. -/
def await (s : Script α) (draws : Draws) (p : Spawning α) :
    Spawning α × Ending ScriptedFailure α × List RetryEvent :=
  let limit := p.now.plus patience
  let handle := p.handle.follow s.work draws ⟨limit.nanos - 1⟩
  let ended : Instant := ⟨max p.now.nanos handle.course.now.nanos⟩
  match handle.course.ending with
  | .pending => ({ p with now := limit, handle := handle.drop limit }, .pending,
      handle.course.events)
  | ending =>
    ({ p with now := ended, handle := { handle with isHeld := false } }, ending,
      handle.course.events)

/-- One step, how the run ended if it was awaited, and the events. -/
def step (s : Script α) (draws : Draws) (p : Spawning α) :
    SpawnStep → Spawning α × Option (Ending ScriptedFailure α) × List RetryEvent
  | .observe => (p, none, [])
  | .sleep d =>
    let (p, events) := p.goOn s draws (p.now.timer d)
    (p, none, events)
  | .cancel atOnce =>
    let p := if p.handle.isHeld then { p with handle := p.handle.cancel p.now } else p
    if atOnce then (p, none, [])
    else
      let (p, events) := p.goOn s draws p.now
      (p, none, events)
  | .cancelToken =>
    let p := { p with tokenCancelled := true, handle := p.handle.cancelCaller p.now }
    let (p, events) := p.goOn s draws p.now
    (p, none, events)
  | .drop =>
    let (p, events) := { p with handle := p.handle.drop p.now }.goOn s draws p.now
    (p, none, events)
  | .await =>
    if p.handle.isHeld then
      let (p, ending, events) := p.await s draws
      (p, some ending, events)
    else (p, none, [])

/-- What can be seen after a step. -/
def view (awaited : Option (Ending ScriptedFailure α)) (p : Spawning α) : SpawnView α where
  awaited := awaited
  seen := if p.handle.isHeld then some (p.handle.attempts, p.handle.isFinished) else none
  calls := p.handle.course.world.calls
  tokenCancelled := p.tokenCancelled
  now := p.now

/-- The views of all steps, the events, and the caller at the end. -/
def steps (s : Script α) (draws : Draws) :
    Spawning α → List SpawnStep → List (SpawnView α) × List RetryEvent × Spawning α
  | p, [] => ([], [], p)
  | p, a :: rest =>
    let (next, awaited, events) := p.step s draws a
    let (views, later, last) := steps s draws next rest
    (next.view awaited :: views, events ++ later, last)

/-- A run whose runtime shuts down after it ran for some time, or before
it ran at all: how it ended, and the attempts of the script. -/
def shutDown (s : Script α) (draws : Draws) (o : RetryOptions) (running : Option Duration) :
    Ending ScriptedFailure α × Nat × List RetryEvent :=
  let p : Spawning α := begin o
  match running with
  | none => (p.handle.shutDown p.now, p.handle.course.world.calls, [])
  | some d =>
    let (p, events) := p.goOn s draws (p.now.timer d)
    (p.handle.shutDown p.now, p.handle.course.world.calls, events)

end Spawning

end Rehearsal

end ResilientCalls
