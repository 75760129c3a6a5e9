import ResilientCalls.Retry.Course

/-!
# Spawned runs

A spawned run goes on by itself and is reached through a handle. The run
watches a token of its own, which is cancelled through the handle, when
the handle is dropped, and with the caller's token; cancelling it leaves
the caller's token and every other run alone. A run whose runtime shuts
down is given up where it stands.
-/

namespace ResilientCalls

/-- A spawned run and its handle. -/
structure Handle (σ τ ε α : Type) where
  course : Course σ τ ε α
  /-- When the run's own token was cancelled. -/
  cancelledFrom : Option Instant
  /-- The handle has not been dropped or awaited. -/
  isHeld : Bool
  /-- The caller's token reaches the run. -/
  hasCaller : Bool
  spawnedAt : Instant

namespace Handle

variable {σ τ ε α : Type}

/-- A run spawned now, which has not started. -/
def spawn (o : RetryOptions) (now : Instant) (world : σ) : Handle σ τ ε α where
  course := .begin o.withToken now world
  cancelledFrom := none
  isHeld := true
  hasCaller := o.hasToken
  spawnedAt := now

/-- The run's own token is cancelled now, unless it was before. -/
def cancel (now : Instant) (h : Handle σ τ ε α) : Handle σ τ ε α :=
  { h with cancelledFrom := h.cancelledFrom.or (some now) }

/-- The caller's token is cancelled now. -/
def cancelCaller (now : Instant) (h : Handle σ τ ε α) : Handle σ τ ε α :=
  if h.hasCaller then h.cancel now else h

/-- The handle is dropped now, which cancels the run. -/
def drop (now : Instant) (h : Handle σ τ ε α) : Handle σ τ ε α :=
  if h.isHeld then { h.cancel now with isHeld := false } else h

/-- The run goes on until the clock reaches `limit`; the events are those
from now on. -/
def follow [Failure ε] (w : Work σ τ ε α) (draws : Draws) (limit : Instant)
    (h : Handle σ τ ε α) : Handle σ τ ε α :=
  { h with course := h.course.follow w draws h.cancelledFrom limit }

/-- The number of attempts issued so far. -/
def attempts (h : Handle σ τ ε α) : Nat := h.course.run.attempts

/-- The run has settled or broken down. -/
def isFinished (h : Handle σ τ ε α) : Bool := h.course.isOver

/-- How the run ends when its runtime shuts down now: as it has ended, or
cancelled without an error. -/
def shutDown (now : Instant) (h : Handle σ τ ε α) : Ending ε α :=
  match h.course.ending with
  | .pending => .settled (.error (.cancelled none h.attempts (now.since h.spawnedAt)))
  | ending => ending

end Handle

end ResilientCalls
