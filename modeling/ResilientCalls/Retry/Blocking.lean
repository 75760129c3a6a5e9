import ResilientCalls.Retry.Run

/-!
# A blocking run

A blocking run makes its attempts one after the other on one thread and
sleeps through each delay. A token is looked at before the first attempt
and throughout every sleep, never in between, so a cancellation during an
attempt is seen when the next sleep begins. A sleeping thread may be woken
for no reason; it looks around and goes on sleeping. A thread that the
token wakes needs to know when its sleep ends, and breaks down before it
sleeps if the clock cannot count so far.
-/

namespace ResilientCalls

/-- The work of a blocking run, in a world of type `σ`. -/
structure BlockingWork (σ ε α : Type) where
  /-- Runs an attempt to its end, which the clock tells. -/
  call : Instant → σ → Progress ε α × Instant × σ
  /-- When the token is cancelled, as far as it is known by now. -/
  cancelledFrom : σ → Option Instant
  /-- When a sleeping thread is woken for no reason. -/
  wakeups : σ → List Instant

/-- A blocking run at its end. -/
structure BlockingEnd (σ ε α : Type) where
  now : Instant
  world : σ
  events : List RetryEvent
  ending : Ending ε α

namespace Blocking

variable {σ ε α : Type}

/-- A token cancelled from an instant on, read at `now`. -/
def tokenReads (cancelledFrom : Option Instant) (now : Instant) : Bool :=
  cancelledFrom.any (·.reached now)

/-- Sleeps until `wakeAt` on a thread that the token wakes. It gives
whether the sleep came to its end, and when. -/
def sleepUntil (wakeAt : Instant) (cancelledFrom : Option Instant) :
    List Instant → Instant → Bool × Instant
  | wakeups, now =>
    if tokenReads cancelledFrom now then (false, now)
    else if wakeAt.reached now then (true, now)
    else
      let unparked := match cancelledFrom with
        | some c => wakeAt.earlier c
        | none => wakeAt
      match wakeups with
      | [] => (!tokenReads cancelledFrom unparked, unparked)
      | w :: rest =>
        let woken : Instant := ⟨max now.nanos (min w.nanos unparked.nanos)⟩
        sleepUntil wakeAt cancelledFrom rest woken

/-- Sleeps for a delay, if the end of the sleep can be told. Without a
token nothing cuts the sleep short, and nobody asks for its end. -/
def sleep (hasToken : Bool) (cancelledFrom : Option Instant) (wakeups : List Instant)
    (delay : Duration) (now : Instant) : Option (Bool × Instant) :=
  if hasToken then
    (now.plus? delay).map fun wakeAt => sleepUntil wakeAt cancelledFrom wakeups now
  else some (true, now.plus delay)

/-- The attempts of a run from the current one on, at most `fuel` of
them. -/
def loop [Failure ε] (w : BlockingWork σ ε α) (o : RetryOptions) (draws : Draws) :
    Nat → Invocation → Instant → σ → BlockingEnd σ ε α
  | 0, _, now, world => ⟨now, world, [], .pending⟩
  | fuel + 1, i, now, world =>
    match w.call now world with
    | (.waiting, now, world) => ⟨now, world, [], .pending⟩
    | (.crashed message, now, world) => ⟨now, world, [], .crashed message⟩
    | (.finished (.ok value), now, world) =>
      ⟨now, world, if 1 < i.attempt then [.succeeded i.attempt] else [], .settled (.ok value)⟩
    | (.finished (.error e), now, world) =>
      match afterFailure o.policy i e now (draws i.attempt) with
      | .stop reason =>
        ⟨now, world, [.stopped i.attempt (i.elapsed now) reason (Failure.text e)],
          .settled (.error (reason.toError e i.attempt (i.elapsed now)))⟩
      | .overflow reason => ⟨now, world, [], .crashed reason.message⟩
      | .retry delay =>
        let event := RetryEvent.retrying i.attempt delay (Failure.text e)
        match sleep o.hasToken (w.cancelledFrom world) (w.wakeups world) delay now with
        | none => ⟨now, world, [event], .crashed Instant.overflowText⟩
        | some (true, now) =>
          let rest := loop w o draws fuel i.advance now world
          { rest with events := event :: rest.events }
        | some (false, now) =>
          ⟨now, world, [event, .cancelledInBackoff i.attempt],
            .settled (.error (.cancelled (some e) i.attempt (i.elapsed now)))⟩

/-- A blocking run that makes at most `limit` attempts. -/
def runWithin [Failure ε] (limit : Nat) (w : BlockingWork σ ε α) (o : RetryOptions)
    (draws : Draws) (now : Instant) (world : σ) : BlockingEnd σ ε α :=
  if o.hasToken && tokenReads (w.cancelledFrom world) now then
    ⟨now, world, [], .settled (.error (.cancelled none 0 .zero))⟩
  else loop w o draws limit (o.begin now) now world

/-- **A blocking run** from its start to its end. -/
def run [Failure ε] (w : BlockingWork σ ε α) (o : RetryOptions) (draws : Draws)
    (now : Instant) (world : σ) : BlockingEnd σ ε α :=
  runWithin (maxCount32 + 1) w o draws now world

end Blocking

end ResilientCalls
