import ResilientCalls.Retry.Event
import ResilientCalls.Retry.Options

/-!
# A non-blocking run

A run is a state machine that is polled. It is idle until it is first
polled, then an attempt is in flight, then perhaps a timer is set for the
next attempt, and in the end it is settled. A poll looks at the
cancellation token first and then makes transitions until something has to
be waited for. The clock, the token, the jitter draws and the work are
arguments, so a run is a function of what happens around it.
-/

namespace ResilientCalls

/-- A jitter draw for the delay after each attempt, by the attempt's
number. -/
abbrev Draws := Nat → Binary64

/-- Draws that take nothing away from any delay. -/
def Draws.still : Draws := fun _ => .zero

/-- What an attempt in flight shows when it is looked at. -/
inductive Progress (ε α : Type) where
  /-- It has not finished. -/
  | waiting
  /-- It has finished with a value or a failure. -/
  | finished (result : Except ε α)
  /-- It broke down, with a message. -/
  | crashed (message : String)

/-- The work that a run repeats, in a world of type `σ`; `τ` is an attempt
in flight. -/
structure Work (σ τ ε α : Type) where
  /-- Starts an attempt, or breaks down on the way. -/
  start : Instant → σ → Except String τ × σ
  /-- Looks at an attempt in flight. -/
  look : Instant → τ → σ → Progress ε α × σ
  /-- The timers that may bring an attempt further. -/
  timers : τ → List Instant

/-- Where a run stands. -/
inductive Phase (τ : Type) where
  | idle
  /-- An attempt is in flight. -/
  | attempting (attempt : τ) (invocation : Invocation)
  /-- The next attempt starts when a timer has fired. -/
  | backingOff (timer : Instant) (invocation : Invocation)
  | settled

namespace Phase

variable {τ : Type}

/-- The name of a phase. -/
def name : Phase τ → String
  | .idle => "idle"
  | .attempting _ _ => "attempt"
  | .backingOff _ _ => "backoff"
  | .settled => "settled"

/-- The invocation of a run that has begun and not settled. -/
def invocation? : Phase τ → Option Invocation
  | .attempting _ i | .backingOff _ i => some i
  | .idle | .settled => none

/-- Nothing more happens to the run. -/
def isSettled : Phase τ → Bool
  | .settled => true
  | _ => false

end Phase

/-- A run: what it was given, where it stands, the last failure, and how
many attempts it has issued, counted in 32 bits. -/
structure Run (τ ε : Type) where
  options : RetryOptions
  phase : Phase τ
  lastError : Option ε
  attempts : Nat

/-- How a poll ends. -/
inductive Ending (ε α : Type) where
  /-- Something has to be waited for. -/
  | pending
  /-- The run settled. -/
  | settled (outcome : Except (RetryError ε) α)
  /-- The run broke down, with a message. -/
  | crashed (message : String)

instance Ending.decidableEq {ε α : Type} [DecidableEq ε] [DecidableEq α] :
    DecidableEq (Ending ε α)
  | .pending, .pending => isTrue rfl
  | .settled (.ok a), .settled (.ok b) => decidable_of_iff (a = b) (by simp)
  | .settled (.error e), .settled (.error f) => decidable_of_iff (e = f) (by simp)
  | .crashed m, .crashed n => decidable_of_iff (m = n) (by simp)
  | .pending, .settled _ | .pending, .crashed _ | .settled _, .pending | .settled _, .crashed _
  | .crashed _, .pending | .crashed _, .settled _ | .settled (.ok _), .settled (.error _)
  | .settled (.error _), .settled (.ok _) => isFalse nofun

/-- How a single transition ends: the poll goes on, or it ends. -/
inductive Move (ε α : Type) where
  | onward
  | ends (ending : Ending ε α)

/-- A run and its world after a transition or a poll, and what happened. -/
structure Turn (σ τ ε α ρ : Type) where
  run : Run τ ε
  world : σ
  events : List RetryEvent
  result : ρ

namespace Run

variable {σ τ ε α : Type}

/-- A run that has not begun. -/
def new (options : RetryOptions) : Run τ ε := ⟨options, .idle, none, 0⟩

/-- The text that shows a run in a log. -/
def debugText (r : Run τ ε) : String :=
  "RetryFuture \x7b state: \"" ++ r.phase.name ++ "\", attempts: " ++ toString r.attempts ++
    ", .. \x7d"

/-- The timers that may bring a run further. -/
def timers (w : Work σ τ ε α) (r : Run τ ε) : List Instant :=
  match r.phase with
  | .attempting attempt _ => w.timers attempt
  | .backingOff timer _ => [timer]
  | .idle | .settled => []

/-- Issues the next attempt. It is counted before it starts, so it counts
also when starting it breaks down. -/
def launch (w : Work σ τ ε α) (now : Instant) (i : Invocation) (r : Run τ ε) (world : σ) :
    Turn σ τ ε α (Move ε α) :=
  let issued := (r.attempts + 1) % (maxCount32 + 1)
  let counted := { r with attempts := issued }
  match w.start now world with
  | (.ok attempt, world) =>
    ⟨{ counted with phase := .attempting attempt i }, world, [.starting issued], .onward⟩
  | (.error message, world) =>
    ⟨{ counted with phase := .settled }, world, [.starting issued], .ends (.crashed message)⟩

/-- What follows a failed attempt: the timer of the next attempt, or the
end of the run. -/
def afterFailedAttempt [Failure ε] (draws : Draws) (now : Instant) (i : Invocation) (e : ε)
    (r : Run τ ε) (world : σ) : Turn σ τ ε α (Move ε α) :=
  match afterFailure r.options.policy i e now (draws i.attempt) with
  | .retry delay =>
    ⟨{ r with phase := .backingOff (now.timer delay) i, lastError := some e }, world,
      [.retrying i.attempt delay (Failure.text e)], .onward⟩
  | .stop reason =>
    ⟨{ r with phase := .settled, lastError := none }, world,
      [.stopped i.attempt (i.elapsed now) reason (Failure.text e)],
      .ends (.settled (.error (reason.toError e i.attempt (i.elapsed now))))⟩
  | .overflow reason =>
    ⟨{ r with phase := .settled }, world, [], .ends (.crashed reason.message)⟩

/-- **One transition of a run.** -/
def step [Failure ε] (w : Work σ τ ε α) (draws : Draws) (now : Instant) (r : Run τ ε)
    (world : σ) : Turn σ τ ε α (Move ε α) :=
  match r.phase with
  | .idle => r.launch w now (r.options.begin now) world
  | .attempting attempt i =>
    match w.look now attempt world with
    | (.waiting, world) => ⟨r, world, [], .ends .pending⟩
    | (.crashed message, world) =>
      ⟨{ r with phase := .settled }, world, [], .ends (.crashed message)⟩
    | (.finished (.ok value), world) =>
      ⟨{ r with phase := .settled }, world,
        if 1 < i.attempt then [.succeeded i.attempt] else [], .ends (.settled (.ok value))⟩
    | (.finished (.error e), world) => r.afterFailedAttempt draws now i e world
  | .backingOff timer i =>
    if timer.reached now then r.launch w now i.advance world
    else ⟨r, world, [], .ends .pending⟩
  | .settled => ⟨r, world, [], .ends (.crashed "RetryFuture polled after completion")⟩

/-- Transitions until the poll ends, at most `fuel` of them. -/
def steps [Failure ε] (w : Work σ τ ε α) (draws : Draws) (now : Instant) :
    Nat → Run τ ε → σ → Turn σ τ ε α (Ending ε α)
  | 0, r, world => ⟨r, world, [], .pending⟩
  | fuel + 1, r, world =>
    let t := r.step w draws now world
    match t.result with
    | .ends ending => ⟨t.run, t.world, t.events, ending⟩
    | .onward =>
      let rest := steps w draws now fuel t.run t.world
      { rest with events := t.events ++ rest.events }

/-- The most transitions of one poll: three for each attempt that could
ever be counted. -/
def stepLimit : Nat := 3 * (maxCount32 + 1)

/-- A run that is cancelled settles at once. The attempt in flight or the
timer is given up, and the last failure goes into the error. -/
def cancel (now : Instant) (r : Run τ ε) (world : σ) : Turn σ τ ε α (Ending ε α) :=
  let elapsed := (r.phase.invocation?.map (·.elapsed now)).getD .zero
  ⟨{ r with phase := .settled, lastError := none }, world, [.cancelled r.attempts elapsed],
    .settled (.error (.cancelled r.lastError r.attempts elapsed))⟩

/-- **One poll of a run.** `cancelled` is the reading of the token, which
only a run that was given one looks at. -/
def poll [Failure ε] (w : Work σ τ ε α) (draws : Draws) (now : Instant) (cancelled : Bool)
    (r : Run τ ε) (world : σ) : Turn σ τ ε α (Ending ε α) :=
  if r.options.hasToken && cancelled && !r.phase.isSettled then r.cancel now world
  else r.steps w draws now stepLimit world

end Run

end ResilientCalls
