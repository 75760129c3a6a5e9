import ResilientCalls.Retry.Blocking
import ResilientCalls.Retry.Course

/-!
# Scripted work

A rehearsal of a retry run: the work is a script that tells how each
attempt goes. Attempt `n` follows entry `n`, and the last entry repeats.
The world of a rehearsal counts the attempts and notes when the first ones
started.
-/

namespace ResilientCalls

namespace Rehearsal

/-- A failure with every property given. -/
structure ScriptedFailure where
  code : String
  detailType : Option String
  message : String
  cancelled : Bool
  deadline : Bool
deriving DecidableEq, Inhabited

instance : Failure ScriptedFailure where
  code e := e.code
  detailType e := e.detailType
  isCancelled e := e.cancelled
  isDeadlineExceeded e := e.deadline
  text e := e.message

/-- How an attempt ends. -/
inductive Finish (α : Type) where
  | returns (value : α)
  | fails (e : ScriptedFailure)
  /-- It never ends. -/
  | hangs
  /-- It breaks down. -/
  | breaks (message : String)
  /-- It breaks down on the way to its start. -/
  | breaksAtStart (message : String)

/-- How an attempt goes: how long it takes, and how it ends. -/
structure Entry (α : Type) where
  latency : Duration
  finish : Finish α

/-- How all attempts go. -/
structure Script (α : Type) where
  entries : List (Entry α)

/-- The entry of an attempt, counted from one. -/
def Script.entry {α : Type} (s : Script α) (attempt : Nat) : Entry α :=
  (s.entries[attempt - 1]?).getD (s.entries.getLast?.getD ⟨.zero, .hangs⟩)

/-- What a rehearsal has seen: the number of attempts, and when the first
ones started. -/
structure Stage where
  calls : Nat
  starts : List Instant
deriving DecidableEq, Inhabited

namespace Stage

/-- How many starts are noted. -/
def noted : Nat := 64

/-- Nothing seen yet. -/
def empty : Stage := ⟨0, []⟩

/-- An attempt starts. -/
def enter (s : Stage) (now : Instant) : Stage :=
  ⟨s.calls + 1, if s.starts.length < noted then s.starts ++ [now] else s.starts⟩

end Stage

/-- An attempt in flight: when it can end, and how. -/
structure Flight (α : Type) where
  /-- No instant for an attempt that never ends. -/
  endsAt : Option Instant
  finish : Finish α

/-- An attempt that starts now. -/
def Entry.launch {α : Type} (e : Entry α) (now : Instant) : Except String (Flight α) :=
  match e.finish with
  | .breaksAtStart message => .error message
  | .hangs => .ok ⟨none, .hangs⟩
  | finish => .ok ⟨some (now.timer e.latency), finish⟩

/-- What an attempt shows at its end. -/
def Finish.progress {α : Type} : Finish α → Progress ScriptedFailure α
  | .returns value => .finished (.ok value)
  | .fails e => .finished (.error e)
  | .hangs => .waiting
  | .breaks message => .crashed message
  | .breaksAtStart message => .crashed message

/-- **The work of a script,** polled. -/
def Script.work {α : Type} (s : Script α) : Work Stage (Flight α) ScriptedFailure α where
  start now stage :=
    let stage := stage.enter now
    ((s.entry stage.calls).launch now, stage)
  look now flight stage :=
    if flight.endsAt.any (·.reached now) then (flight.finish.progress, stage)
    else (.waiting, stage)
  timers flight := flight.endsAt.toList

/-! ## Blocking -/

/-- When the token of a blocking rehearsal is cancelled. -/
inductive Cancellation where
  | never
  /-- Before the run begins. -/
  | before
  /-- While an attempt runs. -/
  | duringAttempt (attempt : Nat)
  /-- Shortly after an attempt, while the thread sleeps. -/
  | duringBackoff (attempt : Nat)
deriving DecidableEq

/-- The world of a blocking rehearsal: the stage, and the instant from
which the token is cancelled. -/
structure BlockingStage where
  stage : Stage
  cancelledFrom : Option Instant

/-- How long after an attempt the token is cancelled in its backoff. -/
def shortly : Duration := .ofMillis 100

/-- The instant of cancellation, known after an attempt from `began` to
`ended`. -/
def Cancellation.after (c : Cancellation) (attempt : Nat) (began ended : Instant) :
    Option Instant :=
  match c with
  | .never | .before => none
  | .duringAttempt n => if attempt = n then some began else none
  | .duringBackoff n => if attempt = n then some (ended.plus shortly) else none

/-- **The work of a script,** blocking. -/
def Script.blockingWork {α : Type} (s : Script α) (c : Cancellation) :
    BlockingWork BlockingStage ScriptedFailure α where
  call now world :=
    let stage := world.stage.enter now
    let entry := s.entry stage.calls
    let ended := now.plus entry.latency
    (entry.finish.progress, ended,
      ⟨stage, world.cancelledFrom.or (c.after stage.calls now ended)⟩)
  cancelledFrom world := world.cancelledFrom
  wakeups _ := []

/-- A blocking rehearsal from the start of the clock. -/
def Script.runBlocking {α : Type} (s : Script α) (c : Cancellation) (o : RetryOptions)
    (draws : Draws) : BlockingEnd BlockingStage ScriptedFailure α :=
  Blocking.run (s.blockingWork c) o draws .start
    ⟨.empty, if c = .before then some .start else none⟩

end Rehearsal

end ResilientCalls
