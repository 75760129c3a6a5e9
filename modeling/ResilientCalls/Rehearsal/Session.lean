import ResilientCalls.Client.Calling
import ResilientCalls.Client.Traffic
import ResilientCalls.Service.Stub

/-!
# Sessions with the service in memory

A rehearsal of a client: a new service, a client over it, and steps that
arrange failures and latencies, make calls, and look at what happened. The
calls of a session are all blocking or all not.
-/

namespace ResilientCalls

namespace Rehearsal

/-- The deadline and the cancellation of a call, counted from its step. -/
structure CallTerms where
  deadline : Option Duration
  /-- The token is cancelled after this time, before anything else at that
  instant. -/
  cancelAfter : Option Duration
deriving DecidableEq

/-- A step of a session. -/
inductive SessionStep where
  | failNext (m : Method) (statuses : List Status)
  | failTimes (m : Method) (code : Code) (times : Nat)
  | setLatency (m : Method) (latency : Duration)
  /-- How many calls the service has received. -/
  | countCalls (m : Method)
  /-- How long the history of a workflow is. -/
  | measureHistory (workflowId : String)
  | sleep (d : Duration)
  /-- The text that shows the client. -/
  | showClient
  | call (request : Request) (terms : CallTerms)
  /-- The same call several times at once. -/
  | callTogether (times : Nat) (request : Request) (terms : CallTerms)

/-- What a step gives. -/
inductive StepResult where
  | done
  | count (n : Nat)
  | text (s : String)
  | call (result : CallResult)
  /-- How many calls were answered, and the texts of the errors of the
  others in order. -/
  | calls (answered : Nat) (failures : List String)

/-- A session. -/
structure Session where
  client : Client
  blocking : Bool
  now : Instant
  store : Store

/-- Puts a text into texts in order, in front of equal ones. -/
def insertText (s : String) : List String → List String
  | [] => [s]
  | t :: rest =>
    if textBefore t.toList s.toList then t :: insertText s rest else s :: t :: rest

/-- Texts in the order of their characters' code points. -/
def sortTexts : List String → List String
  | [] => []
  | s :: rest => insertText s (sortTexts rest)

/-- The answered calls, and the texts of the others. -/
def tally (results : List CallResult) : StepResult :=
  .calls
    (results.filter fun r => match r with
      | .answered _ => true
      | _ => false).length
    (sortTexts (results.filterMap fun r => match r with
      | .failed e => some e.message
      | .crashed message => some message
      | _ => none))

namespace Session

/-- A session that begins, and the record of its client. -/
def begin (client : Client) (blocking : Bool) : Session × LogRecord :=
  (⟨client, blocking, .start, .new⟩, client.created)

/-- The options of a call that begins now. -/
def optionsOf (terms : CallTerms) (now : Instant) : CallOptions :=
  ⟨terms.deadline.map (Deadline.after now), terms.cancelAfter.isSome⟩

/-- The last instant of a step: no call goes on for longer than the
longest duration. -/
def limit (s : Session) : Instant := s.now.plus .longest

/-- Makes a call. -/
def makeCall (s : Session) (draws : Draws) (request : Request) (terms : CallTerms) :
    CallEnd Store :=
  let options := optionsOf terms s.now
  let cancelledFrom := terms.cancelAfter.map s.now.timer
  if s.blocking then
    s.client.callBlocking Store.stub draws request options cancelledFrom s.now s.store
  else s.client.call Store.stub draws request options cancelledFrom s.limit s.now s.store

/-- Makes calls together, and gives them with the records of all. -/
def makeCalls (s : Session) (draws : Draws) (times : Nat) (request : Request)
    (terms : CallTerms) : Traffic Store Instant × List LogRecord :=
  let cancelledFrom := terms.cancelAfter.map s.now.timer
  let (t, log) := Traffic.issueMany s.client Store.stub draws request (optionsOf terms s.now)
    (cancelledFrom.any (·.reached s.now)) times ⟨s.now, s.store, []⟩
  let (t, later) := t.finish s.client Store.stub draws cancelledFrom s.limit
  (t, log ++ later)

/-- **One step.** -/
def step (s : Session) (draws : Draws) : SessionStep → Session × StepResult × List LogRecord
  | .failNext m statuses => ({ s with store := s.store.failNext m statuses }, .done, [])
  | .failTimes m code times => ({ s with store := s.store.failTimes m code times }, .done, [])
  | .setLatency m latency => ({ s with store := s.store.setLatency m latency }, .done, [])
  | .countCalls m => (s, .count (s.store.calls.get m), [])
  | .measureHistory id => (s, .count (s.store.historyLength id), [])
  | .sleep d => ({ s with now := s.now.timer d }, .done, [])
  | .showClient => (s, .text s.client.debugText, [])
  | .call request terms =>
    let ended := s.makeCall draws request terms
    ({ s with now := ended.now, store := ended.world }, .call ended.result, ended.log)
  | .callTogether times request terms =>
    let (t, log) := s.makeCalls draws times request terms
    ({ s with now := t.now, store := t.world }, tally (t.tasks.map CallTask.result), log)

end Session

end Rehearsal

end ResilientCalls
