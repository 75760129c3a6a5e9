import ResilientCalls.Service.PerMethod
import ResilientCalls.Text.Count
import ResilientCalls.Time.Duration

/-!
# A workflow service in memory

The service keeps workflows with their histories and a queue of waiting
tasks, and can be told to fail the next calls or to answer late. A request
is served in one step, `settle`: an injected failure is used up and nothing
else changes, or else the request takes effect. What comes before, counting
the call and waiting out the latency, touches neither workflows nor tasks.
-/

namespace ResilientCalls

/-- A workflow that has been started. -/
structure Workflow where
  runId : String
  /-- The request that started it. -/
  requestId : String
  workflowType : String
  taskQueue : String
  history : List HistoryEvent
deriving Inhabited

namespace Workflow

/-- The workflow with one more event, numbered next. -/
def append (w : Workflow) (eventType : String) (attributes : Node) : Workflow :=
  { w with history := w.history ++ [⟨(w.history.length + 1 : Nat), eventType, attributes⟩] }

end Workflow

/-- A task that waits to be polled: its queue and its workflow. -/
structure PendingTask where
  taskQueue : String
  workflowId : String
deriving DecidableEq, Inhabited

/-- The state of the service. -/
structure Store where
  namespaces : List String
  /-- The workflows by their ids, in the order in which they were started. -/
  workflows : List (String × Workflow)
  /-- The waiting tasks, the oldest first. -/
  pending : List PendingTask
  /-- The failures that the next calls get. -/
  failures : PerMethod (List Status)
  /-- How late answers are. -/
  latency : PerMethod (Option Duration)
  /-- The calls received, failed ones included. -/
  calls : PerMethod Nat
deriving Inhabited

namespace Store

/-- A service with the default namespace. -/
def new : Store := ⟨["default"], [], [], .all [], .all none, .all 0⟩

/-! ## What tests can arrange -/

/-- The next calls fail with some statuses, after those arranged before. -/
def failNext (s : Store) (m : Method) (statuses : List Status) : Store :=
  { s with failures := s.failures.set m (s.failures.get m ++ statuses) }

/-- The next calls fail with a code. -/
def failTimes (s : Store) (m : Method) (code : Code) (times : Nat) : Store :=
  s.failNext m ((List.range times).map fun i =>
    .new code ("injected failure " ++ toString (i + 1)))

/-- Answers come after a latency from now on. -/
def setLatency (s : Store) (m : Method) (latency : Duration) : Store :=
  { s with latency := s.latency.set m (some latency) }

/-- The workflow of an id. -/
def workflow? (s : Store) (id : String) : Option Workflow := s.workflows.lookup id

/-- The number of events in the history of a workflow. -/
def historyLength (s : Store) (id : String) : Nat :=
  ((s.workflow? id).map fun w => w.history.length).getD 0

/-! ## Parts of serving -/

/-- A call reaches the service and is counted. -/
def enter (s : Store) (m : Method) : Store :=
  { s with calls := s.calls.set m (s.calls.get m + 1) }

@[simp]
theorem workflows_enter (s : Store) (m : Method) : (s.enter m).workflows = s.workflows := rfl

@[simp]
theorem pending_enter (s : Store) (m : Method) : (s.enter m).pending = s.pending := rfl

@[simp]
theorem failures_enter (s : Store) (m : Method) : (s.enter m).failures = s.failures := rfl

/-- A call that reaches the service is counted once. -/
theorem calls_enter (s : Store) (m : Method) :
    (s.enter m).calls.get m = s.calls.get m + 1 := by
  simp [enter]

/-- The id of the next run. -/
def nextRunId (s : Store) : String := "run-" ++ toString (s.workflows.length + 1)

/-- The store with a workflow changed by `f`. -/
def updateWorkflow (s : Store) (id : String) (f : Workflow → Workflow) : Store :=
  { s with workflows := s.workflows.map fun e => if e.1 = id then (e.1, f e.2) else e }

/-- Adds an event to the history of a workflow, which must be stored. -/
def appendEvent (s : Store) (id eventType : String) (attributes : Node) :
    Except Status Unit × Store :=
  match s.workflow? id with
  | none => (.error (.new .notFound ("workflow " ++ id ++ " not found")), s)
  | some _ => (.ok (), s.updateWorkflow id fun w => w.append eventType attributes)

/-- The token of a page that starts at an event. -/
def pageToken (start : Nat) : String := toString start

/-- Where the page of a token starts; a token that is no number starts at
the beginning. -/
def pageStart (token : Option String) : Nat :=
  (token.bind fun t => Text.readCount? maxCount64 t.toList).getD 0

/-- The page of a history from an event on; no size asks for everything. -/
def page (history : List HistoryEvent) (start size : Nat) : HistoryAnswer :=
  let stop := min (start + if size = 0 then history.length else size) history.length
  ⟨(history.take stop).drop start,
    if stop < history.length then some (pageToken stop) else none⟩

/-- The token of a workflow's task. -/
def taskToken (id : String) (w : Workflow) : String := id ++ "/" ++ toString w.history.length

/-- The workflow id in a token: what comes before the first slash. -/
def tokenWorkflow? (token : String) : Option String :=
  if token.toList.contains '/' then
    some (String.ofList (token.toList.takeWhile (· != '/')))
  else none

/-! ## Serving -/

/-- Describes a registered namespace. -/
def describe (r : DescribeRequest) (s : Store) : Except Status DescribeAnswer × Store :=
  if s.namespaces.contains r.nspace then (.ok ⟨r.nspace, "REGISTERED", 3⟩, s)
  else (.error (.new .notFound ("namespace " ++ r.nspace ++ " not found")), s)

/-- The workflow of a start request, with its first event. -/
def newWorkflow (r : StartRequest) (runId : String) : Workflow :=
  (⟨runId, r.requestId, r.workflowType, r.taskQueue, []⟩ : Workflow).append
    "WorkflowExecutionStarted"
    (.mapping [("identity", .text r.identity), ("input", .sequence r.input)])

/-- Starts a workflow and makes its task wait. The same request again gets
the same answer, another request for the same id is refused. -/
def start (r : StartRequest) (s : Store) : Except Status StartAnswer × Store :=
  match s.workflow? r.workflowId with
  | some w =>
    if w.requestId = r.requestId then (.ok ⟨w.runId⟩, s)
    else (.error (.new .alreadyExists ("workflow " ++ r.workflowId ++ " already started")), s)
  | none =>
    let runId := s.nextRunId
    (.ok ⟨runId⟩,
      { s with
        workflows := s.workflows ++ [(r.workflowId, newWorkflow r runId)]
        pending := s.pending ++ [⟨r.taskQueue, r.workflowId⟩] })

/-- Records a signal in the history of its workflow. -/
def signal (r : SignalRequest) (s : Store) : Except Status SignalAnswer × Store :=
  match s.appendEvent r.execution.workflowId "WorkflowExecutionSignaled"
      (.mapping [("input", .sequence r.input), ("signal_name", .text r.signalName)]) with
  | (.ok _, s) => (.ok ⟨⟩, s)
  | (.error e, s) => (.error e, s)

/-- Reads a page of a history. -/
def readHistory (r : HistoryRequest) (s : Store) : Except Status HistoryAnswer × Store :=
  match s.workflow? r.execution.workflowId with
  | none =>
    (.error (.new .notFound ("workflow " ++ r.execution.workflowId ++ " not found")), s)
  | some w => (.ok (page w.history (pageStart r.nextPageToken) r.maximumPageSize), s)

/-- The task of a queue that has waited longest, and the other tasks. -/
def takeTask? (queue : String) : List PendingTask → Option (PendingTask × List PendingTask)
  | [] => none
  | t :: rest =>
    if t.taskQueue = queue then some (t, rest)
    else (takeTask? queue rest).map fun (taken, others) => (taken, t :: others)

/-- No task is taken exactly when none waits in the queue. -/
theorem takeTask?_eq_none_iff {queue : String} {ts : List PendingTask} :
    takeTask? queue ts = none ↔ ∀ t ∈ ts, t.taskQueue ≠ queue := by
  induction ts with
  | nil => simp [takeTask?]
  | cons t rest ih =>
    by_cases h : t.taskQueue = queue
    · simp [takeTask?, h]
    · simp [takeTask?, h, ih]

/-- A task is taken from its queue, in front of which no other waits: what
comes before it and after it stays. -/
theorem eq_append_of_takeTask? {queue : String} {ts others : List PendingTask}
    {taken : PendingTask} (h : takeTask? queue ts = some (taken, others)) :
    taken.taskQueue = queue ∧ ∃ before after, ts = before ++ taken :: after ∧
      others = before ++ after ∧ ∀ t ∈ before, t.taskQueue ≠ queue := by
  induction ts generalizing others with
  | nil => simp [takeTask?] at h
  | cons t rest ih =>
    by_cases ht : t.taskQueue = queue
    · simp only [takeTask?, if_pos ht, Option.some.injEq, Prod.mk.injEq] at h
      obtain ⟨rfl, rfl⟩ := h
      exact ⟨ht, [], rest, rfl, rfl, by simp⟩
    · simp only [takeTask?, if_neg ht, Option.map_eq_some_iff, Prod.mk.injEq] at h
      obtain ⟨⟨taken', others'⟩, hrest, rfl, rfl⟩ := h
      obtain ⟨hq, before, after, hts, hothers, hbefore⟩ := ih hrest
      refine ⟨hq, t :: before, after, by simp [hts], by simp [hothers], ?_⟩
      intro u hu
      rcases List.mem_cons.1 hu with rfl | hu
      · exact ht
      · exact hbefore u hu

/-- Hands out the oldest task of a queue, or answers that there is none. -/
def poll (r : PollRequest) (s : Store) : Except Status PollAnswer × Store :=
  match takeTask? r.taskQueue s.pending with
  | none => (.ok .empty, s)
  | some (task, others) =>
    let s := { s with pending := others }
    match s.workflow? task.workflowId with
    | none => (.ok .empty, s)
    | some w =>
      (.ok ⟨taskToken task.workflowId w, some ⟨task.workflowId, some w.runId⟩, w.workflowType,
        w.history, 1⟩, s)

/-- Records a completed task in the history of its workflow. -/
def complete (r : CompleteRequest) (s : Store) : Except Status CompleteAnswer × Store :=
  match tokenWorkflow? r.taskToken with
  | none => (.error (.new .invalidArgument "malformed task token"), s)
  | some id =>
    match s.appendEvent id "WorkflowTaskCompleted"
        (.mapping [("commands", .integer r.commands.length), ("identity", .text r.identity)]) with
    | (.ok _, s) => (.ok ⟨⟩, s)
    | (.error e, s) => (.error e, s)

/-- The effect and the answer of a request that does not fail by injection. -/
def serve (r : Request) (s : Store) : Except Status Answer × Store :=
  match r with
  | .describe r => let (a, s) := describe r s; (a.map .describe, s)
  | .start r => let (a, s) := start r s; (a.map .start, s)
  | .signal r => let (a, s) := signal r s; (a.map .signal, s)
  | .history r => let (a, s) := readHistory r s; (a.map .history, s)
  | .poll r => let (a, s) := poll r s; (a.map .poll, s)
  | .complete r => let (a, s) := complete r s; (a.map .complete, s)

/-- **The service answers a request** that has waited out its latency: with
the next injected failure of its call, if there is one. -/
def settle (r : Request) (s : Store) : Except Status Answer × Store :=
  match s.failures.get r.method with
  | status :: rest => (.error status, { s with failures := s.failures.set r.method rest })
  | [] => serve r s

end Store

end ResilientCalls
