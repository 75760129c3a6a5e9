import ResilientCalls.Document.Node
import ResilientCalls.Protocol.Status

/-!
# Requests and answers of the service

The six calls of the workflow service with their requests and answers.
Workflow inputs, signal arguments and attributes are free-form nodes that
nothing here looks into.
-/

namespace ResilientCalls

/-- A workflow, and perhaps one of its runs. -/
structure Execution where
  workflowId : String
  runId : Option String
deriving DecidableEq, Inhabited

/-- An event of a workflow's history. -/
structure HistoryEvent where
  eventId : Int
  eventType : String
  attributes : Node
deriving Inhabited

/-- What a worker asks the service to do next. -/
structure Command where
  commandType : String
  attributes : Node
deriving Inhabited

/-- Asks about a namespace. -/
structure DescribeRequest where
  nspace : String
deriving DecidableEq, Inhabited

/-- What is known about a namespace. -/
structure DescribeAnswer where
  nspace : String
  state : String
  retentionDays : Nat
deriving DecidableEq, Inhabited

/-- Starts a workflow. -/
structure StartRequest where
  nspace : String
  workflowId : String
  workflowType : String
  taskQueue : String
  input : List Node
  identity : String
  requestId : String
deriving Inhabited

/-- The run that was started. -/
structure StartAnswer where
  runId : String
deriving DecidableEq, Inhabited

/-- Sends a signal to a workflow. -/
structure SignalRequest where
  nspace : String
  execution : Execution
  signalName : String
  input : List Node
  identity : String
  requestId : String
deriving Inhabited

/-- Nothing is answered to a signal. -/
structure SignalAnswer where
deriving DecidableEq, Inhabited

/-- Asks for a page of a workflow's history. -/
structure HistoryRequest where
  nspace : String
  execution : Execution
  maximumPageSize : Nat
  nextPageToken : Option String
  waitNewEvent : Bool
deriving DecidableEq, Inhabited

/-- A page of history, and the token of the next page if there is one. -/
structure HistoryAnswer where
  events : List HistoryEvent
  nextPageToken : Option String
deriving Inhabited

/-- Asks for the next task of a queue. -/
structure PollRequest where
  nspace : String
  taskQueue : String
  identity : String
deriving DecidableEq, Inhabited

/-- A task, or the empty answer. -/
structure PollAnswer where
  taskToken : String
  execution : Option Execution
  workflowType : String
  history : List HistoryEvent
  attempt : Nat
deriving Inhabited

/-- Reports a task as completed. -/
structure CompleteRequest where
  nspace : String
  taskToken : String
  commands : List Command
  identity : String
deriving Inhabited

/-- Nothing is answered to a completed task. -/
structure CompleteAnswer where
deriving DecidableEq, Inhabited

namespace StartRequest

/-- A request without input and identity. -/
def new (nspace workflowId workflowType taskQueue requestId : String) : StartRequest :=
  ⟨nspace, workflowId, workflowType, taskQueue, [], "", requestId⟩

/-- The fields that must not be empty, in the order in which they are
checked. -/
def required (r : StartRequest) : List (String × String) :=
  [("namespace", r.nspace), ("workflow_id", r.workflowId), ("workflow_type", r.workflowType),
    ("task_queue", r.taskQueue), ("request_id", r.requestId)]

/-- The first required field that is empty makes a request invalid. -/
def validate (r : StartRequest) : Except ProtocolError Unit :=
  match r.required.find? (fun field => field.2.isEmpty) with
  | some field => .error (.missingField field.1)
  | none => .ok ()

end StartRequest

namespace SignalRequest

/-- A request without input and identity. -/
def new (nspace : String) (execution : Execution) (signalName requestId : String) :
    SignalRequest :=
  ⟨nspace, execution, signalName, [], "", requestId⟩

end SignalRequest

namespace HistoryRequest

/-- A request for the first page, of any size. -/
def new (nspace : String) (execution : Execution) : HistoryRequest :=
  ⟨nspace, execution, 0, none, false⟩

end HistoryRequest

namespace PollAnswer

/-- The answer when no task is waiting. -/
def empty : PollAnswer := ⟨"", none, "", [], 0⟩

/-- An answer without a token holds no task. -/
def isEmpty (a : PollAnswer) : Bool := a.taskToken.isEmpty

end PollAnswer

/-- The calls of the service. -/
inductive Method where
  | describeNamespace
  | startWorkflow
  | signalWorkflow
  | readHistory
  | pollTask
  | completeTask
deriving DecidableEq, Inhabited

namespace Method

/-- All calls. -/
def all : List Method :=
  [.describeNamespace, .startWorkflow, .signalWorkflow, .readHistory, .pollTask, .completeTask]

/-- The name of a call. -/
def name : Method → String
  | .describeNamespace => "DescribeNamespace"
  | .startWorkflow => "StartWorkflowExecution"
  | .signalWorkflow => "SignalWorkflowExecution"
  | .readHistory => "GetWorkflowExecutionHistory"
  | .pollTask => "PollWorkflowTaskQueue"
  | .completeTask => "RespondWorkflowTaskCompleted"

/-- The call of a name. -/
def ofName? (name : String) : Option Method := all.find? (fun m => m.name == name)

end Method

/-- A request of any of the calls. -/
inductive Request where
  | describe (r : DescribeRequest)
  | start (r : StartRequest)
  | signal (r : SignalRequest)
  | history (r : HistoryRequest)
  | poll (r : PollRequest)
  | complete (r : CompleteRequest)

/-- The call a request is of. -/
def Request.method : Request → Method
  | .describe _ => .describeNamespace
  | .start _ => .startWorkflow
  | .signal _ => .signalWorkflow
  | .history _ => .readHistory
  | .poll _ => .pollTask
  | .complete _ => .completeTask

/-- An answer of any of the calls. -/
inductive Answer where
  | describe (a : DescribeAnswer)
  | start (a : StartAnswer)
  | signal (a : SignalAnswer)
  | history (a : HistoryAnswer)
  | poll (a : PollAnswer)
  | complete (a : CompleteAnswer)

end ResilientCalls
