import ResilientCalls.Document.Wire
import ResilientCalls.Protocol.Payload

/-!
# The wire form of the protocol

Every protocol type is read from a record and written as a mapping of its
fields in their declared order. A field that has no value is left out;
identity, input, attributes and the like may be left out when reading.
-/

namespace ResilientCalls

/-! ## Codes and statuses -/

namespace Code

/-- A code is read from its name, or from a mapping of its name to null. -/
def read : Reader Code
  | _, .text name => (ofName name).toOption
  | _, .mapping [(name, .null)] => (ofName name).toOption
  | _, _ => none

instance : Wire Code := ⟨read, fun c => .text c.name⟩

end Code

namespace Status

/-- Reads a status. -/
def read : Reader Status := fun reading node => do
  let r ← Record.ofNode? ["code", "message", "details_type"] reading node
  return ⟨← r.need "code" Code.read, ← r.need "message" .text,
    ← r.get "details_type" none (.optional .text)⟩

/-- The node of a status. -/
def write (s : Status) : Node :=
  .mapping ([("code", .text s.code.name), ("message", .text s.message)] ++
    entryIfSome "details_type" (s.detailsType.map .text))

instance : Wire Status := ⟨read, write⟩

end Status

/-! ## Parts of payloads -/

namespace Execution

/-- Reads an execution. -/
def read : Reader Execution := fun reading node => do
  let r ← Record.ofNode? ["workflow_id", "run_id"] reading node
  return ⟨← r.need "workflow_id" .text, ← r.get "run_id" none (.optional .text)⟩

/-- The node of an execution. -/
def write (e : Execution) : Node :=
  .mapping ([("workflow_id", .text e.workflowId)] ++ entryIfSome "run_id" (e.runId.map .text))

instance : Wire Execution := ⟨read, write⟩

end Execution

namespace HistoryEvent

/-- Reads an event. -/
def read : Reader HistoryEvent := fun reading node => do
  let r ← Record.ofNode? ["event_id", "event_type", "attributes"] reading node
  return ⟨← r.need "event_id" .int64, ← r.need "event_type" .text,
    ← r.get "attributes" .null .freeForm⟩

/-- The node of an event. -/
def write (e : HistoryEvent) : Node :=
  .mapping [("event_id", .integer e.eventId), ("event_type", .text e.eventType),
    ("attributes", e.attributes)]

instance : Wire HistoryEvent := ⟨read, write⟩

end HistoryEvent

namespace Command

/-- Reads a command. -/
def read : Reader Command := fun reading node => do
  let r ← Record.ofNode? ["command_type", "attributes"] reading node
  return ⟨← r.need "command_type" .text, ← r.get "attributes" .null .freeForm⟩

/-- The node of a command. -/
def write (c : Command) : Node :=
  .mapping [("command_type", .text c.commandType), ("attributes", c.attributes)]

instance : Wire Command := ⟨read, write⟩

end Command

/-! ## Requests -/

namespace DescribeRequest

/-- Reads a request. -/
def read : Reader DescribeRequest := fun reading node => do
  let r ← Record.ofNode? ["namespace"] reading node
  return ⟨← r.need "namespace" .text⟩

/-- The node of a request. -/
def write (q : DescribeRequest) : Node := .mapping [("namespace", .text q.nspace)]

instance : Wire DescribeRequest := ⟨read, write⟩

end DescribeRequest

namespace StartRequest

/-- Reads a request. -/
def read : Reader StartRequest := fun reading node => do
  let r ← Record.ofNode?
    ["namespace", "workflow_id", "workflow_type", "task_queue", "input", "identity", "request_id"]
    reading node
  return ⟨← r.need "namespace" .text, ← r.need "workflow_id" .text,
    ← r.need "workflow_type" .text, ← r.need "task_queue" .text,
    ← r.get "input" [] (.list .freeForm), ← r.get "identity" "" .text,
    ← r.need "request_id" .text⟩

/-- The node of a request. -/
def write (q : StartRequest) : Node :=
  .mapping [("namespace", .text q.nspace), ("workflow_id", .text q.workflowId),
    ("workflow_type", .text q.workflowType), ("task_queue", .text q.taskQueue),
    ("input", .sequence q.input), ("identity", .text q.identity),
    ("request_id", .text q.requestId)]

instance : Wire StartRequest := ⟨read, write⟩

end StartRequest

namespace SignalRequest

/-- Reads a request. -/
def read : Reader SignalRequest := fun reading node => do
  let r ← Record.ofNode?
    ["namespace", "workflow_execution", "signal_name", "input", "identity", "request_id"]
    reading node
  return ⟨← r.need "namespace" .text, ← r.need "workflow_execution" Execution.read,
    ← r.need "signal_name" .text, ← r.get "input" [] (.list .freeForm),
    ← r.get "identity" "" .text, ← r.need "request_id" .text⟩

/-- The node of a request. -/
def write (q : SignalRequest) : Node :=
  .mapping [("namespace", .text q.nspace), ("workflow_execution", q.execution.write),
    ("signal_name", .text q.signalName), ("input", .sequence q.input),
    ("identity", .text q.identity), ("request_id", .text q.requestId)]

instance : Wire SignalRequest := ⟨read, write⟩

end SignalRequest

namespace HistoryRequest

/-- Reads a request. -/
def read : Reader HistoryRequest := fun reading node => do
  let r ← Record.ofNode?
    ["namespace", "execution", "maximum_page_size", "next_page_token", "wait_new_event"]
    reading node
  return ⟨← r.need "namespace" .text, ← r.need "execution" Execution.read,
    ← r.get "maximum_page_size" 0 (.count maxCount32),
    ← r.get "next_page_token" none (.optional .text), ← r.get "wait_new_event" false .boolean⟩

/-- The node of a request. -/
def write (q : HistoryRequest) : Node :=
  .mapping ([("namespace", .text q.nspace), ("execution", q.execution.write),
      ("maximum_page_size", .integer q.maximumPageSize)] ++
    entryIfSome "next_page_token" (q.nextPageToken.map .text) ++
    [("wait_new_event", .boolean q.waitNewEvent)])

instance : Wire HistoryRequest := ⟨read, write⟩

end HistoryRequest

namespace PollRequest

/-- Reads a request. -/
def read : Reader PollRequest := fun reading node => do
  let r ← Record.ofNode? ["namespace", "task_queue", "identity"] reading node
  return ⟨← r.need "namespace" .text, ← r.need "task_queue" .text, ← r.get "identity" "" .text⟩

/-- The node of a request. -/
def write (q : PollRequest) : Node :=
  .mapping [("namespace", .text q.nspace), ("task_queue", .text q.taskQueue),
    ("identity", .text q.identity)]

instance : Wire PollRequest := ⟨read, write⟩

end PollRequest

namespace CompleteRequest

/-- Reads a request. -/
def read : Reader CompleteRequest := fun reading node => do
  let r ← Record.ofNode? ["namespace", "task_token", "commands", "identity"] reading node
  return ⟨← r.need "namespace" .text, ← r.need "task_token" .text,
    ← r.get "commands" [] (.list Command.read), ← r.get "identity" "" .text⟩

/-- The node of a request. -/
def write (q : CompleteRequest) : Node :=
  .mapping [("namespace", .text q.nspace), ("task_token", .text q.taskToken),
    ("commands", .sequence (q.commands.map Command.write)), ("identity", .text q.identity)]

instance : Wire CompleteRequest := ⟨read, write⟩

end CompleteRequest

/-! ## Answers -/

namespace DescribeAnswer

/-- Reads an answer. -/
def read : Reader DescribeAnswer := fun reading node => do
  let r ← Record.ofNode? ["namespace", "state", "retention_days"] reading node
  return ⟨← r.need "namespace" .text, ← r.need "state" .text,
    ← r.get "retention_days" 0 (.count maxCount32)⟩

/-- The node of an answer. -/
def write (a : DescribeAnswer) : Node :=
  .mapping [("namespace", .text a.nspace), ("state", .text a.state),
    ("retention_days", .integer a.retentionDays)]

instance : Wire DescribeAnswer := ⟨read, write⟩

end DescribeAnswer

namespace StartAnswer

/-- Reads an answer. -/
def read : Reader StartAnswer := fun reading node => do
  let r ← Record.ofNode? ["run_id"] reading node
  return ⟨← r.need "run_id" .text⟩

/-- The node of an answer. -/
def write (a : StartAnswer) : Node := .mapping [("run_id", .text a.runId)]

instance : Wire StartAnswer := ⟨read, write⟩

end StartAnswer

namespace SignalAnswer

/-- Reads an answer. -/
def read : Reader SignalAnswer := fun reading node =>
  (Record.ofNode? [] reading node).map fun _ => ⟨⟩

/-- The node of an answer. -/
def write (_ : SignalAnswer) : Node := .mapping []

instance : Wire SignalAnswer := ⟨read, write⟩

end SignalAnswer

namespace HistoryAnswer

/-- Reads an answer. -/
def read : Reader HistoryAnswer := fun reading node => do
  let r ← Record.ofNode? ["events", "next_page_token"] reading node
  return ⟨← r.get "events" [] (.list HistoryEvent.read),
    ← r.get "next_page_token" none (.optional .text)⟩

/-- The node of an answer. -/
def write (a : HistoryAnswer) : Node :=
  .mapping ([("events", .sequence (a.events.map HistoryEvent.write))] ++
    entryIfSome "next_page_token" (a.nextPageToken.map .text))

instance : Wire HistoryAnswer := ⟨read, write⟩

end HistoryAnswer

namespace PollAnswer

/-- Reads an answer. -/
def read : Reader PollAnswer := fun reading node => do
  let r ← Record.ofNode?
    ["task_token", "workflow_execution", "workflow_type", "history", "attempt"] reading node
  return ⟨← r.get "task_token" "" .text,
    ← r.get "workflow_execution" none (.optional Execution.read),
    ← r.get "workflow_type" "" .text, ← r.get "history" [] (.list HistoryEvent.read),
    ← r.get "attempt" 0 (.count maxCount32)⟩

/-- The node of an answer. -/
def write (a : PollAnswer) : Node :=
  .mapping ([("task_token", .text a.taskToken)] ++
    entryIfSome "workflow_execution" (a.execution.map Execution.write) ++
    [("workflow_type", .text a.workflowType),
      ("history", .sequence (a.history.map HistoryEvent.write)),
      ("attempt", .integer a.attempt)])

instance : Wire PollAnswer := ⟨read, write⟩

end PollAnswer

namespace CompleteAnswer

/-- Reads an answer. -/
def read : Reader CompleteAnswer := fun reading node =>
  (Record.ofNode? [] reading node).map fun _ => ⟨⟩

/-- The node of an answer. -/
def write (_ : CompleteAnswer) : Node := .mapping []

instance : Wire CompleteAnswer := ⟨read, write⟩

end CompleteAnswer

/-- Reads the request of a call. -/
def Method.readRequest : Method → Reader Request
  | .describeNamespace => fun r n => (DescribeRequest.read r n).map .describe
  | .startWorkflow => fun r n => (StartRequest.read r n).map .start
  | .signalWorkflow => fun r n => (SignalRequest.read r n).map .signal
  | .readHistory => fun r n => (HistoryRequest.read r n).map .history
  | .pollTask => fun r n => (PollRequest.read r n).map .poll
  | .completeTask => fun r n => (CompleteRequest.read r n).map .complete

/-- The node of an answer of any of the calls. -/
def Answer.write : Answer → Node
  | .describe a => a.write
  | .start a => a.write
  | .signal a => a.write
  | .history a => a.write
  | .poll a => a.write
  | .complete a => a.write

end ResilientCalls
