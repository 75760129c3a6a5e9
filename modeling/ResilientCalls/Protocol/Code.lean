import ResilientCalls.Retry.Matcher

/-!
# Status codes

The standard codes of remote calls, in the order of their numbers. A code
is known by its number, by its name in capitals, and in logs by its label.
-/

namespace ResilientCalls

/-- A standard status code. -/
inductive Code where
  | ok
  | cancelled
  | unknown
  | invalidArgument
  | deadlineExceeded
  | notFound
  | alreadyExists
  | permissionDenied
  | resourceExhausted
  | failedPrecondition
  | aborted
  | outOfRange
  | unimplemented
  | internal
  | unavailable
  | dataLoss
  | unauthenticated
deriving DecidableEq, Inhabited

/-- Why something is not of the protocol. -/
inductive ProtocolError where
  | unknownCode (name : String)
  | codeOutOfRange (number : Int)
  | missingField (field : String)
  | serialization (reason : String)
deriving DecidableEq

/-- The text of a protocol error. -/
def ProtocolError.message : ProtocolError → String
  | .unknownCode name => "unknown status code: " ++ name
  | .codeOutOfRange n => "status code out of range: " ++ toString n
  | .missingField field => "missing required field: " ++ field
  | .serialization reason => "serialization error: " ++ reason

namespace Code

/-- All codes, in the order of their numbers. -/
def all : List Code :=
  [.ok, .cancelled, .unknown, .invalidArgument, .deadlineExceeded, .notFound, .alreadyExists,
    .permissionDenied, .resourceExhausted, .failedPrecondition, .aborted, .outOfRange,
    .unimplemented, .internal, .unavailable, .dataLoss, .unauthenticated]

/-- The number of a code. -/
def number : Code → Nat
  | .ok => 0
  | .cancelled => 1
  | .unknown => 2
  | .invalidArgument => 3
  | .deadlineExceeded => 4
  | .notFound => 5
  | .alreadyExists => 6
  | .permissionDenied => 7
  | .resourceExhausted => 8
  | .failedPrecondition => 9
  | .aborted => 10
  | .outOfRange => 11
  | .unimplemented => 12
  | .internal => 13
  | .unavailable => 14
  | .dataLoss => 15
  | .unauthenticated => 16

/-- The name of a code. -/
def name : Code → String
  | .ok => "OK"
  | .cancelled => "CANCELLED"
  | .unknown => "UNKNOWN"
  | .invalidArgument => "INVALID_ARGUMENT"
  | .deadlineExceeded => "DEADLINE_EXCEEDED"
  | .notFound => "NOT_FOUND"
  | .alreadyExists => "ALREADY_EXISTS"
  | .permissionDenied => "PERMISSION_DENIED"
  | .resourceExhausted => "RESOURCE_EXHAUSTED"
  | .failedPrecondition => "FAILED_PRECONDITION"
  | .aborted => "ABORTED"
  | .outOfRange => "OUT_OF_RANGE"
  | .unimplemented => "UNIMPLEMENTED"
  | .internal => "INTERNAL"
  | .unavailable => "UNAVAILABLE"
  | .dataLoss => "DATA_LOSS"
  | .unauthenticated => "UNAUTHENTICATED"

/-- The label of a code in a log record. -/
def label : Code → String
  | .ok => "Ok"
  | .cancelled => "Cancelled"
  | .unknown => "Unknown"
  | .invalidArgument => "InvalidArgument"
  | .deadlineExceeded => "DeadlineExceeded"
  | .notFound => "NotFound"
  | .alreadyExists => "AlreadyExists"
  | .permissionDenied => "PermissionDenied"
  | .resourceExhausted => "ResourceExhausted"
  | .failedPrecondition => "FailedPrecondition"
  | .aborted => "Aborted"
  | .outOfRange => "OutOfRange"
  | .unimplemented => "Unimplemented"
  | .internal => "Internal"
  | .unavailable => "Unavailable"
  | .dataLoss => "DataLoss"
  | .unauthenticated => "Unauthenticated"

/-- The code of a name. -/
def ofName (name : String) : Except ProtocolError Code :=
  match all.find? (fun c => c.name == name) with
  | some c => .ok c
  | none => .error (.unknownCode name)

/-- The code of a number. -/
def ofNumber (number : Int) : Except ProtocolError Code :=
  match all.find? (fun c => (c.number : Int) == number) with
  | some c => .ok c
  | none => .error (.codeOutOfRange number)

/-- The matcher of a code with any detail. -/
def matcher (c : Code) : Matcher := .ofCode c.name

/-- The codes that a service client never retries. -/
def neverRetried : List Code :=
  [.invalidArgument, .notFound, .alreadyExists, .failedPrecondition, .permissionDenied,
    .unauthenticated, .unimplemented]

/-- The do-not-retry table of a service client. -/
def defaultTable : List Matcher := neverRetried.map matcher

end Code

end ResilientCalls
