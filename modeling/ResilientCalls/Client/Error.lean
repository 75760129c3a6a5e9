import ResilientCalls.Protocol.Payload
import ResilientCalls.Retry.Error

/-!
# How a client fails

A call that was sent and failed carries the error of its retry run. All
other errors arise before anything is sent, and have no attempts and no
status.
-/

namespace ResilientCalls

/-- What is wrong with a client configuration. -/
inductive ConfigFault where
  | emptyTarget
  | emptyNamespace
  | zeroRpcTimeout
  | zeroLongPollTimeout
  /-- The text is no TOML document, or not one of a configuration. -/
  | invalidToml
  /-- A variable holds no number of its range. -/
  | notANumber (name value : String)
  | other (text : String)
deriving DecidableEq

/-- The text of a fault. -/
def ConfigFault.message : ConfigFault → String
  | .emptyTarget => "target must not be empty"
  | .emptyNamespace => "namespace must not be empty"
  | .zeroRpcTimeout => "rpc timeout must be greater than zero"
  | .zeroLongPollTimeout => "long poll timeout must be greater than zero"
  | .invalidToml => "invalid TOML:"
  | .notANumber name value => name ++ " must be a valid number, got: '" ++ value ++ "'"
  | .other text => text

/-- Why a file has no text. -/
inductive FileFault where
  | missing
  | directory
  | notUtf8
deriving DecidableEq

/-- The text of a file fault. -/
def FileFault.message : FileFault → String
  | .missing => "No such file or directory (os error 2)"
  | .directory => "Is a directory (os error 21)"
  | .notUtf8 => "stream did not contain valid UTF-8"

/-- An error of a client. -/
inductive ClientError where
  /-- A call failed for good. -/
  | rpc (method : Method) (source : RetryError Status)
  /-- The retry policy, or the policy together with the deadline of a call,
  cannot be used. -/
  | retryPolicy (reason : ConfigurationError)
  /-- A request was rejected before it was sent. -/
  | invalidRequest (reason : ProtocolError)
  | config (fault : ConfigFault)
  | io (fault : FileFault)
deriving DecidableEq

namespace ClientError

/-- The text of the error. -/
def message : ClientError → String
  | .rpc method source => method.name ++ " failed: " ++ source.message
  | .retryPolicy reason => "invalid retry policy: " ++ reason.message
  | .invalidRequest reason => "invalid request: " ++ reason.message
  | .config fault => "invalid configuration: " ++ fault.message
  | .io fault => "I/O error: " ++ fault.message

/-- The text of what caused the error. -/
def sourceText : ClientError → Option String
  | .rpc _ source => some source.message
  | .retryPolicy reason => some reason.message
  | .invalidRequest reason => some reason.message
  | .config _ => none
  | .io fault => some fault.message

/-- The last status that the service answered. -/
def status : ClientError → Option Status
  | .rpc _ source => source.lastError
  | _ => none

/-- The attempts spent on the call. -/
def attempts : ClientError → Nat
  | .rpc _ source => source.attempts
  | _ => 0

/-- The call was cancelled. -/
def isCancelled : ClientError → Bool
  | .rpc _ source => source.isCancelled
  | _ => false

/-- The call ran out of time. -/
def isDeadlineExceeded : ClientError → Bool
  | .rpc _ source => source.isDeadlineExceeded
  | _ => false

end ClientError

end ResilientCalls
