import ResilientCalls.Client.Error
import ResilientCalls.Protocol.Code
import ResilientCalls.Retry.Written
import ResilientCalls.Text.Blank
import ResilientCalls.Text.Count
import ResilientCalls.Toml.Printer
import ResilientCalls.Toml.Reader

/-!
# Client configurations

A configuration says where the service is, how long one attempt of a call
may take, and how calls are retried. It is built in code, read from a TOML
document in which every field has a default, or taken from environment
variables; whatever is read is validated. The policy of a configuration
always has the default do-not-retry table at its end.
-/

namespace ResilientCalls

/-- The configuration of a client. -/
structure ClientConfig where
  target : String
  nspace : String
  identity : String
  /-- The longest time of one attempt of a regular call. -/
  rpcTimeout : Duration
  /-- The longest time of one attempt of a call that waits for news. -/
  longPollTimeout : Duration
  rpcRetry : PolicySettings
deriving DecidableEq

namespace ClientConfig

/-- The address when none is set. -/
def defaultTarget : String := "127.0.0.1:7233"

/-- The namespace when none is set. -/
def defaultNamespace : String := "default"

/-- The release of the client. -/
def version : String := "0.2.0"

/-- The configuration of a process when nothing is set. -/
def standard (process : String) : ClientConfig where
  target := defaultTarget
  nspace := defaultNamespace
  identity := process ++ "@turboflow"
  rpcTimeout := .ofSeconds 10
  longPollTimeout := .ofSeconds 70
  rpcRetry := .standard

/-! ## Validation -/

/-- The policy of the client: the configured one, with the default table
after the configured matchers. -/
def retryPolicy (c : ClientConfig) : Except ClientError RetryPolicy :=
  match c.rpcRetry.toPolicy with
  | .error e => .error (.retryPolicy e)
  | .ok p =>
    match (p.withDoNotRetryAll Code.defaultTable).checked with
    | .error e => .error (.retryPolicy e)
    | .ok p => .ok p

/-- **The rules of a configuration,** the first broken one reported. -/
def validate (c : ClientConfig) : Except ClientError Unit :=
  if Text.isBlankText c.target then .error (.config .emptyTarget)
  else if Text.isBlankText c.nspace then .error (.config .emptyNamespace)
  else if c.rpcTimeout.isZero then .error (.config .zeroRpcTimeout)
  else if c.longPollTimeout.isZero then .error (.config .zeroLongPollTimeout)
  else match c.retryPolicy with
    | .error e => .error e
    | .ok _ => .ok ()

/-- The configuration itself, if it breaks no rule. -/
def checked (c : ClientConfig) : Except ClientError ClientConfig :=
  match c.validate with
  | .error e => .error e
  | .ok _ => .ok c

/-! ## The written form -/

/-- A timeout as it is written: in whole milliseconds, the rest dropped,
and cut at the largest 64-bit count. -/
def writtenTimeout (d : Duration) : Nat := min d.wholeMillis maxCount64

/-- Reads a timeout. -/
def readTimeout : Reader Duration := fun reading node =>
  (Reader.count maxCount64 reading node).map Duration.ofMillis

/-- Reads the configuration of a process. -/
def read (process : String) : Reader ClientConfig := fun reading node => do
  let r ← Record.ofNode?
    ["target", "namespace", "identity", "rpc_timeout_ms", "long_poll_timeout_ms", "rpc_retry"]
    reading node
  let c := standard process
  return ⟨← r.get "target" c.target .text, ← r.get "namespace" c.nspace .text,
    ← r.get "identity" c.identity .text, ← r.get "rpc_timeout_ms" c.rpcTimeout readTimeout,
    ← r.get "long_poll_timeout_ms" c.longPollTimeout readTimeout,
    ← r.get "rpc_retry" c.rpcRetry PolicySettings.read⟩

/-- The node of a configuration. -/
def write (c : ClientConfig) : Node :=
  .mapping [("target", .text c.target), ("namespace", .text c.nspace),
    ("identity", .text c.identity), ("rpc_timeout_ms", .integer (writtenTimeout c.rpcTimeout)),
    ("long_poll_timeout_ms", .integer (writtenTimeout c.longPollTimeout)),
    ("rpc_retry", c.rpcRetry.write)]

/-- The TOML document of a configuration, if its numbers fit one. -/
def toToml? (c : ClientConfig) : Option String := Toml.print? c.write

/-- The configuration that a TOML document gives a process. -/
def ofToml (process text : String) : Except ClientError ClientConfig :=
  match (Toml.read? text).bind (read process .partly) with
  | none => .error (.config .invalidToml)
  | some c => c.checked

/-! ## Files -/

/-- What is found at a path. -/
inductive FileContent where
  | missing
  | directory
  | bytes (content : ByteArray)

/-- The text of a file. -/
def FileContent.text : FileContent → Except FileFault String
  | .missing => .error .missing
  | .directory => .error .directory
  | .bytes content =>
    match String.fromUTF8? content with
    | none => .error .notUtf8
    | some text => .ok text

/-- The configuration that a file gives a process. -/
def ofFile (process : String) (file : FileContent) : Except ClientError ClientConfig :=
  match file.text with
  | .error fault => .error (.io fault)
  | .ok text => ofToml process text

/-! ## Environment variables -/

/-- The values of the environment variables that are set. -/
abbrev Environment := String → Option String

/-- The number that a variable holds, up to a limit, with white space
around it; none when it is not set. -/
def numberOf (env : Environment) (name : String) (limit : Nat) :
    Except ClientError (Option Nat) :=
  match env name with
  | none => .ok none
  | some value =>
    match Text.readCount? limit (Text.trim value.toList) with
    | none => .error (.config (.notANumber name value))
    | some n => .ok (some n)

/-- **The configuration that the environment gives a process.** Texts are
taken as they are; a number that cannot be read is an error, and the first
one is reported. -/
def ofEnvironment (process : String) (env : Environment) : Except ClientError ClientConfig := do
  let c := standard process
  let timeout ← numberOf env "TURBOFLOW_RPC_TIMEOUT_MS" maxCount64
  let attempts ← numberOf env "TURBOFLOW_RPC_MAX_ATTEMPTS" maxCount32
  let expiration ← numberOf env "TURBOFLOW_RPC_EXPIRATION_MS" maxCount64
  checked
    { c with
      target := (env "TURBOFLOW_TARGET").getD c.target
      nspace := (env "TURBOFLOW_NAMESPACE").getD c.nspace
      identity := (env "TURBOFLOW_IDENTITY").getD c.identity
      rpcTimeout := (timeout.map Duration.ofMillis).getD c.rpcTimeout
      rpcRetry := { c.rpcRetry with
        maximumAttempts := attempts.getD c.rpcRetry.maximumAttempts
        expirationMs := expiration.or c.rpcRetry.expirationMs } }

end ClientConfig

end ResilientCalls
