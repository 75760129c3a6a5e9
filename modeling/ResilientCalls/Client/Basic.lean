import ResilientCalls.Client.Attempt
import ResilientCalls.Client.Config
import ResilientCalls.Text.Shown

/-!
# Clients

A client is a valid configuration with a retry policy: the configuration's
own or one that is given. It decides which requests are sent, with which
timeouts, and with which options their runs go.
-/

namespace ResilientCalls

/-- A client of the service. -/
structure Client where
  config : ClientConfig
  policy : RetryPolicy
deriving DecidableEq

/-- What a single call is given. -/
structure CallOptions where
  /-- The deadline of the whole call, retries included. -/
  deadline : Option Instant
  /-- The call watches a cancellation token. -/
  hasToken : Bool
deriving DecidableEq

/-- A call without a deadline and a token. -/
def CallOptions.none : CallOptions := ⟨Option.none, false⟩

namespace Client

/-- A client that retries by a policy of its own. -/
def withPolicy (config : ClientConfig) (policy : RetryPolicy) : Except ClientError Client :=
  match config.validate with
  | .error e => .error e
  | .ok _ => .ok ⟨config, policy⟩

/-- A client that retries as it is configured. -/
def new (config : ClientConfig) : Except ClientError Client :=
  match config.validate, config.retryPolicy with
  | .error e, _ => .error e
  | _, .error e => .error e
  | .ok _, .ok policy => withPolicy config policy

/-! ## What is logged of a client -/

/-- A client has been created. -/
def created (c : Client) : LogRecord :=
  ⟨.info, "Created workflow service client",
    [("target", c.config.target), ("namespace", c.config.nspace),
      ("identity", c.config.identity), ("maximum_attempts", toString c.policy.maximumAttempts),
      ("expiration", Duration.optionText c.policy.expiration)]⟩

/-- The text that shows a matcher in a log. -/
def matcherText (m : Matcher) : String :=
  "ErrorMatcher \x7b code: " ++ Text.shown m.code ++ ", detail_type: " ++
    Text.shownOption m.detailType ++ " \x7d"

/-- The text that shows a policy in a log. -/
def policyText (p : RetryPolicy) : String :=
  "RetryPolicy \x7b initial_interval: " ++ p.initialInterval.text ++
    ", backoff_coefficient: " ++ p.backoffCoefficient.logText ++
    ", maximum_interval: " ++ Duration.optionText p.configuredMaximum ++
    ", maximum_attempts: " ++ toString p.maximumAttempts ++
    ", expiration: " ++ Duration.optionText p.expiration ++
    ", do_not_retry: [" ++ ", ".intercalate (p.doNotRetry.map matcherText) ++
    "], jitter: " ++ p.jitter.logText ++ " \x7d"

/-- The text that shows a client in a log. -/
def debugText (c : Client) : String :=
  "WorkflowServiceClient \x7b target: " ++ Text.shown c.config.target ++
    ", namespace: " ++ Text.shown c.config.nspace ++
    ", retryer: Retryer \x7b policy: " ++ policyText c.policy ++ " \x7d, .. \x7d"

/-! ## Preparing a call -/

/-- The timeout of one attempt: longer for a request that waits for news. -/
def timeoutOf (c : Client) : Request → Duration
  | .history r => if r.waitNewEvent then c.config.longPollTimeout else c.config.rpcTimeout
  | .poll _ => c.config.longPollTimeout
  | _ => c.config.rpcTimeout

/-- What is checked of a request before it is sent. -/
def checkRequest : Request → Except ProtocolError Unit
  | .start r => r.validate
  | _ => .ok ()

/-- The options of the run for a call, if the request is valid and the run
is bounded. -/
def prepare (c : Client) (request : Request) (o : CallOptions) :
    Except ClientError RetryOptions :=
  match checkRequest request with
  | .error e => .error (.invalidRequest e)
  | .ok _ =>
    match RetryOptions.new c.policy o.deadline with
    | .error e => .error (.retryPolicy e)
    | .ok options => .ok (if o.hasToken then options.withToken else options)

/-- The call of a request whose run begins now. No attempt may go on
beyond the deadline of the run. -/
def callOf (c : Client) (request : Request) (options : RetryOptions) (now : Instant) : Call :=
  ⟨request, c.timeoutOf request, Deadline.effective options.policy options.deadline now⟩

end Client

end ResilientCalls
