import ResilientCalls.Numeric.Rounding
import ResilientCalls.Numeric.Binary64
import ResilientCalls.Numeric.Decimal
import ResilientCalls.Numeric.Shortest
import ResilientCalls.Numeric.Layout
import ResilientCalls.Time.Duration
import ResilientCalls.Text.Blank
import ResilientCalls.Text.Count
import ResilientCalls.Text.Invisible
import ResilientCalls.Text.Shown
import ResilientCalls.Log.Record
import ResilientCalls.Document.Node
import ResilientCalls.Document.Record
import ResilientCalls.Document.Wire
import ResilientCalls.Json.Number
import ResilientCalls.Json.Reader
import ResilientCalls.Json.Printer
import ResilientCalls.Toml.Scalar
import ResilientCalls.Toml.Quoted
import ResilientCalls.Toml.Table
import ResilientCalls.Toml.Reader
import ResilientCalls.Toml.Printer
import ResilientCalls.Retry.Matcher
import ResilientCalls.Retry.Policy
import ResilientCalls.Retry.Backoff
import ResilientCalls.Retry.Settings
import ResilientCalls.Retry.Written
import ResilientCalls.Retry.Deadline
import ResilientCalls.Retry.Error
import ResilientCalls.Retry.Decision
import ResilientCalls.Retry.Options
import ResilientCalls.Retry.Event
import ResilientCalls.Retry.Run
import ResilientCalls.Retry.Course
import ResilientCalls.Retry.Handle
import ResilientCalls.Retry.Family
import ResilientCalls.Retry.Blocking
import ResilientCalls.Protocol.Code
import ResilientCalls.Protocol.Status
import ResilientCalls.Protocol.RequestId
import ResilientCalls.Protocol.Payload
import ResilientCalls.Protocol.Wire
import ResilientCalls.Client.Error
import ResilientCalls.Client.Config
import ResilientCalls.Client.Attempt
import ResilientCalls.Client.Basic
import ResilientCalls.Client.Outcome
import ResilientCalls.Client.Calling
import ResilientCalls.Client.Traffic
import ResilientCalls.Service.PerMethod
import ResilientCalls.Service.Store
import ResilientCalls.Service.Stub
import ResilientCalls.Rehearsal.Script
import ResilientCalls.Rehearsal.Polling
import ResilientCalls.Rehearsal.Spawning
import ResilientCalls.Rehearsal.Session
import ResilientCalls.Proofs.Numeric.Digits
import ResilientCalls.Proofs.Numeric.Order
import ResilientCalls.Proofs.Numeric.Nearest
import ResilientCalls.Proofs.Numeric.Powers
import ResilientCalls.Proofs.Numeric.Whole
import ResilientCalls.Proofs.Numeric.Error
import ResilientCalls.Proofs.Time.Millis
import ResilientCalls.Proofs.Time.Seconds
import ResilientCalls.Proofs.Numeric.ReadBack
import ResilientCalls.Proofs.Numeric.Spelling
import ResilientCalls.Proofs.Document.Fields
import ResilientCalls.Proofs.Document.FreeForm
import ResilientCalls.Proofs.Json.Texts
import ResilientCalls.Proofs.Json.Values
import ResilientCalls.Proofs.Document.Faithful
import ResilientCalls.Proofs.Protocol.RoundTrip
import ResilientCalls.Proofs.Toml.Scalars
import ResilientCalls.Proofs.Toml.Texts
import ResilientCalls.Proofs.Toml.Values
import ResilientCalls.Proofs.Toml.RoundTrip
import ResilientCalls.Proofs.Retry.Rules
import ResilientCalls.Proofs.Retry.Backoff
import ResilientCalls.Proofs.Retry.Growth
import ResilientCalls.Proofs.Retry.Exact
import ResilientCalls.Proofs.Retry.Decision
import ResilientCalls.Proofs.Retry.Polls
import ResilientCalls.Proofs.Retry.Chronicle
import ResilientCalls.Proofs.Retry.Standing
import ResilientCalls.Proofs.Retry.Tracking
import ResilientCalls.Proofs.Retry.Outcome
import ResilientCalls.Proofs.Retry.Table
import ResilientCalls.Proofs.Retry.Agreement
import ResilientCalls.Proofs.Retry.Pacing
import ResilientCalls.Proofs.Retry.Termination
import ResilientCalls.Proofs.Retry.Timeline
import ResilientCalls.Proofs.Retry.Expiry
import ResilientCalls.Proofs.Retry.Jitter
import ResilientCalls.Proofs.Retry.Cancellation
import ResilientCalls.Proofs.Retry.Isolation
import ResilientCalls.Proofs.Retry.Waiting
import ResilientCalls.Proofs.Retry.Bookkeeping
import ResilientCalls.Proofs.Retry.Keeping
import ResilientCalls.Proofs.Retry.Following
import ResilientCalls.Proofs.Retry.Crowding
import ResilientCalls.Proofs.Retry.Progress
import ResilientCalls.Proofs.Retry.MillisecondForm
import ResilientCalls.Proofs.Retry.Written
import ResilientCalls.Proofs.Client.Punctual
import ResilientCalls.Proofs.Service.Serving
import ResilientCalls.Proofs.Service.Histories
import ResilientCalls.Proofs.Service.Soundness
import ResilientCalls.Proofs.Service.TaskToken
import ResilientCalls.Proofs.Service.ExactlyOnce
import ResilientCalls.Proofs.Service.Drawing
import ResilientCalls.Proofs.Service.Concurrent
import ResilientCalls.Proofs.Client.Counting
import ResilientCalls.Proofs.Client.NeverRetried
import ResilientCalls.Proofs.Client.Agreement
import ResilientCalls.Proofs.Retry.Untimed
import ResilientCalls.Proofs.Retry.Schedule
import ResilientCalls.Proofs.Retry.Tightening
import ResilientCalls.Proofs.Retry.Timetable
import ResilientCalls.Proofs.Retry.Attended
import ResilientCalls.Proofs.Retry.Elapsed
import ResilientCalls.Proofs.Service.Answering
import ResilientCalls.Proofs.Service.Paging
import ResilientCalls.Proofs.Service.Dispatch
import ResilientCalls.Proofs.Service.Starting
import ResilientCalls.Proofs.Client.Timeouts
import ResilientCalls.Proofs.Text.Counts
import ResilientCalls.Proofs.Client.Rules
import ResilientCalls.Proofs.Client.Environment
import ResilientCalls.Proofs.Retry.Verdict
import ResilientCalls.Proofs.Retry.Sleeping
import ResilientCalls.Proofs.Retry.Interruption
