import Switchboard.Call.Followup
import Switchboard.Call.Pending
import Switchboard.CallError
import Switchboard.Cancel.Registry
import Switchboard.Cancel.Signal
import Switchboard.Client
import Switchboard.Connection
import Switchboard.Deadlines
import Switchboard.Decimal.Shortest
import Switchboard.ErrorObject
import Switchboard.Frame.Basic
import Switchboard.Frame.Checksum
import Switchboard.Frame.Stream
import Switchboard.Json.Number
import Switchboard.Json.Printer
import Switchboard.Json.Reader
import Switchboard.Json.Shape
import Switchboard.Json.Value
import Switchboard.Message.Basic
import Switchboard.Message.Reader
import Switchboard.OneShot
import Switchboard.Ordered
import Switchboard.Proofs.Call.Pending
import Switchboard.Proofs.Cancel.Cells
import Switchboard.Proofs.Cancel.Reasons
import Switchboard.Proofs.Cancel.Registry
import Switchboard.Proofs.Cancel.Replay
import Switchboard.Proofs.Connection.Answers
import Switchboard.Proofs.Connection.Basic
import Switchboard.Proofs.Connection.Fates
import Switchboard.Proofs.Connection.Lasting
import Switchboard.Proofs.Connection.Serving
import Switchboard.Proofs.Deadlines.Accounts
import Switchboard.Proofs.Deadlines.Sweep
import Switchboard.Proofs.Deadlines.Trace
import Switchboard.Proofs.Dialogue.Answers
import Switchboard.Proofs.Dialogue.Basic
import Switchboard.Proofs.Dialogue.Cancellations
import Switchboard.Proofs.Dialogue.Desk
import Switchboard.Proofs.Dialogue.Server
import Switchboard.Proofs.Frame.Checksum
import Switchboard.Proofs.Frame.Chunks
import Switchboard.Proofs.Frame.Corruption
import Switchboard.Proofs.Frame.Prefix
import Switchboard.Proofs.Frame.RoundTrip
import Switchboard.Proofs.Identifiers
import Switchboard.Proofs.Json.Integers
import Switchboard.Proofs.Json.Members
import Switchboard.Proofs.Json.RoundTrip
import Switchboard.Proofs.Json.Strings
import Switchboard.Proofs.Message.Cancellation
import Switchboard.Proofs.Message.Grammar
import Switchboard.Proofs.Message.NormalForm
import Switchboard.Proofs.Message.RoundTrip
import Switchboard.Proofs.Service.Jobs
import Switchboard.Proofs.Service.Turns
import Switchboard.Proofs.Session.Callbacks
import Switchboard.Proofs.Session.Futures
import Switchboard.Proofs.Session.History
import Switchboard.Proofs.Session.Inbound
import Switchboard.Proofs.Session.Lifecycle
import Switchboard.Proofs.Session.Operations
import Switchboard.Proofs.Session.Outcome
import Switchboard.Proofs.Session.Reading
import Switchboard.Proofs.Session.Replies
import Switchboard.Proofs.Session.Routing
import Switchboard.Proofs.Session.Run
import Switchboard.Proofs.Session.Settling
import Switchboard.Proofs.Session.Soundness
import Switchboard.Proofs.Session.Timeouts
import Switchboard.Proofs.Session.Traffic
import Switchboard.Proofs.Session.Wire
import Switchboard.Proofs.Task.Changes
import Switchboard.Proofs.Task.Chronicle
import Switchboard.Proofs.Task.Cursor
import Switchboard.Proofs.Task.Expiry
import Switchboard.Proofs.Task.Frames
import Switchboard.Proofs.Task.Lifecycle
import Switchboard.Proofs.Task.Listing
import Switchboard.Proofs.Task.Minting
import Switchboard.Proofs.Task.Operations
import Switchboard.Proofs.Task.Requests
import Switchboard.Proofs.Task.Rounds
import Switchboard.Proofs.Task.Soundness
import Switchboard.Proofs.Task.Wire
import Switchboard.Proofs.Text.Order
import Switchboard.Proofs.Time.Calendar
import Switchboard.Proofs.Time.Reading
import Switchboard.Proofs.Writer
import Switchboard.RequestId
import Switchboard.Service.Basic
import Switchboard.Service.Job
import Switchboard.Session.Basic
import Switchboard.Session.Config
import Switchboard.Session.Future
import Switchboard.Session.Reading
import Switchboard.StreamFailure
import Switchboard.Sweeper
import Switchboard.Table
import Switchboard.Task.Basic
import Switchboard.Task.Cursor
import Switchboard.Task.Methods
import Switchboard.Task.Status
import Switchboard.Task.Store
import Switchboard.Text.Blank
import Switchboard.Text.Quoted
import Switchboard.Text.Unseen
import Switchboard.Text.Utf8
import Switchboard.Time.Calendar
import Switchboard.Time.Reader
import Switchboard.Time.Timestamp
import Switchboard.Writer
