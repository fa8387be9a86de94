import Chronicle.Aggregate
import Chronicle.Aggregate.Calls
import Chronicle.AggregateType
import Chronicle.Bus.Basic
import Chronicle.Bus.Subscription
import Chronicle.Calendar
import Chronicle.Codec.Bytes
import Chronicle.Codec.Format
import Chronicle.Codec.Json
import Chronicle.Codec.Number
import Chronicle.Codec.Wire
import Chronicle.Command
import Chronicle.Completion.Tracker
import Chronicle.Completion.WaitingRoom
import Chronicle.CounterServer
import Chronicle.Counters
import Chronicle.Duration
import Chronicle.Engine.Hydration
import Chronicle.Engine.Send
import Chronicle.Engine.Settings
import Chronicle.Engine.World
import Chronicle.Event
import Chronicle.Fault
import Chronicle.Identity
import Chronicle.InPlace
import Chronicle.Mutator
import Chronicle.Mutator.Calls
import Chronicle.Projection
import Chronicle.Proofs.Aggregate.Play
import Chronicle.Proofs.Store.Calls
import Chronicle.Proofs.Store.Invariant
import Chronicle.Proofs.Store.Numbers
import Chronicle.Rebuild
import Chronicle.Registry
import Chronicle.Report.Basic
import Chronicle.Report.Encoding
import Chronicle.Report.Event
import Chronicle.Report.Failure
import Chronicle.Report.Naming
import Chronicle.Report.Settings
import Chronicle.Request.Basic
import Chronicle.Request.Event
import Chronicle.Request.Values
import Chronicle.Retry
import Chronicle.Sample.Account
import Chronicle.Sample.Balances
import Chronicle.Sample.Carrier
import Chronicle.Sample.Kit
import Chronicle.Sample.Scripted
import Chronicle.Sample.Sequence
import Chronicle.Snapshot.Policy
import Chronicle.Snapshot.Store
import Chronicle.Snapshot.Vault
import Chronicle.Store.Basic
import Chronicle.Store.Contended
import Chronicle.Store.Memory
import Chronicle.Store.Typed
import Chronicle.Stream
import Chronicle.Table
import Chronicle.Text.Blank
import Chronicle.Text.Integer
import Chronicle.Text.Quoted
import Chronicle.Text.Unprintable
import Chronicle.Timestamp
import Chronicle.Uuid
import Chronicle.Proofs.Aggregate.Lifecycle
import Chronicle.Proofs.Engine.Phases
import Chronicle.Proofs.Engine.Clients
import Chronicle.Proofs.Engine.Histories
import Chronicle.Proofs.Engine.Atomicity
import Chronicle.Proofs.Engine.Faithful
import Chronicle.Proofs.Engine.Replay
import Chronicle.Proofs.Store.Unnamed
import Chronicle.Proofs.Engine.Alone
import Chronicle.Proofs.Engine.Concurrent
import Chronicle.Proofs.Codec.Binary
import Chronicle.Proofs.Sample.Sequence
import Chronicle.Proofs.Store.Pages
import Chronicle.Proofs.Bus.Publication
import Chronicle.Proofs.Registry
import Chronicle.Proofs.Rebuild.Rounds
import Chronicle.Proofs.Rebuild.Complete
import Chronicle.Proofs.Rebuild.Resume
import Chronicle.Proofs.Codec.Document
import Chronicle.Proofs.Sample.Account
import Chronicle.Proofs.Engine.Announce
import Chronicle.Proofs.Rebuild.Live
import Chronicle.Proofs.Store.Scope
import Chronicle.Proofs.Bus.Impartial
import Chronicle.Proofs.Engine.Scope
import Chronicle.Proofs.Engine.Isolation
import Chronicle.Proofs.Engine.Ownership
import Chronicle.Proofs.Completion.Views
import Chronicle.Proofs.Completion.Waits
import Chronicle.Proofs.Completion.Rooms
import Chronicle.Proofs.Completion.Publishing
import Chronicle.Proofs.Engine.Tracked
import Chronicle.Proofs.Retry
import Chronicle.Proofs.Retry.Calls
import Chronicle.Proofs.Retry.Delays
import Chronicle.Proofs.Engine.Attempts
import Chronicle.Proofs.Engine.Retrying
import Chronicle.Proofs.Engine.Laws
import Chronicle.Proofs.Engine.Outcome
import Chronicle.Proofs.Engine.Governed
import Chronicle.Proofs.Counters
import Chronicle.Proofs.Engine.Counted
import Chronicle.Proofs.Rebuild.Stages
import Chronicle.Proofs.Engine.Service
import Chronicle.Proofs.Mutator
import Chronicle.Proofs.Sample.Ledger
import Chronicle.Proofs.Sample.AccountLog
import Chronicle.Proofs.Sample.Overflow
import Chronicle.Proofs.Sample.Balances
import Chronicle.Proofs.Sample.Banking
import Chronicle.Proofs.Engine.Conditions
import Chronicle.Proofs.Engine.Ready
import Chronicle.Proofs.Engine.Twins
import Chronicle.Proofs.Sample.SequenceModel
import Chronicle.Proofs.Sample.Configuration
import Chronicle.Proofs.Codec.Lookahead
import Chronicle.Proofs.Codec.Unclosed
import Chronicle.Proofs.Engine.Damaged
import Chronicle.Proofs.Timestamp
import Chronicle.Proofs.Sample.Truncated
import Chronicle.Proofs.Codec.RoundTrip
import Chronicle.Proofs.Sample.Translation
import Chronicle.Proofs.Sample.Kept
import Chronicle.Proofs.Engine.Delivery
import Chronicle.Proofs.Store.Failed
import Chronicle.Proofs.VersionRange
import Chronicle.Proofs.Store.Ranges
import Chronicle.Proofs.Store.Slices
import Chronicle.Proofs.Codec.Printed
import Chronicle.Proofs.Codec.Apart
import Chronicle.Proofs.Engine.Encoded
import Chronicle.Proofs.Sample.OtherCodec
import Chronicle.Proofs.Aggregate.Calls
import Chronicle.Proofs.Aggregate.Buffer
import Chronicle.Proofs.Aggregate.Rejection
import Chronicle.Proofs.Aggregate.Expected
import Chronicle.Proofs.Registrations
import Chronicle.Proofs.TypeTags
import Chronicle.Proofs.Bus.Dispatch
import Chronicle.Proofs.Snapshot.Cell
import Chronicle.Proofs.Snapshot.Expiry
import Chronicle.Proofs.Engine.Cadence
import Chronicle.Proofs.Codec.Reading
import Chronicle.Proofs.Results
import Chronicle.Proofs.Sample.Branches
import Chronicle.Proofs.Sample.Total
