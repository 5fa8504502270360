import GmvPjsip.Basic
import GmvPjsip.Lib.Framing
import GmvPjsip.Lib.RustStr
import GmvPjsip.Lib.Search
import GmvPjsip.Framer.Message
import GmvPjsip.Framer.Chunking
import GmvPjsip.Framer.RoundTrip
import GmvPjsip.Framer.Overflow
import GmvPjsip.Transport.Receive
import GmvPjsip.Transport.Reassembly
import GmvPjsip.Auth.Message
import GmvPjsip.Auth.Nonce
import GmvPjsip.Auth.Order
import GmvPjsip.Auth.Runtime
import GmvPjsip.Auth.Machine
import GmvPjsip.Auth.Spec
import GmvPjsip.Auth.Moves
import GmvPjsip.Auth.Arrivals
import GmvPjsip.Auth.Resolution
import GmvPjsip.Auth.Soundness
import GmvPjsip.Auth.Server
import GmvPjsip.Auth.Replay
import GmvPjsip.Auth.Coalescing
import GmvPjsip.Auth.Ordering
import GmvPjsip.Access.Grants
import GmvPjsip.Access.Permits
import GmvPjsip.Access.Dispatch
import GmvPjsip.Access.Feedback
import GmvPjsip.Commands.Payload
import GmvPjsip.Commands.Queues
import GmvPjsip.Commands.Once
import GmvPjsip.Commands.Order
import GmvPjsip.Transport.Associations
import GmvPjsip.Io.Command
import GmvPjsip.Io.Drain
import GmvPjsip.Io.Registrar
import GmvPjsip.Io.Tasks
import GmvPjsip.Transport.Sends
import GmvPjsip.Io.Reports
import GmvPjsip.Transport.Completions
import GmvPjsip.Transport.Bounds
import GmvPjsip.Calls.Callbacks
import GmvPjsip.Transport.Closing
import GmvPjsip.Calls.Scan
import GmvPjsip.Calls.Requests
import GmvPjsip.Calls.Books
import GmvPjsip.Calls.Changes
import GmvPjsip.Calls.Overtaking
import GmvPjsip.Calls.Restored
import GmvPjsip.Calls.Lookup
import GmvPjsip.Calls.Route
import GmvPjsip.Subscriptions.Machine
import GmvPjsip.Subscriptions.Changes
import GmvPjsip.Subscriptions.Attribution
import GmvPjsip.Calls.Reclaim
import GmvPjsip.Subscriptions.Reclaim
import GmvPjsip.Calls.Faults
import GmvPjsip.Subscriptions.Faults
import GmvPjsip.Business.Messages
import GmvPjsip.Business.Dispatch
import GmvPjsip.Snapshots.Model
import GmvPjsip.Snapshots.RoundTrip
import GmvPjsip.Access.Recording
import GmvPjsip.Subscriptions.Rollback
import GmvPjsip.Access.Atomic
import GmvPjsip.Auth.NonceStore
import GmvPjsip.Access.Eviction
import GmvPjsip.Auth.Stale
import GmvPjsip.Access.Suppression
import GmvPjsip.Framer.Shim
import GmvPjsip.Framer.Values
import GmvPjsip.Framer.Agreement
import GmvPjsip.Framer.Spelling
import GmvPjsip.Commands.Cseq
import GmvPjsip.Gb28181.Sdp
import GmvPjsip.Message.Headers
import GmvPjsip.Digest.Parsing
import GmvPjsip.Digest.Nonces
import GmvPjsip.Digest.Verify
import GmvPjsip.Gb28181.Xml
import GmvPjsip.Lib.Memory
import GmvPjsip.Snapshots.Routes
import GmvPjsip.Calls.ScanLoop
import GmvPjsip.Io.Logging
import GmvPjsip.Lib.Holds
import GmvPjsip.Lifetimes.Records
import GmvPjsip.Lifetimes.Cycle
import GmvPjsip.Exchange.Sends
import GmvPjsip.Io.Arrivals
