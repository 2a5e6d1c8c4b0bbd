import FlowSplice.Lib.Machine
import FlowSplice.Lib.Cells
import FlowSplice.Lib.Chunks
import FlowSplice.Lib.Transfer
import FlowSplice.Lib.TransferOrder
import FlowSplice.Lib.TransferEnds
import FlowSplice.Lib.Log
import FlowSplice.Lib.Publication
import FlowSplice.Lib.History
import FlowSplice.Lib.HighWater
import FlowSplice.Lib.Slots
import FlowSplice.Protocol
import FlowSplice.Flow.Queue
import FlowSplice.Flow.Travel
import FlowSplice.Flow.Home
import FlowSplice.Flow.System
import FlowSplice.Flow.Cases
import FlowSplice.Flow.Wiring
import FlowSplice.Flow.Refinement
import FlowSplice.Flow.Delivery
import FlowSplice.Flow.Links
import FlowSplice.Flow.Handover
import FlowSplice.Flow.Agreement
import FlowSplice.Flow.Instance
import FlowSplice.Deployment.Trust
import FlowSplice.Control.Snapshot
import FlowSplice.Control.Trust
import FlowSplice.Control.Apply
import FlowSplice.Control.Rollback
import FlowSplice.Control.History
import FlowSplice.Control.Restart
import FlowSplice.Control.View
import FlowSplice.Authorization.Credential
import FlowSplice.Authorization.Server
import FlowSplice.Authorization.Followers
import FlowSplice.Authorization.CacheRecovery
import FlowSplice.Lib.Keyed
import FlowSplice.Authorization.Queries
import FlowSplice.Server.Catalog
import FlowSplice.Server.Directory
import FlowSplice.Server.Publication
import FlowSplice.Server.RelaySessions
import FlowSplice.Server.Registries
import FlowSplice.Server.Travels
import FlowSplice.Server.Reads
import FlowSplice.Server.Signing
import FlowSplice.Server.EnrollmentAnswers
import FlowSplice.Server.EnrollmentDeadlines
import FlowSplice.Server.EnrollmentOrigins
import FlowSplice.Server.Enrollments
import FlowSplice.Server.Grants
import FlowSplice.Home.Admission
import FlowSplice.Home.ClassTargets
import FlowSplice.Home.Revocation
import FlowSplice.Relay.System
import FlowSplice.Relay.Authorization
import FlowSplice.Relay.Routes
import FlowSplice.Authorization.Enrollment
import FlowSplice.Server.Broadcast
import FlowSplice.Server.Current
import FlowSplice.Relay.Requests
import FlowSplice.Routing.System
import FlowSplice.Routing.Invariant
import FlowSplice.Routing.Isolation
import FlowSplice.Lib.BigEndian
import FlowSplice.Lib.Framing
import FlowSplice.Frame.Codec
import FlowSplice.Frame.Reader
import FlowSplice.Frame.RoundTrip
import FlowSplice.Frame.Carrier
import FlowSplice.Lib.SocketAddr
import FlowSplice.Server.Reports
import FlowSplice.Server.Signable
import FlowSplice.Control.Offline
import FlowSplice.Issuance.Envelope
import FlowSplice.Issuance.Ledger
import FlowSplice.Issuance.Publish
import FlowSplice.Lib.Directory
import FlowSplice.KeyRotation.System
import FlowSplice.KeyRotation.Recovery
import FlowSplice.Statistics.Metric
import FlowSplice.Statistics.System
import FlowSplice.Statistics.Counting
import FlowSplice.Statistics.Conservation
import FlowSplice.Statistics.Delivery
import FlowSplice.Server.Logins
import FlowSplice.Home.Attach
import FlowSplice.Home.Tasks
import FlowSplice.Home.ServiceListeners
import FlowSplice.Home.Drain
import FlowSplice.Home.ControlSession
import FlowSplice.Statistics.Outbox
import FlowSplice.Statistics.Pipeline
import FlowSplice.Server.HomeEnrollments
import FlowSplice.Server.HomeGrants
import FlowSplice.Server.HomeSessions
import FlowSplice.Flow.Recovery
import FlowSplice.Flow.HomeReader
import FlowSplice.Mappings.Atomicity
import FlowSplice.Udp.Association
import FlowSplice.Udp.Progress
import FlowSplice.Relay.Waiters
import FlowSplice.Statistics.Rollup
import FlowSplice.Statistics.Keys
import FlowSplice.Issuance.HomeEnvelope
import FlowSplice.Inbox.Travel
import FlowSplice.Inbox.Home
import FlowSplice.Inbox.Retention
import FlowSplice.Lib.Distinct
import FlowSplice.Flow.Race
import FlowSplice.Lib.Splice
import FlowSplice.Issuance.Validation
import FlowSplice.Issuance.Directed
import FlowSplice.Issuance.Binding
import FlowSplice.Issuance.HomeBinding
import FlowSplice.Issuance.HomeIssue
import FlowSplice.Issuance.HomeAgreement
import FlowSplice.Issuance.FirstRequest
import FlowSplice.Issuance.FirstAcceptance
import FlowSplice.Outbox.Undisturbed
