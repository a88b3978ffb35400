import TwinServer.Base.Json
import TwinServer.Base.Number
import TwinServer.Base.Text
import TwinServer.Base.Records
import TwinServer.Base.Pointer
import TwinServer.Base.Csv
import TwinServer.Base.Errors
import TwinServer.Base.Topic
import TwinServer.Base.Async
import TwinServer.Base.Program
import TwinServer.Base.Pool
import TwinServer.Sharing.Filter
import TwinServer.Sharing.Noninterference
import TwinServer.Sharing.Narrowing
import TwinServer.Sharing.Visibility
import TwinServer.Sharing.Normalization
import TwinServer.Sharing.UpdateOrder
import TwinServer.Commands.Dispatch
import TwinServer.Commands.Status
import TwinServer.Commands.Authenticity
import TwinServer.Commands.Store
import TwinServer.Security.TenantRegistry
import TwinServer.Security.DeviceCredentials
import TwinServer.Ledger.Submission
import TwinServer.Idempotency.Exclusive
import TwinServer.Idempotency.Replay
import TwinServer.Idempotency.Tenants
import TwinServer.Idempotency.Refinement
import TwinServer.Ingestion.Conservation
import TwinServer.Ingestion.Ambiguity
import TwinServer.Ingestion.SingleFlight
import TwinServer.Ingestion.Keys
import TwinServer.Sharing.Admission
import TwinServer.Thread.Range
import TwinServer.Thread.Filters
import TwinServer.Base.Base64
import TwinServer.Thread.Pagination
import TwinServer.Cleanup.Runs
import TwinServer.Retention.Newest
import TwinServer.Storage.Routing
import TwinServer.Storage.UriMapping
import TwinServer.Storage.Integrity
import TwinServer.Retention.Fresh
import TwinServer.Retention.Pass
import TwinServer.Objectid.Publisher
import TwinServer.Objectid.Hashes
import TwinServer.Evidence.Validation
import TwinServer.Evidence.Soundness
import TwinServer.Evidence.Totality
import TwinServer.Sharing.PublicAccess
import TwinServer.Sharing.OwnersView
import TwinServer.Plants.Creation
import TwinServer.Plants.Privacy
import TwinServer.Base.Logged
import TwinServer.Api.Mutations
import TwinServer.Api.Accounting
import TwinServer.Plants.NodeCreation
import TwinServer.Base.Aead
import TwinServer.Plants.Catalog
import TwinServer.Plants.Blobs
import TwinServer.Plants.Store
import TwinServer.Plants.Bindings
import TwinServer.Plants.Uniqueness
import TwinServer.Plants.Service
import TwinServer.Plants.Linearization
import TwinServer.Plants.Integrity
import TwinServer.Base.Latest
import TwinServer.Realtime.Hub
import TwinServer.Sharing.Realtime
import TwinServer.Realtime.Shared
import TwinServer.Realtime.Public
import TwinServer.Realtime.Management
import TwinServer.Base.Map
import TwinServer.Twin.Aggregator
import TwinServer.Twin.Conservation
import TwinServer.Security.Authentication
import TwinServer.Security.Blocks
import TwinServer.Security.Revocation
import TwinServer.Connectors.AiAnalysis
import TwinServer.Connectors.AiFreshness
import TwinServer.Connectors.AiRate
import TwinServer.Connectors.TenantTopics
import TwinServer.Evidence.Export
import TwinServer.Evidence.Snapshots
import TwinServer.Evidence.Completeness
import TwinServer.Evidence.Enumeration
import TwinServer.Base.Date
import TwinServer.Sharing.Datasets
import TwinServer.Sharing.Formats
import TwinServer.Base.Links
import TwinServer.Sharing.Signer
import TwinServer.Realtime.Position
import TwinServer.Devices.Schema
import TwinServer.Devices.Extraction
import TwinServer.Realtime.Coercion
import TwinServer.Devices.Positions
import TwinServer.Base.Search
import TwinServer.Resolver.Service
import TwinServer.Maturity.Engine
import TwinServer.Maturity.Reproducibility
import TwinServer.Ledger.Aborts
import TwinServer.Security.Shadowing
import TwinServer.Api.ConnectorAccess
import TwinServer.Policy.Engine
import TwinServer.Policy.Authorizer
import TwinServer.Plants.Migration
import TwinServer.Devices.Workbench
import TwinServer.Devices.Records
import TwinServer.Devices.Creation
import TwinServer.Devices.Credentials
import TwinServer.Devices.Rotation
import TwinServer.Devices.RotationRules
import TwinServer.Devices.RotationCalls
import TwinServer.Devices.FailClosed
import TwinServer.Connectors.TopicFilters
import TwinServer.Realtime.Subscriptions
import TwinServer.Base.Cipher
import TwinServer.Files.Envelope
import TwinServer.Files.Service
import TwinServer.Files.Writing
import TwinServer.Files.Storing
import TwinServer.Files.Reading
import TwinServer.Files.Listing
import TwinServer.Files.Runs
import TwinServer.Files.Integrity
import TwinServer.Files.Binding
