import Athar.Lib.Ascii
import Athar.Lib.Assoc
import Athar.Lib.Calendar
import Athar.Lib.Comparison
import Athar.Lib.Digits
import Athar.Lib.Entries
import Athar.Lib.Falls
import Athar.Lib.FirstMatch
import Athar.Lib.Grouping
import Athar.Lib.Incremental
import Athar.Lib.Lines
import Athar.Lib.Lru
import Athar.Lib.Queues
import Athar.Lib.Recent
import Athar.Lib.Records
import Athar.Lib.Run
import Athar.Lib.Scopes
import Athar.Lib.Sustained
import Athar.Lib.Tickets
import Athar.Lib.Unwinding
import Athar.Audit.Impl.Basic
import Athar.Audit.Impl.Persistence
import Athar.Audit.Impl.Writer
import Athar.Audit.Lemmas.Chain
import Athar.Audit.Lemmas.Persistence
import Athar.Audit.Lemmas.Record
import Athar.Audit.Lemmas.Writer
import Athar.Audit.Instance
import Athar.Audit.WriteFailure
import Athar.Audit.Completeness
import Athar.Audit.Reopen
import Athar.Audit.Tamper
import Athar.Audit.ExactIndex
import Athar.Audit.Kept
import Athar.Audit.Encoding
import Athar.Event.Impl
import Athar.Event.Impl.Deserialize
import Athar.Event.Impl.Schema
import Athar.Event.Lemmas
import Athar.Event.Formats
import Athar.Event.Records
import Athar.Event.SchemaAgreement
import Athar.Lifecycle.Impl.Types
import Athar.Lifecycle.Impl.Engine
import Athar.Lifecycle.Impl.Statements
import Athar.Lifecycle.Lemmas.Store
import Athar.Lifecycle.Lemmas.Engine
import Athar.Lifecycle.Calls
import Athar.Lifecycle.Closed
import Athar.Lifecycle.SweepRace
import Athar.Lifecycle.Sweep
import Athar.Lifecycle.TenantIsolation
import Athar.Lifecycle.TenantView
import Athar.Lifecycle.Redelivery
import Athar.Lifecycle.LateEvents
import Athar.Lifecycle.Sole
import Athar.Lifecycle.ArrivalOrder
import Athar.Lifecycle.Splitting
import Athar.Lifecycle.Interchange
import Athar.Lifecycle.Bindings
import Athar.Lifecycle.Lineage
import Athar.Lifecycle.Tiers
import Athar.Lifecycle.ResourceType
import Athar.Lifecycle.KnownKeys
import Athar.Lifecycle.ModelHistory
import Athar.Lifecycle.WellFormed
import Athar.Governor.Impl
import Athar.Governor.Lemmas
import Athar.Governor.Recorded
import Athar.Governor.Soundness
import Athar.Governor.Deadman
import Athar.Governor.Recovery
import Athar.Storage.Impl
import Athar.Storage.Lemmas
import Athar.Storage.Segments
import Athar.Storage.Directory
import Athar.Storage.Tracking
import Athar.Storage.Calls
import Athar.Storage.Accounting
import Athar.Storage.SegmentIds
import Athar.Storage.Process
import Athar.Storage.TornWrites
import Athar.Storage.ReadBack
import Athar.Storage.Grammar
import Athar.Ingest.Impl
import Athar.Ingest.Impl.Detection
import Athar.Ingest.Impl.Timestamp
import Athar.Ingest.Lemmas
import Athar.Ingest.NoSilentLoss
import Athar.Ingest.GapEmission
import Athar.Ingest.Impl.Atomics
import Athar.Ingest.Atomics
import Athar.Ingest.Idempotent
import Athar.Ingest.StatusQuery
import Athar.Ingest.Timestamp
import Athar.Daemon.Impl
import Athar.Daemon.Lemmas
import Athar.Daemon.Evidence
import Athar.Daemon.Impl.Installation
import Athar.Daemon.Durability
import Athar.Daemon.CleanStop
import Athar.Daemon.Eviction
import Athar.Daemon.Impl.Watcher
import Athar.Daemon.Reports
import Athar.Detection.Enforcement
import Athar.Detection.Impl.Trackers
import Athar.Detection.Impl.SignalEngine
import Athar.Detection.Impl.Decision
import Athar.Detection.Impl.PolicyReload
import Athar.Detection.Impl.Store
import Athar.Detection.History
import Athar.Detection.TenantIsolation
import Athar.Detection.Velocity
import Athar.Detection.Targets
import Athar.Detection.Growth
import Athar.Detection.Recency
import Athar.Detection.Decision
import Athar.Detection.PolicyReload
import Athar.Detection.Store
import Athar.Detection.Recount
import Athar.Daemon.Decisions
import Athar.Shim.Impl.EventMapper
import Athar.Shim.Impl.Middleware
import Athar.Shim.Impl.Php
import Athar.Shim.Impl.Redact
import Athar.Shim.Impl.Runtime
import Athar.Shim.Impl.Ulid
import Athar.Shim.Lemmas.Redact
import Athar.Shim.Lemmas.Encode
import Athar.Shim.Lemmas.Names
import Athar.Shim.Lemmas.Prune
import Athar.Shim.Secrets
import Athar.Shim.Accounting
import Athar.Shim.Overflow
import Athar.Shim.Stripping
import Athar.Shim.Lemmas.Assoc
import Athar.Shim.Allowlist
import Athar.Shim.Correlation
import Athar.Shim.Ulid
import Athar.Spool.Impl
import Athar.Spool.Lemmas
import Athar.Spool.Held
import Athar.Spool.ExactlyOnce
import Athar.Spool.HandOff
import Athar.Cli.Impl
import Athar.Cli.Doctor
import Athar.Wire.Impl
import Athar.Wire.Impl.Evaluate
import Athar.Wire.Delivery
import Athar.Wire.Custody
import Athar.Wire.Deployment
import Athar.Wire.Evaluate
import Athar.Wire.Context
import Athar.Wire.Observation
import Athar.Wire.Meaning
