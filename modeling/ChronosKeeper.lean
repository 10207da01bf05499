import ChronosKeeper.Foundations.MachineInt
import ChronosKeeper.Foundations.FiniteMap
import ChronosKeeper.Foundations.Transaction
import ChronosKeeper.Foundations.Postconditions
import ChronosKeeper.Foundations.TrapAgreement
import ChronosKeeper.Foundations.Run
import ChronosKeeper.Foundations.Commuting
import ChronosKeeper.Foundations.Token
import ChronosKeeper.Foundations.Decay
import ChronosKeeper.Foundations.Records
import ChronosKeeper.Foundations.Fields
import ChronosKeeper.Foundations.Program
import ChronosKeeper.Foundations.Interpretation
import ChronosKeeper.Foundations.Returns
import ChronosKeeper.Foundations.Pool
import ChronosKeeper.Foundations.Guarantees
import ChronosKeeper.Foundations.PartialTraces
import ChronosKeeper.Foundations.Broadcast
import ChronosKeeper.Foundations.Cost
import ChronosKeeper.Anchor.Types
import ChronosKeeper.Anchor.Registry
import ChronosKeeper.Anchor.Slashing
import ChronosKeeper.Anchor.Tasks
import ChronosKeeper.Anchor.Execution
import ChronosKeeper.Anchor.Contract
import ChronosKeeper.Anchor.Regions
import ChronosKeeper.Anchor.Invariants
import ChronosKeeper.Anchor.Records
import ChronosKeeper.Anchor.Accounting
import ChronosKeeper.Anchor.Schedule
import ChronosKeeper.Anchor.SlashHistory
import ChronosKeeper.Anchor.Eligibility
import ChronosKeeper.Anchor.Effects
import ChronosKeeper.Anchor.Windows
import ChronosKeeper.Anchor.Updates
import ChronosKeeper.Anchor.Signs
import ChronosKeeper.Anchor.Arbitration
import ChronosKeeper.Anchor.FourRegions
import ChronosKeeper.Anchor.Integrity
import ChronosKeeper.Anchor.History
import ChronosKeeper.Anchor.Acceptance
import ChronosKeeper.Anchor.Commutation
import ChronosKeeper.Anchor.EventLog
import ChronosKeeper.Anchor.Provisioning
import ChronosKeeper.Anchor.SlashRange
import ChronosKeeper.Anchor.RepeatedSlashes
import ChronosKeeper.Anchor.Rescheduling
import ChronosKeeper.Anchor.Profiles
import ChronosKeeper.Anchor.Audit
import ChronosKeeper.Anchor.Batches
import ChronosKeeper.Anchor.Payments
import ChronosKeeper.Anchor.Authority
import ChronosKeeper.Engine.Types
import ChronosKeeper.Engine.Pipeline
import ChronosKeeper.Engine.Discovery
import ChronosKeeper.Engine.Decision
import ChronosKeeper.Engine.Agreement
import ChronosKeeper.Engine.Confirmation
import ChronosKeeper.Engine.InFlight
import ChronosKeeper.Engine.Concurrency
import ChronosKeeper.Engine.Config
import ChronosKeeper.Engine.Validation
import ChronosKeeper.Engine.Backoff
import ChronosKeeper.Engine.Attempts
import ChronosKeeper.Engine.Retry
import ChronosKeeper.Engine.Routing
import ChronosKeeper.Engine.Poller
import ChronosKeeper.Engine.Polling
import ChronosKeeper.Engine.Visits
import ChronosKeeper.Engine.Rediscovery
import ChronosKeeper.Engine.Solo
import ChronosKeeper.Engine.Health
import ChronosKeeper.Engine.Node
import ChronosKeeper.Engine.Delivery
import ChronosKeeper.Engine.NodeSafety
import ChronosKeeper.Engine.Reports
import ChronosKeeper.Engine.Plan
import ChronosKeeper.Engine.Progress
import ChronosKeeper.Engine.Envelope
import ChronosKeeper.Engine.Bounds
