import Anemoi.Systems.Table
import Anemoi.Systems.Program
import Anemoi.Systems.Logic
import Anemoi.Systems.Closing
import Anemoi.Systems.Ranking
import Anemoi.Systems.WrappingSum
import Anemoi.Systems.Machine
import Anemoi.Systems.Refinement
import Anemoi.Systems.Alternatives
import Anemoi.Systems.Framing
import Anemoi.Systems.Pool
import Anemoi.Systems.Interference
import Anemoi.Systems.Phases
import Anemoi.Systems.Upsert
import Anemoi.Text.Hex
import Anemoi.Text.Alphabetic
import Anemoi.Text.ModelName
import Anemoi.Text.Lines
import Anemoi.Core.Types
import Anemoi.Core.Config
import Anemoi.Core.Governance
import Anemoi.Core.Merging
import Anemoi.Core.GovernanceWarnings
import Anemoi.Runtime.Matrix
import Anemoi.Runtime.MatrixLanguage
import Anemoi.Runtime.EventStream
import Anemoi.Runtime.Metrics
import Anemoi.Runtime.MemoryReadings
import Anemoi.Policy.Transition.Coordinator
import Anemoi.Policy.Transition.Fencing
import Anemoi.Policy.Transition.Leases
import Anemoi.Policy.Transition.Precedence
import Anemoi.Policy.Transition.Joiners
import Anemoi.Policy.Candidates
import Anemoi.Policy.Pressure
import Anemoi.Policy.PressureReadings
import Anemoi.Policy.Scoring
import Anemoi.Policy.ParameterClasses
import Anemoi.Policy.Scheduler
import Anemoi.Policy.QualityFloor
import Anemoi.Policy.Soundness
import Anemoi.Policy.Rosters
import Anemoi.Policy.Selection
import Anemoi.Policy.Accounting
import Anemoi.Policy.Magnitudes
import Anemoi.Policy.StagedPairs
import Anemoi.Policy.Validation
import Anemoi.Policy.Metadata
import Anemoi.Policy.Eviction
import Anemoi.Policy.EvictionOrder
import Anemoi.Telemetry.DecisionLog
import Anemoi.Telemetry.Durability
import Anemoi.Telemetry.Sqlite
import Anemoi.Telemetry.Agreement
import Anemoi.Daemon.Reconciler
import Anemoi.Daemon.Staging
import Anemoi.Daemon.Governance
import Anemoi.Daemon.Persistence
import Anemoi.Daemon.Edits
import Anemoi.Daemon.Integrity
import Anemoi.Daemon.Effects
import Anemoi.Daemon.AppState
import Anemoi.Daemon.Gateway
import Anemoi.Daemon.Operations
import Anemoi.Daemon.Decisions
import Anemoi.Daemon.LiveGate
import Anemoi.Daemon.Evidence
import Anemoi.Daemon.Protection
import Anemoi.Daemon.Terminal
import Anemoi.Daemon.Readiness
import Anemoi.Daemon.Footprints
import Anemoi.Daemon.EscalationCache
import Anemoi.Daemon.Calls
import Anemoi.Daemon.Handoff
import Anemoi.Daemon.Transitions
import Anemoi.Daemon.Waiting
import Anemoi.Daemon.Leftovers
import Anemoi.Policy.Transition.Isolation
import Anemoi.Daemon.Overlap
import Anemoi.Daemon.Retention
import Anemoi.Daemon.StagedLoads
import Anemoi.Daemon.ResidentLog
import Anemoi.Daemon.CacheHistory
import Anemoi.Policy.Transition.SingleLoads
import Anemoi.Policy.Transition.Admission
import Anemoi.Runtime.Residents
import Anemoi.Runtime.StatusStream
import Anemoi.Runtime.Mock
import Anemoi.Runtime.Adapters
import Anemoi.Runtime.SampleLines
import Anemoi.Runtime.Exposition
import Anemoi.Systems.Cutting
import Anemoi.Text.ParameterScan
import Anemoi.Policy.ModelIds
import Anemoi.Runtime.MatrixDescent
import Anemoi.Runtime.MatrixMalformed
import Anemoi.Telemetry.ResidentHistory
import Anemoi.Telemetry.FailedAppends
import Anemoi.Daemon.Refusals
import Anemoi.Daemon.TokenEstimate
import Anemoi.Systems.Regex
import Anemoi.Core.EnvVars
import Anemoi.Daemon.Fleet
import Anemoi.Daemon.ResidencyTruth
import Anemoi.Daemon.Unloading
import Anemoi.Daemon.Restarts
import Anemoi.Daemon.Provenance
import Anemoi.Daemon.Progress
import Anemoi.Daemon.PolicyApi
import Anemoi.Daemon.EditScope
import Anemoi.Policy.Scope
import Anemoi.Policy.Escalation
import Anemoi.Daemon.MatrixGate
import Anemoi.Daemon.Journal
