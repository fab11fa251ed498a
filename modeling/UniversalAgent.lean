import UniversalAgent.Foundation.Table
import UniversalAgent.Foundation.Machine
import UniversalAgent.Foundation.Text
import UniversalAgent.Foundation.Effect
import UniversalAgent.Foundation.Except
import UniversalAgent.Core.Json
import UniversalAgent.Core.Models
import UniversalAgent.Evidence.Store
import UniversalAgent.World.Model
import UniversalAgent.Tasks.Manager
import UniversalAgent.State.Session
import UniversalAgent.State.Copy
import UniversalAgent.State.Store
import UniversalAgent.Runtime.Session
import UniversalAgent.Runtime.Transitions
import UniversalAgent.Runtime.Rejection
import UniversalAgent.Runtime.Emission
import UniversalAgent.Runtime.Journal
import UniversalAgent.Runtime.Suspension
import UniversalAgent.Persistence.RoundTrip
import UniversalAgent.State.EventStore
import UniversalAgent.Persistence.Stores
import UniversalAgent.Persistence.Rewriting
import UniversalAgent.World.Sessions
import UniversalAgent.Runtime.InitialState
import UniversalAgent.Runtime.Processing
import UniversalAgent.Runtime.Isolation
import UniversalAgent.Runtime.Replay
import UniversalAgent.Runtime.Watching
import UniversalAgent.Security.Principal
import UniversalAgent.Security.Credentials
import UniversalAgent.Security.Authority
import UniversalAgent.Persistence.CredentialTables
import UniversalAgent.Persistence.CredentialRefinement
import UniversalAgent.Distributed.QueueModels
import UniversalAgent.Distributed.QueueMemory
import UniversalAgent.Distributed.QueueEdits
import UniversalAgent.Distributed.QueueInvariants
import UniversalAgent.Distributed.QueueAliasing
import UniversalAgent.Distributed.QueueRefinement
import UniversalAgent.Distributed.Worker
import UniversalAgent.Distributed.Scheduler
import UniversalAgent.Distributed.Locks
import UniversalAgent.Distributed.LockSafety
import UniversalAgent.Distributed.LockEffects
import UniversalAgent.Distributed.LocksDurable
import UniversalAgent.Distributed.LocksRefinement
import UniversalAgent.Distributed.HealthSweeps
import UniversalAgent.Persistence.FileStore
import UniversalAgent.Persistence.FileRecovery
import UniversalAgent.Persistence.Versions
import UniversalAgent.Persistence.OutboxLeases
import UniversalAgent.Persistence.OutboxPublishing
import UniversalAgent.Foundation.TopologicalSorter
import UniversalAgent.MultiAgent.Contracts
import UniversalAgent.MultiAgent.Delegations
import UniversalAgent.MultiAgent.DelegationRuns
import UniversalAgent.MultiAgent.Registry
import UniversalAgent.MultiAgent.DelegationState
import UniversalAgent.MultiAgent.Orchestrator
import UniversalAgent.MultiAgent.OrchestratorSteps
import UniversalAgent.MultiAgent.Settlement
import UniversalAgent.MultiAgent.Instances
import UniversalAgent.MultiAgent.Limits
import UniversalAgent.MultiAgent.Batch
import UniversalAgent.MultiAgent.BatchWaves
import UniversalAgent.MultiAgent.BatchRuns
import UniversalAgent.MultiAgent.BatchScheduling
import UniversalAgent.Domains.GitCommit
import UniversalAgent.Domains.SqlQueries
import UniversalAgent.Evaluation.JournalFolds
import UniversalAgent.Service.StateEventRepair
import UniversalAgent.Service.GoalWork
import UniversalAgent.Context.KeyAccounting
import UniversalAgent.Context.Budget
import UniversalAgent.Context.Sections
import UniversalAgent.Security.Redaction
import UniversalAgent.Runtime.ReplayIsolation
import UniversalAgent.Memory.Consolidation
import UniversalAgent.Persistence.TenantIsolation
import UniversalAgent.Persistence.MemoryIsolation
import UniversalAgent.Memory.Durability
import UniversalAgent.State.EventAgreement
import UniversalAgent.Agentd.Authentication
import UniversalAgent.Agentd.PathAgreement
import UniversalAgent.Domain.Authority
import UniversalAgent.Runtime.PolicyGate
import UniversalAgent.World.EntityAttributes
import UniversalAgent.World.RelationGraph
import UniversalAgent.World.SingleDomain
import UniversalAgent.Tasks.Expansion
import UniversalAgent.Recovery.Budgets
import UniversalAgent.Runtime.Fingerprints
import UniversalAgent.Runtime.SignalDelivery
import UniversalAgent.Distributed.WorkersRefinement
import UniversalAgent.Persistence.SessionPages
import UniversalAgent.MultiAgent.Resolution
import UniversalAgent.MultiAgent.Merge
import UniversalAgent.MultiAgent.RegistryCodec
import UniversalAgent.Domains.WorkspaceSearch
import UniversalAgent.Ecosystem.Discovery
import UniversalAgent.Ecosystem.Installation
import UniversalAgent.Memory.Preferences
import UniversalAgent.Security.Audit
import UniversalAgent.Model.Router
import UniversalAgent.Service.Timeline
import UniversalAgent.Operations.AuditChain
import UniversalAgent.Runtime.ResourceKeys
import UniversalAgent.Profile.MergePatch
