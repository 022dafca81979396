import RlmGraph.Lib.JsonText
import RlmGraph.Lib.HashChain
import RlmGraph.Claims.Integrity
import RlmGraph.Store.LeaseRuns
import RlmGraph.Claims.Ledger
import RlmGraph.Governance.Policy
import RlmGraph.Governance.ArtifactKinds
import RlmGraph.Governance.Evaluation
import RlmGraph.Lib.Programs
import RlmGraph.Sandbox.Records
import RlmGraph.Sandbox.Operations
import RlmGraph.Sandbox.Approval
import RlmGraph.Sandbox.Promote
import RlmGraph.Sandbox.Recover
import RlmGraph.Sandbox.Confinement
import RlmGraph.Scheduler.Effects
import RlmGraph.Scheduler.ClaimPaths
import RlmGraph.Scheduler.Limits
import RlmGraph.Scheduler.Lifecycle
import RlmGraph.Scheduler.Interleaving
import RlmGraph.Lib.Pool
import RlmGraph.Workspace.Controller
import RlmGraph.Workspace.Guard
import RlmGraph.Lib.Chains
import RlmGraph.Lib.Rows
import RlmGraph.Claims.Records
import RlmGraph.Claims.Histories
import RlmGraph.Claims.Progress
import RlmGraph.Claims.Supersession
import RlmGraph.Claims.Authentication
import RlmGraph.Claims.Loss
import RlmGraph.Authority.Keyring
import RlmGraph.Lib.Dependents
import RlmGraph.Tasks.Graph
import RlmGraph.Tasks.Dependencies
import RlmGraph.Tasks.Leases
import RlmGraph.Tickets.Evidence
import RlmGraph.Tickets.Eligibility
import RlmGraph.Tickets.Manager
import RlmGraph.Tickets.Justified
import RlmGraph.Lib.Updates
import RlmGraph.Tickets.Updates
import RlmGraph.Sandbox.Standing
import RlmGraph.Sandbox.Lifecycle
import RlmGraph.Runner.Executors
import RlmGraph.Runner.Pursue
import RlmGraph.Runner.Budget
import RlmGraph.Lib.Interleavings
import RlmGraph.Memory.Branches
import RlmGraph.Memory.Conversation
import RlmGraph.Memory.Facts
import RlmGraph.Lib.Corrections
import RlmGraph.Memory.Chat
import RlmGraph.Memory.Lines
import RlmGraph.Memory.Commits
import RlmGraph.Memory.Turns
import RlmGraph.Memory.Retries
import RlmGraph.Memory.Forks
import RlmGraph.Memory.OneFact
import RlmGraph.Memory.Support
import RlmGraph.Memory.ProjectWorld
import RlmGraph.Knowledge.Derived
import RlmGraph.Lib.Logs
import RlmGraph.Routing.Policy
import RlmGraph.Investigation.Recursive
import RlmGraph.Claims.Order
import RlmGraph.Knowledge.Lessons
import RlmGraph.Knowledge.DocumentLearning
import RlmGraph.Knowledge.LearningRuns
import RlmGraph.Lib.JsonLines
import RlmGraph.Memory.Continuity
import RlmGraph.Memory.ContinuityRuns
import RlmGraph.Autonomy.Deliberation
import RlmGraph.Autonomy.Preparation
import RlmGraph.Autonomy.Execution
import RlmGraph.Autonomy.Bounds
import RlmGraph.Autonomy.Calls
import RlmGraph.Tasks.Invalidation
import RlmGraph.Governance.KindCase
import RlmGraph.Sandbox.Gates
import RlmGraph.Sandbox.Workers
import RlmGraph.Scheduler.Disposal
import RlmGraph.Authority.Sessions
import RlmGraph.Sandbox.Capture
import RlmGraph.Lib.Lines
import RlmGraph.Lib.Splices
import RlmGraph.Memory.Symbols
import RlmGraph.Lib.Search
import RlmGraph.Memory.Reconstruction
import RlmGraph.Projects.Index
import RlmGraph.Projects.Slices
import RlmGraph.Projects.SourceRecord
import RlmGraph.Lib.Paths
import RlmGraph.Projects.Imports
import RlmGraph.Repair.Records
import RlmGraph.Repair.Validation
import RlmGraph.Repair.Replay
import RlmGraph.Knowledge.Provenance
import RlmGraph.Projects.Onboarding
import RlmGraph.Repair.Recovery
import RlmGraph.Tickets.Conversation
import RlmGraph.Tickets.RepeatedStart
import RlmGraph.Sandbox.Outcome
import RlmGraph.Lib.Ranking
import RlmGraph.Memory.Seeding
import RlmGraph.Knowledge.Conflicts
import RlmGraph.Memory.TokenCache
import RlmGraph.Lib.Unfolding
import RlmGraph.Memory.Pathways
import RlmGraph.Memory.PathwayExpansion
import RlmGraph.Lib.CompactJson
import RlmGraph.Lib.Filling
import RlmGraph.Memory.Retrieval
import RlmGraph.Memory.Federated
import RlmGraph.Claims.EvidenceRoot
import RlmGraph.Lib.Separated
import RlmGraph.Sandbox.PatchIdentity
import RlmGraph.Lib.Components
import RlmGraph.Memory.Clusters
import RlmGraph.Memory.ShadowRanking
import RlmGraph.Runner.Executions
import RlmGraph.Knowledge.Resolution
import RlmGraph.Knowledge.Adjudication
import RlmGraph.Runner.Lineage
import RlmGraph.Knowledge.Disputes
import RlmGraph.Sandbox.Controller
import RlmGraph.Tickets.AutomaticRunner
import RlmGraph.Tickets.AutomaticRuns
import RlmGraph.Autonomy.Runs
import RlmGraph.Repair.Promotion
import RlmGraph.Repair.Workflow
import RlmGraph.Lib.Crashes
import RlmGraph.Repair.PromotionCalls
import RlmGraph.Repair.WorkflowRuns
