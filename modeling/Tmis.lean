import Tmis.Lib.Python
import Tmis.Lib.Calls
import Tmis.Lib.Dict
import Tmis.Lib.Store
import Tmis.Lib.Overlay
import Tmis.Lib.Run
import Tmis.Lib.RetryQueue
import Tmis.Lib.WorkerPool
import Tmis.Lib.Memo
import Tmis.Lib.PyFloat
import Tmis.Lib.PyText
import Tmis.Lib.PyUuid
import Tmis.Platform.Backup
import Tmis.Platform.Archive
import Tmis.Platform.PointInTime
import Tmis.AiGovernance.HumanValidation
import Tmis.AiGovernance.Quorum
import Tmis.CloudOperations.Telemetry
import Tmis.WorkflowAutomation.ConditionEngine
import Tmis.WorkflowAutomation.ActionEngine
import Tmis.WorkflowAutomation.WorkflowEngine
import Tmis.WorkflowAutomation.ExecutionEngine
import Tmis.WorkflowAutomation.Prefix
import Tmis.WorkflowAutomation.Attempts
import Tmis.WorkflowAutomation.AtMostOnce
import Tmis.WorkflowAutomation.Simulation
import Tmis.WorkflowAutomation.Service
import Tmis.WorkflowAutomation.Ownership
import Tmis.WorkflowAutomation.Stranded
import Tmis.AiTeam.Mission
import Tmis.AiTeam.Coordinator
import Tmis.AiTeam.Dependencies
import Tmis.LegalDrafting.Orchestrator
import Tmis.LegalDrafting.Approval
import Tmis.CabinetKnowledge.Validation
import Tmis.CabinetKnowledge.Reviewed
import Tmis.Collaboration.Members
import Tmis.Collaboration.Work
import Tmis.Collaboration.Workspace
import Tmis.Collaboration.Powers
import Tmis.Collaboration.Confinement
import Tmis.PlatformSdk.Extensions
import Tmis.PlatformSdk.Grants
import Tmis.PlatformSdk.Sandbox
import Tmis.Ai.Connectors
import Tmis.Ai.Kernel
import Tmis.LegalResearch.Search
import Tmis.LegalResearch.Ranking
import Tmis.LegalResearch.ResearchCache
import Tmis.LegalResearch.Orchestrator
import Tmis.LegalResearch.Transparency
import Tmis.IntegrationHub.ConflictResolution
import Tmis.IntegrationHub.Synchronization
import Tmis.IntegrationHub.Watermark
import Tmis.RuntimePlatform.AsyncProcessing
import Tmis.RuntimePlatform.Queues
import Tmis.Core.Security
import Tmis.Api.AuthGuard
import Tmis.IdentityPlatform.SingleUse
import Tmis.CabinetOs.Billing
import Tmis.CabinetOs.InvoiceStatus
import Tmis.CabinetOs.QuoteConversion
import Tmis.Lib.Lineage
import Tmis.BusinessPlatform.Licenses
import Tmis.BusinessPlatform.SeatPool
import Tmis.BusinessPlatform.Lineages
import Tmis.BusinessPlatform.Plans
import Tmis.BusinessPlatform.Subscriptions
import Tmis.BusinessPlatform.Invoicing
import Tmis.BusinessPlatform.BillingPeriods
import Tmis.BusinessPlatform.Modules
import Tmis.Lib.PySet
import Tmis.Lib.Merge
import Tmis.CaseIntelligence.Profile
import Tmis.CaseIntelligence.Mergers
import Tmis.Core.Graph
import Tmis.CaseIntelligence.Workflow
import Tmis.CaseIntelligence.Reingestion
import Tmis.CaseIntelligence.IncrementalGraph
import Tmis.IntegrationHub.ConflictApprovals
import Tmis.IntegrationHub.PendingConflicts
import Tmis.RuntimePlatform.EventStore
import Tmis.RuntimePlatform.EventStreaming
import Tmis.RuntimePlatform.Cancellation
import Tmis.RuntimePlatform.OneRunner
import Tmis.CloudOperations.CircuitBreaker
import Tmis.LegalDrafting.Versioning
import Tmis.Ai.Rag
import Tmis.CaseIntelligence.FactOrder
import Tmis.Core.DataclassJson
import Tmis.AiTeam.MissionRun
import Tmis.IdentityPlatform.Policies
import Tmis.IdentityPlatform.Authorization
import Tmis.IdentityPlatform.OAuth2
import Tmis.WorkflowAutomation.Versions
import Tmis.LegalKnowledgeGraph.GraphCore
import Tmis.LegalKnowledgeGraph.EntityResolution
import Tmis.Platform.RateLimiting
import Tmis.Platform.Licensing
import Tmis.Platform.FirmIsolation
import Tmis.Lib.JsonText
import Tmis.Ai.Cache
import Tmis.RuntimePlatform.DistributedCache
import Tmis.LegalResearch.CachedTexts
import Tmis.Platform.BruteForce
import Tmis.Collaboration.ApprovalOutcome
import Tmis.Lib.Polling
import Tmis.WorkflowAutomation.Scheduler
import Tmis.IntegrationHub.SyncScheduler
import Tmis.Lib.Acyclic
import Tmis.WorkflowAutomation.Designer
import Tmis.WorkflowAutomation.Accepted
import Tmis.WorkflowAutomation.References
import Tmis.CabinetKnowledge.Taxonomy
import Tmis.CabinetKnowledge.Publication
import Tmis.CabinetKnowledge.GovernanceLog
import Tmis.CabinetKnowledge.Playbooks
import Tmis.Platform.Pagination
import Tmis.Platform.Metrics
import Tmis.Lib.TextExposition
import Tmis.Platform.Exposition
import Tmis.Platform.Redaction
import Tmis.IdentityPlatform.RiskEngine
import Tmis.Lib.Sha1
import Tmis.Lib.BaseText
import Tmis.IdentityPlatform.Totp
import Tmis.IdentityPlatform.Mfa
import Tmis.Platform.CostControl
import Tmis.AiTeam.Planner
import Tmis.AiTeam.MissionContext
import Tmis.Lib.Selection
import Tmis.RuntimePlatform.BackOff
import Tmis.BusinessPlatform.MarketplaceSubscriptions
import Tmis.AiFabric.Governance
import Tmis.AiFabric.Router
import Tmis.Lib.CallWindows
import Tmis.AiFabric.Quotas
import Tmis.Lib.BijectiveBase
import Tmis.Lib.FloatText
import Tmis.Lib.MarkupText
import Tmis.CabinetOs.XlsxWriter
import Tmis.Lib.Intervals
import Tmis.Lib.LocalDatetime
import Tmis.CabinetOs.Calendar
import Tmis.CabinetOs.Hearings
import Tmis.Lib.BoundedLoop
import Tmis.Lib.JsonCompare
import Tmis.PlatformSdk.WorkflowExecutor
import Tmis.PlatformSdk.WorkflowWalks
import Tmis.Collaboration.Overrides
import Tmis.PlatformSdk.CallQuota
import Tmis.PlatformSdk.Validation
import Tmis.PlatformSdk.Dependencies
import Tmis.PlatformSdk.Publishing
import Tmis.Collaboration.Atomicity
import Tmis.Lib.JsonFormat
import Tmis.PlatformSdk.Serialization
import Tmis.Lib.DerivedIndex
import Tmis.LegalDrafting.Citations
import Tmis.LegalDrafting.CitationIndex
import Tmis.LegalDrafting.CitationRoles
import Tmis.Lib.ObjectHeap
import Tmis.LegalDrafting.VersionHistory
import Tmis.LegalDrafting.FrozenVersions
import Tmis.Lib.PdfSyntax
import Tmis.Lib.PdfFile
import Tmis.LegalDrafting.PdfWriter
import Tmis.LegalDrafting.PdfExport
import Tmis.Lib.Slices
import Tmis.DocumentIntelligence.Layout
import Tmis.DocumentIntelligence.Chunking
import Tmis.LegalResearch.Deduplication
import Tmis.LegalReasoning.Reasoning
import Tmis.LegalReasoning.DecisionGraph
import Tmis.LegalReasoning.Confidence
import Tmis.Collaboration.Locking
import Tmis.StrategicIntelligence.HypothesisLab
import Tmis.StrategicIntelligence.ActionPlanner
import Tmis.Lib.TextSearch
import Tmis.DocumentIntelligence.KeywordMatches
import Tmis.AiGovernance.Lineage
import Tmis.AiGovernance.ReasoningChain
import Tmis.IdentityPlatform.SecretManager
import Tmis.IdentityPlatform.Sessions
import Tmis.LegalDrafting.Exporters
import Tmis.Lib.CsvText
import Tmis.AiGovernance.Audit
import Tmis.CabinetOs.Reports
import Tmis.DocumentIntelligence.Knowledge
import Tmis.DocumentIntelligence.Pipeline
