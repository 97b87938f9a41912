import LearningTasks.Library.ReadCommitted
import LearningTasks.Schemas.Task
import LearningTasks.Services.Tasks
import LearningTasks.Library.SortedLog
import LearningTasks.Models.Agent
import LearningTasks.Services.AgentEvents
import LearningTasks.Library.RowLocks
import LearningTasks.Services.RefreshTokens
import LearningTasks.Services.ToolExecutions
import LearningTasks.Agent.Grounding
import LearningTasks.Agent.Schemas
import LearningTasks.Agent.State
import LearningTasks.Agent.Approval
import LearningTasks.Agent.Planning
import LearningTasks.Agent.Execution
import LearningTasks.Agent.Finalization
import LearningTasks.Agent.Graph
import LearningTasks.Agent.Checkpoints
import LearningTasks.Services.AgentWorkflow
import LearningTasks.Services.ApprovalProtocol
import LearningTasks.Agent.WriteSafety
import LearningTasks.Services.Projects
import LearningTasks.Agent.Metrics
import LearningTasks.Agent.Termination
import LearningTasks.Agent.UsageAccounting
import LearningTasks.Services.TokenTotals
import LearningTasks.Library.Fallible
import LearningTasks.Services.KnowledgeDocuments
import LearningTasks.Library.Windows
import LearningTasks.Services.KnowledgeDocumentIndexing
import LearningTasks.Services.ApprovalReplay
import LearningTasks.Library.OwnedRows
import LearningTasks.Library.Unwinding
import LearningTasks.Services.TaskListing
import LearningTasks.Services.OwnerIsolation
import LearningTasks.Agent.Providers
import LearningTasks.Library.Rounds
import LearningTasks.Agent.Loop
import LearningTasks.Agent.Events
import LearningTasks.Agent.Evaluation
import LearningTasks.Library.Statistics
import LearningTasks.Agent.EvaluationMetrics
import LearningTasks.Agent.Tracing
import LearningTasks.Services.ToolCoordinator
import LearningTasks.Agent.TracedNodes
import LearningTasks.Agent.PromptBudget
import LearningTasks.Library.Budgets
import LearningTasks.Agent.PromptRedistribution
import LearningTasks.Agent.TerminalClassification
import LearningTasks.Services.DocumentChunks
import LearningTasks.Agent.SectionProjection
import LearningTasks.Agent.PromptDelimiters
import LearningTasks.Agent.ReadTools
import LearningTasks.Agent.LoopLimits
import LearningTasks.Agent.StreamTruth
import LearningTasks.Library.Sessions
import LearningTasks.Services.TaskUpdates
import LearningTasks.Services.DocumentIndex
import LearningTasks.Agent.Fingerprints
import LearningTasks.Services.ApprovalPreview
import LearningTasks.Services.AgentDomain
import LearningTasks.Services.ToolRecovery
import LearningTasks.Services.RecoveryTransparency
import LearningTasks.Library.Patterns
import LearningTasks.Services.TitleSearch
import LearningTasks.Library.Sorting
import LearningTasks.Library.ThreeValued
import LearningTasks.Services.TaskPaging
import LearningTasks.Services.EmbeddingResponses
import LearningTasks.Agent.TextFitting
import LearningTasks.Agent.PromptRoom
import LearningTasks.Agent.Retrieval
import LearningTasks.Services.KnowledgeRetrieval
import LearningTasks.Library.Interaction
import LearningTasks.Middleware.RequestBodyLimit
import LearningTasks.Middleware.UploadAnswers
import LearningTasks.Agent.TraceRecords
import LearningTasks.Agent.NodeSpans
import LearningTasks.Agent.TracedWorkflow
import LearningTasks.Agent.WorkflowSpans
import LearningTasks.Agent.RunTotals
import LearningTasks.Agent.TracePairing
import LearningTasks.Library.KeyLocks
import LearningTasks.Services.DocumentUploads
import LearningTasks.Services.KnowledgeQueries
import LearningTasks.Services.KnowledgeBase
import LearningTasks.Services.GroundedSearch
import LearningTasks.Services.Accounts
import LearningTasks.Services.AccountHistory
import LearningTasks.Agent.TraceTransparency
import LearningTasks.Library.Simulation
import LearningTasks.Services.RunLedger
import LearningTasks.Services.RunLifecycle
import LearningTasks.Services.WriteAudit
import LearningTasks.Library.EventStream
import LearningTasks.Services.EventDelivery
import LearningTasks.Services.PlanEvidence
import LearningTasks.Library.Isolation
import LearningTasks.Services.KnowledgeIsolation
import LearningTasks.Services.AccessLifetime
import LearningTasks.Library.NamedLocks
import LearningTasks.Services.ConcurrentRuns
import LearningTasks.Agent.ProviderAdapter
