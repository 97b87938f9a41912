import LearningTasks.Schemas.Scalars

namespace LearningTasks.Models.Agent

open Library.Strings Library.Serialization Schemas.Scalars

inductive AgentRunStatus
  | pending
  | running
  | pendingApproval
  | succeeded
  | rejected
  | partialFailure
  | failed
  deriving DecidableEq

inductive AgentRunNode
  | analyzeGoal
  | loadContext
  | generatePlan
  | validatePlan
  | requestApproval
  | executeTasks
  | verifyResult
  | summarize
  deriving DecidableEq

inductive AgentApprovalStatus
  | pending
  | approved
  | rejected
  | requestChanges
  deriving DecidableEq

inductive AgentToolExecutionStatus
  | inProgress
  | completed
  | failed
  | unknown
  deriving DecidableEq

inductive AgentWriteToolName
  | createTask
  | updateTask
  | batchCreateTasks
  | deleteTask
  deriving DecidableEq

def AgentWriteToolName.value : AgentWriteToolName → Text
  | .createTask => "create_task".toList
  | .updateTask => "update_task".toList
  | .batchCreateTasks => "batch_create_tasks".toList
  | .deleteTask => "delete_task".toList

def AgentRunStatus.value : AgentRunStatus → Text
  | .pending => "PENDING".toList
  | .running => "RUNNING".toList
  | .pendingApproval => "PENDING_APPROVAL".toList
  | .succeeded => "SUCCEEDED".toList
  | .rejected => "REJECTED".toList
  | .partialFailure => "PARTIAL_FAILURE".toList
  | .failed => "FAILED".toList

def AgentRunNode.value : AgentRunNode → Text
  | .analyzeGoal => "analyze_goal".toList
  | .loadContext => "load_context".toList
  | .generatePlan => "generate_plan".toList
  | .validatePlan => "validate_plan".toList
  | .requestApproval => "request_approval".toList
  | .executeTasks => "execute_tasks".toList
  | .verifyResult => "verify_result".toList
  | .summarize => "summarize".toList

def AgentToolExecutionStatus.value : AgentToolExecutionStatus → Text
  | .inProgress => "IN_PROGRESS".toList
  | .completed => "COMPLETED".toList
  | .failed => "FAILED".toList
  | .unknown => "UNKNOWN".toList

theorem AgentRunStatus.eq_of_value {s t : AgentRunStatus} (h : s.value = t.value) : s = t := by
  cases s <;> cases t <;> first | rfl | exact absurd h (by decide)

theorem AgentRunNode.eq_of_value {s t : AgentRunNode} (h : s.value = t.value) : s = t := by
  cases s <;> cases t <;> first | rfl | exact absurd h (by decide)

theorem AgentToolExecutionStatus.eq_of_value {s t : AgentToolExecutionStatus}
    (h : s.value = t.value) : s = t := by
  cases s <;> cases t <;> first | rfl | exact absurd h (by decide)

theorem AgentWriteToolName.eq_of_value {s t : AgentWriteToolName} (h : s.value = t.value) :
    s = t := by
  cases s <;> cases t <;> first | rfl | exact absurd h (by decide)

def isHighImpactTool : AgentWriteToolName → Bool
  | .batchCreateTasks | .deleteTask => true
  | .createTask | .updateTask => false

structure AgentRunMetricsSnapshot where
  modelRoundCount : ℕ
  providerAttemptCount : ℕ
  toolCallCount : ℕ
  inputTokens : ℕ
  outputTokens : ℕ
  totalTokens : ℕ
  latencyMs : FloatRepr
  consistent : totalTokens = inputTokens + outputTokens
  deriving DecidableEq

/-- The largest value of an `INTEGER` column. -/
def maxInteger : ℕ := 2147483647

structure AgentRunMetricsSnapshot.InRange (m : AgentRunMetricsSnapshot) : Prop where
  modelRoundCount : m.modelRoundCount ≤ maxInteger
  providerAttemptCount : m.providerAttemptCount ≤ maxInteger
  toolCallCount : m.toolCallCount ≤ maxInteger
  inputTokens : m.inputTokens ≤ maxInteger
  outputTokens : m.outputTokens ≤ maxInteger
  totalTokens : m.totalTokens ≤ maxInteger

instance (m : AgentRunMetricsSnapshot) : Decidable m.InRange :=
  decidable_of_iff (m.modelRoundCount ≤ maxInteger ∧ m.providerAttemptCount ≤ maxInteger ∧
      m.toolCallCount ≤ maxInteger ∧ m.inputTokens ≤ maxInteger ∧ m.outputTokens ≤ maxInteger ∧
      m.totalTokens ≤ maxInteger)
    ⟨fun ⟨h₁, h₂, h₃, h₄, h₅, h₆⟩ ↦ ⟨h₁, h₂, h₃, h₄, h₅, h₆⟩,
      fun ⟨h₁, h₂, h₃, h₄, h₅, h₆⟩ ↦ ⟨h₁, h₂, h₃, h₄, h₅, h₆⟩⟩

structure MetricColumns extends AgentRunMetricsSnapshot where
  range : toAgentRunMetricsSnapshot.InRange
  deriving DecidableEq

def noMetrics (latencyMs : FloatRepr) : MetricColumns :=
  ⟨⟨0, 0, 0, 0, 0, 0, latencyMs, rfl⟩, by constructor <;> exact Nat.zero_le _⟩

structure AgentRun where
  id : UUID
  userId : UUID
  status : AgentRunStatus
  currentNode : Option AgentRunNode
  summary : Option Text
  errorCode : Option Text
  metrics : MetricColumns
  updatedAt : Datetime
  deriving DecidableEq

structure AgentApproval where
  id : UUID
  revision : ℕ
  proposalFingerprint : Text
  decision : AgentApprovalStatus
  feedback : Option Text
  decidedAt : Option Datetime
  createdAt : Datetime
  deriving DecidableEq

def AgentApproval.constraints (a : AgentApproval) : Bool :=
  decide (a.revision ≤ 2) &&
    match a.decision with
    | .pending => a.decidedAt.isNone && a.feedback.isNone
    | .approved | .rejected => a.decidedAt.isSome && a.feedback.isNone
    | .requestChanges => a.decidedAt.isSome && a.feedback.any fun s ↦ s.any (· != ' ')

/-- A row of `agent_tool_executions`, less the columns of its identity. -/
structure AgentToolExecution where
  id : UUID
  toolName : AgentWriteToolName
  status : AgentToolExecutionStatus
  attemptCount : ℕ
  resultTaskId : Option UUID
  resultSummary : Option Text
  errorCode : Option Text
  startedAt : Datetime
  completedAt : Option Datetime
  updatedAt : Datetime
  deriving DecidableEq

def AgentToolExecution.constraints (e : AgentToolExecution) : Bool :=
  decide (1 ≤ e.attemptCount ∧ e.attemptCount ≤ 100) &&
    match e.status with
    | .inProgress => e.resultTaskId.isNone && e.resultSummary.isNone && e.errorCode.isNone &&
        e.completedAt.isNone
    | .completed => e.resultTaskId.isSome && e.resultSummary.isSome && e.errorCode.isNone &&
        e.completedAt.isSome
    | .failed | .unknown => e.resultTaskId.isNone && e.resultSummary.isNone &&
        e.errorCode.isSome && e.completedAt.isSome

/-- The repository's edits of a loaded row, each with its clock reading. -/
def createClaim (id : UUID) (toolName : AgentWriteToolName) (startedAt : Datetime) :
    AgentToolExecution :=
  ⟨id, toolName, .inProgress, 1, none, none, none, startedAt, none, startedAt⟩

def restartFailed (e : AgentToolExecution) (startedAt : Datetime) : AgentToolExecution :=
  { e with
    status := .inProgress
    attemptCount := e.attemptCount + 1
    errorCode := none
    completedAt := none
    startedAt := startedAt
    updatedAt := startedAt }

def complete (e : AgentToolExecution) (taskId : UUID) (summary : Text) (completedAt : Datetime) :
    AgentToolExecution :=
  { e with
    status := .completed
    resultTaskId := some taskId
    resultSummary := some summary
    completedAt := some completedAt
    updatedAt := completedAt }

def fail (e : AgentToolExecution) (status : AgentToolExecutionStatus) (errorCode : Text)
    (completedAt : Datetime) : AgentToolExecution :=
  { e with
    status := status
    errorCode := some errorCode
    completedAt := some completedAt
    updatedAt := completedAt }

def written {α : Type*} [DecidableEq α] (loaded edited row : α) : α :=
  if edited = loaded then row else edited

/-- The UPDATE of an edited object: it sets the columns that differ from what
was loaded, on the row as it is by then. -/
def AgentToolExecution.flush (loaded edited row : AgentToolExecution) : AgentToolExecution where
  id := written loaded.id edited.id row.id
  toolName := written loaded.toolName edited.toolName row.toolName
  status := written loaded.status edited.status row.status
  attemptCount := written loaded.attemptCount edited.attemptCount row.attemptCount
  resultTaskId := written loaded.resultTaskId edited.resultTaskId row.resultTaskId
  resultSummary := written loaded.resultSummary edited.resultSummary row.resultSummary
  errorCode := written loaded.errorCode edited.errorCode row.errorCode
  startedAt := written loaded.startedAt edited.startedAt row.startedAt
  completedAt := written loaded.completedAt edited.completedAt row.completedAt
  updatedAt := written loaded.updatedAt edited.updatedAt row.updatedAt

theorem written_self {α : Type*} [DecidableEq α] (loaded edited : α) :
    written loaded edited loaded = edited := by
  unfold written
  split
  · next h => exact h.symm
  · rfl

theorem AgentToolExecution.flush_self (loaded edited : AgentToolExecution) :
    loaded.flush edited loaded = edited := by
  simp only [AgentToolExecution.flush, written_self]

end LearningTasks.Models.Agent
