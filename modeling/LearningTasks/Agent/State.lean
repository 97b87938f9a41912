import LearningTasks.Agent.Schemas
import LearningTasks.Models.Agent
import LearningTasks.Schemas.Project

namespace LearningTasks.Agent.State

open Library.Strings Library.Serialization Library.Records Schemas.Scalars Schemas.Task
  Schemas.Project Models.Agent Grounding Agent.Schemas

def maxPlanActions : ℕ := 3

def maxPlanRevisions : ℕ := 2

inductive AgentContextKind
  | projects
  | tasks
  | knowledge
  deriving DecidableEq

inductive AgentApprovalDecision
  | approved
  | rejected
  | requestChanges
  deriving DecidableEq

inductive AgentValidationStatus
  | valid
  | invalid
  deriving DecidableEq

inductive AgentExecutionOutcome
  | succeeded
  | failed
  deriving DecidableEq

inductive AgentVerificationStatus
  | verified
  | failed
  | rejected
  | noAction
  deriving DecidableEq

inductive AgentTerminalStatus
  | succeeded
  | rejected
  | partialFailure
  | failed
  deriving DecidableEq

def AgentContextKind.value : AgentContextKind → Text
  | .projects => "projects".toList
  | .tasks => "tasks".toList
  | .knowledge => "knowledge".toList

structure AgentGoalAnalysis where
  objective : BoundedText 2000
  constraints : List (BoundedText 500)
  requiredContext : List AgentContextKind
  size : constraints.length ≤ 20
  contextSize : 1 ≤ requiredContext.length ∧ requiredContext.length ≤ 3
  unique : requiredContext.Nodup

structure AgentContextSnapshot where
  projects : ProjectListResponse
  tasks : TaskListResponse
  knowledge : GroundedKnowledgeContext

def serverOwnedActionFields : List Text :=
  ["user_id".toList, "created_at".toList, "updated_at".toList, "completed_at".toList,
    "session".toList, "transaction".toList, "commit".toList, "rollback".toList]

structure AgentProposedAction where
  actionKey : Key
  toolName : AgentWriteToolName
  arguments : Fields
  size : arguments.length ≤ 20
  allowed : ∀ f ∈ arguments, f.1 ∉ serverOwnedActionFields

/-- `AgentProposedAction.model_validate`, on its typed fields. -/
def proposedAction (actionKey : Key) (toolName : AgentWriteToolName) (arguments : Fields) :
    Option AgentProposedAction :=
  if h : arguments.length ≤ 20 ∧ ∀ f ∈ arguments, f.1 ∉ serverOwnedActionFields then
    some ⟨actionKey, toolName, arguments, h.1, h.2⟩ else none

structure AgentPlanProposal where
  planningResult : PlanningResult
  actions : List AgentProposedAction
  size : actions.length ≤ maxPlanActions
  unique : (actions.map (·.actionKey)).Nodup

def planProposal (planningResult : PlanningResult) (actions : List AgentProposedAction) :
    Option AgentPlanProposal :=
  if h : actions.length ≤ maxPlanActions ∧ (actions.map (·.actionKey)).Nodup then
    some ⟨planningResult, actions, h.1, h.2⟩ else none

def readToolName : Json → Option AgentWriteToolName :=
  readEnum [.createTask, .updateTask, .batchCreateTasks, .deleteTask] AgentWriteToolName.value

def readFields : Json → Option Fields
  | .obj fields => some fields
  | _ => none

def AgentProposedAction.readFields (fields : Fields) : Option AgentProposedAction := do
  let actionKey ← requiredField readKey "action_key".toList fields
  let toolName ← requiredField readToolName "tool_name".toList fields
  let arguments ← requiredField State.readFields "arguments".toList fields
  proposedAction actionKey toolName arguments

/-- `AgentPlanProposal.model_validate_json`, on the value of the text. -/
def AgentPlanProposal.modelValidate (c : Coercions) : Json → Option AgentPlanProposal :=
  readModel ["planning_result".toList, "actions".toList] fun fields ↦ do
    let planningResult ← requiredField (PlanningResult.modelValidate c) "planning_result".toList fields
    let actions ← optionalField (readList (readModel
      ["action_key".toList, "tool_name".toList, "arguments".toList]
      AgentProposedAction.readFields)) "actions".toList fields
    planProposal planningResult (actions.getD [])

def AgentProposedAction.dump (a : AgentProposedAction) : Json :=
  .obj [("action_key".toList, .str a.actionKey.1), ("tool_name".toList, .str a.toolName.value),
    ("arguments".toList, .obj a.arguments)]

def AgentPlanProposal.dump (p : AgentPlanProposal) : Json :=
  .obj [("planning_result".toList, p.planningResult.dump false),
    ("actions".toList, .arr (p.actions.map AgentProposedAction.dump))]

structure Digest where
  text : Text
  hex : text.length = 64 ∧ text.all isHexDigit = true
  deriving DecidableEq

def AgentPlanProposal.canonicalText (p : AgentPlanProposal) : Text := dumps (canonical p.dump)

def fingerprintPlanProposal (sha256 : Text → Digest) (p : AgentPlanProposal) : Digest :=
  sha256 p.canonicalText

/-- The pattern `^[A-Z][A-Z0-9_]{0,63}$`. -/
def isErrorCode : Text → Bool
  | [] => false
  | c :: s => ('A' ≤ c && c ≤ 'Z') && s.length ≤ 63 &&
      s.all fun d ↦ ('A' ≤ d && d ≤ 'Z') || d.isDigit || d == '_'

structure AgentPlanValidation where
  status : AgentValidationStatus
  revision : ℕ
  proposalFingerprint : Option Digest
  errorCode : Option Text
  deriving DecidableEq

def AgentPlanValidation.consistent (v : AgentPlanValidation) : Bool :=
  v.revision ≤ maxPlanRevisions && v.errorCode.all isErrorCode &&
    match v.status with
    | .valid => v.errorCode.isNone && v.proposalFingerprint.isSome
    | .invalid => v.errorCode.isSome && v.proposalFingerprint.isNone

inductive MutationOperation
  | batchCreateTasks
  | deleteTask
  deriving DecidableEq

structure AgentToolMutationResult where
  operation : MutationOperation
  referenceTaskId : UUID
  affectedCount : ℕ
  summary : Text
  deriving DecidableEq

def AgentToolMutationResult.check (r : AgentToolMutationResult) : Option AgentToolMutationResult :=
  if (1 ≤ r.affectedCount ∧ r.affectedCount ≤ 10) ∧ 1 ≤ r.summary.length ∧ r.summary.length ≤ 100
  then some r else none

inductive AgentWriteToolResult
  | task (task : PublicTask)
  | mutation (result : AgentToolMutationResult)
  deriving DecidableEq

structure AgentActionExecutionRecord where
  actionKey : Key
  toolName : AgentWriteToolName
  outcome : AgentExecutionOutcome
  result : Option AgentWriteToolResult
  errorCode : Option Text
  deriving DecidableEq

def AgentActionExecutionRecord.consistent (r : AgentActionExecutionRecord) : Bool :=
  r.errorCode.all isErrorCode &&
    match r.outcome with
    | .succeeded => r.result.isSome && r.errorCode.isNone
    | .failed => r.result.isNone && r.errorCode.isSome

structure AgentVerification where
  status : AgentVerificationStatus
  checkedActionCount : ℕ
  errorCode : Option Text
  deriving DecidableEq

def AgentVerification.consistent (v : AgentVerification) : Bool :=
  v.checkedActionCount ≤ maxPlanActions && v.errorCode.all isErrorCode &&
    ((v.status == .failed) == v.errorCode.isSome)

inductive AgentRunOutcome
  | succeeded
  | failed
  deriving DecidableEq

structure AgentRunMetrics where
  promptVersion : Text
  outcome : AgentRunOutcome
  modelRoundCount : ℕ
  providerAttemptCount : ℕ
  toolCallCount : ℕ
  inputTokens : Option ℕ
  outputTokens : Option ℕ
  totalTokens : Option ℕ
  latencyMs : FloatRepr
  deriving DecidableEq

structure AgentGraphState where
  goal : PlanningGoal
  analysis : Option AgentGoalAnalysis
  context : Option AgentContextSnapshot
  proposal : Option AgentPlanProposal
  validation : Option AgentPlanValidation
  approvalDecision : Option AgentApprovalDecision
  approvalFeedback : Option Text
  approvalRevision : Option ℕ
  approvalProposalFingerprint : Option Digest
  revisionCount : ℕ
  executionRecords : List AgentActionExecutionRecord
  verification : Option AgentVerification
  terminalStatus : Option AgentTerminalStatus
  workflowErrorCode : Option Text
  summary : Option Text
  metrics : Option AgentRunMetrics

/-- The values of the graph input, with every other field at its default. -/
def graphInput (goal : PlanningGoal) : AgentGraphState :=
  ⟨goal, none, none, none, none, none, none, none, none, 0, [], none, none, none, none, none⟩

def normalizeOptionalText (m : ℕ) : Option Text → Option (Option Text)
  | none => some none
  | some s => (boundedText m s).map fun t ↦ some t.text

/-- `AgentGraphState.model_validate`: the fields of scalar types are checked and
the model instances are taken as they are. -/
def AgentGraphState.modelValidate (s : AgentGraphState) : Option AgentGraphState := do
  let approvalFeedback ← normalizeOptionalText 1000 s.approvalFeedback
  let summary ← normalizeOptionalText 2000 s.summary
  if s.approvalRevision.all (· ≤ maxPlanRevisions) && s.revisionCount ≤ maxPlanRevisions &&
      s.executionRecords.length ≤ maxPlanActions && s.workflowErrorCode.all isErrorCode then
    some { s with approvalFeedback := approvalFeedback, summary := summary }
  else none

structure AgentGraphOutput where
  status : AgentTerminalStatus
  plan : Option PlanningResult
  summary : BoundedText 2000
  executionRecords : List AgentActionExecutionRecord
  metrics : Option AgentRunMetrics

theorem planProposal_self (p : AgentPlanProposal) :
    planProposal p.planningResult p.actions = some p := dif_pos ⟨p.size, p.unique⟩

end LearningTasks.Agent.State
