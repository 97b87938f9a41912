import LearningTasks.Agent.Tools

namespace LearningTasks.Agent.Execution

open Library.Strings Library.Serialization Schemas.Scalars Models.Agent Agent.Schemas State Tools

def agentActionFailed : Text := "AGENT_ACTION_FAILED".toList

def safeErrorCode : ToolError → Text
  | .taskNotFound => "TASK_NOT_FOUND".toList
  | .projectNotFound => "PROJECT_NOT_FOUND".toList
  | .taskDateOrder => "TASK_DATE_ORDER_INVALID".toList
  | .taskTransition => "TASK_TRANSITION_INVALID".toList
  | .archivedProject => "PROJECT_ARCHIVED".toList
  | .toolNotAllowed | .toolInput | .other => agentActionFailed

/-- How an approved action is dispatched: through the durable executor where
the host has one. -/
structure Executors (σ : Type) where
  dispatcher : AgentWriteToolName → Fields → AgentRuntimeContext → Effect σ AgentWriteToolResult
  actionExecutor : Option
    (AgentProposedAction → ℕ → Digest → AgentRuntimeContext → Effect σ AgentWriteToolResult)

def requireCurrentAuthorization (sha256 : Text → Digest) (state : AgentGraphState) : Bool :=
  match state.proposal, state.validation with
  | some proposal, some validation =>
    let fingerprint := fingerprintPlanProposal sha256 proposal
    validation.status == .valid && validation.revision == state.revisionCount &&
      validation.proposalFingerprint == some fingerprint &&
      state.approvalDecision == some .approved &&
      state.approvalRevision == some state.revisionCount &&
      state.approvalProposalFingerprint == some fingerprint
  | _, _ => false

variable {σ : Type}

/-- The validation of every action that comes before the first dispatch. -/
def actionsAuthorized (c : Coercions) (context : AgentRuntimeContext) (executors : Executors σ)
    (actions : List AgentProposedAction) : Bool :=
  actions.all fun a ↦ (validateToolArguments c a.toolName a.arguments context).toBool &&
    !(isHighImpactTool a.toolName && executors.actionExecutor.isNone)

def dispatch (executors : Executors σ) (context : AgentRuntimeContext) (revision : ℕ)
    (fingerprint : Digest) (action : AgentProposedAction) : Effect σ AgentWriteToolResult :=
  match executors.actionExecutor with
  | none => executors.dispatcher action.toolName action.arguments context
  | some executor => executor action revision fingerprint context

def performAction (c : Coercions) (executors : Executors σ) (context : AgentRuntimeContext)
    (revision : ℕ) (fingerprint : Digest) (action : AgentProposedAction) :
    Effect σ AgentWriteToolResult := fun w ↦
  match validateToolArguments c action.toolName action.arguments context with
  | .error e => (.error e, w)
  | .ok _ =>
    let (result, w) := dispatch executors context revision fingerprint action w
    (result.bind (validateWriteToolResult action.toolName), w)

def succeededRecord (action : AgentProposedAction) (result : AgentWriteToolResult) :
    AgentActionExecutionRecord :=
  ⟨action.actionKey, action.toolName, .succeeded, some result, none⟩

def failedRecord (action : AgentProposedAction) (e : ToolError) : AgentActionExecutionRecord :=
  ⟨action.actionKey, action.toolName, .failed, none, some (safeErrorCode e)⟩

/-- The loop over the actions, which stops after the first failure. -/
def executeActions (c : Coercions) (executors : Executors σ) (context : AgentRuntimeContext)
    (revision : ℕ) (fingerprint : Digest) :
    List AgentProposedAction → σ → List AgentActionExecutionRecord × σ
  | [], w => ([], w)
  | action :: actions, w =>
    match performAction c executors context revision fingerprint action w with
    | (.ok result, w) =>
      let (records, w) := executeActions c executors context revision fingerprint actions w
      (succeededRecord action result :: records, w)
    | (.error e, w) => ([failedRecord action e], w)

/-- No records where the execution is not authorized. -/
def executeTasks (sha256 : Text → Digest) (c : Coercions) (executors : Executors σ)
    (context : AgentRuntimeContext) (state : AgentGraphState) (w : σ) :
    Option (List AgentActionExecutionRecord) × σ :=
  match state.proposal with
  | none => (none, w)
  | some proposal =>
    if requireCurrentAuthorization sha256 state && context.writeToolsEnabled &&
        actionsAuthorized c context executors proposal.actions then
      let (records, w) := executeActions c executors context state.revisionCount
        (fingerprintPlanProposal sha256 proposal) proposal.actions w
      (some records, w)
    else (none, w)

theorem safeErrorCode_isErrorCode (e : ToolError) : isErrorCode (safeErrorCode e) = true := by
  cases e <;> decide

/-- The records of a run over some actions: one for each, all succeeded but
perhaps the last, after which nothing was dispatched. -/
inductive Records : List AgentProposedAction → List AgentActionExecutionRecord → Prop
  | nil : Records [] []
  | failed (action : AgentProposedAction) (actions : List AgentProposedAction) (e : ToolError) :
      Records (action :: actions) [failedRecord action e]
  | succeeded (action : AgentProposedAction) (result : AgentWriteToolResult)
      {actions : List AgentProposedAction} {records : List AgentActionExecutionRecord} :
      Records actions records → Records (action :: actions) (succeededRecord action result :: records)

theorem executeActions_records (c : Coercions) (executors : Executors σ)
    (context : AgentRuntimeContext) (revision : ℕ) (fingerprint : Digest)
    (actions : List AgentProposedAction) (w : σ) :
    Records actions (executeActions c executors context revision fingerprint actions w).1 := by
  induction actions generalizing w with
  | nil => exact .nil
  | cons action actions ih =>
    rw [executeActions]
    split
    · exact .succeeded action _ (ih _)
    · exact .failed action actions _

theorem Records.length_le {actions : List AgentProposedAction}
    {records : List AgentActionExecutionRecord} (h : Records actions records) :
    records.length ≤ actions.length := by
  induction h with
  | nil => exact le_refl _
  | failed action actions e => simp
  | succeeded action result h ih => simpa using ih

theorem Records.consistent {actions : List AgentProposedAction}
    {records : List AgentActionExecutionRecord} (h : Records actions records) :
    ∀ r ∈ records, r.consistent = true := by
  have hfailed (action : AgentProposedAction) (e : ToolError) :
      (failedRecord action e).consistent = true := by
    simp [failedRecord, AgentActionExecutionRecord.consistent, safeErrorCode_isErrorCode e]
  induction h with
  | nil => simp
  | failed action actions e => simpa using hfailed action e
  | succeeded action result h ih =>
    intro r hr
    rcases List.mem_cons.mp hr with rfl | hr
    · rfl
    · exact ih r hr

theorem executeTasks_records {sha256 : Text → Digest} {c : Coercions} {executors : Executors σ}
    {context : AgentRuntimeContext} {state : AgentGraphState} {w : σ}
    {records : List AgentActionExecutionRecord}
    (h : (executeTasks sha256 c executors context state w).1 = some records) :
    ∃ p, state.proposal = some p ∧ requireCurrentAuthorization sha256 state = true ∧
      context.writeToolsEnabled = true ∧ actionsAuthorized c context executors p.actions = true ∧
      Records p.actions records := by
  unfold executeTasks at h
  split at h
  · cases h
  · next p hp =>
    split at h
    · next hc =>
      simp only [Bool.and_eq_true] at hc
      cases h
      exact ⟨p, hp, hc.1.1, hc.1.2, hc.2, executeActions_records _ _ _ _ _ _ _⟩
    · cases h

end LearningTasks.Agent.Execution
