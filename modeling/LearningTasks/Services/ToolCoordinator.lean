import LearningTasks.Agent.Tracing
import LearningTasks.Models.Agent

namespace LearningTasks.Services.ToolCoordinator

open Library.Strings Library.Serialization Library.Programs Schemas.Scalars Schemas.Task
  Models.Agent Agent.Schemas Agent.State Agent.Tools Agent.Tracing

structure ExecutionIdentity where
  runId : UUID
  userId : UUID
  revision : ℕ
  proposalFingerprint : Digest
  actionKey : Key
  deriving DecidableEq

structure ReplayData where
  toolName : AgentWriteToolName
  resultTaskId : UUID
  resultSummary : Text

inductive ClaimDisposition
  | execute
  | replay (data : ReplayData)

/-- What the coordinator is given: the statements of a session, the dispatcher,
the task loader, its clock, and `int`. -/
structure CoordinatorHost (σ : Type) where
  runId : UUID
  userId : UUID
  openSession : Program Raised σ Unit
  getOwnedApproval : UUID → UUID → ℕ → Program Raised σ (Option AgentApproval)
  getOwnedAction : ExecutionIdentity → Program Raised σ (Option AgentToolExecution)
  add : ExecutionIdentity → AgentToolExecution → Program Raised σ Unit
  flush : ExecutionIdentity → AgentToolExecution → AgentToolExecution → Program Raised σ Unit
  commit : Program Raised σ Unit
  rollback : Program Raised σ Unit
  close : Program Raised σ Unit
  clock : Program Raised σ Datetime
  newId : Program Raised σ UUID
  dispatcher : AgentWriteToolName → Fields → AgentRuntimeContext →
    Program Raised σ AgentWriteToolResult
  taskLoader : UUID → UUID → Program Raised σ PublicTask
  int : Text → Option ℤ

def agentToolExecutionFailed : Text := "AGENT_ACTION_FAILED".toList

def agentToolExecutionUnknown : Text := "AGENT_ACTION_OUTCOME_UNKNOWN".toList

def provenNoWrite : Raised → Bool
  | .tool .taskNotFound | .tool .projectNotFound | .tool .taskDateOrder | .tool .taskTransition
  | .tool .archivedProject => true
  | _ => false

def splitWords (s : Text) : List Text := (s.splitOnP isSpace).filter (· ≠ [])

variable {σ α : Type}

def failClosed : Program Raised σ α := Program.raise .agentToolReconciliationRequired

/-- A session whose work is rolled back by any exception, and closed in the end. -/
def inSession (host : CoordinatorHost σ) (body : Program Raised σ α) : Program Raised σ α := do
  host.openSession
  Program.ensure (body.handle fun e ↦ do
    host.rollback
    Program.raise e) host.close

def identity (host : CoordinatorHost σ) (action : AgentProposedAction) (revision : ℕ)
    (fingerprint : Digest) : ExecutionIdentity :=
  ⟨host.runId, host.userId, revision, fingerprint, action.actionKey⟩

def requirePersistedApproval (host : CoordinatorHost σ) (action : AgentProposedAction)
    (revision : ℕ) (fingerprint : Digest) : Program Raised σ Unit :=
  if isHighImpactTool action.toolName then do
    match ← host.getOwnedApproval host.runId host.userId revision with
    | none => failClosed
    | some approval =>
      if approval.decision ≠ .approved ∨ approval.proposalFingerprint ≠ fingerprint.text then
        failClosed
      else pure ()
  else pure ()

def classifyExisting (host : CoordinatorHost σ) (id : ExecutionIdentity)
    (execution : AgentToolExecution) : Program Raised σ ClaimDisposition :=
  match execution.status with
  | .completed =>
    match execution.resultTaskId, execution.resultSummary with
    | some taskId, some summary => pure (.replay ⟨execution.toolName, taskId, summary⟩)
    | _, _ => failClosed
  | .failed => do
    let now ← host.clock
    host.flush id execution (restartFailed execution now)
    pure .execute
  | .inProgress | .unknown => failClosed

/-- The first session of `_claim`, which gives nothing where another claim of the
action has come first. -/
def claimFirst (host : CoordinatorHost σ) (action : AgentProposedAction) (revision : ℕ)
    (fingerprint : Digest) : Program Raised σ (Option ClaimDisposition) := do
  let id := identity host action revision fingerprint
  host.openSession
  Program.ensure (Program.handle (do
      requirePersistedApproval host action revision fingerprint
      let disposition ← match ← host.getOwnedAction id with
        | none => do
          let now ← host.clock
          let key ← host.newId
          host.add id (createClaim key action.toolName now)
          pure .execute
        | some existing =>
          if existing.toolName ≠ action.toolName then failClosed
          else classifyExisting host id existing
      host.commit
      pure (some disposition))
    fun e ↦ do
      host.rollback
      if e = .integrity true then pure none else Program.raise e) host.close

def claim (host : CoordinatorHost σ) (action : AgentProposedAction) (revision : ℕ)
    (fingerprint : Digest) : Program Raised σ ClaimDisposition := do
  match ← claimFirst host action revision fingerprint with
  | some disposition => pure disposition
  | none =>
    let id := identity host action revision fingerprint
    inSession host do
      let disposition ← match ← host.getOwnedAction id with
        | none => failClosed
        | some existing =>
          if existing.toolName ≠ action.toolName then failClosed
          else classifyExisting host id existing
      host.commit
      pure disposition

def receipt : AgentWriteToolResult → UUID × Text
  | .task task => (task.id, task.title)
  | .mutation result => (result.referenceTaskId, result.summary)

def recordCompletion (host : CoordinatorHost σ) (action : AgentProposedAction) (revision : ℕ)
    (fingerprint : Digest) (result : AgentWriteToolResult) : Program Raised σ Unit :=
  inSession host do
    let id := identity host action revision fingerprint
    match ← host.getOwnedAction id with
    | none => failClosed
    | some execution =>
      if execution.status ≠ .inProgress then failClosed
      else
        let now ← host.clock
        host.flush id execution (complete execution (receipt result).1 (receipt result).2 now)
        host.commit

def recordFailure (host : CoordinatorHost σ) (action : AgentProposedAction) (revision : ℕ)
    (fingerprint : Digest) (status : AgentToolExecutionStatus) (errorCode : Text) :
    Program Raised σ Unit :=
  inSession host do
    let id := identity host action revision fingerprint
    match ← host.getOwnedAction id with
    | none => failClosed
    | some execution =>
      if execution.status = .completed then failClosed
      else
        let now ← host.clock
        host.flush id execution (fail execution status errorCode now)
        host.commit

def mutationResult (result : AgentToolMutationResult) : Program Raised σ AgentWriteToolResult := do
  let result ← Program.ofOption .validation result.check
  pure (.mutation result)

def loadPublicResult (host : CoordinatorHost σ) (replay : ReplayData) :
    Program Raised σ AgentWriteToolResult :=
  match replay.toolName with
  | .deleteTask => mutationResult ⟨.deleteTask, replay.resultTaskId, 1, replay.resultSummary⟩
  | .batchCreateTasks =>
    match splitWords replay.resultSummary with
    | [created, count, tasks] =>
      if created = "Created".toList ∧ tasks = "tasks".toList then
        match host.int count with
        | none => failClosed
        | some n =>
          mutationResult ⟨.batchCreateTasks, replay.resultTaskId, n.toNat, replay.resultSummary⟩
      else failClosed
    | _ => failClosed
  | .createTask | .updateTask => do
    host.openSession
    Program.ensure (Program.handle (do
        let task ← host.taskLoader replay.resultTaskId host.userId
        pure (.task task))
      fun _ ↦ failClosed) host.close

/-- The dispatch of an action that has been claimed, with the validation of its result. -/
def dispatch (host : CoordinatorHost σ) (action : AgentProposedAction)
    (context : AgentRuntimeContext) : Program Raised σ AgentWriteToolResult := do
  let result ← host.dispatcher action.toolName action.arguments context
  match validateWriteToolResult action.toolName result with
  | .ok result => pure result
  | .error e => Program.raise (.tool e)

def perform (host : CoordinatorHost σ) (action : AgentProposedAction) (revision : ℕ)
    (fingerprint : Digest) (context : AgentRuntimeContext) :
    Program Raised σ AgentWriteToolResult := do
  let result ← Program.handle (dispatch host action context) fun e ↦ do
    if provenNoWrite e then
      recordFailure host action revision fingerprint .failed agentToolExecutionFailed
    else recordFailure host action revision fingerprint .unknown agentToolExecutionUnknown
    Program.raise e
  Program.handle (recordCompletion host action revision fingerprint result) fun _ ↦ do
    recordFailure host action revision fingerprint .unknown agentToolExecutionUnknown
    failClosed
  pure result

def execute (host : CoordinatorHost σ) (action : AgentProposedAction) (revision : ℕ)
    (fingerprint : Digest) (context : AgentRuntimeContext) :
    Program Raised σ AgentWriteToolResult :=
  if context.userId ≠ host.userId ∨ context.writeToolsEnabled = false then failClosed
  else do
    match ← claim host action revision fingerprint with
    | .replay data => loadPublicResult host data
    | .execute => perform host action revision fingerprint context

end LearningTasks.Services.ToolCoordinator
