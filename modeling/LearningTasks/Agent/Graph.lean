import LearningTasks.Agent.Approval
import LearningTasks.Agent.Finalization
import LearningTasks.Agent.Planning
import LearningTasks.Library.Transition

namespace LearningTasks.Agent.Graph

open Library.Strings Library.Serialization Library.Transition Schemas.Scalars Models.Agent
  Agent.Schemas State Tools Approval Execution Finalization Planning

structure Host (σ : Type) where
  sha256 : Text → Digest
  coercions : Coercions
  context : AgentRuntimeContext
  planning : PlanningHost σ
  fetchContext : Text → σ → Option AgentContextSnapshot × σ
  executors : Executors σ
  decider : AgentApprovalInterrupt → σ → Option AgentApprovalResponse × σ
  durableApproval : Bool

inductive NodeResult
  | update (u : StateUpdate)
  | interrupt (value : Json)
  | raised

def failed (code : String) : StateUpdate := fun values ↦
  { values with workflowErrorCode := some code.toList }

def analyzeGoal (state : AgentGraphState) : AgentGoalAnalysis where
  objective := state.goal.objective
  constraints := state.goal.constraints
  requiredContext := [.projects, .tasks, .knowledge]
  size := state.goal.size
  contextSize := by decide
  unique := by decide

def sumOptional : Option ℕ → Option ℕ → Option ℕ
  | none, none => none
  | first, second => some (first.getD 0 + second.getD 0)

/-- `_merge_metrics`; the host adds the latencies, which are floats. -/
def mergeMetrics (add : FloatRepr → FloatRepr → FloatRepr) (previous : Option AgentRunMetrics)
    (current : AgentRunMetrics) : AgentRunMetrics :=
  match previous with
  | none => current
  | some p =>
    { current with
      modelRoundCount := p.modelRoundCount + current.modelRoundCount
      providerAttemptCount := p.providerAttemptCount + current.providerAttemptCount
      toolCallCount := p.toolCallCount + current.toolCallCount
      inputTokens := sumOptional p.inputTokens current.inputTokens
      outputTokens := sumOptional p.outputTokens current.outputTokens
      totalTokens := sumOptional p.totalTokens current.totalTokens
      latencyMs := add p.latencyMs current.latencyMs }

variable {σ : Type}

def loadContext (host : Host σ) (state : AgentGraphState) (w : σ) :
    Option AgentContextSnapshot × σ :=
  match state.analysis with
  | none => (none, w)
  | some analysis =>
    if analysis.requiredContext = [.projects, .tasks, .knowledge] then
      host.fetchContext analysis.objective.text w
    else (none, w)

/-- The approval node. The durable one interrupts until it is given an answer. -/
def approvalNode (host : Host σ) (state : AgentGraphState) (answer : Option AgentApprovalResponse)
    (w : σ) : NodeResult × σ :=
  match buildApprovalRequest host.sha256 host.coercions host.context state with
  | .error _ => (.update (failed "AGENT_APPROVAL_FAILED"), w)
  | .ok (request, fingerprint) =>
    if host.durableApproval then
      match answer with
      | none => (.interrupt request.dump, w)
      | some response => (.update (applyApprovalResponse state response fingerprint), w)
    else
      match host.decider request w with
      | (none, w) => (.update (failed "AGENT_APPROVAL_FAILED"), w)
      | (some response, w) => (.update (applyApprovalResponse state response fingerprint), w)

def withToolCalls (records : List AgentActionExecutionRecord) (m : AgentRunMetrics) :
    AgentRunMetrics := { m with toolCallCount := m.toolCallCount + records.length }

/-- The wrapped nodes of the graph: an error becomes an error code. -/
def runNode (host : Host σ) (state : AgentGraphState)
    (answer : Option AgentApprovalResponse) (w : σ) : AgentRunNode → NodeResult × σ
  | .analyzeGoal =>
    (.update fun values ↦ { values with analysis := some (analyzeGoal state) }, w)
  | .loadContext =>
    match loadContext host state w with
    | (some snapshot, w) => (.update fun values ↦ { values with context := some snapshot }, w)
    | (none, w) => (.update (failed "AGENT_CONTEXT_FAILED"), w)
  | .generatePlan =>
    match generatePlan host.coercions host.planning state w with
    | (.ok (proposal, metrics), w) =>
      (.update fun values ↦
        { values with
          proposal := some proposal
          metrics := some (mergeMetrics host.planning.addLatency state.metrics metrics) }, w)
    | (.error _, w) => (.update (failed "AGENT_PLANNING_FAILED"), w)
  | .validatePlan =>
    (.update fun values ↦
      { values with
        validation := some (validatePlan host.sha256 host.coercions host.context state) }, w)
  | .requestApproval => approvalNode host state answer w
  | .executeTasks =>
    match executeTasks host.sha256 host.coercions host.executors host.context state w with
    | (some records, w) =>
      (.update fun values ↦
        { values with
          executionRecords := records
          metrics := (state.metrics.map (withToolCalls records)).or values.metrics }, w)
    | (none, w) => (.update (failed "AGENT_EXECUTION_NODE_FAILED"), w)
  | .verifyResult =>
    let u := verifyResult host.sha256 state
    (.update fun values ↦
      { values with
        verification := some u.verification
        terminalStatus := some u.terminalStatus }, w)
  | .summarize =>
    match summarize host.sha256 state with
    | some output =>
      (.update fun values ↦
        { values with
          terminalStatus := some output.status
          summary := some output.summary.text }, w)
    | none => (.raised, w)

def continueOrVerify (node : AgentRunNode) (values : AgentGraphState) : List AgentRunNode :=
  if values.workflowErrorCode.isSome then [.verifyResult] else [node]

/-- The edges of the graph; the approval route raises without a decision. -/
def route (values : AgentGraphState) : AgentRunNode → Option (List AgentRunNode)
  | .analyzeGoal => some (continueOrVerify .loadContext values)
  | .loadContext => some (continueOrVerify .generatePlan values)
  | .generatePlan => some (continueOrVerify .validatePlan values)
  | .validatePlan =>
    if values.workflowErrorCode.isSome then some [.verifyResult]
    else match values.validation with
      | none => some [.verifyResult]
      | some v => if v.status = .valid then some [.requestApproval] else some [.verifyResult]
  | .requestApproval =>
    if values.workflowErrorCode.isSome then some [.verifyResult]
    else match values.approvalDecision with
      | some .approved => some [.executeTasks]
      | some .requestChanges => some [.generatePlan]
      | some .rejected => some [.verifyResult]
      | none => none
  | .executeTasks => some [.verifyResult]
  | .verifyResult => some [.summarize]
  | .summarize => some []

/-- A checkpoint of the graph, with the interrupts that are pending on it. -/
structure Checkpoint where
  values : AgentGraphState
  next : List AgentRunNode
  interrupts : List Json

def committed (cp : Checkpoint) (node : AgentRunNode) : NodeResult → Option Checkpoint
  | .update u => (route (u cp.values) node).map fun next ↦ ⟨u cp.values, next, []⟩
  | .interrupt value => some { cp with interrupts := [value] }
  | .raised => none

def superstep (host : Host σ) (cp : Checkpoint) (answer : Option AgentApprovalResponse) (w : σ) :
    Option Checkpoint × σ :=
  match cp.next with
  | [node] =>
    match cp.values.modelValidate with
    | none => (none, w)
    | some state =>
      let (result, w) := runNode host state answer w node
      (committed cp node result, w)
  | _ => (none, w)

inductive AgentCheckpointStatus
  | pendingInterrupt
  | continuable
  | terminal
  | inconsistent
  deriving DecidableEq

structure AgentCheckpointInspection where
  status : AgentCheckpointStatus
  approval : Option AgentApprovalInterrupt
  output : Option AgentGraphOutput

def inconsistentInspection : AgentCheckpointInspection := ⟨.inconsistent, none, none⟩

def inspectSnapshot (sha256 : Text → Digest) (c : Coercions) (cp : Checkpoint) :
    AgentCheckpointInspection :=
  match cp.interrupts with
  | [] =>
    match cp.values.modelValidate with
    | none => inconsistentInspection
    | some state =>
      match cp.next, state.terminalStatus with
      | [], none => inconsistentInspection
      | [], some _ =>
        match summarize sha256 state with
        | some output => ⟨.terminal, none, some output⟩
        | none => inconsistentInspection
      | _ :: _, some _ => inconsistentInspection
      | _ :: _, none => ⟨.continuable, none, none⟩
  | value :: values =>
    if values = [] ∧ cp.next = [.requestApproval] then
      match AgentApprovalInterrupt.modelValidate sha256 c value with
      | some approval => ⟨.pendingInterrupt, some approval, none⟩
      | none => inconsistentInspection
    else inconsistentInspection

def initialCheckpoint (goal : PlanningGoal) : Checkpoint := ⟨graphInput goal, [.analyzeGoal], []⟩

end LearningTasks.Agent.Graph
