import LearningTasks.Agent.Termination
import LearningTasks.Agent.TraceRecords
import LearningTasks.Agent.TracedNodes
import LearningTasks.Services.AgentWorkflow
import LearningTasks.Services.ToolRecovery

namespace LearningTasks.Agent.TracedWorkflow

open Library.Strings Library.Serialization Library.Programs Library.Transition Schemas.Scalars
  Models.Agent Agent.Schemas State Tools Approval Execution Finalization Planning Graph
  Termination Tracing TraceRecords TracedNodes Services.ToolCoordinator Services.AgentWorkflow

/-- What `build_agent_graph` is given, with the writes and the reads of its checkpointer. The
nodes that open no spans of their own take what they need from `graph`. -/
structure WorkflowHost (σ κ : Type) where
  graph : Graph.Host σ
  provider : ProviderHost σ
  contexts : ContextHost σ κ
  actionExecutor : Option (CoordinatorHost σ)
  putCheckpoint : Checkpoint → Program Raised σ Unit
  getState : Program Raised σ Unit
  traceRunId : Option UUID

def nodeName : AgentRunNode → Text
  | .analyzeGoal => "analyze_goal".toList
  | .loadContext => "load_context".toList
  | .generatePlan => "generate_plan".toList
  | .validatePlan => "validate_plan".toList
  | .requestApproval => "request_approval".toList
  | .executeTasks => "execute_tasks".toList
  | .verifyResult => "verify_result".toList
  | .summarize => "summarize".toList

def nodeErrorCode : AgentRunNode → TraceErrorCode
  | .analyzeGoal => .agentAnalysisFailed
  | .loadContext => .agentContextFailed
  | .generatePlan | .validatePlan => .agentPlanningFailed
  | .requestApproval => .agentApprovalFailed
  | .executeTasks => .agentExecutionNodeFailed
  | .verifyResult | .summarize => .agentWorkflowFailed

def agentGraphFailureSummary : Text := "Agent workflow failed safely.".toList

def graphFailure : AgentGraphOutput where
  status := .failed
  plan := none
  summary := ⟨agentGraphFailureSummary, by decide, by decide⟩
  executionRecords := []
  metrics := none

section

variable {σ κ ρ τ : Type} (tracer : Tracer ρ τ) (h : WorkflowHost σ κ)

/-- The executors of the actions; those of the coordinator are traced. -/
def WorkflowHost.executors : Executors (σ × ρ) where
  dispatcher name arguments context := fun w ↦
    let (result, s) := h.graph.executors.dispatcher name arguments context w.1
    (result, (s, w.2))
  actionExecutor := h.actionExecutor.map fun host action revision fingerprint context w ↦
    let (result, w) := callCoordinator tracer host action revision fingerprint context w
    (result.mapError Services.ToolRecovery.loopError, w)

def nodeBody (state : AgentGraphState) (answer : Option AgentApprovalResponse) :
    AgentRunNode → Program Raised (σ × ρ) NodeResult
  | .loadContext => Program.handle (do
      let snapshot ← TracedNodes.loadContext tracer h.traceRunId h.contexts h.graph.context state
      pure (.update fun values ↦ { values with context := some snapshot }))
    fun _ ↦ pure (.update (failed "AGENT_CONTEXT_FAILED"))
  | .generatePlan => Program.handle (do
      let (proposal, metrics) ←
        TracedNodes.generatePlan tracer h.traceRunId h.graph.coercions h.provider state
      pure (.update fun values ↦
        { values with
          proposal := some proposal
          metrics := some (mergeMetrics h.graph.planning.addLatency state.metrics metrics) }))
    fun _ ↦ pure (.update (failed "AGENT_PLANNING_FAILED"))
  | .executeTasks => fun w ↦
    match executeTasks h.graph.sha256 h.graph.coercions (h.executors tracer) h.graph.context state
      w with
    | (some records, w) => (.ok (.update fun values ↦
        { values with
          executionRecords := records
          metrics := (state.metrics.map (withToolCalls records)).or values.metrics }), w)
    | (none, w) => (.ok (.update (failed "AGENT_EXECUTION_NODE_FAILED")), w)
  | node => Program.within fun s ↦
    let (result, s) := runNode h.graph state answer s node
    (.ok result, s)

/-- `traced_node`. What an update sets is read off a state that has no error code. -/
def tracedNode (state : AgentGraphState) (answer : Option AgentApprovalResponse)
    (node : AgentRunNode) : Program Raised (σ × ρ) NodeResult := do
  let span ← Program.beside (startTrace tracer h.traceRunId
    { component := .node
      name := nodeName node
      promptVersion := some studyPlanPromptVersion })
  let result ← (nodeBody tracer h state answer node).handle fun e ↦ do
    Program.beside (span.fail tracer (nodeErrorCode node))
    Program.raise e
  match result with
  | .interrupt _ => Program.beside (span.finish tracer)
  | .raised => Program.beside (span.fail tracer (nodeErrorCode node))
  | .update u =>
    if (u { state with workflowErrorCode := none }).workflowErrorCode.isSome then
      Program.beside (span.fail tracer (nodeErrorCode node))
    else Program.beside (span.finish tracer)
  pure result

/-- One superstep with its write; no checkpoint where it raises. -/
def superstep (cp : Checkpoint) (answer : Option AgentApprovalResponse) :
    Program Raised (σ × ρ) (Option Checkpoint) :=
  match cp.next with
  | [node] =>
    match cp.values.modelValidate with
    | none => pure none
    | some state => Program.handle (do
        let result ← tracedNode tracer h state answer node
        match committed cp node result with
        | none => pure none
        | some cp' => do
          Program.within (h.putCheckpoint cp')
          pure (some cp'))
      fun _ ↦ pure none
  | _ => pure none

def invokeGraph : ℕ → Checkpoint → Option AgentApprovalResponse →
    Program Raised (σ × ρ) (Checkpoint × Outcome)
  | limit, cp, answer =>
    match cp.next with
    | [] => pure (cp, .finished)
    | _ :: _ =>
      match limit with
      | 0 => pure (cp, .recursionError)
      | limit + 1 => do
        match ← superstep tracer h cp answer with
        | none => pure (cp, .raised)
        | some cp' =>
          if cp'.interrupts = [] then invokeGraph limit cp' none else pure (cp', .waiting)

def startRunTrace (threadId : Option UUID) : Program Raised ρ (TraceSpan τ) :=
  startTrace tracer h.traceRunId
    { threadId := threadId
      component := .run
      name := "agent_workflow".toList
      promptVersion := some studyPlanPromptVersion }

def metricsCounters (m : AgentRunMetrics) : TraceCounters where
  modelRoundCount := some m.modelRoundCount
  providerAttemptCount := some m.providerAttemptCount
  toolCallCount := some m.toolCallCount
  inputTokens := m.inputTokens
  outputTokens := m.outputTokens
  totalTokens := m.totalTokens

def runCounters (output : Option AgentGraphOutput) : TraceCounters :=
  match output.bind (·.metrics) with
  | none => {}
  | some m => metricsCounters m

def finishRunTrace (span : TraceSpan τ) (output : Option AgentGraphOutput) (failed : Bool) :
    Program Raised ρ Unit :=
  span.terminal tracer (runCounters output) (if failed then .fail .agentWorkflowFailed else .finish)

def failedStatus : AgentTerminalStatus → Bool
  | .failed | .partialFailure => true
  | .succeeded | .rejected => false

/-- `AgentWorkflow.invoke`. The result of an interrupted graph is not a state. -/
def invoke (goal : PlanningGoal) (threadId : Option UUID) :
    Program Raised (σ × ρ) AgentGraphOutput := do
  let span ← Program.beside (startRunTrace tracer h threadId)
  let (cp, outcome) ← invokeGraph tracer h agentGraphRecursionLimit (initialCheckpoint goal) none
  let finalState := if outcome = .finished then cp.values.modelValidate else none
  match finalState.bind (summarize h.graph.sha256) with
  | some output => do
    Program.beside (finishRunTrace tracer span (some output) (failedStatus output.status))
    pure output
  | none => do
    Program.beside (finishRunTrace tracer span (some graphFailure) true)
    pure graphFailure

/-- What `_advance` reads off the snapshot of its thread, unless it raises. -/
def readProgress (cp : Checkpoint) (outcome : Outcome) :
    Program Raised (σ × ρ) (Option AgentWorkflowProgress) :=
  Program.handle (match outcome with
    | .raised | .recursionError => pure none
    | .finished | .waiting => do
      Program.within h.getState
      pure (progressOf (inspectSnapshot h.graph.sha256 h.graph.coercions cp)))
  fun _ ↦ pure none

/-- `_advance`: the checkpoint that it leaves, and its progress unless it raises. -/
def advance (threadId : UUID) (cp : Checkpoint) (answer : Option AgentApprovalResponse) :
    Program Raised (σ × ρ) (Checkpoint × Option AgentWorkflowProgress) := do
  let span ← Program.beside (startRunTrace tracer h (some threadId))
  let (cp, outcome) ← invokeGraph tracer h agentGraphRecursionLimit cp answer
  let progress ← readProgress h cp outcome
  match progress with
  | none => Program.beside (finishRunTrace tracer span none true)
  | some (.approval _) => Program.beside (finishRunTrace tracer span none false)
  | some (.output output) =>
    Program.beside (finishRunTrace tracer span (some output) (failedStatus output.status))
  pure (cp, progress)

end

/-- What is done with a workflow: a run that leaves no checkpoint, the calls on the thread of a
durable one, and what others do to the world. -/
inductive Move (σ : Type)
  | invoke (goal : PlanningGoal) (threadId : Option UUID)
  | startDurable (goal : PlanningGoal) (threadId : UUID)
  | resumeDurable (response : AgentApprovalResponse) (threadId : UUID)
  | continueDurable (threadId : UUID)
  | outside (s : σ)

section

variable {σ κ' τ κ : Type} (m : Recorder τ κ) (h : WorkflowHost σ κ')

/-- The checkpoint of the thread, the world and what has been emitted. -/
structure RunState (σ κ : Type) where
  checkpoint : Option Checkpoint
  world : σ
  record : Record κ

/-- A workflow without durable approval raises before its run span is started. -/
def advanced (s : RunState σ κ) (threadId : UUID) (cp : Checkpoint)
    (answer : Option AgentApprovalResponse) : RunState σ κ :=
  if h.graph.durableApproval then
    match advance m.tracer h threadId cp answer (s.world, s.record) with
    | (.ok (cp', _), w) => ⟨some cp', w.1, w.2⟩
    | (.error _, w) => ⟨some cp, w.1, w.2⟩
  else s

def machine : Machine (RunState σ κ) (Move σ) where
  init s := s.checkpoint = none ∧ s.record.events = []
  step s
    | .invoke goal threadId =>
      let w := (invoke m.tracer h goal threadId (s.world, s.record)).2
      some ⟨s.checkpoint, w.1, w.2⟩
    | .startDurable goal threadId => match s.checkpoint with
      | none => some (advanced m h s threadId (initialCheckpoint goal) none)
      | some _ => none
    | .resumeDurable response threadId =>
      (s.checkpoint.filter fun cp ↦ !cp.interrupts.isEmpty).map fun cp ↦
        advanced m h s threadId cp (some response)
    | .continueDurable threadId =>
      s.checkpoint.map fun cp ↦ advanced m h s threadId cp none
    | .outside world => some { s with world := world }

end

end LearningTasks.Agent.TracedWorkflow
