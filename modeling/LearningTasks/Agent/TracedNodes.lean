import LearningTasks.Agent.Graph
import LearningTasks.Agent.Tracing
import LearningTasks.Services.ToolCoordinator

namespace LearningTasks.Agent.TracedNodes

open Library.Strings Library.Serialization Library.Programs Schemas.Scalars Models.Agent
  Schemas.Project Schemas.Task Agent.Schemas Grounding State Tools Planning Tracing
  Services.ToolCoordinator

/-- What the planning node is given. The elapsed time is missing where the clock
has run back. -/
structure ProviderHost (σ : Type) where
  parseJson : Text → Option Json
  buildInput : PlanningGoal → AgentGoalAnalysis → AgentContextSnapshot → Option Text → Option Text
  generate : Text → Program Raised σ ProviderResponse
  clock : Program Raised σ FloatRepr
  elapsedMs : FloatRepr → FloatRepr → Option FloatRepr
  sleeper : Program Raised σ Unit

inductive Handling
  | retry
  | configuration
  | unavailable

def handling : Raised → Handling
  | .provider .timeout | .provider .transient | .provider .invalidResponse | .validation => .retry
  | .provider .configuration | .provider .authentication | .provider .permission => .configuration
  | _ => .unavailable

def providerErrorCode : Raised → TraceErrorCode
  | .provider .timeout => .providerTimeout
  | .provider .transient => .providerTransient
  | .provider .invalidResponse | .validation => .providerInvalidResponse
  | .provider .configuration => .providerConfiguration
  | .provider .authentication => .providerAuthentication
  | .provider .permission => .providerPermission
  | _ => .providerFailure

def clockNotMonotonic : Text := "Agent metrics clock must be monotonic".toList

def didNotTerminate : Text := "bounded plan proposal generation did not terminate".toList

def unexpectedToolResult : Text := "unexpected tool result".toList

section

variable {σ : Type}

/-- What is made of the text of an answer; the world holds the usages. -/
def judge (c : Coercions) (host : ProviderHost σ) (startedAt : FloatRepr) (n : ℕ)
    (usage : ProviderUsage) (text : Text) : Program Raised (σ × List ProviderUsage)
      (ProviderUsage × AgentPlanProposal × AgentRunMetrics) := do
  let proposal ← Program.ofOption .validation
    ((host.parseJson text).bind (AgentPlanProposal.modelValidate c))
  let finishedAt ← Program.within host.clock
  let usages ← Program.beside fun usages ↦ (.ok usages, usages)
  let latencyMs ← Program.ofOption (.other clockNotMonotonic) (host.elapsedMs startedAt finishedAt)
  pure (usage, proposal, generationMetrics n usages latencyMs)

def attempt (c : Coercions) (host : ProviderHost σ) (input : Text) (startedAt : FloatRepr)
    (n : ℕ) : Program Raised (σ × List ProviderUsage)
      (ProviderUsage × AgentPlanProposal × AgentRunMetrics) := do
  let response ← Program.within (host.generate input)
  Program.beside fun usages ↦ (.ok (), usages ++ [response.usage])
  match response.outputText with
  | none => Program.raise (.provider .invalidResponse)
  | some text =>
    if response.toolCalls then Program.raise (.provider .invalidResponse)
    else judge c host startedAt n response.usage text

end

section

variable {σ ρ τ : Type}

/-- The attempts that are left. The span is finished inside the guarded part. -/
def attempts (tracer : Tracer ρ τ) (runId : Option UUID) (c : Coercions) (host : ProviderHost σ)
    (input : Text) (startedAt : FloatRepr) : ℕ → ℕ →
      Program Raised ((σ × List ProviderUsage) × ρ) (AgentPlanProposal × AgentRunMetrics)
  | 0, _ => Program.raise (.other didNotTerminate)
  | left + 1, n => do
    let span ← Program.beside (startTrace tracer runId
      { component := .provider
        name := "model_provider".toList
        promptVersion := some studyPlanPromptVersion
        attempt := some n })
    Program.handle (do
        let (usage, proposal, metrics) ← Program.within (attempt c host input startedAt n)
        Program.beside (span.finish tracer
          { inputTokens := usage.inputTokens
            outputTokens := usage.outputTokens
            totalTokens := usage.totalTokens })
        pure (proposal, metrics))
      fun e ↦ do
        Program.beside (span.fail tracer (providerErrorCode e))
        match handling e with
        | .retry =>
          if left = 0 then Program.raise .agentPlanningUnavailable
          else do
            Program.within (Program.within host.sleeper)
            attempts tracer runId c host input startedAt left (n + 1)
        | .configuration => Program.raise .agentPlanningConfiguration
        | .unavailable => Program.raise .agentPlanningUnavailable

def generatePlan (tracer : Tracer ρ τ) (runId : Option UUID) (c : Coercions)
    (host : ProviderHost σ) (state : AgentGraphState) :
    Program Raised (σ × ρ) (AgentPlanProposal × AgentRunMetrics) :=
  match state.analysis, state.context with
  | some analysis, some context => do
    let startedAt ← Program.within host.clock
    match host.buildInput state.goal analysis context state.approvalFeedback with
    | none => Program.raise .agentPlanningUnavailable
    | some input =>
      Program.withLocal []
        (attempts tracer runId c host input startedAt planningMaxAttempts 1)
  | _, _ => Program.raise .agentPlanningUnavailable

end

/-- What a tool of any kind returns; the type of a knowledge search is left open. -/
inductive AgentToolResult (κ : Type)
  | projects (response : ProjectListResponse)
  | tasks (response : TaskListResponse)
  | knowledge (result : κ)
  | write (result : AgentWriteToolResult)

structure ContextHost (σ κ : Type) where
  executor : Text → Fields → AgentRuntimeContext → Program Raised σ (AgentToolResult κ)
  buildGroundedKnowledge : κ → Option GroundedKnowledgeContext

def listProjectsArguments : Fields :=
  [("page".toList, .int 1), ("page_size".toList, .int 20), ("include_archived".toList, .bool false)]

def listTasksArguments : Fields := [("page".toList, .int 1), ("page_size".toList, .int 20)]

def searchKnowledgeArguments (objective : Text) : Fields :=
  [("query".toList, .str objective), ("top_k".toList, .int 10)]

section

variable {ω κ : Type}

def gather (invokeTool : Text → Fields → Program Raised ω (AgentToolResult κ))
    (buildGroundedKnowledge : κ → Option GroundedKnowledgeContext) (objective : Text) :
    Program Raised ω AgentContextSnapshot :=
  Program.handle (do
      let projects ← invokeTool "list_projects".toList listProjectsArguments
      let tasks ← invokeTool "list_tasks".toList listTasksArguments
      let knowledge ← invokeTool "search_knowledge".toList (searchKnowledgeArguments objective)
      match projects, tasks, knowledge with
      | .projects projects, .tasks tasks, .knowledge knowledge => do
        let knowledge ← Program.ofOption .validation (buildGroundedKnowledge knowledge)
        pure ⟨projects, tasks, knowledge⟩
      | _, _, _ => Program.raise (.other unexpectedToolResult))
    fun _ ↦ Program.raise .agentContextUnavailable

end

section

variable {σ ρ τ κ : Type}

def loadContext (tracer : Tracer ρ τ) (runId : Option UUID) (host : ContextHost σ κ)
    (context : AgentRuntimeContext) (state : AgentGraphState) :
    Program Raised (σ × ρ) AgentContextSnapshot :=
  match state.analysis with
  | none => Program.raise .agentContextUnavailable
  | some analysis =>
    if analysis.requiredContext = [.projects, .tasks, .knowledge] then
      gather
        (fun name arguments ↦ tracedCall tracer runId { component := .tool, name := name }
          (fun _ ↦ .toolExecutionFailed) (host.executor name arguments ⟨context.userId, false⟩))
        host.buildGroundedKnowledge analysis.objective.text
    else Program.raise .agentContextUnavailable

def callCoordinator (tracer : Tracer ρ τ) (host : CoordinatorHost σ) (action : AgentProposedAction)
    (revision : ℕ) (fingerprint : Digest) (context : AgentRuntimeContext) :
    Program Raised (σ × ρ) AgentWriteToolResult :=
  tracedCall tracer (some host.runId) { component := .tool, name := action.toolName.value }
    (fun e ↦ if provenNoWrite e then .toolExecutionFailed else .toolExecutionUnknown)
    (execute host action revision fingerprint context)

end

/-- What is observed of a run besides its result: the inputs sent to the provider, the
tool calls dispatched and the execution rows written, each in order. -/
structure Journal where
  attempts : List Text
  dispatched : List (Text × Fields)
  rows : List (ExecutionIdentity × AgentToolExecution)

section

variable {σ κ α : Type}

def journaled (note : Journal → Journal) (p : Program Raised σ α) :
    Program Raised (σ × Journal) α := fun w ↦ p.within (w.1, note w.2)

def ProviderHost.journaled (host : ProviderHost σ) : ProviderHost (σ × Journal) where
  parseJson := host.parseJson
  buildInput := host.buildInput
  generate input := TracedNodes.journaled
    (fun j ↦ { j with attempts := j.attempts ++ [input] }) (host.generate input)
  clock := Program.within host.clock
  elapsedMs := host.elapsedMs
  sleeper := Program.within host.sleeper

def ContextHost.journaled (host : ContextHost σ κ) : ContextHost (σ × Journal) κ where
  executor name arguments context := TracedNodes.journaled
    (fun j ↦ { j with dispatched := j.dispatched ++ [(name, arguments)] })
    (host.executor name arguments context)
  buildGroundedKnowledge := host.buildGroundedKnowledge

def CoordinatorHost.journaled (host : CoordinatorHost σ) : CoordinatorHost (σ × Journal) where
  runId := host.runId
  userId := host.userId
  openSession := Program.within host.openSession
  getOwnedApproval runId userId revision := Program.within (host.getOwnedApproval runId userId revision)
  getOwnedAction id := Program.within (host.getOwnedAction id)
  add id row := TracedNodes.journaled (fun j ↦ { j with rows := j.rows ++ [(id, row)] })
    (host.add id row)
  flush id loaded edited := TracedNodes.journaled
    (fun j ↦ { j with rows := j.rows ++ [(id, edited)] }) (host.flush id loaded edited)
  commit := Program.within host.commit
  rollback := Program.within host.rollback
  close := Program.within host.close
  clock := Program.within host.clock
  newId := Program.within host.newId
  dispatcher name arguments context := TracedNodes.journaled
    (fun j ↦ { j with dispatched := j.dispatched ++ [(name.value, arguments)] })
    (host.dispatcher name arguments context)
  taskLoader taskId userId := Program.within (host.taskLoader taskId userId)
  int := host.int

end

section

variable {σ κ ρ τ ρ' τ' : Type} (tracer : Tracer ρ τ) (tracer' : Tracer ρ' τ')
  (runId runId' : Option UUID)

theorem attempts_agree (c : Coercions) (host : ProviderHost σ) (input : Text)
    (startedAt : FloatRepr) (left n : ℕ) :
    Program.Agree (attempts tracer runId c host input startedAt left n)
      (attempts tracer' runId' c host input startedAt left n) := by
  induction left generalizing n with
  | zero => exact .raise _
  | succ left ih =>
    refine .silent (startTrace_silent tracer runId _) (startTrace_silent tracer' runId' _) ?_
    intro span span'
    refine .handle ?_ ?_
    · refine .bind (.within _) ?_
      rintro ⟨usage, proposal, metrics⟩
      exact .silent (terminal_silent tracer span _ _) (terminal_silent tracer' span' _ _)
        fun _ _ ↦ .pure _
    · intro e
      refine .silent (terminal_silent tracer span _ _) (terminal_silent tracer' span' _ _) ?_
      intro _ _
      cases handling e with
      | configuration => exact .raise _
      | unavailable => exact .raise _
      | retry =>
        by_cases hleft : left = 0
        · simp only [hleft, ↓reduceIte]
          exact .raise _
        · simp only [hleft, ↓reduceIte]
          exact .bind (.within _) fun _ ↦ ih (n + 1)

theorem generatePlan_agree (c : Coercions) (host : ProviderHost σ) (state : AgentGraphState) :
    Program.Agree (generatePlan tracer runId c host state)
      (generatePlan tracer' runId' c host state) := by
  unfold generatePlan
  split
  · refine .bind (.within _) fun startedAt ↦ ?_
    split
    · exact .raise _
    · exact .withLocal (attempts_agree tracer tracer' runId runId' c host _ startedAt _ _) []
  · exact .raise _

theorem gather_agree
    {invoke : Text → Fields → Program Raised (σ × ρ) (AgentToolResult κ)}
    {invoke' : Text → Fields → Program Raised (σ × ρ') (AgentToolResult κ)}
    (h : ∀ name arguments, Program.Agree (invoke name arguments) (invoke' name arguments))
    (ground : κ → Option GroundedKnowledgeContext) (objective : Text) :
    Program.Agree (gather invoke ground objective) (gather invoke' ground objective) := by
  refine .handle ?_ fun _ ↦ .raise _
  refine .bind (h _ _) fun projects ↦ ?_
  refine .bind (h _ _) fun tasks ↦ ?_
  refine .bind (h _ _) fun knowledge ↦ ?_
  split
  · exact .bind (.ofOption _ _) fun _ ↦ .pure _
  · exact .raise _

theorem loadContext_agree (host : ContextHost σ κ) (context : AgentRuntimeContext)
    (state : AgentGraphState) :
    Program.Agree (loadContext tracer runId host context state)
      (loadContext tracer' runId' host context state) := by
  unfold loadContext
  split
  · exact .raise _
  · split
    · exact gather_agree (fun _ _ ↦ tracedCall_agree tracer tracer' runId runId' _ _ _) _ _
    · exact .raise _

end

section

variable {σ κ ρ τ : Type}

def outcomeOf {α : Type} (r : Except Raised α × σ) : Option α × σ :=
  match r with
  | (.ok a, w) => (some a, w)
  | (.error _, w) => (none, w)

def ContextHost.fetchContext (host : ContextHost σ κ) (context : AgentRuntimeContext)
    (objective : Text) (w : σ) : Option AgentContextSnapshot × σ :=
  outcomeOf (gather (fun name arguments ↦ host.executor name arguments ⟨context.userId, false⟩)
    host.buildGroundedKnowledge objective w)

theorem gather_within (invoke : Text → Fields → Program Raised σ (AgentToolResult κ))
    (ground : κ → Option GroundedKnowledgeContext) (objective : Text) :
    gather (fun name arguments ↦ (invoke name arguments).within) ground objective =
      ((gather invoke ground objective).within :
        Program Raised (σ × ρ) AgentContextSnapshot) := by
  simp only [gather, Program.within_handle, Program.within_bind, Program.within_raise]
  congr 1
  congr 1
  funext projects
  congr 1
  funext tasks
  congr 1
  funext knowledge
  split
  · rw [Program.within_bind]
    cases ground _ <;> rfl
  · rfl

theorem loadContext_eq (tracer : Tracer ρ τ) (runId : Option UUID) (ctx : ContextHost σ κ)
    (host : Graph.Host σ) (hf : host.fetchContext = ctx.fetchContext host.context)
    (state : AgentGraphState) (w : σ) (r : ρ) :
    let run := loadContext tracer runId ctx host.context state (w, r)
    outcomeOf (run.1, run.2.1) = Graph.loadContext host state w := by
  obtain ⟨houtcome, hworld⟩ :=
    loadContext_agree tracer tracer runId none ctx host.context state w r r
  intro run
  rw [houtcome, hworld]
  simp only [loadContext, tracedCall_none, gather_within]
  rw [Graph.loadContext, hf]
  cases state.analysis with
  | none => rfl
  | some analysis =>
    by_cases h : analysis.requiredContext = [.projects, .tasks, .knowledge]
    · simp only [h, ↓reduceIte]
      rfl
    · simp only [h, ↓reduceIte]
      rfl

end

section

variable {σ ρ τ : Type}

/-- The error that the planning node tells an exception of the provider by. -/
def providerError : Raised → ProviderError
  | .provider e => e
  | .validation => .invalidResponse
  | _ => .other

def planningRaised : PlanningError → Raised
  | .unavailable => .agentPlanningUnavailable
  | .configuration => .agentPlanningConfiguration

/-- What the graph takes for the host of the node that has read its clock once. -/
def ProviderHost.planning (host : ProviderHost σ) (startedAt : FloatRepr)
    (addLatency : FloatRepr → FloatRepr → FloatRepr) : PlanningHost σ where
  parseJson := host.parseJson
  buildInput := host.buildInput
  generate input w := ((host.generate input w).1.mapError providerError, (host.generate input w).2)
  latency w :=
    match host.clock w with
    | (.ok finishedAt, w) => (host.elapsedMs startedAt finishedAt, w)
    | (.error _, w) => (none, w)
  addLatency := addLatency

/-- A host whose clock always returns, and whose sleeper only takes time. -/
structure ProviderHost.Quiet (host : ProviderHost σ) : Prop where
  clock : ∀ w, ∃ t w', host.clock w = (.ok t, w')
  sleeper : ∀ w, host.sleeper w = (.ok (), w)

theorem handling_eq (e : Raised) : handling e =
    match providerError e with
    | .timeout | .transient | .invalidResponse => .retry
    | .configuration | .authentication | .permission => .configuration
    | .other => .unavailable := by
  cases e with
  | provider e => cases e <;> rfl
  | _ => rfl

variable (c : Coercions) (host : ProviderHost σ) (input : Text) (startedAt : FloatRepr)
  (add : FloatRepr → FloatRepr → FloatRepr)

section

variable {c host input startedAt add} {w w' : σ} {usages : List ProviderUsage} {n : ℕ}
  {response : ProviderResponse}

theorem attempt_raised {e : Raised} (h : host.generate input w = (.error e, w')) :
    attempt c host input startedAt n (w, usages) = (.error e, (w', usages)) :=
  Program.bind_of_error (Program.within_run h usages) _

theorem attempt_answered (h : host.generate input w = (.ok response, w')) :
    attempt c host input startedAt n (w, usages) =
      (match response.outputText with
        | none => Program.raise (Raised.provider .invalidResponse)
        | some text =>
          if response.toolCalls then Program.raise (Raised.provider .invalidResponse)
          else judge c host startedAt n response.usage text) (w', usages ++ [response.usage]) := by
  unfold attempt
  rw [Program.bind_of_ok (Program.within_run h usages)]
  rfl

theorem attempt_turned_down (n : ℕ) (usages : List ProviderUsage)
    (h : host.generate input w = (.ok response, w'))
    (hr : readProposal c (host.planning startedAt add) response = none) :
    ∃ e, attempt c host input startedAt n (w, usages) =
      (.error e, (w', usages ++ [response.usage])) ∧ handling e = .retry := by
  rw [attempt_answered h]
  cases ht : response.outputText with
  | none => exact ⟨_, rfl, rfl⟩
  | some text =>
    by_cases hc : response.toolCalls = true
    · exact ⟨.provider .invalidResponse, by simp only [hc, ↓reduceIte]; rfl, rfl⟩
    · have hj : (host.parseJson text).bind (AgentPlanProposal.modelValidate c) = none := by
        rw [readProposal, if_neg hc, ht] at hr
        exact hr
      refine ⟨.validation, ?_, rfl⟩
      simp only [hc, Bool.false_eq_true, ↓reduceIte, judge, hj]
      rfl

theorem attempt_accepted (n : ℕ) (usages : List ProviderUsage)
    (h : host.generate input w = (.ok response, w')) {proposal : AgentPlanProposal}
    (hr : readProposal c (host.planning startedAt add) response = some proposal) {w'' : σ}
    {t : FloatRepr} (ht : host.clock w' = (.ok t, w'')) :
    attempt c host input startedAt n (w, usages) =
      (match host.elapsedMs startedAt t with
        | some latencyMs => (.ok (response.usage, proposal,
            generationMetrics n (usages ++ [response.usage]) latencyMs),
            (w'', usages ++ [response.usage]))
        | none => (.error (.other clockNotMonotonic), (w'', usages ++ [response.usage]))) := by
  rw [attempt_answered h]
  unfold readProposal at hr
  split at hr
  · cases hr
  · next hc =>
    obtain ⟨j, hj, hp⟩ := Option.bind_eq_some_iff.mp hr
    obtain ⟨text, htext, hparse⟩ := Option.bind_eq_some_iff.mp hj
    have hproposal : (host.parseJson text).bind (AgentPlanProposal.modelValidate c) =
        some proposal := by
      rw [Option.bind_eq_some_iff]
      exact ⟨j, hparse, hp⟩
    simp only [htext, hc, Bool.false_eq_true, ↓reduceIte, judge, hproposal, Program.ofOption,
      Program.pure_bind]
    rw [Program.bind_of_ok (Program.within_run ht _)]
    cases host.elapsedMs startedAt t <;> rfl

end

section

variable {c host input startedAt} {w w' : σ} {usages usages' : List ProviderUsage}

theorem attempts_ok (tracer : Tracer ρ τ) {left n : ℕ} {usage : ProviderUsage}
    {proposal : AgentPlanProposal} {metrics : AgentRunMetrics}
    (h : attempt c host input startedAt n (w, usages) =
      (.ok (usage, proposal, metrics), (w', usages'))) (r : ρ) :
    attempts tracer none c host input startedAt (left + 1) n ((w, usages), r) =
      (.ok (proposal, metrics), ((w', usages'), r)) := by
  rw [attempts, startTrace, Program.beside_pure, Program.pure_bind]
  refine Program.handle_of_ok ?_ _
  rw [Program.bind_of_ok (Program.within_run h r)]
  rfl

def retry (tracer : Tracer ρ τ) (c : Coercions) (host : ProviderHost σ) (input : Text)
    (startedAt : FloatRepr) (left n : ℕ) :
    Program Raised ((σ × List ProviderUsage) × ρ) (AgentPlanProposal × AgentRunMetrics) :=
  if left = 0 then Program.raise .agentPlanningUnavailable
  else do
    Program.within (Program.within host.sleeper)
    attempts tracer none c host input startedAt left (n + 1)

theorem attempts_error (tracer : Tracer ρ τ) {left n : ℕ} {e : Raised}
    (h : attempt c host input startedAt n (w, usages) = (.error e, (w', usages'))) (r : ρ) :
    attempts tracer none c host input startedAt (left + 1) n ((w, usages), r) =
      (match handling e with
        | .retry => retry tracer c host input startedAt left n
        | .configuration => Program.raise Raised.agentPlanningConfiguration
        | .unavailable => Program.raise Raised.agentPlanningUnavailable) ((w', usages'), r) := by
  rw [attempts, startTrace, Program.beside_pure, Program.pure_bind]
  rw [Program.handle_of_error (Program.bind_of_error (Program.within_run h r) _)]
  rfl

/-- A run of the node as the model of the graph sees it: without usages and traces. -/
def seen {α υ : Type} (run : Except Raised α × ((σ × υ) × ρ)) : Except Raised α × σ :=
  (run.1, run.2.1.1)

def planned {α : Type} (run : Except PlanningError α × σ) : Except Raised α × σ :=
  (run.1.mapError planningRaised, run.2)

theorem attempts_step (tracer : Tracer ρ τ) (hq : host.Quiet) {left n : ℕ} {r : ρ}
    (hnext : ∀ w usages, seen (retry tracer c host input startedAt left n ((w, usages), r)) =
      planned (generateAttempts c (host.planning startedAt add) input left (n + 1) usages w)) :
    seen (attempts tracer none c host input startedAt (left + 1) n ((w, usages), r)) =
      planned (generateAttempts c (host.planning startedAt add) input (left + 1) n usages w) := by
  rw [generateAttempts]
  cases hg : host.generate input w with
  | mk outcome w' =>
    have hp : (host.planning startedAt add).generate input w =
        (outcome.mapError providerError, w') := by
      simp only [ProviderHost.planning, hg]
    rw [hp]
    cases outcome with
    | error e =>
      rw [attempts_error tracer (attempt_raised hg), handling_eq]
      simp only [Except.mapError]
      cases providerError e with
      | timeout => exact hnext w' usages
      | transient => exact hnext w' usages
      | invalidResponse => exact hnext w' usages
      | configuration => rfl
      | authentication => rfl
      | permission => rfl
      | other => rfl
    | ok response =>
      simp only [Except.mapError]
      cases hr : readProposal c (host.planning startedAt add) response with
      | none =>
        obtain ⟨e, he, hretry⟩ := attempt_turned_down n usages hg hr
        rw [attempts_error tracer he, hretry]
        exact hnext w' (usages ++ [response.usage])
      | some proposal =>
        obtain ⟨t, w'', ht⟩ := hq.clock w'
        have hl : (host.planning startedAt add).latency w' = (host.elapsedMs startedAt t, w'') := by
          simp only [ProviderHost.planning, ht]
        have ha := attempt_accepted n usages hg hr ht
        simp only [hl]
        cases he : host.elapsedMs startedAt t with
        | none =>
          rw [he] at ha
          rw [attempts_error tracer ha]
          rfl
        | some latencyMs =>
          rw [he] at ha
          rw [attempts_ok tracer ha]
          rfl

/-- The attempts without their spans are those of the graph's model. -/
theorem attempts_eq (tracer : Tracer ρ τ) (hq : host.Quiet) (left n : ℕ) (w : σ)
    (usages : List ProviderUsage) (r : ρ) :
    seen (attempts tracer none c host input startedAt (left + 1) n ((w, usages), r)) =
      planned (generateAttempts c (host.planning startedAt add) input (left + 1) n usages w) := by
  induction left generalizing n w usages with
  | zero => exact attempts_step add tracer hq fun w usages ↦ rfl
  | succ left ih =>
    refine attempts_step add tracer hq fun w usages ↦ ?_
    rw [← ih (n + 1) w usages, retry, if_neg (Nat.succ_ne_zero left)]
    rw [Program.bind_of_ok (Program.within_run (Program.within_run (hq.sleeper w) usages) r)]

theorem generatePlan_eq (tracer : Tracer ρ τ) (runId : Option UUID) (hq : host.Quiet)
    (state : AgentGraphState) {analysis : AgentGoalAnalysis} {context : AgentContextSnapshot}
    (ha : state.analysis = some analysis) (hc : state.context = some context)
    (ht : host.clock w = (.ok startedAt, w')) (r : ρ) :
    let run := generatePlan tracer runId c host state (w, r)
    (run.1, run.2.1) = planned (Planning.generatePlan c (host.planning startedAt add) state w') := by
  obtain ⟨houtcome, hworld⟩ := generatePlan_agree tracer tracer runId none c host state w r r
  intro run
  rw [houtcome, hworld]
  have hfree : generatePlan tracer none c host state (w, r) =
      (match host.buildInput state.goal analysis context state.approvalFeedback with
        | none => Program.raise Raised.agentPlanningUnavailable
        | some input => Program.withLocal []
          (attempts tracer none c host input startedAt planningMaxAttempts 1)) (w', r) := by
    simp only [generatePlan, ha, hc]
    rw [Program.bind_of_ok (Program.within_run ht r)]
  rw [hfree]
  simp only [Planning.generatePlan, ha, hc, ProviderHost.planning]
  cases host.buildInput state.goal analysis context state.approvalFeedback with
  | none => rfl
  | some input => exact attempts_eq add tracer hq 1 1 w' [] r

end

end

section

variable {σ κ ρ τ ρ' τ' : Type} (tracer : Tracer ρ τ) (tracer' : Tracer ρ' τ')
  (runId : Option UUID)

/-- Whatever two sinks and clocks do or raise, a visit of the planning node, a context
load and a call of the coordinator each give one result or error, and leave one world
and one journal. -/
theorem tracing_agree :
    (∀ (c : Coercions) (host : ProviderHost σ) (state : AgentGraphState),
      Program.Agree (generatePlan tracer runId c host.journaled state)
        (generatePlan tracer' runId c host.journaled state)) ∧
    (∀ (host : ContextHost σ κ) (context : AgentRuntimeContext) (state : AgentGraphState),
      Program.Agree (loadContext tracer runId host.journaled context state)
        (loadContext tracer' runId host.journaled context state)) ∧
    ∀ (host : CoordinatorHost σ) (action : AgentProposedAction) (revision : ℕ)
      (fingerprint : Digest) (context : AgentRuntimeContext),
      Program.Agree
        (callCoordinator tracer (CoordinatorHost.journaled host) action revision fingerprint context)
        (callCoordinator tracer' (CoordinatorHost.journaled host) action revision fingerprint
          context) := by
  refine ⟨?_, ?_, ?_⟩
  · intro c host state
    exact generatePlan_agree tracer tracer' runId runId c host.journaled state
  · intro host context state
    exact loadContext_agree tracer tracer' runId runId host.journaled context state
  · intro host action revision fingerprint context
    exact tracedCall_agree tracer tracer' _ _ _ _ _

end

end LearningTasks.Agent.TracedNodes
