import LearningTasks.Agent.Planning
import LearningTasks.Library.Programs
import Mathlib.Algebra.Order.Ring.Rat
import Mathlib.Order.WithBot

namespace LearningTasks.Agent.Tracing

open Library.Strings Library.Programs Schemas.Scalars Agent.Schemas Tools Planning

/-- The exceptions of the code around the spans. A sink may raise any of them. -/
inductive Raised
  | provider (e : ProviderError)
  | tool (e : ToolError)
  | validation
  | integrity (duplicate : Bool)
  | agentToolReconciliationRequired
  | agentPlanningUnavailable
  | agentPlanningConfiguration
  | agentContextUnavailable
  | other (message : Text)
  deriving DecidableEq

inductive TraceComponent
  | run
  | node
  | tool
  | provider
  deriving DecidableEq

inductive TracePhase
  | started
  | finished
  | failed
  deriving DecidableEq

inductive TraceOutcome
  | succeeded
  | failed
  deriving DecidableEq

inductive TraceErrorCode
  | agentAnalysisFailed
  | agentContextFailed
  | agentPlanningFailed
  | agentApprovalFailed
  | agentExecutionNodeFailed
  | agentExecutionFailed
  | agentWorkflowFailed
  | providerTimeout
  | providerTransient
  | providerInvalidResponse
  | providerConfiguration
  | providerAuthentication
  | providerPermission
  | providerFailure
  | toolExecutionFailed
  | toolExecutionUnknown
  deriving DecidableEq

def maxTraceAttempts : ℕ := 16

def maxTraceToolCalls : ℕ := 100

def maxTraceTokens : ℕ := 1000000000

def maxTraceLatencyMs : ℚ := 86400000

def componentNames : TraceComponent → List Text
  | .run => ["agent_workflow".toList]
  | .node =>
    ["analyze_goal".toList, "load_context".toList, "generate_plan".toList, "validate_plan".toList,
      "request_approval".toList, "execute_tasks".toList, "verify_result".toList,
      "summarize".toList]
  | .tool =>
    ["list_projects".toList, "list_tasks".toList, "search_knowledge".toList,
      "create_task".toList, "update_task".toList, "batch_create_tasks".toList,
      "delete_task".toList]
  | .provider => ["model_provider".toList]

structure TraceCounters where
  modelRoundCount : Option ℕ := none
  providerAttemptCount : Option ℕ := none
  toolCallCount : Option ℕ := none
  inputTokens : Option ℕ := none
  outputTokens : Option ℕ := none
  totalTokens : Option ℕ := none

def TraceCounters.valid (c : TraceCounters) : Bool :=
  c.modelRoundCount.all (· ≤ maxTraceAttempts) &&
    c.providerAttemptCount.all (· ≤ maxTraceAttempts) &&
    c.toolCallCount.all (· ≤ maxTraceToolCalls) &&
    c.inputTokens.all (· ≤ maxTraceTokens) && c.outputTokens.all (· ≤ maxTraceTokens) &&
    c.totalTokens.all (· ≤ maxTraceTokens)

/-- The pattern `^study-plan\.v[1-9][0-9]*$`. -/
def isPromptVersion (s : Text) : Bool :=
  "study-plan.v".toList.isPrefixOf s &&
    match s.drop 12 with
    | [] => false
    | d :: ds => ('1' ≤ d && d ≤ '9') && ds.all Char.isDigit

/-- The arguments of an event. A latency may be infinite. -/
structure TraceFields where
  runId : UUID
  threadId : Option UUID
  component : TraceComponent
  name : Text
  phase : TracePhase
  outcome : Option TraceOutcome
  errorCode : Option TraceErrorCode
  promptVersion : Option Text
  attempt : Option ℕ
  counters : TraceCounters
  latencyMs : Option (WithTop ℚ)

/-- `validate_shape`, after the name has been found in the allowlist. -/
def TraceFields.shape (e : TraceFields) : Bool :=
  match e.phase with
  | .started => e.outcome.isNone && e.errorCode.isNone && e.latencyMs.isNone
  | .finished => e.outcome == some .succeeded && e.errorCode.isNone && e.latencyMs.isSome
  | .failed => e.outcome == some .failed && e.errorCode.isSome && e.latencyMs.isSome

def TraceFields.valid (e : TraceFields) : Bool :=
  (1 ≤ e.name.length && e.name.length ≤ 64) &&
    e.promptVersion.all (fun v ↦ isPromptVersion v && v.length ≤ 100) &&
    e.attempt.all (fun n ↦ 1 ≤ n && n ≤ maxTraceAttempts) && e.counters.valid &&
    e.latencyMs.all (fun x ↦ 0 ≤ x && x ≤ (maxTraceLatencyMs : WithTop ℚ)) &&
    (componentNames e.component).contains e.name && e.shape

abbrev AgentTraceEvent := { e : TraceFields // e.valid = true }

def TraceFields.event (e : TraceFields) : Option AgentTraceEvent :=
  if h : e.valid = true then some ⟨e, h⟩ else none

/-- A sink and a clock with what they keep between two calls. Any call may raise.
The latency between two readings is `max(0.0, (later - earlier) * 1000)`. -/
structure Tracer (ρ τ : Type) where
  emit : AgentTraceEvent → Program Raised ρ Unit
  clock : Program Raised ρ τ
  latencyMs : τ → τ → WithTop ℚ

structure SpanLabel where
  threadId : Option UUID := none
  component : TraceComponent
  name : Text
  promptVersion : Option Text := none
  attempt : Option ℕ := none

structure TraceSpan (τ : Type) where
  runId : Option UUID
  label : SpanLabel
  startedAt : Option τ

def SpanLabel.started (label : SpanLabel) (runId : UUID) : TraceFields where
  runId := runId
  threadId := label.threadId
  component := label.component
  name := label.name
  phase := .started
  outcome := none
  errorCode := none
  promptVersion := label.promptVersion
  attempt := label.attempt
  counters := {}
  latencyMs := none

inductive Terminal
  | finish
  | fail (code : TraceErrorCode)

def SpanLabel.ended (label : SpanLabel) (runId : UUID) (counters : TraceCounters)
    (latencyMs : WithTop ℚ) (terminal : Terminal) : TraceFields :=
  { label.started runId with
    phase := match terminal with
      | .finish => .finished
      | .fail _ => .failed
    outcome := match terminal with
      | .finish => some .succeeded
      | .fail _ => some .failed
    errorCode := match terminal with
      | .finish => none
      | .fail code => some code
    counters := counters
    latencyMs := some latencyMs }

variable {ρ τ : Type}

def emitTrace (tracer : Tracer ρ τ) (event : AgentTraceEvent) : Program Raised ρ Unit :=
  (tracer.emit event).handle fun _ ↦ pure ()

def startTrace (tracer : Tracer ρ τ) (runId : Option UUID) (label : SpanLabel) :
    Program Raised ρ (TraceSpan τ) :=
  match runId with
  | none => pure ⟨none, label, none⟩
  | some id => do
    let startedAt ← Program.handle (do
        let startedAt ← tracer.clock
        let event ← Program.ofOption .validation (label.started id).event
        emitTrace tracer event
        pure (some startedAt))
      fun _ ↦ pure none
    pure ⟨some id, label, startedAt⟩

/-- `_terminal`; the clock is read before the event is validated. -/
def TraceSpan.terminal (tracer : Tracer ρ τ) (span : TraceSpan τ) (counters : TraceCounters)
    (t : Terminal) : Program Raised ρ Unit :=
  match span.runId, span.startedAt with
  | some id, some startedAt =>
    Program.handle (do
        let now ← tracer.clock
        let event ← Program.ofOption .validation
          (span.label.ended id counters (tracer.latencyMs now startedAt) t).event
        emitTrace tracer event)
      fun _ ↦ pure ()
  | _, _ => pure ()

def TraceSpan.finish (tracer : Tracer ρ τ) (span : TraceSpan τ) (counters : TraceCounters := {}) :
    Program Raised ρ Unit := span.terminal tracer counters .finish

def TraceSpan.fail (tracer : Tracer ρ τ) (span : TraceSpan τ) (code : TraceErrorCode) :
    Program Raised ρ Unit := span.terminal tracer {} (.fail code)

/-- A call in a span of its own, which passes its exception on. -/
def tracedCall {σ α : Type} (tracer : Tracer ρ τ) (runId : Option UUID) (label : SpanLabel)
    (code : Raised → TraceErrorCode) (p : Program Raised σ α) : Program Raised (σ × ρ) α := do
  let span ← Program.beside (startTrace tracer runId label)
  let result ← Program.handle p.within fun e ↦ do
    Program.beside (span.fail tracer (code e))
    Program.raise e
  Program.beside (span.finish tracer)
  pure result

theorem handle_returns {α : Type} (p : Program Raised ρ α) (a : α) (r : ρ) :
    ∃ b r', p.handle (fun _ ↦ pure a) r = (.ok b, r') := by
  cases h : p r with
  | mk outcome r' =>
    cases outcome with
    | ok b => exact ⟨b, r', Program.handle_of_ok h _⟩
    | error e => exact ⟨a, r', Program.handle_of_error h _⟩

theorem startTrace_returns (tracer : Tracer ρ τ) (runId : Option UUID) (label : SpanLabel)
    (r : ρ) : ∃ span r', startTrace tracer runId label r = (.ok span, r') := by
  cases runId with
  | none => exact ⟨_, _, rfl⟩
  | some id =>
    obtain ⟨startedAt, r', h⟩ := handle_returns (ρ := ρ) _ none r
    exact ⟨⟨some id, label, startedAt⟩, r', Program.bind_of_ok h _⟩

theorem terminal_returns (tracer : Tracer ρ τ) (span : TraceSpan τ) (counters : TraceCounters)
    (t : Terminal) (r : ρ) : ∃ u r', span.terminal tracer counters t r = (.ok u, r') := by
  obtain ⟨runId, label, startedAt⟩ := span
  cases runId with
  | none => exact ⟨(), r, rfl⟩
  | some id =>
    cases startedAt with
    | none => exact ⟨(), r, rfl⟩
    | some startedAt => exact handle_returns _ () r

variable {σ : Type}

/-- A span is silent on the world beside which it works, whatever its sink and its
clock raise. -/
theorem startTrace_silent (tracer : Tracer ρ τ) (runId : Option UUID) (label : SpanLabel) :
    Program.Silent (σ := σ) (Program.beside (startTrace tracer runId label)) :=
  Program.Silent.beside (startTrace_returns tracer runId label)

theorem terminal_silent (tracer : Tracer ρ τ) (span : TraceSpan τ) (counters : TraceCounters)
    (t : Terminal) :
    Program.Silent (σ := σ) (Program.beside (span.terminal tracer counters t)) :=
  Program.Silent.beside (terminal_returns tracer span counters t)

section

variable {ρ' τ' α : Type} (tracer : Tracer ρ τ) (tracer' : Tracer ρ' τ')
  (runId runId' : Option UUID)

theorem tracedCall_agree (label : SpanLabel) (code : Raised → TraceErrorCode)
    (p : Program Raised σ α) :
    Program.Agree (tracedCall tracer runId label code p)
      (tracedCall tracer' runId' label code p) := by
  refine .silent (startTrace_silent tracer runId label) (startTrace_silent tracer' runId' label) ?_
  intro span span'
  refine .bind (.handle (.within p) fun e ↦ ?_) fun a ↦ ?_
  · exact .silent (terminal_silent tracer span _ _) (terminal_silent tracer' span' _ _)
      fun _ _ ↦ .raise e
  · exact .silent (terminal_silent tracer span _ _) (terminal_silent tracer' span' _ _)
      fun _ _ ↦ .pure a

theorem tracedCall_none (label : SpanLabel) (code : Raised → TraceErrorCode)
    (p : Program Raised σ α) : tracedCall tracer none label code p = p.within := by
  funext w
  unfold tracedCall
  rw [startTrace, Program.beside_pure, Program.pure_bind]
  cases h : p.within w with
  | mk outcome w' =>
    cases outcome with
    | ok a => exact Program.bind_of_ok (Program.handle_of_ok h _) _
    | error e => exact Program.bind_of_error (Program.handle_of_error h _) _

end

end LearningTasks.Agent.Tracing
