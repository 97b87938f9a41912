import LearningTasks.Agent.TracedWorkflow

namespace LearningTasks.Agent.TraceTransparency

open Library.Strings Library.Serialization Library.Programs Library.Transition Schemas.Scalars
  Models.Agent Agent.Schemas State Tools Approval Execution Finalization Planning Graph
  Termination Tracing TraceRecords TracedNodes TracedWorkflow Services.ToolCoordinator
  Services.AgentWorkflow

def tracing {σ κ : Type} (h : WorkflowHost σ κ) (runId : Option UUID) : WorkflowHost σ κ :=
  { h with traceRunId := runId }

section

variable {σ κ ρ τ ρ' τ' : Type} (tracer : Tracer ρ τ) (tracer' : Tracer ρ' τ')
  (h : WorkflowHost σ κ) (runId : Option UUID)

theorem dispatch_agree (context : AgentRuntimeContext) (revision : ℕ) (fingerprint : Digest)
    (action : AgentProposedAction) :
    Program.Agree (ε := ToolError)
      (Execution.dispatch (h.executors tracer) context revision fingerprint action)
      (Execution.dispatch ((tracing h runId).executors tracer') context revision fingerprint
        action) := by
  intro s r r'
  unfold Execution.dispatch WorkflowHost.executors tracing
  cases h.actionExecutor with
  | none => exact ⟨rfl, rfl⟩
  | some host =>
    obtain ⟨outcome, s', t, t', hrun, hrun'⟩ := (tracedCall_agree tracer tracer' (some host.runId)
      (some host.runId) { component := .tool, name := action.toolName.value }
      (fun e ↦ if provenNoWrite e then .toolExecutionFailed else .toolExecutionUnknown)
      (execute host action revision fingerprint context)).cases s r r'
    simp only [Option.map_some, callCoordinator, hrun, hrun', and_self]

theorem performAction_agree (c : Coercions) (context : AgentRuntimeContext) (revision : ℕ)
    (fingerprint : Digest) (action : AgentProposedAction) :
    Program.Agree (ε := ToolError)
      (performAction c (h.executors tracer) context revision fingerprint action)
      (performAction c ((tracing h runId).executors tracer') context revision fingerprint
        action) := by
  intro s r r'
  unfold performAction
  cases validateToolArguments c action.toolName action.arguments context with
  | error e => exact ⟨rfl, rfl⟩
  | ok arguments =>
    obtain ⟨outcome, s', t, t', hrun, hrun'⟩ :=
      (dispatch_agree tracer tracer' h runId context revision fingerprint action).cases s r r'
    dsimp only
    rw [hrun, hrun']
    exact ⟨rfl, rfl⟩

theorem executeActions_agree (c : Coercions) (context : AgentRuntimeContext) (revision : ℕ)
    (fingerprint : Digest) (actions : List AgentProposedAction) (s : σ) (r : ρ) (r' : ρ') :
    ∃ records s' t t',
      executeActions c (h.executors tracer) context revision fingerprint actions (s, r) =
        (records, (s', t)) ∧
      executeActions c ((tracing h runId).executors tracer') context revision fingerprint actions
        (s, r') = (records, (s', t')) := by
  induction actions generalizing s r r' with
  | nil => exact ⟨[], s, r, r', rfl, rfl⟩
  | cons action actions ih =>
    obtain ⟨outcome, s₁, t, t', hrun, hrun'⟩ :=
      (performAction_agree tracer tracer' h runId c context revision fingerprint action).cases s r r'
    rw [executeActions, executeActions, hrun, hrun']
    cases outcome with
    | error e => exact ⟨[failedRecord action e], s₁, t, t', rfl, rfl⟩
    | ok result =>
      obtain ⟨records, s₂, u, u', hrest, hrest'⟩ := ih s₁ t t'
      dsimp only
      rw [hrest, hrest']
      exact ⟨succeededRecord action result :: records, s₂, u, u', rfl, rfl⟩

theorem executeTasks_agree (state : AgentGraphState) (s : σ) (r : ρ) (r' : ρ') :
    ∃ records s' t t',
      executeTasks h.graph.sha256 h.graph.coercions (h.executors tracer) h.graph.context state
        (s, r) = (records, (s', t)) ∧
      executeTasks (tracing h runId).graph.sha256 (tracing h runId).graph.coercions
        ((tracing h runId).executors tracer') (tracing h runId).graph.context state (s, r') =
          (records, (s', t')) := by
  have hauthorized (actions : List AgentProposedAction) :
      actionsAuthorized h.graph.coercions h.graph.context ((tracing h runId).executors tracer')
        actions = actionsAuthorized h.graph.coercions h.graph.context (h.executors tracer)
        actions := by
    unfold actionsAuthorized WorkflowHost.executors tracing
    cases h.actionExecutor <;> rfl
  change ∃ records s' t t', _ ∧ executeTasks h.graph.sha256 h.graph.coercions
    ((tracing h runId).executors tracer') h.graph.context state (s, r') = (records, (s', t'))
  unfold executeTasks
  cases state.proposal with
  | none => exact ⟨none, s, r, r', rfl, rfl⟩
  | some proposal =>
    dsimp only
    rw [hauthorized]
    split
    · obtain ⟨records, s', t, t', hrun, hrun'⟩ := executeActions_agree tracer tracer' h runId
        h.graph.coercions h.graph.context state.revisionCount
        (fingerprintPlanProposal h.graph.sha256 proposal) proposal.actions s r r'
      rw [hrun, hrun']
      exact ⟨some records, s', t, t', rfl, rfl⟩
    · exact ⟨none, s, r, r', rfl, rfl⟩

theorem nodeBody_agree (state : AgentGraphState) (answer : Option AgentApprovalResponse)
    (node : AgentRunNode) :
    Program.Agree (nodeBody tracer h state answer node)
      (nodeBody tracer' (tracing h runId) state answer node) := by
  cases node with
  | loadContext =>
    exact .handle (.bind (loadContext_agree tracer tracer' h.traceRunId runId h.contexts
      h.graph.context state) fun _ ↦ .pure _) fun _ ↦ .pure _
  | generatePlan =>
    exact .handle (.bind (generatePlan_agree tracer tracer' h.traceRunId runId h.graph.coercions
      h.provider state) fun _ ↦ .pure _) fun _ ↦ .pure _
  | executeTasks =>
    intro s r r'
    obtain ⟨records, s', t, t', hrun, hrun'⟩ :=
      executeTasks_agree tracer tracer' h runId state s r r'
    unfold nodeBody
    dsimp only
    rw [hrun, hrun']
    cases records with
    | none => exact ⟨rfl, rfl⟩
    | some records => exact ⟨rfl, rfl⟩
  | analyzeGoal | validatePlan | requestApproval | verifyResult | summarize => exact .within _

theorem tracedNode_agree (state : AgentGraphState) (answer : Option AgentApprovalResponse)
    (node : AgentRunNode) :
    Program.Agree (tracedNode tracer h state answer node)
      (tracedNode tracer' (tracing h runId) state answer node) := by
  refine .silent (startTrace_silent tracer h.traceRunId _) (startTrace_silent tracer' runId _) ?_
  intro span span'
  have hended {counters : TraceCounters} {t : Terminal} {result : NodeResult} :
      Program.Agree
        (Program.beside (span.terminal tracer counters t) >>= fun _ ↦ Pure.pure result :
          Program Raised (σ × ρ) NodeResult)
        (Program.beside (span'.terminal tracer' counters t) >>= fun _ ↦ Pure.pure result) :=
    .silent (terminal_silent tracer span _ _) (terminal_silent tracer' span' _ _) fun _ _ ↦ .pure _
  refine .bind (.handle (nodeBody_agree tracer tracer' h runId state answer node) fun e ↦ ?_)
    fun result ↦ ?_
  · exact .silent (terminal_silent tracer span _ _) (terminal_silent tracer' span' _ _)
      fun _ _ ↦ .raise e
  · cases result with
    | interrupt value => exact hended
    | raised => exact hended
    | update u =>
      dsimp only
      split
      · exact hended
      · exact hended

theorem superstep_agree (cp : Checkpoint) (answer : Option AgentApprovalResponse) :
    Program.Agree (TracedWorkflow.superstep tracer h cp answer)
      (TracedWorkflow.superstep tracer' (tracing h runId) cp answer) := by
  unfold TracedWorkflow.superstep
  split
  · next node hnext =>
    split
    · exact .pure _
    · next state hstate =>
      refine .handle (.bind (tracedNode_agree tracer tracer' h runId state answer node) fun result ↦
        ?_) fun _ ↦ .pure _
      cases committed cp node result with
      | none => exact .pure _
      | some cp' => exact .bind (.within _) fun _ ↦ .pure _
  · exact .pure _

theorem invokeGraph_agree (limit : ℕ) (cp : Checkpoint) (answer : Option AgentApprovalResponse) :
    Program.Agree (invokeGraph tracer h limit cp answer)
      (invokeGraph tracer' (tracing h runId) limit cp answer) := by
  induction limit generalizing cp answer with
  | zero =>
    rw [invokeGraph, invokeGraph]
    split <;> exact .pure _
  | succ limit ih =>
    rw [invokeGraph, invokeGraph]
    split
    · exact .pure _
    · refine .bind (superstep_agree tracer tracer' h runId cp answer) fun left ↦ ?_
      cases left with
      | none => exact .pure _
      | some cp' =>
        dsimp only
        split
        · exact ih cp' none
        · exact .pure _

theorem invoke_agree (goal : PlanningGoal) (threadId : Option UUID) :
    Program.Agree (TracedWorkflow.invoke tracer h goal threadId)
      (TracedWorkflow.invoke tracer' (tracing h runId) goal threadId) := by
  refine .silent (startTrace_silent tracer h.traceRunId _) (startTrace_silent tracer' runId _) ?_
  intro span span'
  refine .bind (invokeGraph_agree tracer tracer' h runId _ _ _) ?_
  rintro ⟨cp, outcome⟩
  have hended {counters : TraceCounters} {t : Terminal} {output : AgentGraphOutput} :
      Program.Agree
        (Program.beside (span.terminal tracer counters t) >>= fun _ ↦ Pure.pure output :
          Program Raised (σ × ρ) AgentGraphOutput)
        (Program.beside (span'.terminal tracer' counters t) >>= fun _ ↦ Pure.pure output) :=
    .silent (terminal_silent tracer span _ _) (terminal_silent tracer' span' _ _) fun _ _ ↦ .pure _
  dsimp only [tracing]
  generalize (if outcome = .finished then cp.values.modelValidate else none).bind
    (summarize h.graph.sha256) = final
  cases final with
  | none => exact hended
  | some output => exact hended

theorem readProgress_agree (cp : Checkpoint) (outcome : Outcome) :
    Program.Agree
      (readProgress h cp outcome : Program Raised (σ × ρ) (Option AgentWorkflowProgress))
      (readProgress (tracing h runId) cp outcome : Program Raised (σ × ρ') _) := by
  refine .handle ?_ fun _ ↦ .pure _
  cases outcome with
  | raised | recursionError => exact .pure _
  | finished | waiting => exact .bind (.within _) fun _ ↦ .pure _

theorem advance_agree (threadId : UUID) (cp : Checkpoint) (answer : Option AgentApprovalResponse) :
    Program.Agree (TracedWorkflow.advance tracer h threadId cp answer)
      (TracedWorkflow.advance tracer' (tracing h runId) threadId cp answer) := by
  refine .silent (startTrace_silent tracer h.traceRunId _) (startTrace_silent tracer' runId _) ?_
  intro span span'
  refine .bind (invokeGraph_agree tracer tracer' h runId _ _ _) ?_
  rintro ⟨cp', outcome⟩
  refine .bind (readProgress_agree h runId cp' outcome) fun progress ↦ ?_
  have hended {counters : TraceCounters} {t : Terminal} :
      Program.Agree
        (Program.beside (span.terminal tracer counters t) >>= fun _ ↦ Pure.pure (cp', progress) :
          Program Raised (σ × ρ) (Checkpoint × Option AgentWorkflowProgress))
        (Program.beside (span'.terminal tracer' counters t) >>= fun _ ↦ Pure.pure (cp', progress)) :=
    .silent (terminal_silent tracer span _ _) (terminal_silent tracer' span' _ _) fun _ _ ↦ .pure _
  cases progress with
  | none => exact hended
  | some progress =>
    cases progress with
    | approval request => exact hended
    | output output => exact hended

end

inductive Answer
  | output (output : AgentGraphOutput)
  | progress (progress : AgentWorkflowProgress)
  | raised
  | quiet

/-- A thread of a workflow, with what the sink of its tracer keeps. -/
structure Thread (σ ρ : Type) where
  checkpoint : Option Checkpoint
  world : σ
  sink : ρ

section

variable {σ κ ρ τ : Type} (tracer : Tracer ρ τ) (h : WorkflowHost σ κ)

def callAdvance (s : Thread σ ρ) (threadId : UUID) (cp : Checkpoint)
    (answer : Option AgentApprovalResponse) : Answer × Thread σ ρ :=
  if h.graph.durableApproval then
    match TracedWorkflow.advance tracer h threadId cp answer (s.world, s.sink) with
    | (.ok (cp', some progress), w) => (.progress progress, ⟨some cp', w.1, w.2⟩)
    | (.ok (cp', none), w) => (.raised, ⟨some cp', w.1, w.2⟩)
    | (.error _, w) => (.raised, ⟨some cp, w.1, w.2⟩)
  else (.raised, s)

/-- The calls of the traced workflow with any sink and clock, and what they return. -/
def call (s : Thread σ ρ) : Move σ → Option (Answer × Thread σ ρ)
  | .invoke goal threadId =>
    match TracedWorkflow.invoke tracer h goal threadId (s.world, s.sink) with
    | (.ok output, w) => some (.output output, ⟨s.checkpoint, w.1, w.2⟩)
    | (.error _, w) => some (.raised, ⟨s.checkpoint, w.1, w.2⟩)
  | .startDurable goal threadId => match s.checkpoint with
    | none => some (callAdvance tracer h s threadId (initialCheckpoint goal) none)
    | some _ => none
  | .resumeDurable response threadId =>
    (s.checkpoint.filter fun cp ↦ !cp.interrupts.isEmpty).map fun cp ↦
      callAdvance tracer h s threadId cp (some response)
  | .continueDurable threadId =>
    s.checkpoint.map fun cp ↦ callAdvance tracer h s threadId cp none
  | .outside world => some (.quiet, { s with world := world })

def calls : Thread σ ρ → List (Move σ) → Option (List Answer × Thread σ ρ)
  | s, [] => some ([], s)
  | s, m :: ms => (call tracer h s m).bind fun a ↦
    (calls a.2 ms).map fun rest ↦ (a.1 :: rest.1, rest.2)

end

def observed {α σ ρ : Type} (run : α × Thread σ ρ) : α × Option Checkpoint × σ :=
  (run.1, run.2.checkpoint, run.2.world)

theorem call_machine {σ κ κ' τ : Type} (m : Recorder τ κ) (h : WorkflowHost σ κ')
    (s : RunState σ κ) (move : Move σ) : (TracedWorkflow.machine m h).step s move =
      (call m.tracer h ⟨s.checkpoint, s.world, s.record⟩ move).map fun a ↦
        ⟨a.2.checkpoint, a.2.world, a.2.sink⟩ := by
  have hadvanced (threadId : UUID) (cp : Checkpoint) (answer : Option AgentApprovalResponse) :
      advanced m h s threadId cp answer =
        (fun a : Answer × Thread σ (Record κ) ↦
          (⟨a.2.checkpoint, a.2.world, a.2.sink⟩ : RunState σ κ))
          (callAdvance m.tracer h ⟨s.checkpoint, s.world, s.record⟩ threadId cp answer) := by
    unfold advanced callAdvance
    split
    · rcases TracedWorkflow.advance m.tracer h threadId cp answer (s.world, s.record) with
        ⟨e | ⟨cp', _ | progress⟩, w⟩ <;> rfl
    · rfl
  cases move with
  | invoke goal threadId =>
    unfold call
    dsimp only [TracedWorkflow.machine]
    rcases TracedWorkflow.invoke m.tracer h goal threadId (s.world, s.record) with ⟨e | o, w⟩ <;>
      rfl
  | startDurable goal threadId =>
    unfold call
    dsimp only [TracedWorkflow.machine]
    cases hcheckpoint : s.checkpoint with
    | none =>
      rw [hadvanced, hcheckpoint]
      rfl
    | some cp => rfl
  | resumeDurable response threadId =>
    unfold call
    dsimp only [TracedWorkflow.machine]
    rw [Option.map_map]
    exact congrArg (Option.map · _) (funext fun cp ↦ hadvanced _ _ _)
  | continueDurable threadId =>
    unfold call
    dsimp only [TracedWorkflow.machine]
    rw [Option.map_map]
    exact congrArg (Option.map · _) (funext fun cp ↦ hadvanced _ _ _)
  | outside world => rfl

section

variable {σ κ ρ τ ρ' τ' : Type} (tracer : Tracer ρ τ) (tracer' : Tracer ρ' τ')
  (h : WorkflowHost σ κ) (runId : Option UUID)

theorem callAdvance_agree {s : Thread σ ρ} {s' : Thread σ ρ'}
    (hcheckpoint : s.checkpoint = s'.checkpoint) (hworld : s.world = s'.world) (threadId : UUID)
    (cp : Checkpoint) (answer : Option AgentApprovalResponse) :
    observed (callAdvance tracer h s threadId cp answer) =
      observed (callAdvance tracer' (tracing h runId) s' threadId cp answer) := by
  obtain ⟨outcome, w, t, t', hrun, hrun'⟩ :=
    (advance_agree tracer tracer' h runId threadId cp answer).cases s.world s.sink s'.sink
  rw [hworld] at hrun'
  unfold callAdvance
  have hdurable : (tracing h runId).graph.durableApproval = h.graph.durableApproval := rfl
  rw [hdurable]
  split
  · rw [hrun, hrun']
    rcases outcome with e | ⟨cp', _ | progress⟩ <;> rfl
  · simp only [observed, hcheckpoint, hworld]

theorem call_agree {s : Thread σ ρ} {s' : Thread σ ρ'} (hcheckpoint : s.checkpoint = s'.checkpoint)
    (hworld : s.world = s'.world) (move : Move σ) :
    (call tracer h s move).map observed =
      (call tracer' (tracing h runId) s' move).map observed := by
  have hadvance := callAdvance_agree tracer tracer' h runId hcheckpoint hworld
  cases move with
  | invoke goal threadId =>
    obtain ⟨outcome, w, t, t', hrun, hrun'⟩ :=
      (invoke_agree tracer tracer' h runId goal threadId).cases s.world s.sink s'.sink
    rw [hworld] at hrun'
    unfold call
    dsimp only
    rw [hrun, hrun']
    cases outcome with
    | error e => simp only [Option.map_some, observed, hcheckpoint]
    | ok output => simp only [Option.map_some, observed, hcheckpoint]
  | startDurable goal threadId =>
    unfold call
    dsimp only
    rw [← hcheckpoint]
    cases s.checkpoint with
    | none => exact congrArg some (hadvance threadId (initialCheckpoint goal) none)
    | some cp => rfl
  | resumeDurable response threadId =>
    unfold call
    dsimp only
    rw [← hcheckpoint, Option.map_map, Option.map_map]
    exact congrArg (Option.map · _) (funext fun cp ↦ hadvance threadId cp (some response))
  | continueDurable threadId =>
    unfold call
    dsimp only
    rw [← hcheckpoint, Option.map_map, Option.map_map]
    exact congrArg (Option.map · _) (funext fun cp ↦ hadvance threadId cp none)
  | outside world => simp only [call, Option.map_some, observed, hcheckpoint]

end

section

variable {σ κ ρ τ ρ' τ' : Type} (tracer : Tracer ρ τ) (tracer' : Tracer ρ' τ')
  (h : WorkflowHost σ κ) (runId : Option UUID)

theorem calls_agree (ms : List (Move σ)) (checkpoint : Option Checkpoint) (world : σ) (sink : ρ)
    (sink' : ρ') :
    (calls tracer h ⟨checkpoint, world, sink⟩ ms).map observed =
      (calls tracer' (tracing h runId) ⟨checkpoint, world, sink'⟩ ms).map observed := by
  induction ms generalizing checkpoint world sink sink' with
  | nil => rfl
  | cons m ms ih =>
    have hfirst := @call_agree _ _ _ _ _ _ tracer tracer' h runId ⟨checkpoint, world, sink⟩
      ⟨checkpoint, world, sink'⟩ rfl rfl m
    unfold calls
    cases hrun : call tracer h ⟨checkpoint, world, sink⟩ m with
    | none =>
      rw [hrun] at hfirst
      rw [Option.map_eq_none_iff.mp hfirst.symm]
      rfl
    | some a =>
      rw [hrun, Option.map_some] at hfirst
      obtain ⟨a', hrun', hsame⟩ := Option.map_eq_some_iff.mp hfirst.symm
      obtain ⟨answer, cp, w, t⟩ := a
      obtain ⟨answer', cp', w', t'⟩ := a'
      simp only [observed, Prod.mk.injEq] at hsame
      obtain ⟨rfl, rfl, rfl⟩ := hsame
      rw [hrun']
      simp only [Option.bind_some, Option.map_map]
      have hrest := congrArg (Option.map fun rest ↦ (answer' :: rest.1, rest.2)) (ih cp' w' t t')
      rwa [Option.map_map, Option.map_map] at hrest

/-- The graph of a workflow, whose context load makes the calls of the traced one. -/
def plainGraph (h : WorkflowHost σ κ) : Graph.Host σ :=
  { h.graph with fetchContext := h.contexts.fetchContext h.graph.context }

/-- Whatever two sinks and clocks do or raise, and whether or not a run is traced at all, the
calls on a workflow return the same answers and leave the same checkpoint and world. A recorder
makes these calls, and the nodes that call out do in any trace what the plain graph does. -/
theorem tracing_transparent :
    (∀ (ms : List (Move σ)) (checkpoint : Option Checkpoint) (world : σ) (sink : ρ) (sink' : ρ'),
      (calls tracer h ⟨checkpoint, world, sink⟩ ms).map observed =
        (calls tracer' (tracing h runId) ⟨checkpoint, world, sink'⟩ ms).map observed) ∧
    (∀ (υ ι : Type) (m : Recorder υ ι) (s : RunState σ ι) (move : Move σ),
      (TracedWorkflow.machine m h).step s move =
        (call m.tracer h ⟨s.checkpoint, s.world, s.record⟩ move).map fun a ↦
          ⟨a.2.checkpoint, a.2.world, a.2.sink⟩) ∧
    (∀ (state : AgentGraphState) (world : σ) (sink : ρ),
      let run := TracedNodes.loadContext tracer h.traceRunId h.contexts h.graph.context state
        (world, sink)
      outcomeOf (run.1, run.2.1) = Graph.loadContext (plainGraph h) state world) ∧
    (h.provider.Quiet → ∀ (add : FloatRepr → FloatRepr → FloatRepr) (state : AgentGraphState),
      state.analysis.isSome = true → state.context.isSome = true →
      ∀ (startedAt : FloatRepr) (world world' : σ) (sink : ρ),
        h.provider.clock world = (.ok startedAt, world') →
        let run := TracedNodes.generatePlan tracer h.traceRunId h.graph.coercions h.provider state
          (world, sink)
        (run.1, run.2.1) = planned (Planning.generatePlan h.graph.coercions
          (h.provider.planning startedAt add) state world')) := by
  refine ⟨calls_agree tracer tracer' h runId, fun υ ι m s move ↦ call_machine m h s move, ?_, ?_⟩
  · intro state world sink
    exact loadContext_eq tracer h.traceRunId h.contexts (plainGraph h) rfl state world sink
  · intro hquiet add state hanalysis hcontext startedAt world world' sink hclock
    obtain ⟨analysis, hanalysis⟩ := Option.isSome_iff_exists.mp hanalysis
    obtain ⟨context, hcontext⟩ := Option.isSome_iff_exists.mp hcontext
    exact generatePlan_eq add tracer h.traceRunId hquiet state
      hanalysis hcontext hclock sink

end

end LearningTasks.Agent.TraceTransparency
