import LearningTasks.Agent.NodeSpans
import LearningTasks.Agent.TracedWorkflow

namespace LearningTasks.Agent.WorkflowSpans

open Library.Strings Library.Serialization Library.Programs Library.Transition Library.Brackets
  Schemas.Scalars Models.Agent Agent.Schemas State Tools Approval Execution Finalization Planning
  Graph Metrics Termination Tracing TraceRecords TracedNodes NodeSpans TracedWorkflow
  Services.ToolCoordinator Services.AgentWorkflow

variable {σ κ' τ κ : Type} {m : Recorder τ κ} {h : WorkflowHost σ κ'} {P : EndedSpan τ → Prop}

/-- The spans of the nodes, of the tools and of the attempts are all of one kind. -/
structure Covers (m : Recorder τ κ) (h : WorkflowHost σ κ') (P : EndedSpan τ → Prop) : Prop where
  node : ∀ label : SpanLabel, label.component = .node → ∀ t e, Closing m label {} t e → P e
  tool : ∀ label : SpanLabel, label.component = .tool → ∀ t e, Closing m label {} t e → P e
  attempts : CoversAttempts m h.provider P

theorem dispatch_traced (hP : Covers m h P) (context : AgentRuntimeContext) (revision : ℕ)
    (fingerprint : Digest) (action : AgentProposedAction) (w : σ × Record κ) :
    Traced m P w.2
      (Execution.dispatch (h.executors m.tracer) context revision fingerprint action w).2.2 := by
  unfold Execution.dispatch WorkflowHost.executors
  cases h.actionExecutor with
  | none => exact traced_of_events rfl
  | some host => exact callCoordinator_leaves hP.tool host action revision fingerprint context w.1 w.2

theorem performAction_traced (hP : Covers m h P) (c : Coercions) (context : AgentRuntimeContext)
    (revision : ℕ) (fingerprint : Digest) (action : AgentProposedAction) (w : σ × Record κ) :
    Traced m P w.2
      (performAction c (h.executors m.tracer) context revision fingerprint action w).2.2 := by
  unfold performAction
  cases validateToolArguments c action.toolName action.arguments context with
  | error e => exact traced_of_events rfl
  | ok arguments => exact dispatch_traced hP context revision fingerprint action w

theorem executeActions_traced (hP : Covers m h P) (c : Coercions) (context : AgentRuntimeContext)
    (revision : ℕ) (fingerprint : Digest) (actions : List AgentProposedAction)
    (w : σ × Record κ) : Traced m P w.2
      (executeActions c (h.executors m.tracer) context revision fingerprint actions w).2.2 := by
  induction actions generalizing w with
  | nil => exact traced_of_events rfl
  | cons action actions ih =>
    have hfirst := performAction_traced hP c context revision fingerprint action w
    rw [executeActions]
    rcases hrun : performAction c (h.executors m.tracer) context revision fingerprint action w with
      ⟨e | result, w'⟩
    · rw [hrun] at hfirst
      exact hfirst
    · rw [hrun] at hfirst
      exact IsTrans.trans _ _ _ hfirst (ih w')

theorem nodeBody_leaves (hP : Covers m h P) (state : AgentGraphState)
    (answer : Option AgentApprovalResponse) (node : AgentRunNode) :
    Program.Leaves (Traced m P) (nodeBody m.tracer h state answer node) := by
  cases node with
  | loadContext =>
    refine .handle (.bind (loadContext_leaves hP.tool _ _ _) fun _ ↦ .pure _) fun _ ↦ .pure _
  | generatePlan =>
    refine .handle (.bind (generatePlan_leaves hP.attempts _) fun _ ↦ .pure _) fun _ ↦ .pure _
  | executeTasks =>
    intro s r
    unfold nodeBody executeTasks
    cases state.proposal with
    | none => exact traced_of_events rfl
    | some proposal =>
      dsimp only
      split
      · next heq =>
        split at heq
        · cases heq
          exact executeActions_traced hP _ _ _ _ _ (s, r)
        · cases heq
      · next heq =>
        split at heq
        · cases heq
        · cases heq
          exact traced_of_events rfl
  | analyzeGoal | validatePlan | requestApproval | verifyResult | summarize => exact .within _

theorem tracedNode_step (hP : Covers m h P) (state : AgentGraphState)
    (answer : Option AgentApprovalResponse) (node : AgentRunNode) (s : σ) (r : Record κ) :
    ∃ r₁ r' w, nodeBody m.tracer h state answer node (s, r₁) = w ∧
      tracedNode m.tracer h state answer node (s, r) = (w.1, (w.2.1, r')) ∧ Traced m P r r' := by
  obtain ⟨span, r₁, hstart, hopened⟩ := startTrace_opened m h.traceRunId
    { component := .node
      name := nodeName node
      promptVersion := some studyPlanPromptVersion } r
  have hinner := nodeBody_leaves hP state answer node s r₁
  rw [tracedNode, Program.bind_of_ok (Program.beside_run hstart s)]
  rcases hbody : nodeBody m.tracer h state answer node (s, r₁) with ⟨outcome, s', r₂⟩
  rw [hbody] at hinner
  obtain ⟨r₃, hfail, hfailed⟩ := hopened.fail hinner (nodeErrorCode node) (hP.node _ rfl _)
  obtain ⟨r₄, hfinish, hfinished⟩ := hopened.finish hinner {} (hP.node _ rfl _)
  dsimp only at hfail hfinish
  cases outcome with
  | error e =>
    have hrun := (Program.handle_of_error hbody fun e ↦
      Program.beside (span.fail m.tracer (nodeErrorCode node)) >>= fun _ ↦ Program.raise e).trans
        (Program.bind_of_ok (Program.beside_run hfail s') _)
    exact ⟨r₁, r₃, _, hbody, Program.bind_of_error hrun _, hfailed⟩
  | ok result =>
    have hclose {p : Program Raised (Record κ) Unit} {r' : Record κ} (hp : p r₂ = (.ok (), r')) :
        (Program.beside p >>= fun _ ↦ pure result) (s', r₂) = (.ok result, (s', r')) :=
      Program.bind_of_ok (Program.beside_run hp s') _
    rw [Program.bind_of_ok (Program.handle_of_ok hbody _)]
    cases result with
    | interrupt value => exact ⟨r₁, r₄, _, hbody, hclose hfinish, hfinished⟩
    | raised => exact ⟨r₁, r₃, _, hbody, hclose hfail, hfailed⟩
    | update u =>
      dsimp only
      split
      · exact ⟨r₁, r₃, _, hbody, hclose hfail, hfailed⟩
      · exact ⟨r₁, r₄, _, hbody, hclose hfinish, hfinished⟩

theorem tracedNode_leaves (hP : Covers m h P) (state : AgentGraphState)
    (answer : Option AgentApprovalResponse) (node : AgentRunNode) :
    Program.Leaves (Traced m P) (tracedNode m.tracer h state answer node) := by
  intro s r
  obtain ⟨-, r', w, -, hrun, htraced⟩ := tracedNode_step hP state answer node s r
  rw [hrun]
  exact htraced

section

variable {ρ : Type} (tracer : Tracer ρ τ) (h : WorkflowHost σ κ') (cp : Checkpoint)
  (answer : Option AgentApprovalResponse)

theorem superstep_cases : TracedWorkflow.superstep tracer h cp answer = pure none ∨
    ∃ node state, cp.next = [node] ∧ cp.values.modelValidate = some state ∧
      TracedWorkflow.superstep tracer h cp answer = Program.handle (do
        let result ← tracedNode tracer h state answer node
        match committed cp node result with
        | none => pure none
        | some cp' => do
          Program.within (h.putCheckpoint cp')
          pure (some cp')) fun _ ↦ pure none := by
  unfold TracedWorkflow.superstep
  split
  · next node hnext =>
    split
    · exact .inl rfl
    · next state hstate => exact .inr ⟨node, state, hnext, hstate, rfl⟩
  · exact .inl rfl

theorem superstep_returns (w : σ × ρ) :
    ∃ left w', TracedWorkflow.superstep tracer h cp answer w = (.ok left, w') := by
  obtain hnone | ⟨node, state, -, -, hsuperstep⟩ := superstep_cases tracer h cp answer
  · exact ⟨none, w, by rw [hnone]; rfl⟩
  · rw [hsuperstep]
    exact handle_returns _ none w

end

theorem superstep_leaves (hP : Covers m h P) (cp : Checkpoint)
    (answer : Option AgentApprovalResponse) :
    Program.Leaves (Traced m P) (TracedWorkflow.superstep m.tracer h cp answer) := by
  obtain hnone | ⟨node, state, -, -, hsuperstep⟩ := superstep_cases m.tracer h cp answer
  · rw [hnone]
    exact .pure _
  · rw [hsuperstep]
    refine .handle (.bind (tracedNode_leaves hP state answer node) fun result ↦ ?_) fun _ ↦ .pure _
    split
    · exact .pure _
    · exact .bind (.within _) fun _ ↦ .pure _

theorem invokeGraph_leaves (hP : Covers m h P) (limit : ℕ) (cp : Checkpoint)
    (answer : Option AgentApprovalResponse) :
    Program.Leaves (Traced m P) (invokeGraph m.tracer h limit cp answer) := by
  induction limit generalizing cp answer with
  | zero =>
    rw [invokeGraph]
    split <;> exact .pure _
  | succ limit ih =>
    rw [invokeGraph]
    split
    · exact .pure _
    · refine .bind (superstep_leaves hP cp answer) fun result ↦ ?_
      split
      · exact .pure _
      · split
        · exact ih _ _
        · exact .pure _

end LearningTasks.Agent.WorkflowSpans
