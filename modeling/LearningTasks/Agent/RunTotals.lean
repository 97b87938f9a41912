import LearningTasks.Agent.Metrics
import LearningTasks.Agent.WorkflowSpans

namespace LearningTasks.Agent.RunTotals

open Library.Strings Library.Serialization Library.Programs Schemas.Scalars Models.Agent
  Agent.Schemas State Tools Approval Execution Finalization Planning Graph Checkpoints Metrics
  Termination Tracing TraceRecords TracedNodes NodeSpans TracedWorkflow WorkflowSpans

variable {σ κ' : Type}

/-- The totals of some planning visits and of some write actions. -/
structure Tally (host : ProviderHost σ) (rounds calls : ℕ) (m : AgentRunMetrics) : Prop where
  usages : ∃ usages, Counts m usages ∧ usages.length ≤ m.providerAttemptCount ∧
    ∀ usage ∈ usages, Reports host usage
  attempts : m.providerAttemptCount ≤ planningMaxAttempts * m.modelRoundCount
  rounds : m.modelRoundCount ≤ rounds
  calls : m.toolCallCount ≤ calls

namespace Tally

variable {host : ProviderHost σ} {rounds rounds' calls calls' : ℕ} {m p : AgentRunMetrics}

theorem visit (h : VisitMetrics host planningMaxAttempts m) : Tally host 1 0 m := by
  obtain ⟨v, rfl, hattempts, hlength, hreports⟩ := h
  exact ⟨⟨v.usages, counts_metrics v, hlength, hreports⟩, hattempts, le_rfl, le_rfl⟩

theorem mono (h : Tally host rounds calls m) (hrounds : rounds ≤ rounds') (hcalls : calls ≤ calls') :
    Tally host rounds' calls' m :=
  ⟨h.usages, h.attempts, h.rounds.trans hrounds, h.calls.trans hcalls⟩

theorem merge (hp : Tally host rounds calls p) (hm : Tally host rounds' calls' m)
    (add : FloatRepr → FloatRepr → FloatRepr) :
    Tally host (rounds + rounds') (calls + calls') (mergeMetrics add (some p) m) := by
  obtain ⟨us, hcounts, hlength, hreports⟩ := hp.usages
  obtain ⟨vs, hcounts', hlength', hreports'⟩ := hm.usages
  refine ⟨⟨us ++ vs, hcounts.merge hcounts' add, ?_, fun usage hu ↦ ?_⟩, ?_, ?_, ?_⟩
  · rw [List.length_append]
    exact Nat.add_le_add hlength hlength'
  · exact (List.mem_append.mp hu).elim (hreports usage) (hreports' usage)
  · calc p.providerAttemptCount + m.providerAttemptCount
        ≤ planningMaxAttempts * p.modelRoundCount + planningMaxAttempts * m.modelRoundCount :=
          Nat.add_le_add hp.attempts hm.attempts
      _ = planningMaxAttempts * (p.modelRoundCount + m.modelRoundCount) := (Nat.mul_add _ _ _).symm
  · exact Nat.add_le_add hp.rounds hm.rounds
  · exact Nat.add_le_add hp.calls hm.calls

theorem withToolCalls (h : Tally host rounds calls m) (records : List AgentActionExecutionRecord) :
    Tally host rounds (calls + records.length) (withToolCalls records m) := by
  obtain ⟨usages, hcounts, hlength, hreports⟩ := h.usages
  exact ⟨⟨usages, hcounts.withToolCalls records, hlength, hreports⟩, h.attempts, h.rounds,
    Nat.add_le_add_right h.calls _⟩

end Tally

/-- What the update of a node makes of the metrics, of the records and of the revision. -/
inductive Measures (host : ProviderHost σ) (add : FloatRepr → FloatRepr → FloatRepr)
    (v v' : AgentGraphState) : AgentRunNode → Prop
  | kept {node : AgentRunNode} : node ≠ .requestApproval → v'.metrics = v.metrics →
      v'.executionRecords = v.executionRecords → v'.revisionCount = v.revisionCount →
      Measures host add v v' node
  | planned (metrics : AgentRunMetrics) : VisitMetrics host planningMaxAttempts metrics →
      v'.metrics = some (mergeMetrics add v.metrics metrics) →
      v'.executionRecords = v.executionRecords → v'.revisionCount = v.revisionCount →
      Measures host add v v' .generatePlan
  | executed : v'.metrics = v.metrics.map (withToolCalls v'.executionRecords) →
      v'.revisionCount = v.revisionCount → Measures host add v v' .executeTasks
  | decided (response : AgentApprovalResponse) (fingerprint : Digest) :
      v' = applyApprovalResponse v response fingerprint v → Measures host add v v' .requestApproval
  | undecided : v' = failed "AGENT_APPROVAL_FAILED" v → Measures host add v v' .requestApproval

theorem modelValidate_some {v state : AgentGraphState} (h : v.modelValidate = some state) :
    state.metrics = v.metrics ∧ state.revisionCount = v.revisionCount ∧
      v.revisionCount ≤ maxPlanRevisions ∧ v.executionRecords.length ≤ maxPlanActions := by
  obtain ⟨feedback, -, h⟩ := Option.bind_eq_some_iff.mp h
  obtain ⟨summary, -, h⟩ := Option.bind_eq_some_iff.mp h
  obtain ⟨hc, h⟩ := Option.ite_none_right_eq_some.mp h
  simp only [Bool.and_eq_true, decide_eq_true_eq] at hc
  cases h
  exact ⟨rfl, rfl, hc.1.1.2, hc.1.2⟩

theorem applyApprovalResponse_congr {v state : AgentGraphState}
    (h : state.revisionCount = v.revisionCount) (response : AgentApprovalResponse)
    (fingerprint : Digest) :
    applyApprovalResponse state response fingerprint =
      applyApprovalResponse v response fingerprint := by
  simp only [applyApprovalResponse, h]

theorem applyApprovalResponse_kept (v : AgentGraphState) (response : AgentApprovalResponse)
    (fingerprint : Digest) :
    (applyApprovalResponse v response fingerprint v).metrics = v.metrics ∧
      (applyApprovalResponse v response fingerprint v).executionRecords = v.executionRecords ∧
      (applyApprovalResponse v response fingerprint v).workflowErrorCode = v.workflowErrorCode := by
  unfold applyApprovalResponse
  cases response.decision with
  | approved | rejected => exact ⟨rfl, rfl, rfl⟩
  | requestChanges =>
    dsimp only
    split <;> exact ⟨rfl, rfl, rfl⟩

section

variable {τ κ : Type} {m : Recorder τ κ} {h : WorkflowHost σ κ'} {v state : AgentGraphState}
  {answer : Option AgentApprovalResponse} {node : AgentRunNode}

theorem nodeBody_measures (hstate : v.modelValidate = some state) {w w' : σ × Record κ}
    {u : StateUpdate} (hu : nodeBody m.tracer h state answer node w = (.ok (.update u), w')) :
    Measures h.provider h.graph.planning.addLatency v (u v) node := by
  obtain ⟨hmetrics, hrevision, -⟩ := modelValidate_some hstate
  cases node with
  | loadContext =>
    obtain hrun | ⟨e, w₁, -, hfailed⟩ := Program.handle_ok hu
    · obtain ⟨snapshot, w₁, -, hpure⟩ := Program.bind_ok hrun
      cases hpure
      exact .kept (by decide) rfl rfl rfl
    · cases hfailed
      exact .kept (by decide) rfl rfl rfl
  | generatePlan =>
    obtain hrun | ⟨e, w₁, -, hfailed⟩ := Program.handle_ok hu
    · obtain ⟨⟨proposal, metrics⟩, w₁, hplan, hpure⟩ := Program.bind_ok hrun
      cases hpure
      exact .planned metrics (generatePlan_metrics hplan) (by rw [← hmetrics]) rfl rfl
    · cases hfailed
      exact .kept (by decide) rfl rfl rfl
  | executeTasks =>
    unfold nodeBody at hu
    dsimp only at hu
    split at hu
    · cases hu
      refine .executed ?_ rfl
      dsimp only
      rw [hmetrics]
      cases v.metrics <;> rfl
    · cases hu
      exact .kept (by decide) rfl rfl rfl
  | requestApproval =>
    have hnode : (approvalNode h.graph state answer w.1).1 = .update u :=
      Except.ok.inj (congrArg Prod.fst hu)
    obtain rfl | ⟨request, fingerprint, response, -, rfl⟩ :=
      approvalNode_update (Prod.ext hnode rfl)
    · exact .undecided rfl
    · rw [applyApprovalResponse_congr hrevision]
      exact .decided response fingerprint rfl
  | summarize =>
    have hnode : (runNode h.graph state answer w.1 .summarize).1 = .update u :=
      Except.ok.inj (congrArg Prod.fst hu)
    rw [runNode] at hnode
    split at hnode
    · cases hnode
      exact .kept (by decide) rfl rfl rfl
    · cases hnode
  | analyzeGoal | validatePlan | verifyResult =>
    cases hu
    exact .kept (by decide) rfl rfl rfl

end

section

variable {host : ProviderHost σ} {add : FloatRepr → FloatRepr → FloatRepr}
  {v v' : AgentGraphState} {node n : AgentRunNode} {nodes : List AgentRunNode}

theorem Measures.revision (h : Measures host add v v' node) :
    v.revisionCount ≤ v'.revisionCount := by
  cases h with
  | kept _ _ _ hr => exact hr.ge
  | planned _ _ _ _ hr => exact hr.ge
  | executed _ hr => exact hr.ge
  | decided response fingerprint hv =>
    rw [hv]
    exact applyApprovalResponse_revisionCount v response fingerprint
  | undecided hv =>
    rw [hv]
    exact le_rfl

theorem Measures.forward (h : Measures host add v v' node)
    (hroute : route v' node = some (n :: nodes)) : nodeSteps n < nodeSteps node ∨
      node = .requestApproval ∧ v.revisionCount < v'.revisionCount := by
  by_cases hnode : node = .requestApproval
  · subst hnode
    cases h with
    | kept hne => exact absurd rfl hne
    | undecided hv =>
      rw [hv] at hroute
      cases hroute
      exact .inl (by decide)
    | decided response fingerprint hv =>
      subst hv
      cases he : v.workflowErrorCode with
      | none =>
        have hsteps := approval_steps he response fingerprint hroute
        by_cases hless : nodeSteps n < nodeSteps .requestApproval
        · exact .inl hless
        · exact .inr ⟨rfl, by omega⟩
      | some code =>
        obtain ⟨-, -, hcode⟩ := applyApprovalResponse_kept v response fingerprint
        rw [route, hcode, he] at hroute
        cases hroute
        exact .inl (by decide)
  · exact .inl (route_steps hnode hroute)

end

/-- The metrics of a checkpoint, by the nodes that are before it. -/
structure Tallied (host : ProviderHost σ) (cp : Checkpoint) (m : AgentRunMetrics) : Prop where
  tally : Tally host (cp.values.revisionCount + 1) cp.values.executionRecords.length m
  unplanned : ∀ n nodes, cp.next = n :: nodes → nodeSteps .generatePlan ≤ nodeSteps n →
    m.modelRoundCount ≤ cp.values.revisionCount
  unexecuted : ∀ n nodes, cp.next = n :: nodes → nodeSteps .executeTasks ≤ nodeSteps n →
    m.toolCallCount = 0

def Accounted (host : ProviderHost σ) (cp : Checkpoint) : Prop :=
  ∀ m, cp.values.metrics = some m → Tallied host cp m

section

variable {host : ProviderHost σ} {add : FloatRepr → FloatRepr → FloatRepr} {cp : Checkpoint}
  {v' : AgentGraphState} {node : AgentRunNode} {next : List AgentRunNode}

theorem Tallied.keep {m : AgentRunMetrics} (h : Tallied host cp m) (hnext : cp.next = [node])
    (hle : cp.values.revisionCount ≤ v'.revisionCount)
    (hforward : ∀ n nodes, next = n :: nodes → nodeSteps n < nodeSteps node ∨
      node = .requestApproval ∧ cp.values.revisionCount < v'.revisionCount)
    (hrecords : v'.executionRecords = cp.values.executionRecords) :
    Tallied host ⟨v', next, []⟩ m := by
  refine ⟨h.tally.mono (Nat.add_le_add_right hle 1) (by rw [hrecords]), ?_, ?_⟩
  · intro n nodes hn hsteps
    obtain hless | ⟨-, hless⟩ := hforward n nodes hn
    · exact (h.unplanned node [] hnext (hsteps.trans hless.le)).trans hle
    · exact h.tally.rounds.trans hless
  · intro n nodes hn hsteps
    obtain hless | ⟨rfl, -⟩ := hforward n nodes hn
    · exact h.unexecuted node [] hnext (hsteps.trans hless.le)
    · exact h.unexecuted .requestApproval [] hnext (by decide)

theorem Tallied.plan {m metrics : AgentRunMetrics} (hp : Accounted host cp)
    (hnext : cp.next = [.generatePlan]) (hv : VisitMetrics host planningMaxAttempts metrics)
    (hm : mergeMetrics add cp.values.metrics metrics = m) :
    Tally host (cp.values.revisionCount + 1) 0 m := by
  have hvisit := Tally.visit hv
  cases hmetrics : cp.values.metrics with
  | none =>
    rw [hmetrics] at hm
    subst hm
    exact hvisit.mono (Nat.le_add_left 1 _) le_rfl
  | some p =>
    rw [hmetrics] at hm
    subst hm
    have htallied := hp p hmetrics
    have hrounds := htallied.unplanned .generatePlan [] hnext le_rfl
    have hcalls := htallied.unexecuted .generatePlan [] hnext (by decide)
    have hprevious : Tally host cp.values.revisionCount 0 p :=
      ⟨htallied.tally.usages, htallied.tally.attempts, hrounds, hcalls.le⟩
    exact hprevious.merge hvisit add

theorem Accounted.step (h : Accounted host cp) (hnext : cp.next = [node])
    (hm : Measures host add cp.values v' node) (hroute : route v' node = some next) :
    Accounted host ⟨v', next, []⟩ := by
  intro m hmetrics
  have hforward (n : AgentRunNode) (nodes : List AgentRunNode) (hn : next = n :: nodes) :=
    hm.forward (hroute.trans (congrArg some hn))
  have hle := hm.revision
  cases hm with
  | kept _ hkept hrecords _ =>
    exact (h m (hkept.symm.trans hmetrics)).keep hnext hle hforward hrecords
  | undecided hv =>
    subst hv
    exact (h m hmetrics).keep hnext hle hforward rfl
  | decided response fingerprint hv =>
    subst hv
    obtain ⟨hkept, hrecords, -⟩ := applyApprovalResponse_kept cp.values response fingerprint
    exact (h m (hkept.symm.trans hmetrics)).keep hnext hle hforward hrecords
  | planned metrics hvisit hmerge hrecords hrevision =>
    have htally := Tallied.plan h hnext hvisit (Option.some.inj (hmerge.symm.trans hmetrics))
    refine ⟨htally.mono (Nat.add_le_add_right hle 1) (Nat.zero_le _), ?_, ?_⟩
    · intro n nodes hn hsteps
      obtain hless | ⟨hnode, -⟩ := hforward n nodes hn
      · exact absurd hsteps hless.not_ge
      · cases hnode
    · exact fun _ _ _ _ ↦ Nat.le_zero.mp htally.calls
  | executed hcalls hrevision =>
    rw [hmetrics] at hcalls
    obtain ⟨p, hp, rfl⟩ := Option.map_eq_some_iff.mp hcalls.symm
    have htallied := h p hp
    have hnone := htallied.unexecuted .executeTasks [] hnext le_rfl
    have hprevious : Tally host (v'.revisionCount + 1) 0 p :=
      ⟨htallied.tally.usages, htallied.tally.attempts,
        htallied.tally.rounds.trans (Nat.add_le_add_right hle 1), hnone.le⟩
    refine ⟨(hprevious.withToolCalls v'.executionRecords).mono le_rfl (Nat.zero_add _).le, ?_, ?_⟩
    all_goals
      intro n nodes hn hsteps
      obtain hless | ⟨hnode, -⟩ := hforward n nodes hn
    · exact absurd ((by decide : nodeSteps .executeTasks ≤ nodeSteps .generatePlan).trans hsteps)
        hless.not_ge
    · cases hnode
    · exact absurd hsteps hless.not_ge
    · cases hnode

end

section

variable {τ κ : Type} {m : Recorder τ κ} {h : WorkflowHost σ κ'} {cp cp' : Checkpoint}
  {answer : Option AgentApprovalResponse}

theorem superstep_ok {w w' : σ × Record κ}
    (hs : TracedWorkflow.superstep m.tracer h cp answer w = (.ok (some cp'), w')) :
    ∃ node state result w₁ w₂, cp.next = [node] ∧ cp.values.modelValidate = some state ∧
      nodeBody m.tracer h state answer node w₁ = (.ok result, w₂) ∧
      committed cp node result = some cp' := by
  obtain hnone | ⟨node, state, hnext, hstate, hsuperstep⟩ :=
    superstep_cases m.tracer h cp answer
  · rw [hnone] at hs
    cases hs
  · rw [hsuperstep] at hs
    obtain hrun | ⟨e, w₁, -, hraised⟩ := Program.handle_ok hs
    · obtain ⟨result, w₁, hnode, hput⟩ := Program.bind_ok hrun
      obtain ⟨r₁, r', w₂, hbody, htraced, -⟩ := tracedNode_step (P := fun _ ↦ True)
        ⟨fun _ _ _ _ _ ↦ trivial, fun _ _ _ _ _ ↦ trivial,
          fun _ _ _ _ _ ↦ trivial, fun _ _ _ _ _ _ ↦ trivial⟩ state answer node w.1 w.2
      have hresult : w₂.1 = .ok result := congrArg Prod.fst (htraced.symm.trans hnode)
      refine ⟨node, state, result, (w.1, r₁), w₂.2, hnext, hstate, ?_, ?_⟩
      · rw [hbody, ← hresult]
      · cases hc : committed cp node result with
        | none =>
          rw [hc] at hput
          cases hput
        | some cp'' =>
          rw [hc] at hput
          obtain ⟨u, w₃, -, hpure⟩ := Program.bind_ok hput
          cases hpure
          rfl
    · cases hraised

theorem superstep_accounted {w w' : σ × Record κ}
    (hs : TracedWorkflow.superstep m.tracer h cp answer w = (.ok (some cp'), w'))
    (ha : Accounted h.provider cp) : Accounted h.provider cp' := by
  obtain ⟨node, state, result, w₁, w₂, hnext, hstate, hbody, hc⟩ := superstep_ok hs
  cases result with
  | raised => cases hc
  | interrupt value =>
    cases hc
    intro metrics hmetrics
    obtain ⟨htally, hunplanned, hunexecuted⟩ := ha metrics hmetrics
    exact ⟨htally, hunplanned, hunexecuted⟩
  | update u =>
    obtain ⟨next, hroute, rfl⟩ := Option.map_eq_some_iff.mp hc
    exact ha.step hnext (nodeBody_measures hstate hbody) hroute

theorem invokeGraph_returns (limit : ℕ) (cp : Checkpoint) (answer : Option AgentApprovalResponse)
    (w : σ × Record κ) : ∃ cp' outcome w',
      invokeGraph m.tracer h limit cp answer w = (.ok (cp', outcome), w') ∧
      (Accounted h.provider cp → Accounted h.provider cp') := by
  induction limit generalizing cp answer w with
  | zero =>
    cases hnext : cp.next with
    | nil => exact ⟨cp, .finished, w, by simp only [invokeGraph, hnext, Program.pure_run], id⟩
    | cons node nodes =>
      exact ⟨cp, .recursionError, w, by simp only [invokeGraph, hnext, Program.pure_run], id⟩
  | succ limit ih =>
    cases hnext : cp.next with
    | nil => exact ⟨cp, .finished, w, by simp only [invokeGraph, hnext, Program.pure_run], id⟩
    | cons node nodes =>
      obtain ⟨left, w₁, hs⟩ := superstep_returns m.tracer h cp answer w
      simp only [invokeGraph, hnext]
      rw [Program.bind_of_ok hs]
      cases left with
      | none => exact ⟨cp, .raised, w₁, rfl, id⟩
      | some cp₁ =>
        have hstep := superstep_accounted hs
        by_cases hi : cp₁.interrupts = []
        · obtain ⟨cp', outcome, w', hrun, ha⟩ := ih cp₁ none w₁
          exact ⟨cp', outcome, w', by simpa only [hi, ↓reduceIte] using hrun, ha ∘ hstep⟩
        · exact ⟨cp₁, .waiting, w₁, by simp only [hi, ↓reduceIte, Program.pure_run], hstep⟩

end

theorem accounted_initial (host : ProviderHost σ) (goal : PlanningGoal) :
    Accounted host (initialCheckpoint goal) := by
  intro metrics hmetrics
  cases hmetrics

/-- The totals of a run: three rounds, and the write actions of one plan. -/
def Totals (host : ProviderHost σ) (m : AgentRunMetrics) : Prop :=
  Tally host (maxPlanRevisions + 1) maxPlanActions m

theorem Accounted.totals {host : ProviderHost σ} {cp : Checkpoint} {state : AgentGraphState}
    (ha : Accounted host cp) (hstate : cp.values.modelValidate = some state)
    {metrics : AgentRunMetrics} (hm : state.metrics = some metrics) : Totals host metrics := by
  obtain ⟨hmetrics, -, hrevisions, hactions⟩ := modelValidate_some hstate
  exact (ha metrics (hmetrics.symm.trans hm)).tally.mono (Nat.add_le_add_right hrevisions 1) hactions

def tokensWithin (c : TraceCounters) : Bool :=
  c.inputTokens.all (· ≤ maxTraceTokens) && c.outputTokens.all (· ≤ maxTraceTokens) &&
    c.totalTokens.all (· ≤ maxTraceTokens)

theorem Totals.valid {host : ProviderHost σ} {metrics : AgentRunMetrics}
    (ht : Totals host metrics) :
    (metricsCounters metrics).valid = tokensWithin (metricsCounters metrics) := by
  have hrounds := ht.rounds
  have hattempts := ht.attempts
  have hcalls := ht.calls
  simp only [maxPlanRevisions, maxPlanActions, planningMaxAttempts] at hrounds hattempts hcalls
  have hbounds : metrics.modelRoundCount ≤ maxTraceAttempts ∧
      metrics.providerAttemptCount ≤ maxTraceAttempts ∧
      metrics.toolCallCount ≤ maxTraceToolCalls := by
    refine ⟨hrounds.trans (by decide), ?_, hcalls.trans (by decide)⟩
    exact (by omega : metrics.providerAttemptCount ≤ 6).trans (by decide)
  simp only [TraceCounters.valid, tokensWithin, metricsCounters, Option.all_some, hbounds,
    decide_true, Bool.true_and]

end LearningTasks.Agent.RunTotals
