import LearningTasks.Agent.Termination
import Mathlib.Algebra.BigOperators.Group.List.Basic

namespace LearningTasks.Agent.Metrics

open Library.Strings Library.Serialization Library.Transition Schemas.Scalars Models.Agent
  Agent.Schemas State Approval Execution Finalization Planning Graph Checkpoints Termination

structure Visit where
  attempts : ℕ
  usages : List ProviderUsage
  latencyMs : FloatRepr

def Visit.metrics (v : Visit) : AgentRunMetrics :=
  generationMetrics v.attempts v.usages v.latencyMs

def accumulate (add : FloatRepr → FloatRepr → FloatRepr) (visits : List Visit) :
    Option AgentRunMetrics :=
  visits.foldl (fun previous v ↦ some (mergeMetrics add previous v.metrics)) none

def reported (counter : ProviderUsage → Option ℕ) (usages : List ProviderUsage) : ℕ :=
  (usages.map fun u ↦ (counter u).getD 0).sum

theorem sumKnown_append (xs ys : List (Option ℕ)) :
    sumKnown (xs ++ ys) = sumOptional (sumKnown xs) (sumKnown ys) := by
  unfold sumKnown
  have hzero (zs : List (Option ℕ)) (h : zs.all Option.isNone = true) :
      (zs.map fun v ↦ v.getD 0).sum = 0 := by
    refine List.sum_eq_zero fun n hn ↦ ?_
    obtain ⟨v, hv, rfl⟩ := List.mem_map.mp hn
    rw [Option.isNone_iff_eq_none.mp (List.all_eq_true.mp h v hv), Option.getD_none]
  cases hx : xs.all Option.isNone <;> cases hy : ys.all Option.isNone
  · simp [hx, hy, sumOptional]
  · simp [hx, hy, sumOptional, hzero ys hy]
  · simp [hx, hy, sumOptional, hzero xs hx]
  · simp [hx, hy, sumOptional]

theorem sumKnown_getD (counter : ProviderUsage → Option ℕ) (usages : List ProviderUsage) :
    (sumKnown (usages.map counter)).getD 0 = reported counter usages := by
  unfold sumKnown reported
  split
  · next h =>
    symm
    refine List.sum_eq_zero fun n hn ↦ ?_
    obtain ⟨u, hu, rfl⟩ := List.mem_map.mp hn
    have hc := List.all_eq_true.mp h (counter u) (List.mem_map_of_mem hu)
    rw [Option.isNone_iff_eq_none.mp hc, Option.getD_none]
  · rw [Option.getD_some, List.map_map]
    rfl

/-- The token counters of the metrics are those of the usages. -/
structure Counts (m : AgentRunMetrics) (usages : List ProviderUsage) : Prop where
  input : m.inputTokens = sumKnown (usages.map (·.inputTokens))
  output : m.outputTokens = sumKnown (usages.map (·.outputTokens))
  total : m.totalTokens = sumKnown (usages.map (·.totalTokens))

theorem counts_metrics (v : Visit) : Counts v.metrics v.usages := ⟨rfl, rfl, rfl⟩

theorem Counts.merge {previous current : AgentRunMetrics} {us vs : List ProviderUsage}
    (hp : Counts previous us) (hc : Counts current vs) (add : FloatRepr → FloatRepr → FloatRepr) :
    Counts (mergeMetrics add (some previous) current) (us ++ vs) := by
  refine ⟨?_, ?_, ?_⟩
  · rw [List.map_append, sumKnown_append, ← hp.input, ← hc.input]
    rfl
  · rw [List.map_append, sumKnown_append, ← hp.output, ← hc.output]
    rfl
  · rw [List.map_append, sumKnown_append, ← hp.total, ← hc.total]
    rfl

theorem Counts.withToolCalls {m : AgentRunMetrics} {usages : List ProviderUsage}
    (h : Counts m usages) (records : List AgentActionExecutionRecord) :
    Counts (withToolCalls records m) usages := ⟨h.input, h.output, h.total⟩

theorem accumulate_concat (add : FloatRepr → FloatRepr → FloatRepr) (visits : List Visit)
    (v : Visit) : accumulate add (visits ++ [v]) =
      some (mergeMetrics add (accumulate add visits) v.metrics) := by
  simp only [accumulate, List.foldl_append, List.foldl_cons, List.foldl_nil]

theorem accumulate_none {add : FloatRepr → FloatRepr → FloatRepr} {visits : List Visit}
    (h : accumulate add visits = none) : visits = [] := by
  cases visits using List.reverseRecOn with
  | nil => rfl
  | append_singleton visits v =>
    rw [accumulate_concat] at h
    cases h

theorem accumulate_counts {add : FloatRepr → FloatRepr → FloatRepr} {visits : List Visit}
    {m : AgentRunMetrics} (h : accumulate add visits = some m) :
    Counts m (visits.flatMap (·.usages)) := by
  induction visits using List.reverseRecOn generalizing m with
  | nil => cases h
  | append_singleton visits v ih =>
    rw [accumulate_concat, Option.some.injEq] at h
    subst h
    rw [List.flatMap_append, List.flatMap_singleton]
    cases hp : accumulate add visits with
    | none =>
      rw [accumulate_none hp]
      exact counts_metrics v
    | some p => exact (ih hp).merge (counts_metrics v) add

variable {σ : Type} {host : Host σ}

def Answered (planning : PlanningHost σ) (u : ProviderUsage) : Prop :=
  ∃ input w response w', planning.generate input w = (.ok response, w') ∧ response.usage = u

/-- The visit made no more attempts than it may, on answers of the provider. -/
structure Visit.Made (planning : PlanningHost σ) (v : Visit) : Prop where
  attempts : v.attempts ≤ planningMaxAttempts
  usages : ∀ u ∈ v.usages, Answered planning u

theorem generateAttempts_visit {c : Coercions} {planning : PlanningHost σ} {input : Text}
    {left attempt : ℕ} (hleft : attempt + left ≤ planningMaxAttempts + 1)
    {usages : List ProviderUsage} (husages : ∀ u ∈ usages, Answered planning u) {w w' : σ}
    {p : AgentPlanProposal} {m : AgentRunMetrics}
    (h : generateAttempts c planning input left attempt usages w = (.ok (p, m), w')) :
    ∃ v : Visit, v.Made planning ∧ m = v.metrics := by
  induction left generalizing attempt usages w with
  | zero => cases h
  | succ left ih =>
    rw [generateAttempts] at h
    rcases hg : planning.generate input w with ⟨r, w₁⟩
    rw [hg] at h
    cases r with
    | ok response =>
      have hanswered : ∀ u ∈ usages ++ [response.usage], Answered planning u := by
        intro u hu
        obtain hu | hu := List.mem_append.mp hu
        · exact husages u hu
        · obtain rfl := List.mem_singleton.mp hu
          exact ⟨input, w, response, w₁, hg, rfl⟩
      dsimp only at h
      split at h
      · split at h
        · next latencyMs w₂ _ =>
          cases h
          have hattempt : attempt ≤ planningMaxAttempts := by omega
          exact ⟨⟨attempt, usages ++ [response.usage], latencyMs⟩, ⟨hattempt, hanswered⟩, rfl⟩
        · cases h
      · exact ih (by omega) hanswered h
    | error e =>
      cases e with
      | timeout | transient | invalidResponse => exact ih (by omega) husages h
      | configuration | authentication | permission | other => cases h

theorem generatePlan_visit {v : AgentGraphState} {w w' : σ} {p : AgentPlanProposal}
    {m : AgentRunMetrics}
    (h : generatePlan host.coercions host.planning v w = (.ok (p, m), w')) :
    ∃ visit : Visit, visit.Made host.planning ∧ m = visit.metrics := by
  unfold generatePlan at h
  split at h
  · split at h
    · exact generateAttempts_visit (Nat.add_comm _ _).le (fun _ hu ↦ absurd hu List.not_mem_nil) h
    · cases h
  · cases h

theorem map_withToolCalls_nil (m : Option AgentRunMetrics) : m.map (withToolCalls []) = m := by
  cases m <;> rfl

/-- The metrics of a run are those of its visits, and of its write actions. -/
def Accumulated (add : FloatRepr → FloatRepr → FloatRepr) (visits : List Visit)
    (v : AgentGraphState) : Prop :=
  v.metrics = (accumulate add visits).map (withToolCalls v.executionRecords)

theorem runNode_accumulated {v : AgentGraphState} {node : AgentRunNode}
    (hn : NextInv host.sha256 host.coercions host.context v [node]) {visits : List Visit}
    (ha : Accumulated host.planning.addLatency visits v) {answer : Option AgentApprovalResponse}
    {w w' : σ} {u : StateUpdate} (h : runNode host v answer w node = (.update u, w')) :
    Accumulated host.planning.addLatency visits (u v) ∨ node = .generatePlan ∧
      ∃ visit, visit.Made host.planning ∧
        Accumulated host.planning.addLatency (visits ++ [visit]) (u v) := by
  cases node with
  | generatePlan =>
    have hu : Undecided v := hn
    rw [Accumulated, hu.records, map_withToolCalls_nil] at ha
    rw [runNode] at h
    split at h
    · next p m w₁ hg =>
      cases h
      obtain ⟨visit, hmade, rfl⟩ := generatePlan_visit hg
      refine .inr ⟨rfl, visit, hmade, ?_⟩
      rw [Accumulated, accumulate_concat, ← ha, Option.map_some]
      dsimp only
      rw [hu.records]
      rfl
    · cases h
      exact .inl (by rw [Accumulated, failed, hu.records, map_withToolCalls_nil, ha])
  | executeTasks =>
    have hp : Approved host.sha256 host.coercions host.context v := hn
    rw [Accumulated, hp.records, map_withToolCalls_nil] at ha
    rw [runNode] at h
    split at h
    · next records w₁ _ =>
      cases h
      refine .inl ?_
      dsimp only [Accumulated]
      rw [ha]
      cases accumulate host.planning.addLatency visits <;> rfl
    · cases h
      exact .inl (by rw [Accumulated, failed, hp.records, map_withToolCalls_nil, ha])
  | requestApproval =>
    rcases approvalNode_update h with rfl | ⟨request, fingerprint, response, -, rfl⟩
    · exact .inl ha
    · unfold applyApprovalResponse
      cases response.decision with
      | approved | rejected => exact .inl ha
      | requestChanges =>
        by_cases hl : v.revisionCount ≥ maxPlanRevisions
        · simp only [hl, ↓reduceIte]
          exact .inl ha
        · simp only [hl, ↓reduceIte]
          exact .inl ha
  | loadContext | summarize =>
    rw [runNode] at h
    split at h <;> cases h <;> exact .inl ha
  | analyzeGoal | validatePlan | verifyResult =>
    cases h
    exact .inl ha

/-- A checkpoint has the metrics of its visits: one for each revision so far, once the
plan has been generated. -/
structure Planned (planning : PlanningHost σ) (cp : Checkpoint) (visits : List Visit) : Prop where
  made : ∀ v ∈ visits, v.Made planning
  metrics : Accumulated planning.addLatency visits cp.values
  rounds : visits.length ≤ cp.values.revisionCount + 1
  ahead : ∀ n nodes, cp.next = n :: nodes → nodeSteps .generatePlan ≤ nodeSteps n →
    visits.length ≤ cp.values.revisionCount

theorem planned_initial (planning : PlanningHost σ) (goal : PlanningGoal) :
    Planned planning (initialCheckpoint goal) [] :=
  ⟨fun _ hv ↦ absurd hv List.not_mem_nil, rfl, Nat.zero_le _, fun _ _ _ _ ↦ Nat.zero_le _⟩

theorem Planned.keep {cp cp' : Checkpoint} {visits : List Visit} {node : AgentRunNode}
    (h : Planned host.planning cp visits) (hnext : cp.next = [node])
    (hp : Progress cp node cp')
    (ha : Accumulated host.planning.addLatency visits cp'.values) :
    Planned host.planning cp' visits := by
  have hrev := hp.revision
  refine ⟨h.made, ha, h.rounds.trans (by omega), fun n nodes hn hsteps ↦ ?_⟩
  by_cases hahead : nodeSteps .generatePlan ≤ nodeSteps node
  · exact (h.ahead node [] hnext hahead).trans hrev
  · -- only the next revision leads back to the planning node
    have hless := hp.remaining
    rw [remaining_node hnext, remaining_node hn] at hless
    have hrounds := h.rounds
    omega

theorem Planned.visit {cp cp' : Checkpoint} {visits : List Visit} {visit : Visit}
    (h : Planned host.planning cp visits) (hnext : cp.next = [.generatePlan])
    (hp : Progress cp .generatePlan cp') (hmade : visit.Made host.planning)
    (ha : Accumulated host.planning.addLatency (visits ++ [visit]) cp'.values) :
    Planned host.planning cp' (visits ++ [visit]) := by
  have hbefore := h.ahead .generatePlan [] hnext le_rfl
  refine ⟨?_, ha, ?_, fun n nodes hn hsteps ↦ ?_⟩
  · intro v hv
    obtain hv | hv := List.mem_append.mp hv
    · exact h.made v hv
    · exact List.mem_singleton.mp hv ▸ hmade
  · rw [List.length_append, List.length_singleton]
    exact Nat.add_le_add_right (hbefore.trans hp.revision) 1
  · exact absurd hsteps (hp.forward (by decide) n nodes hn).not_ge

theorem superstep_planned (host : Host σ) {cp cp' : Checkpoint}
    (hi : Inv host.sha256 host.coercions host.context cp) {visits : List Visit}
    (h : Planned host.planning cp visits) {answer : Option AgentApprovalResponse} {w w' : σ}
    (hs : superstep host cp answer w = (some cp', w')) :
    ∃ visits', Planned host.planning cp' visits' := by
  obtain ⟨ho, -⟩ | ⟨node, r, hnext, hr, ho⟩ := superstep_cases hi.wellFormed hs
  · cases ho
  · have hn := hi.next
    rw [hnext] at hn
    obtain ⟨cp'', hcommitted, hstep⟩ := runNode_progress host hi hnext hr
    obtain rfl := Option.some.inj (ho.trans hcommitted)
    obtain ⟨-, value, rfl⟩ | hp := hstep
    · exact ⟨visits, h.made, h.metrics, h.rounds, h.ahead⟩
    · cases r with
      | update u =>
        obtain ⟨next, -, rfl⟩ := Option.map_eq_some_iff.mp hcommitted
        obtain ha | ⟨rfl, visit, hmade, ha⟩ := runNode_accumulated hn h.metrics hr
        · exact ⟨visits, h.keep hnext hp ha⟩
        · exact ⟨visits ++ [visit], h.visit hnext hp hmade ha⟩
      | interrupt value =>
        cases hcommitted
        cases hp.interrupts
      | raised => cases hcommitted

/-- The checkpoints of every run carry the metrics of their visits. -/
theorem reachable_planned {s : Checkpoint × σ} (h : (Checkpoints.machine host).Reachable s) :
    Inv host.sha256 host.coercions host.context s.1 ∧
      ∃ visits, Planned host.planning s.1 visits := by
  refine Machine.Reachable.invariant (fun s ↦
    Inv host.sha256 host.coercions host.context s.1 ∧
      ∃ visits, Planned host.planning s.1 visits) ?_ ?_ h
  · rintro ⟨cp, w⟩ ⟨goal, rfl⟩
    exact ⟨inv_initial goal, [], planned_initial _ goal⟩
  · rintro s m s' ⟨hi, visits, hp⟩ hs
    obtain ⟨answer, hcp⟩ | heq := machine_step hs
    · exact ⟨superstep_inv (durable host) hi hcp, superstep_planned (durable host) hi hp hcp⟩
    · rw [heq]
      exact ⟨hi, visits, hp⟩

/-- Visits that one run can make: no more than its revisions, and on answers of the
provider. -/
structure RunVisits (planning : PlanningHost σ) (visits : List Visit) : Prop where
  made : ∀ v ∈ visits, v.Made planning
  rounds : visits.length ≤ maxPlanRevisions + 1

theorem output_accumulated {s : Checkpoint × σ} (h : (Checkpoints.machine host).Reachable s)
    {output : AgentGraphOutput} (ho : summarize host.sha256 s.1.values = some output) :
    s.1.values.executionRecords.length ≤ maxPlanActions ∧ ∃ visits, RunVisits host.planning visits ∧
      output.metrics = (accumulate host.planning.addLatency visits).map
        (withToolCalls s.1.values.executionRecords) := by
  obtain ⟨hi, visits, hp⟩ := reachable_planned h
  exact ⟨hi.wellFormed.records, visits,
    ⟨hp.made, hp.rounds.trans (Nat.add_le_add_right hi.wellFormed.revisionCount 1)⟩,
    (summarize_metrics ho).trans hp.metrics⟩

end LearningTasks.Agent.Metrics
