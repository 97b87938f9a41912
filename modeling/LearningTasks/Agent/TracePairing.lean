import LearningTasks.Agent.RunTotals
import Mathlib.Algebra.Group.Action.Defs
import Mathlib.Algebra.Order.BigOperators.Group.List

namespace LearningTasks.Agent.TracePairing

open Library.Strings Library.Serialization Library.Programs Library.Transition Library.Brackets
  Schemas.Scalars Schemas.Project Models.Agent Agent.Schemas State Approval Finalization Planning
  Graph Checkpoints Metrics Termination Tracing TraceRecords TracedNodes NodeSpans TracedWorkflow
  WorkflowSpans RunTotals Services.AgentWorkflow

variable {σ κ' τ κ : Type}

/-- The counters that the spans of a workflow are ended with: an accepted attempt has those of
its answer, a run with an output those of its metrics, and no other span has counters. -/
inductive CountersOf (host : ProviderHost σ) : TraceComponent → Terminal → TraceCounters → Prop
  | node {t : Terminal} : CountersOf host .node t {}
  | tool {t : Terminal} : CountersOf host .tool t {}
  | failed {code : TraceErrorCode} : CountersOf host .provider (.fail code) {}
  | accepted {usage : ProviderUsage} : Reports host usage →
      CountersOf host .provider .finish (usageCounters usage)
  | unplanned {t : Terminal} : CountersOf host .run t {}
  | totals {t : Terminal} {metrics : AgentRunMetrics} : Totals host metrics →
      CountersOf host .run t (metricsCounters metrics)

/-- A span is measured by two readings of the clock, and by the counters of its kind. -/
structure Measured (m : Recorder τ κ) (h : WorkflowHost σ κ') (e : EndedSpan τ) : Prop where
  startedAt : m.Reads e.startedAt
  endedAt : m.Reads e.endedAt
  counters : CountersOf h.provider e.label.component e.terminal e.counters

def Reportable (m : Recorder τ κ) (e : EndedSpan τ) : Prop :=
  tokensWithin e.counters = true ∧
    m.latencyMs e.endedAt e.startedAt ≤ (maxTraceLatencyMs : WithTop ℚ)

section

variable {m : Recorder τ κ} {h : WorkflowHost σ κ'}

theorem CountersOf.valid {host : ProviderHost σ} {component : TraceComponent} {t : Terminal}
    {counters : TraceCounters} (hc : CountersOf host component t counters) :
    counters.valid = tokensWithin counters := by
  cases hc with
  | node | tool | failed | unplanned => rfl
  | accepted => rfl
  | totals ht => exact ht.valid

theorem Measured.within_iff {e : EndedSpan τ} (he : Measured m h e) :
    e.Within m ↔ Reportable m e := by
  rw [EndedSpan.Within, Reportable, he.counters.valid]

theorem closing_measured {label : SpanLabel} {counters : TraceCounters} {t : Terminal}
    {e : EndedSpan τ} (he : Closing m label counters t e)
    (hc : CountersOf h.provider label.component t counters) : Measured m h e :=
  ⟨he.startedAt, he.endedAt, by rwa [he.label, he.terminal, he.counters]⟩

theorem covers_measured (m : Recorder τ κ) (h : WorkflowHost σ κ') :
    Covers m h (Measured m h) where
  node _ hl _ _ he := closing_measured he (hl ▸ .node)
  tool _ hl _ _ he := closing_measured he (hl ▸ .tool)
  attempts := ⟨fun _ hl _ _ he ↦ closing_measured he (hl ▸ .failed),
    fun _ hl _ hu _ he ↦ closing_measured he (hl ▸ .accepted hu)⟩

theorem finishRunTrace_run {label : SpanLabel} {span : TraceSpan τ} {r r₁ r₂ : Record κ}
    (hl : label.component = .run) (ho : Opened m label r span r₁)
    (hinner : Traced m (Measured m h) r₁ r₂) {output : Option AgentGraphOutput}
    (hc : ∀ t, CountersOf h.provider .run t (runCounters output)) (failed : Bool) (s : σ) :
    ∃ r₃, (finishRunTrace m.tracer span output failed).beside (s, r₂) = (.ok (), (s, r₃)) ∧
      Traced m (Measured m h) r r₃ := by
  obtain ⟨r₃, hclose, htraced⟩ := ho.close hinner (runCounters output)
    (if failed then .fail .agentWorkflowFailed else .finish) fun _ he ↦
      closing_measured he (hl ▸ hc _)
  exact ⟨r₃, Program.beside_run hclose s, htraced⟩

theorem runCounters_of {host : ProviderHost σ} {output : AgentGraphOutput}
    (h : ∀ metrics, output.metrics = some metrics → Totals host metrics) (t : Terminal) :
    CountersOf host .run t (runCounters (some output)) := by
  unfold runCounters
  rw [Option.bind_some]
  cases hm : output.metrics with
  | none => exact .unplanned
  | some metrics => exact .totals (h metrics hm)

theorem runGraph (m : Recorder τ κ) (h : WorkflowHost σ κ') (threadId : Option UUID)
    (cp : Checkpoint) (answer : Option AgentApprovalResponse) (s : σ) (r : Record κ) :
    ∃ label span r₁ cp' outcome s' r₂, label.component = .run ∧
      (startRunTrace m.tracer h threadId).beside (s, r) = (.ok span, (s, r₁)) ∧
      Opened m label r span r₁ ∧
      invokeGraph m.tracer h agentGraphRecursionLimit cp answer (s, r₁) =
        (.ok (cp', outcome), (s', r₂)) ∧
      Traced m (Measured m h) r₁ r₂ ∧ (Accounted h.provider cp → Accounted h.provider cp') := by
  obtain ⟨span, r₁, hstart, hopened⟩ := startTrace_opened m h.traceRunId
    { threadId := threadId
      component := .run
      name := "agent_workflow".toList
      promptVersion := some studyPlanPromptVersion } r
  obtain ⟨cp', outcome, ⟨s', r₂⟩, hrun, haccounted⟩ :=
    invokeGraph_returns (m := m) (h := h) agentGraphRecursionLimit cp answer (s, r₁)
  have htraced := invokeGraph_leaves (covers_measured m h) agentGraphRecursionLimit cp answer s r₁
  rw [hrun] at htraced
  exact ⟨_, span, r₁, cp', outcome, s', r₂, rfl, Program.beside_run hstart s, hopened, hrun,
    htraced, haccounted⟩

theorem invoke_traced (goal : PlanningGoal) (threadId : Option UUID) (s : σ) (r : Record κ) :
    Traced m (Measured m h) r
      (TracedWorkflow.invoke m.tracer h goal threadId (s, r)).2.2 := by
  obtain ⟨label, span, r₁, cp', outcome, s', r₂, hl, hstart, hopened, hrun, hinner, haccounted⟩ :=
    runGraph m h threadId (initialCheckpoint goal) none s r
  have ha := haccounted (accounted_initial h.provider goal)
  rw [TracedWorkflow.invoke, Program.bind_of_ok hstart, Program.bind_of_ok hrun]
  dsimp only
  cases houtput : (if outcome = .finished then cp'.values.modelValidate else none).bind
    (summarize h.graph.sha256) with
  | none =>
    have hc (t : Terminal) : CountersOf h.provider .run t (runCounters (some graphFailure)) :=
      .unplanned
    obtain ⟨r₃, hfinish, htraced⟩ := finishRunTrace_run hl hopened hinner hc true s'
    dsimp only
    rw [Program.bind_of_ok hfinish]
    exact htraced
  | some output =>
    obtain ⟨state, hstate, hsummary⟩ := Option.bind_eq_some_iff.mp houtput
    obtain ⟨-, hvalid⟩ := Option.ite_none_right_eq_some.mp hstate
    have hc : ∀ t, CountersOf h.provider .run t (runCounters (some output)) := by
      refine runCounters_of fun metrics hm ↦ ha.totals hvalid ?_
      rw [← summarize_metrics hsummary]
      exact hm
    obtain ⟨r₃, hfinish, htraced⟩ :=
      finishRunTrace_run hl hopened hinner hc (failedStatus output.status) s'
    dsimp only
    rw [Program.bind_of_ok hfinish]
    exact htraced

theorem inspectSnapshot_output {sha256 : Text → Digest} {c : Coercions} {cp : Checkpoint}
    {output : AgentGraphOutput}
    (h : progressOf (inspectSnapshot sha256 c cp) = some (.output output)) :
    ∃ state, cp.values.modelValidate = some state ∧ output.metrics = state.metrics := by
  unfold inspectSnapshot at h
  cases hi : cp.interrupts with
  | nil =>
    rw [hi] at h
    dsimp only at h
    cases hv : cp.values.modelValidate with
    | none =>
      rw [hv] at h
      cases h
    | some state =>
      rw [hv] at h
      dsimp only at h
      split at h
      · cases h
      · cases ho : summarize sha256 state with
        | none =>
          rw [ho] at h
          cases h
        | some o =>
          rw [ho] at h
          cases h
          exact ⟨state, rfl, summarize_metrics ho⟩
      · cases h
      · cases h
  | cons value values =>
    rw [hi] at h
    dsimp only at h
    split at h
    · split at h
      · cases h
      · cases h
    · cases h

theorem readProgress_run (cp : Checkpoint) (outcome : Outcome) (s : σ) (r : Record κ) :
    ∃ progress s', readProgress h cp outcome (s, r) = (.ok progress, (s', r)) ∧
      ∀ p, progress = some p →
        progressOf (inspectSnapshot h.graph.sha256 h.graph.coercions cp) = some p := by
  cases outcome with
  | raised | recursionError =>
    exact ⟨none, s, rfl, fun p hp ↦ absurd hp.symm (Option.some_ne_none p)⟩
  | finished | waiting =>
    rcases hg : h.getState s with ⟨e | u, s'⟩
    · refine ⟨none, s', Program.handle_of_error (e := e) ?_ _,
        fun p hp ↦ absurd hp.symm (Option.some_ne_none p)⟩
      exact Program.bind_of_error (Program.within_run hg r) _
    · refine ⟨_, s', Program.handle_of_ok ?_ _, fun p hp ↦ hp⟩
      exact Program.bind_of_ok (Program.within_run hg r) _

theorem advance_traced (threadId : UUID) {cp : Checkpoint} (ha : Accounted h.provider cp)
    (answer : Option AgentApprovalResponse) (s : σ) (r : Record κ) :
    ∃ cp' progress s' r', advance m.tracer h threadId cp answer (s, r) =
        (.ok (cp', progress), (s', r')) ∧
      Traced m (Measured m h) r r' ∧ Accounted h.provider cp' := by
  obtain ⟨label, span, r₁, cp', outcome, s', r₂, hl, hstart, hopened, hrun, hinner, haccounted⟩ :=
    runGraph m h (some threadId) cp answer s r
  have ha' := haccounted ha
  obtain ⟨progress, s'', hprogress, hread⟩ := readProgress_run (h := h) cp' outcome s' r₂
  have hfinish (output : Option AgentGraphOutput) (failed : Bool)
      (hc : ∀ t, CountersOf h.provider .run t (runCounters output)) :=
    finishRunTrace_run hl hopened hinner hc failed s''
  rw [advance, Program.bind_of_ok hstart, Program.bind_of_ok hrun]
  dsimp only
  rw [Program.bind_of_ok hprogress]
  cases progress with
  | none =>
    obtain ⟨r₃, hclose, htraced⟩ := hfinish none true fun _ ↦ .unplanned
    exact ⟨cp', none, s'', r₃, Program.bind_of_ok hclose _, htraced, ha'⟩
  | some p =>
    cases p with
    | approval request =>
      obtain ⟨r₃, hclose, htraced⟩ := hfinish none false fun _ ↦ .unplanned
      exact ⟨cp', _, s'', r₃, Program.bind_of_ok hclose _, htraced, ha'⟩
    | output output =>
      obtain ⟨state, hstate, hmetrics⟩ := inspectSnapshot_output (hread _ rfl)
      have hc : ∀ t, CountersOf h.provider .run t (runCounters (some output)) :=
        runCounters_of fun metrics hm ↦ ha'.totals hstate (hmetrics.symm.trans hm)
      obtain ⟨r₃, hclose, htraced⟩ := hfinish (some output) (failedStatus output.status) hc
      exact ⟨cp', _, s'', r₃, Program.bind_of_ok hclose _, htraced, ha'⟩

end

section

variable (m : Recorder τ κ) (h : WorkflowHost σ κ')

/-- Everything that has been emitted are the events of measured spans. -/
structure Recorded (s : RunState σ κ) : Prop where
  spans : ∃ spans, Emitted m spans s.record.events ∧ ∀ e ∈ spans, Measured m h e
  accounted : ∀ cp, s.checkpoint = some cp → Accounted h.provider cp

variable {m h}

theorem Recorded.traced {s : RunState σ κ} (hs : Recorded m h s) {r : Record κ}
    (ht : Traced m (Measured m h) s.record r) :
    ∃ spans, Emitted m spans r.events ∧ ∀ e ∈ spans, Measured m h e := by
  obtain ⟨spans, hemitted, hmeasured⟩ := hs.spans
  obtain ⟨spans', es, hes, hemitted', hmeasured'⟩ := ht
  refine ⟨spans ++ spans', hes ▸ hemitted.append hemitted', fun e he ↦ ?_⟩
  exact (List.mem_append.mp he).elim (hmeasured e) (hmeasured' e)

theorem Recorded.advanced {s : RunState σ κ} (hs : Recorded m h s) (threadId : UUID)
    {cp : Checkpoint} (ha : Accounted h.provider cp) (answer : Option AgentApprovalResponse) :
    Recorded m h (advanced m h s threadId cp answer) := by
  obtain ⟨cp', progress, s', r', hrun, htraced, ha'⟩ :=
    advance_traced (m := m) threadId ha answer s.world s.record
  unfold TracedWorkflow.advanced
  split
  · rw [hrun]
    refine ⟨hs.traced htraced, fun cp'' hcp ↦ ?_⟩
    cases hcp
    exact ha'
  · exact hs

theorem Recorded.step {s s' : RunState σ κ} (hs : Recorded m h s) {move : TracedWorkflow.Move σ}
    (hstep : (TracedWorkflow.machine m h).step s move = some s') : Recorded m h s' := by
  cases move with
  | invoke goal threadId =>
    cases hstep
    exact ⟨hs.traced (invoke_traced goal threadId s.world s.record), hs.accounted⟩
  | startDurable goal threadId =>
    rw [TracedWorkflow.machine] at hstep
    dsimp only at hstep
    split at hstep
    · cases hstep
      exact hs.advanced threadId (accounted_initial h.provider goal) none
    · cases hstep
  | resumeDurable response threadId =>
    obtain ⟨cp, hcp, rfl⟩ := Option.map_eq_some_iff.mp hstep
    exact hs.advanced threadId (hs.accounted cp (Option.filter_eq_some_iff.mp hcp).1) _
  | continueDurable threadId =>
    obtain ⟨cp, hcp, rfl⟩ := Option.map_eq_some_iff.mp hstep
    exact hs.advanced threadId (hs.accounted cp hcp) _
  | outside world =>
    cases hstep
    exact ⟨hs.spans, hs.accounted⟩

theorem reachable_recorded {s : RunState σ κ} (hs : (TracedWorkflow.machine m h).Reachable s) :
    Recorded m h s := by
  refine Machine.Reachable.invariant (Recorded m h) ?_ ?_ hs
  · rintro s ⟨hcp, hevents⟩
    refine ⟨⟨[], hevents ▸ .nil, fun _ he ↦ absurd he List.not_mem_nil⟩, fun cp hc ↦ ?_⟩
    rw [hcp] at hc
    cases hc
  · exact fun s move s' hs hstep ↦ hs.step hstep

end

/-- The tokens of as many answers as a run may be given are within the bound of the events. -/
def Modest (usage : ProviderUsage) : Prop :=
  ∀ n, usage.inputTokens = some n ∨ usage.outputTokens = some n ∨ usage.totalTokens = some n →
    planningMaxAttempts * (maxPlanRevisions + 1) * n ≤ maxTraceTokens

theorem all_le {x : Option ℕ} {bound : ℕ} (h : ∀ n, x = some n → n ≤ bound) :
    x.all (· ≤ bound) = true := by
  cases x with
  | none => rfl
  | some n => exact decide_eq_true (h n rfl)

theorem sumKnown_le {values : List (Option ℕ)} {k bound : ℕ} (hk : 0 < k)
    (hlength : values.length ≤ k) (hbound : ∀ n, some n ∈ values → k * n ≤ bound) :
    (sumKnown values).all (· ≤ bound) = true := by
  have hle : ∀ n ∈ values.map fun v ↦ v.getD 0, n ≤ bound / k := by
    intro n hn
    obtain ⟨x, hx, rfl⟩ := List.mem_map.mp hn
    cases x with
    | none => exact Nat.zero_le _
    | some n =>
      rw [Nat.le_div_iff_mul_le hk, Nat.mul_comm]
      exact hbound n hx
  have hsum := List.sum_le_card_nsmul _ _ hle
  rw [List.length_map, smul_eq_mul] at hsum
  refine all_le fun n hn ↦ ?_
  unfold sumKnown at hn
  split at hn
  · cases hn
  · cases hn
    calc (values.map fun v ↦ v.getD 0).sum
        ≤ values.length * (bound / k) := hsum
      _ ≤ k * (bound / k) := Nat.mul_le_mul_right _ hlength
      _ ≤ bound := Nat.mul_div_le bound k

theorem Modest.within {usage : ProviderUsage} (h : Modest usage) :
    tokensWithin (usageCounters usage) = true := by
  have hle {n : ℕ} (hn : usage.inputTokens = some n ∨ usage.outputTokens = some n ∨
      usage.totalTokens = some n) : n ≤ maxTraceTokens :=
    (Nat.le_mul_of_pos_left n (by decide)).trans (h n hn)
  rw [tokensWithin, Bool.and_eq_true, Bool.and_eq_true]
  exact ⟨⟨all_le fun n hn ↦ hle (.inl hn), all_le fun n hn ↦ hle (.inr (.inl hn))⟩,
    all_le fun n hn ↦ hle (.inr (.inr hn))⟩

theorem totals_within {host : ProviderHost σ} {metrics : AgentRunMetrics}
    (ht : Totals host metrics) (hm : ∀ usage, Reports host usage → Modest usage) :
    tokensWithin (metricsCounters metrics) = true := by
  obtain ⟨usages, hcounts, hlength, hreports⟩ := ht.usages
  have hattempts : usages.length ≤ planningMaxAttempts * (maxPlanRevisions + 1) :=
    (hlength.trans ht.attempts).trans (Nat.mul_le_mul_left _ ht.rounds)
  have hsum {counter : ProviderUsage → Option ℕ}
      (hcounter : ∀ usage n, counter usage = some n → usage.inputTokens = some n ∨
        usage.outputTokens = some n ∨ usage.totalTokens = some n) :
      (sumKnown (usages.map counter)).all (· ≤ maxTraceTokens) = true := by
    refine sumKnown_le (k := planningMaxAttempts * (maxPlanRevisions + 1)) (by decide)
      (by rwa [List.length_map]) fun n hn ↦ ?_
    obtain ⟨usage, hu, hn⟩ := List.mem_map.mp hn
    exact hm usage (hreports usage hu) n (hcounter usage n hn)
  simp only [tokensWithin, metricsCounters, hcounts.input, hcounts.output, hcounts.total,
    Bool.and_eq_true]
  exact ⟨⟨hsum fun _ _ hn ↦ .inl hn, hsum fun _ _ hn ↦ .inr (.inl hn)⟩,
    hsum fun _ _ hn ↦ .inr (.inr hn)⟩

theorem CountersOf.within {host : ProviderHost σ} {component : TraceComponent} {t : Terminal}
    {counters : TraceCounters} (hc : CountersOf host component t counters)
    (hm : ∀ usage, Reports host usage → Modest usage) :
    tokensWithin counters = true := by
  cases hc with
  | node | tool | failed | unplanned => rfl
  | accepted hu => exact (hm _ hu).within
  | totals ht => exact totals_within ht hm

/-- The events of a workflow are those of its spans, and they are paired if and only if what
is measured of every span may be reported. They are where the answers are modest and no two
readings of the clock are more than a day apart. -/
theorem trace_pairing (m : Recorder τ κ) (h : WorkflowHost σ κ') {s : RunState σ κ}
    (hs : (TracedWorkflow.machine m h).Reachable s) :
    (∃ spans, Emitted m spans s.record.events ∧ (∀ e ∈ spans, Measured m h e) ∧
      (Paired isStarted SameSpan s.record.events ↔ ∀ e ∈ spans, Reportable m e)) ∧
    ((∀ usage, Reports h.provider usage → Modest usage) →
      (∀ later earlier, m.Reads later → m.Reads earlier →
        m.latencyMs later earlier ≤ (maxTraceLatencyMs : WithTop ℚ)) →
      Paired isStarted SameSpan s.record.events) := by
  obtain ⟨spans, hemitted, hmeasured⟩ := (reachable_recorded hs).spans
  have hiff : Paired isStarted SameSpan s.record.events ↔ ∀ e ∈ spans, Reportable m e :=
    hemitted.paired_iff.trans
      (forall₂_congr fun e he ↦ (hmeasured e he).within_iff)
  refine ⟨⟨spans, hemitted, hmeasured, hiff⟩, fun hmodest hclock ↦ hiff.mpr fun e he ↦ ?_⟩
  obtain ⟨hstarted, hended, hcounters⟩ := hmeasured e he
  exact ⟨hcounters.within hmodest, hclock _ _ hended hstarted⟩

def sampleRecorder : Recorder Unit Unit where
  emit _ k := k
  clock k := ((), k)
  latencyMs _ _ := 1
  nonneg _ _ := zero_le_one

/-- A durable workflow whose provider always answers with the sample proposal. -/
def sampleWorkflow (usage : ProviderUsage) :
    WorkflowHost Unit Grounding.GroundedKnowledgeContext where
  graph := sampleHost
  provider := {
    parseJson := sampleHost.planning.parseJson
    buildInput := sampleHost.planning.buildInput
    generate _ := pure ⟨some (dumps sampleProposal.dump), false, usage⟩
    clock := pure sampleLatency
    elapsedMs _ _ := some sampleLatency
    sleeper := pure () }
  contexts := {
    executor name _ _ := pure (
      if name = "list_projects".toList then .projects emptyPage
      else if name = "list_tasks".toList then .tasks emptyPage
      else .knowledge Grounding.noKnowledge)
    buildGroundedKnowledge := some }
  actionExecutor := none
  putCheckpoint _ := pure ()
  getState := pure ()
  traceRunId := some (sampleId 1)

def sampleStart : TracedWorkflow.RunState Unit Unit := ⟨none, (), ⟨(), []⟩⟩

def sampleMove : TracedWorkflow.Move Unit := .startDurable sampleGoal (sampleId 2)

theorem sample_reports {usage reported : ProviderUsage}
    (h : Reports (sampleWorkflow usage).provider reported) : reported = usage := by
  obtain ⟨input, w, response, w', hg, rfl⟩ := h
  cases hg
  rfl

theorem sample_reachable {usage : ProviderUsage} {s : TracedWorkflow.RunState Unit Unit}
    (h : (TracedWorkflow.machine sampleRecorder (sampleWorkflow usage)).step sampleStart
      sampleMove = some s) :
    (TracedWorkflow.machine sampleRecorder (sampleWorkflow usage)).Reachable s :=
  Machine.Reachable.next (.start ⟨rfl, rfl⟩) h

def tally (events : List AgentTraceEvent) : ℕ × ℕ :=
  (events.countP isStarted, events.countP fun event ↦ !isStarted event)

theorem trace_pairing_sample : ∃ s,
    (TracedWorkflow.machine sampleRecorder (sampleWorkflow ⟨some 300, some 200, some 500⟩)).Reachable
      s ∧ tally s.record.events = (10, 10) ∧ Paired isStarted SameSpan s.record.events := by
  have hstep : ((TracedWorkflow.machine sampleRecorder
      (sampleWorkflow ⟨some 300, some 200, some 500⟩)).step sampleStart sampleMove).map
        (fun s ↦ tally s.record.events) = some (10, 10) := by
    decide +kernel
  obtain ⟨s, hs, htally⟩ := Option.map_eq_some_iff.mp hstep
  refine ⟨s, sample_reachable hs, htally, (trace_pairing _ _ (sample_reachable hs)).2 ?_ ?_⟩
  · intro usage hu n hn
    rw [sample_reports hu] at hn
    obtain hn | hn | hn := hn <;> cases hn <;> decide
  · exact fun _ _ _ _ ↦ WithTop.coe_le_coe.mpr (by decide)

/-- An answer that reports two thousand million tokens is taken, and its span is never ended. -/
theorem unreported_attempt : ∃ s,
    (TracedWorkflow.machine sampleRecorder
      (sampleWorkflow ⟨some 1000000000, some 1000000000, some 2000000000⟩)).Reachable s ∧
      tally s.record.events = (10, 9) ∧ ¬ Paired isStarted SameSpan s.record.events := by
  have hstep : ((TracedWorkflow.machine sampleRecorder
      (sampleWorkflow ⟨some 1000000000, some 1000000000, some 2000000000⟩)).step sampleStart
        sampleMove).map (fun s ↦ tally s.record.events) = some (10, 9) := by
    decide +kernel
  obtain ⟨s, hs, htally⟩ := Option.map_eq_some_iff.mp hstep
  refine ⟨s, sample_reachable hs, htally, fun hp ↦ ?_⟩
  have hcount := (paired_iff_balanced.mp hp).count
  have hstarted : s.record.events.countP isStarted = 10 := congrArg Prod.fst htally
  have hended : (s.record.events.countP fun event ↦ !isStarted event) = 9 :=
    congrArg Prod.snd htally
  omega

end LearningTasks.Agent.TracePairing
