import LearningTasks.Agent.Metrics
import LearningTasks.Agent.TracedNodes
import LearningTasks.Agent.TraceRecords

namespace LearningTasks.Agent.NodeSpans

open Library.Strings Library.Serialization Library.Programs Schemas.Scalars Models.Agent
  Agent.Schemas State Tools Planning Metrics Tracing TraceRecords TracedNodes
  Services.ToolCoordinator

variable {σ τ κ : Type} {m : Recorder τ κ} {P : EndedSpan τ → Prop}

theorem tracedCall_leaves {α : Type} {label : SpanLabel}
    (hP : ∀ t e, Closing m label {} t e → P e) (runId : Option UUID)
    (code : Raised → TraceErrorCode) (p : Program Raised σ α) :
    Program.Leaves (Traced m P) (tracedCall m.tracer runId label code p) := by
  intro s r
  obtain ⟨span, r₁, hstart, hopened⟩ := startTrace_opened m runId label r
  rw [tracedCall, Program.bind_of_ok (Program.beside_run hstart s)]
  rcases hp : p s with ⟨e | a, s'⟩
  · obtain ⟨r₂, hclose, htraced⟩ := hopened.fail (traced_of_events rfl) (code e) (hP _)
    have hrun := (Program.handle_of_error (Program.within_run hp r₁)
      fun e ↦ Program.beside (span.fail m.tracer (code e)) >>= fun _ ↦ Program.raise e).trans
        (Program.bind_of_ok (Program.beside_run hclose s') _)
    rw [Program.bind_of_error hrun]
    exact htraced
  · obtain ⟨r₂, hclose, htraced⟩ := hopened.finish (traced_of_events rfl) {} (hP _)
    rw [Program.bind_of_ok (Program.handle_of_ok (Program.within_run hp r₁) _),
      Program.bind_of_ok (Program.beside_run hclose s')]
    exact htraced

def Reports (host : ProviderHost σ) (usage : ProviderUsage) : Prop :=
  ∃ input w response w', host.generate input w = (.ok response, w') ∧ response.usage = usage

def usageCounters (usage : ProviderUsage) : TraceCounters where
  inputTokens := usage.inputTokens
  outputTokens := usage.outputTokens
  totalTokens := usage.totalTokens

/-- The spans of the attempts are of one kind: a failed one has no counters, an accepted one
those of its answer. -/
structure CoversAttempts (m : Recorder τ κ) (host : ProviderHost σ) (P : EndedSpan τ → Prop) :
    Prop where
  failed : ∀ label : SpanLabel, label.component = .provider →
    ∀ code e, Closing m label {} (.fail code) e → P e
  accepted : ∀ label : SpanLabel, label.component = .provider → ∀ usage, Reports host usage →
    ∀ e, Closing m label (usageCounters usage) .finish e → P e

/-- The metrics of a planning visit, by the answers that it was given. -/
def VisitMetrics (host : ProviderHost σ) (bound : ℕ) (metrics : AgentRunMetrics) : Prop :=
  ∃ visit : Visit, metrics = visit.metrics ∧ visit.attempts ≤ bound ∧
    visit.usages.length ≤ visit.attempts ∧ ∀ usage ∈ visit.usages, Reports host usage

section

variable {c : Coercions} {host : ProviderHost σ} {input : Text} {startedAt : FloatRepr}

theorem judge_ok {n : ℕ} {usage usage' : ProviderUsage} {text : Text}
    {w w' : σ × List ProviderUsage} {proposal : AgentPlanProposal} {metrics : AgentRunMetrics}
    (h : judge c host startedAt n usage text w = (.ok (usage', proposal, metrics), w')) :
    usage' = usage ∧ w'.2 = w.2 ∧ ∃ latencyMs, metrics = generationMetrics n w.2 latencyMs := by
  rw [judge] at h
  obtain ⟨proposal', w₁, hproposal, hjudged⟩ := Program.bind_ok h
  obtain ⟨-, rfl⟩ := Program.ofOption_ok hproposal
  obtain ⟨finishedAt, w₂, hclock, hread⟩ := Program.bind_ok hjudged
  obtain ⟨-, hsame⟩ := Program.run_of_within hclock
  obtain ⟨usages, w₃, husages, hmeasured⟩ := Program.bind_ok hread
  cases husages
  obtain ⟨latencyMs, w₄, hlatency, hpure⟩ := Program.bind_ok hmeasured
  obtain ⟨-, rfl⟩ := Program.ofOption_ok hlatency
  cases hpure
  exact ⟨rfl, hsame, latencyMs, by rw [← hsame]⟩

theorem attempt_ok {n : ℕ} {w w' : σ × List ProviderUsage} {usage : ProviderUsage}
    {proposal : AgentPlanProposal} {metrics : AgentRunMetrics}
    (h : attempt c host input startedAt n w = (.ok (usage, proposal, metrics), w')) :
    Reports host usage ∧ w'.2 = w.2 ++ [usage] ∧
      ∃ latencyMs, metrics = generationMetrics n w'.2 latencyMs := by
  rw [attempt] at h
  obtain ⟨response, w₁, hgenerate, hanswered⟩ := Program.bind_ok h
  obtain ⟨hanswer, hsame⟩ := Program.run_of_within hgenerate
  obtain ⟨u, w₂, hadd, hkept⟩ := Program.bind_ok hanswered
  cases hadd
  have husages : w₁.2 ++ [response.usage] = w.2 ++ [response.usage] := by rw [hsame]
  cases htext : response.outputText with
  | none =>
    rw [htext] at hkept
    cases hkept
  | some text =>
    simp only [htext] at hkept
    by_cases hcalls : response.toolCalls = true
    · rw [if_pos hcalls] at hkept
      cases hkept
    · rw [if_neg hcalls] at hkept
      obtain ⟨rfl, hw, latencyMs, hmetrics⟩ := judge_ok hkept
      exact ⟨⟨input, w.1, response, w₁.1, hanswer, rfl⟩, hw.trans husages, latencyMs,
        by rw [hw]; exact hmetrics⟩

theorem judge_leaves (n : ℕ) (usage : ProviderUsage) (text : Text) :
    Program.Leaves Eq (judge c host startedAt n usage text) := by
  refine .bind (.ofOption _ _) fun proposal ↦ ?_
  refine .bind (.within _) fun finishedAt ↦ ?_
  refine .bind (fun _ _ ↦ rfl) fun usages ↦ ?_
  exact .bind (.ofOption _ _) fun latencyMs ↦ .pure _

theorem attempt_error {n : ℕ} {w w' : σ × List ProviderUsage} {e : Raised}
    (h : attempt c host input startedAt n w = (.error e, w')) :
    ∃ usages, w'.2 = w.2 ++ usages ∧ usages.length ≤ 1 ∧ ∀ usage ∈ usages, Reports host usage := by
  obtain ⟨s, usages⟩ := w
  rcases hg : host.generate input s with ⟨e' | response, s'⟩
  · cases (attempt_raised hg).symm.trans h
    exact ⟨[], (List.append_nil _).symm, Nat.zero_le 1, fun _ hu ↦ absurd hu List.not_mem_nil⟩
  · rw [attempt_answered hg] at h
    have hleft : usages ++ [response.usage] = w'.2 := by
      rw [← congrArg (·.2.2) h]
      cases response.outputText with
      | none => rfl
      | some text =>
        dsimp only
        split
        · rfl
        · exact judge_leaves n response.usage text s' _
    refine ⟨[response.usage], hleft.symm, le_rfl, fun usage hu ↦ ?_⟩
    rw [List.mem_singleton.mp hu]
    exact ⟨input, s, response, s', hg, rfl⟩

end

section

variable (runId : Option UUID) (c : Coercions) (host : ProviderHost σ) (input : Text)
  (startedAt : FloatRepr)

/-- What follows a failed attempt, once its span has been closed. -/
def afterFailure (m : Recorder τ κ) (left n : ℕ) (e : Raised) :
    Program Raised ((σ × List ProviderUsage) × Record κ) (AgentPlanProposal × AgentRunMetrics) :=
  match handling e with
  | .retry =>
    if left = 0 then Program.raise .agentPlanningUnavailable
    else do
      Program.within (Program.within host.sleeper)
      attempts m.tracer runId c host input startedAt left (n + 1)
  | .configuration => Program.raise .agentPlanningConfiguration
  | .unavailable => Program.raise .agentPlanningUnavailable

end

/-- Each attempt is in a span, which is closed before what follows. -/
theorem attempts_step (runId : Option UUID) (c : Coercions) (host : ProviderHost σ) (input : Text)
    (startedAt : FloatRepr) (hP : CoversAttempts m host P) (left n : ℕ) (w : σ × List ProviderUsage)
    (r : Record κ) : ∃ r', Traced m P r r' ∧
      ((∃ usage proposal metrics w', attempt c host input startedAt n w =
          (.ok (usage, proposal, metrics), w') ∧
        attempts m.tracer runId c host input startedAt (left + 1) n (w, r) =
          (.ok (proposal, metrics), (w', r'))) ∨
      ∃ e w', attempt c host input startedAt n w = (.error e, w') ∧
        attempts m.tracer runId c host input startedAt (left + 1) n (w, r) =
          afterFailure runId c host input startedAt m left n e (w', r')) := by
  obtain ⟨span, r₁, hstart, hopened⟩ := startTrace_opened m runId
    { component := .provider
      name := "model_provider".toList
      promptVersion := some studyPlanPromptVersion
      attempt := some n } r
  rw [attempts, Program.bind_of_ok (Program.beside_run hstart w)]
  rcases hrun : attempt c host input startedAt n w with ⟨e | ⟨usage, proposal, metrics⟩, w'⟩
  · obtain ⟨r₂, hclose, htraced⟩ :=
      hopened.fail (traced_of_events rfl) (providerErrorCode e) (hP.failed _ rfl _)
    refine ⟨r₂, htraced, .inr ⟨e, w', rfl, ?_⟩⟩
    rw [Program.handle_of_error (Program.bind_of_error (Program.within_run hrun r₁) _),
      Program.bind_of_ok (Program.beside_run hclose w')]
    rfl
  · obtain ⟨hreports, -, -⟩ := attempt_ok hrun
    obtain ⟨r₂, hclose, htraced⟩ :=
      hopened.finish (traced_of_events rfl) (usageCounters usage)
        (hP.accepted _ rfl usage hreports)
    refine ⟨r₂, htraced, .inl ⟨usage, proposal, metrics, w', rfl, ?_⟩⟩
    refine Program.handle_of_ok ?_ _
    rw [Program.bind_of_ok (Program.within_run hrun r₁)]
    exact Program.bind_of_ok (Program.beside_run hclose w') _

section

variable {runId : Option UUID} {c : Coercions} {host : ProviderHost σ} {input : Text}
  {startedAt : FloatRepr}

theorem attempts_leaves (hP : CoversAttempts m host P) (left n : ℕ) :
    Program.Leaves (Traced m P)
      (attempts m.tracer runId c host input startedAt left n) := by
  induction left generalizing n with
  | zero => exact .raise _
  | succ left ih =>
    intro w r
    obtain ⟨r', htraced, ⟨usage, proposal, metrics, w', -, heq⟩ | ⟨e, w', -, heq⟩⟩ :=
      attempts_step runId c host input startedAt hP left n w r
    · rw [heq]
      exact htraced
    · rw [heq]
      refine IsTrans.trans _ _ _ htraced ?_
      unfold afterFailure
      cases handling e with
      | configuration => exact Std.Refl.refl (r := Traced m P) r'
      | unavailable => exact Std.Refl.refl (r := Traced m P) r'
      | retry =>
        dsimp only
        split
        · exact Std.Refl.refl (r := Traced m P) r'
        · exact Program.Leaves.bind (.within _) (fun _ ↦ ih (n + 1)) w' r'

theorem attempts_metrics {left n : ℕ} {w w' : (σ × List ProviderUsage) × Record κ}
    {proposal : AgentPlanProposal} {metrics : AgentRunMetrics} (hn : w.1.2.length < n)
    (hw : ∀ usage ∈ w.1.2, Reports host usage)
    (h : attempts m.tracer runId c host input startedAt left n w =
      (.ok (proposal, metrics), w')) : VisitMetrics host (n + left - 1) metrics := by
  induction left generalizing n w with
  | zero => cases h
  | succ left ih =>
    obtain ⟨w, r⟩ := w
    obtain ⟨r', -, ⟨usage, proposal', metrics', w₁, hrun, heq⟩ | ⟨e, w₁, hrun, heq⟩⟩ :=
      attempts_step (m := m) (P := fun _ ↦ True) runId c host input startedAt
        ⟨fun _ _ _ _ _ ↦ trivial, fun _ _ _ _ _ _ ↦ trivial⟩ left n w r
    · cases heq.symm.trans h
      obtain ⟨hreports, hleft, latencyMs, rfl⟩ := attempt_ok hrun
      refine ⟨⟨n, w₁.2, latencyMs⟩, rfl, ?_, ?_, ?_⟩
      · exact Nat.le_sub_one_of_lt (Nat.lt_add_of_pos_right (Nat.succ_pos left))
      · rw [hleft, List.length_append]
        exact hn
      · intro usage' hu
        rw [hleft] at hu
        obtain hu | hu := List.mem_append.mp hu
        · exact hw usage' hu
        · rw [List.mem_singleton.mp hu]
          exact hreports
    · obtain ⟨usages, hleft, hlength, hreports⟩ := attempt_error hrun
      rw [heq] at h
      unfold afterFailure at h
      cases hhandling : handling e with
      | configuration =>
        rw [hhandling] at h
        cases h
      | unavailable =>
        rw [hhandling] at h
        cases h
      | retry =>
        rw [hhandling] at h
        dsimp only at h
        split at h
        · cases h
        · obtain ⟨u, w₂, hsleep, hagain⟩ := Program.bind_ok h
          obtain ⟨hsleep, -⟩ := Program.run_of_within hsleep
          obtain ⟨-, hsame⟩ := Program.run_of_within hsleep
          have hbound := ih (n := n + 1) (w := w₂) ?_ ?_ hagain
          · rwa [Nat.add_right_comm] at hbound
          · rw [hsame, hleft, List.length_append]
            exact Nat.add_lt_add_of_lt_of_le hn hlength
          · intro usage hu
            rw [hsame, hleft] at hu
            exact (List.mem_append.mp hu).elim (hw usage) (hreports usage)

theorem generatePlan_leaves (hP : CoversAttempts m host P) (state : AgentGraphState) :
    Program.Leaves (Traced m P)
      (TracedNodes.generatePlan m.tracer runId c host state) := by
  unfold TracedNodes.generatePlan
  split
  · refine .bind (.within _) fun startedAt ↦ ?_
    split
    · exact .raise _
    · exact .withLocal (attempts_leaves hP planningMaxAttempts 1) []
  · exact .raise _

theorem generatePlan_metrics {state : AgentGraphState} {w w' : σ × Record κ}
    {proposal : AgentPlanProposal} {metrics : AgentRunMetrics}
    (h : TracedNodes.generatePlan m.tracer runId c host state w = (.ok (proposal, metrics), w')) :
    VisitMetrics host planningMaxAttempts metrics := by
  unfold TracedNodes.generatePlan at h
  cases ha : state.analysis with
  | none =>
    simp only [ha] at h
    cases h
  | some analysis =>
    cases hc : state.context with
    | none =>
      simp only [ha, hc] at h
      cases h
    | some context =>
      simp only [ha, hc] at h
      obtain ⟨startedAt, w₁, -, hinput⟩ := Program.bind_ok h
      cases hb : host.buildInput state.goal analysis context state.approvalFeedback with
      | none =>
        rw [hb] at hinput
        cases hinput
      | some input =>
        rw [hb] at hinput
        have hrun : attempts m.tracer runId c host input startedAt planningMaxAttempts 1
            ((w₁.1, []), w₁.2) = (.ok (proposal, metrics), (attempts m.tracer runId c host input
              startedAt planningMaxAttempts 1 ((w₁.1, []), w₁.2)).2) :=
          Prod.ext (congrArg (·.1) hinput) rfl
        exact attempts_metrics Nat.one_pos (fun _ hu ↦ absurd hu List.not_mem_nil) hrun

theorem loadContext_leaves {κ' : Type}
    (hP : ∀ label : SpanLabel, label.component = .tool → ∀ t e, Closing m label {} t e → P e)
    (contexts : ContextHost σ κ') (context : AgentRuntimeContext) (state : AgentGraphState) :
    Program.Leaves (Traced m P)
      (TracedNodes.loadContext m.tracer runId contexts context state) := by
  unfold TracedNodes.loadContext
  split
  · exact .raise _
  · split
    · refine .handle ?_ fun _ ↦ .raise _
      refine .bind (tracedCall_leaves (hP _ rfl) _ _ _) fun projects ↦ ?_
      refine .bind (tracedCall_leaves (hP _ rfl) _ _ _) fun tasks ↦ ?_
      refine .bind (tracedCall_leaves (hP _ rfl) _ _ _) fun knowledge ↦ ?_
      split
      · exact .bind (.ofOption _ _) fun _ ↦ .pure _
      · exact .raise _
    · exact .raise _

theorem callCoordinator_leaves
    (hP : ∀ label : SpanLabel, label.component = .tool → ∀ t e, Closing m label {} t e → P e)
    (coordinator : CoordinatorHost σ) (action : AgentProposedAction) (revision : ℕ) (fingerprint : Digest)
    (context : AgentRuntimeContext) : Program.Leaves (Traced m P)
      (callCoordinator m.tracer coordinator action revision fingerprint context) :=
  tracedCall_leaves (hP _ rfl) _ _ _

end

end LearningTasks.Agent.NodeSpans
