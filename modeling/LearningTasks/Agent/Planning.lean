import LearningTasks.Agent.Tools

namespace LearningTasks.Agent.Planning

open Library.Strings Library.Serialization Schemas.Scalars Grounding Agent.Schemas State Tools

def planContextMissing : Text := "PLAN_CONTEXT_MISSING".toList

def planProposalMissing : Text := "PLAN_PROPOSAL_MISSING".toList

def planProposalInvalid : Text := "PLAN_PROPOSAL_INVALID".toList

def planActionInvalid : Text := "PLAN_ACTION_INVALID".toList

def planCitationInvalid : Text := "PLAN_CITATION_INVALID".toList

def planningMaxAttempts : ℕ := 2

inductive ProviderError
  | timeout
  | transient
  | invalidResponse
  | configuration
  | authentication
  | permission
  | other
  deriving DecidableEq

structure ProviderUsage where
  inputTokens : Option ℕ
  outputTokens : Option ℕ
  totalTokens : Option ℕ

structure ProviderResponse where
  outputText : Option Text
  toolCalls : Bool
  usage : ProviderUsage

/-- What planning takes from its host: a JSON parser, the budgeted prompt input,
the provider, the time it took by a clock that may turn out to run back, and the
addition of floats. -/
structure PlanningHost (σ : Type) where
  parseJson : Text → Option Json
  buildInput : PlanningGoal → AgentGoalAnalysis → AgentContextSnapshot → Option Text → Option Text
  generate : Text → σ → Except ProviderError ProviderResponse × σ
  latency : σ → Option FloatRepr × σ
  addLatency : FloatRepr → FloatRepr → FloatRepr

inductive PlanningError
  | unavailable
  | configuration
  deriving DecidableEq

def sumKnown (values : List (Option ℕ)) : Option ℕ :=
  if values.all Option.isNone then none else some (values.map fun v ↦ v.getD 0).sum

def generationMetrics (attempt : ℕ) (usages : List ProviderUsage) (latencyMs : FloatRepr) :
    AgentRunMetrics where
  promptVersion := studyPlanPromptVersion
  outcome := .succeeded
  modelRoundCount := 1
  providerAttemptCount := attempt
  toolCallCount := 0
  inputTokens := sumKnown (usages.map (·.inputTokens))
  outputTokens := sumKnown (usages.map (·.outputTokens))
  totalTokens := sumKnown (usages.map (·.totalTokens))
  latencyMs := latencyMs

variable {σ : Type}

def readProposal (c : Coercions) (host : PlanningHost σ) (response : ProviderResponse) :
    Option AgentPlanProposal :=
  if response.toolCalls then none
  else (response.outputText.bind host.parseJson).bind (AgentPlanProposal.modelValidate c)

/-- The attempts that are left: a failure that may pass is tried again. -/
def generateAttempts (c : Coercions) (host : PlanningHost σ) (input : Text) :
    ℕ → ℕ → List ProviderUsage → σ →
      Except PlanningError (AgentPlanProposal × AgentRunMetrics) × σ
  | 0, _, _, w => (.error .unavailable, w)
  | left + 1, attempt, usages, w =>
    match host.generate input w with
    | (.ok response, w) =>
      let usages := usages ++ [response.usage]
      match readProposal c host response with
      | some proposal =>
        match host.latency w with
        | (some latencyMs, w) => (.ok (proposal, generationMetrics attempt usages latencyMs), w)
        | (none, w) => (.error .unavailable, w)
      | none => generateAttempts c host input left (attempt + 1) usages w
    | (.error .timeout, w) | (.error .transient, w) | (.error .invalidResponse, w) =>
      generateAttempts c host input left (attempt + 1) usages w
    | (.error .configuration, w) | (.error .authentication, w) | (.error .permission, w) =>
      (.error .configuration, w)
    | (.error .other, w) => (.error .unavailable, w)

def generatePlan (c : Coercions) (host : PlanningHost σ) (state : AgentGraphState) (w : σ) :
    Except PlanningError (AgentPlanProposal × AgentRunMetrics) × σ :=
  match state.analysis, state.context with
  | some analysis, some context =>
    match host.buildInput state.goal analysis context state.approvalFeedback with
    | some input => generateAttempts c host input planningMaxAttempts 1 [] w
    | none => (.error .unavailable, w)
  | _, _ => (.error .unavailable, w)

def invalidPlan (code : Text) (revision : ℕ) : AgentPlanValidation :=
  ⟨.invalid, revision, none, some code⟩

def actionsValid (c : Coercions) (context : AgentRuntimeContext) (p : AgentPlanProposal) : Bool :=
  p.actions.all fun a ↦ (validateToolArguments c a.toolName a.arguments context).toBool

def validatePlan (sha256 : Text → Digest) (c : Coercions) (context : AgentRuntimeContext)
    (state : AgentGraphState) : AgentPlanValidation :=
  match state.analysis, state.context with
  | some _, some snapshot =>
    match state.proposal with
    | none => invalidPlan planProposalMissing state.revisionCount
    | some proposal =>
      match planProposal proposal.planningResult proposal.actions with
      | none => invalidPlan planProposalInvalid state.revisionCount
      | some proposal =>
        match validateCitationReferences (proposal.planningResult.plan.steps.map (·.citations))
            snapshot.knowledge with
        | .error _ => invalidPlan planCitationInvalid state.revisionCount
        | .ok () =>
          if actionsValid c context proposal then
            ⟨.valid, state.revisionCount, some (fingerprintPlanProposal sha256 proposal), none⟩
          else invalidPlan planActionInvalid state.revisionCount
  | _, _ => invalidPlan planContextMissing state.revisionCount

theorem validatePlan_consistent (sha256 : Text → Digest) (c : Coercions)
    (context : AgentRuntimeContext) {state : AgentGraphState}
    (h : state.revisionCount ≤ maxPlanRevisions) :
    (validatePlan sha256 c context state).consistent = true := by
  have hinvalid : ∀ code, isErrorCode code = true →
      (invalidPlan code state.revisionCount).consistent = true := by
    intro code hc
    simp [invalidPlan, AgentPlanValidation.consistent, h, hc]
  unfold validatePlan
  repeat' split
  · exact hinvalid _ (by decide)
  · exact hinvalid _ (by decide)
  · exact hinvalid _ (by decide)
  · simp [AgentPlanValidation.consistent, h]
  · exact hinvalid _ (by decide)
  · exact hinvalid _ (by decide)

structure ValidProposal (c : Coercions) (context : AgentRuntimeContext)
    (snapshot : AgentContextSnapshot) (p : AgentPlanProposal) : Prop where
  actions : ∀ a ∈ p.actions, ∃ arguments,
    validateToolArguments c a.toolName a.arguments context = .ok arguments
  citations : ∀ s ∈ p.planningResult.plan.steps, Grounded snapshot.knowledge s.citations

theorem validatePlan_valid {sha256 : Text → Digest} {c : Coercions} {context : AgentRuntimeContext}
    {state : AgentGraphState} (h : (validatePlan sha256 c context state).status = .valid) :
    ∃ p snapshot, state.proposal = some p ∧ state.context = some snapshot ∧
      ValidProposal c context snapshot p ∧ validatePlan sha256 c context state =
        ⟨.valid, state.revisionCount, some (fingerprintPlanProposal sha256 p), none⟩ := by
  unfold validatePlan at h ⊢
  split at h
  · next analysis snapshot ha hs =>
    cases hp : state.proposal with
    | none => rw [hp] at h; cases h
    | some p =>
      simp only [hp, planProposal_self] at h ⊢
      split at h
      · cases h
      · next hc =>
        split at h
        · next hv =>
          refine ⟨p, snapshot, rfl, hs, ⟨fun a hmem ↦ ?_, fun s hmem ↦ ?_⟩, ?_⟩
          · have hb := List.all_eq_true.mp hv a hmem
            cases hr : validateToolArguments c a.toolName a.arguments context with
            | error e => rw [hr] at hb; cases hb
            | ok arguments => exact ⟨arguments, rfl⟩
          · exact validateCitationReferences_ok hc _ (List.mem_map_of_mem hmem)
          · simp only [hv, ↓reduceIte]
        · cases h
  · cases h

end LearningTasks.Agent.Planning
