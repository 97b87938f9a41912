import LearningTasks.Agent.Execution

namespace LearningTasks.Agent.Finalization

open Library.Strings Library.Serialization Models.Agent Agent.Schemas State Execution

def agentResultInvalid : Text := "AGENT_RESULT_INVALID".toList

def agentExecutionFailed : Text := "AGENT_EXECUTION_FAILED".toList

def agentWorkflowFailed : Text := "AGENT_WORKFLOW_FAILED".toList

/-- The verification of a run and the terminal status that goes with it. -/
structure AgentVerificationUpdate where
  verification : AgentVerification
  terminalStatus : AgentTerminalStatus
  deriving DecidableEq

def invalidResult (checkedActionCount : ℕ) : AgentVerificationUpdate :=
  ⟨⟨.failed, checkedActionCount, some agentResultInvalid⟩, .failed⟩

def hasCurrentPlanBinding (sha256 : Text → Digest) (state : AgentGraphState) : Bool :=
  match state.proposal, state.validation with
  | some proposal, some validation =>
    let fingerprint := fingerprintPlanProposal sha256 proposal
    validation.status == .valid && validation.revision == state.revisionCount &&
      validation.proposalFingerprint == some fingerprint &&
      state.approvalRevision == some state.revisionCount &&
      state.approvalProposalFingerprint == some fingerprint
  | _, _ => false

/-- The classification of the records of an approved proposal. -/
def classifyRecords (actions : List AgentProposedAction)
    (records : List AgentActionExecutionRecord) : AgentVerificationUpdate :=
  if records.length > actions.length then invalidResult records.length
  else if ¬ (records.map (·.actionKey)).Nodup then invalidResult records.length
  else if (actions.zip records).any fun p ↦
      p.2.actionKey != p.1.actionKey || p.2.toolName != p.1.toolName then
    invalidResult records.length
  else
    match (records.zipIdx.filter fun p ↦ p.1.outcome == .failed).map (·.2) with
    | _ :: _ :: _ => invalidResult records.length
    | [failureIndex] =>
      if failureIndex ≠ records.length - 1 then invalidResult records.length
      else ⟨⟨.failed, records.length, some agentExecutionFailed⟩,
        if failureIndex > 0 then .partialFailure else .failed⟩
    | [] =>
      if records.length ≠ actions.length then invalidResult records.length
      else if actions = [] then ⟨⟨.noAction, 0, none⟩, .succeeded⟩
      else ⟨⟨.verified, records.length, none⟩, .succeeded⟩

def verifyResult (sha256 : Text → Digest) (state : AgentGraphState) : AgentVerificationUpdate :=
  if state.workflowErrorCode.isSome then
    ⟨⟨.failed, state.executionRecords.length, some agentWorkflowFailed⟩, .failed⟩
  else if !hasCurrentPlanBinding sha256 state then invalidResult 0
  else if state.approvalDecision = some .rejected then
    if state.executionRecords ≠ [] then invalidResult state.executionRecords.length
    else ⟨⟨.rejected, 0, none⟩, .rejected⟩
  else if state.approvalDecision ≠ some .approved then invalidResult 0
  else match state.proposal with
    | some proposal => classifyRecords proposal.actions state.executionRecords
    | none => invalidResult 0

/-- `_summary` of a state whose verification is the given one. -/
def summaryText (state : AgentGraphState) (u : AgentVerificationUpdate) : Option Text :=
  if u.verification.errorCode = some agentResultInvalid then
    some "Agent result verification failed.".toList
  else match u.terminalStatus with
    | .rejected => some "Plan was rejected; no task actions were executed.".toList
    | .succeeded =>
      if u.verification.status = .noAction then
        some "Plan verified; no task changes were required.".toList
      else some ("Plan verified; ".toList ++ natRepr u.verification.checkedActionCount ++
        " task action(s) completed.".toList)
    | .partialFailure => state.proposal.map fun p ↦
        "Plan partially completed; ".toList ++ intRepr (u.verification.checkedActionCount - 1) ++
          " of ".toList ++ natRepr p.actions.length ++ " task actions succeeded.".toList
    | .failed => some "Plan execution failed safely.".toList

/-- No output of a state that has not been verified as it is. -/
def summarize (sha256 : Text → Digest) (state : AgentGraphState) : Option AgentGraphOutput :=
  let expected := verifyResult sha256 state
  if state.verification ≠ some expected.verification ∨
      state.terminalStatus ≠ some expected.terminalStatus then none
  else
    let includeRecords := expected.verification.errorCode ≠ some agentResultInvalid ∧
      expected.verification.errorCode ≠ some agentWorkflowFailed
    ((summaryText state expected).bind (boundedText 2000)).map fun summary ↦ {
      status := expected.terminalStatus
      plan := if includeRecords then state.proposal.map (·.planningResult) else none
      summary := summary
      executionRecords := if includeRecords then state.executionRecords else []
      metrics := state.metrics }

theorem boundedText_isSome {m : ℕ} {d : Char} {s : Text} (hd : isSpace d = false)
    (hs : s.head? = some d) (hl : s.length ≤ m) : (boundedText m s).isSome = true := by
  obtain ⟨t, rfl⟩ := List.head?_eq_some_iff.mp hs
  have hne : strip (d :: t) ≠ [] := by
    rw [strip, List.dropWhile_cons_of_neg (by simp [hd])]
    intro h
    have hall := List.rdropWhile_eq_nil_iff.mp h d List.mem_cons_self
    rw [hd] at hall
    cases hall
  rw [boundedText, dif_pos ⟨hne, (strip_length_le _).trans hl⟩]
  rfl

theorem natRepr_length {n : ℕ} (h : n ≤ maxPlanActions) : (natRepr n).length = 1 := by
  rw [natRepr, Nat.toDigits_of_lt_base (h.trans_lt (by decide))]
  rfl

theorem intRepr_length {n : ℤ} (h : n ≤ maxPlanActions) (h' : -1 ≤ n) :
    (intRepr n).length ≤ 2 := by
  cases n with
  | ofNat n =>
    have hn : n ≤ maxPlanActions := Int.ofNat_le.mp h
    rw [intRepr, natRepr_length hn]
    omega
  | negSucc n =>
    have hn : n = 0 := by omega
    subst hn
    rw [intRepr, List.length_cons, natRepr_length (by decide)]

theorem classifyRecords_count (actions : List AgentProposedAction)
    (records : List AgentActionExecutionRecord) :
    (classifyRecords actions records).verification.checkedActionCount ≤ records.length := by
  unfold classifyRecords invalidResult
  repeat' split
  all_goals simp

theorem verifyResult_count (sha256 : Text → Digest) (state : AgentGraphState) :
    (verifyResult sha256 state).verification.checkedActionCount ≤ state.executionRecords.length := by
  unfold verifyResult
  repeat' split
  any_goals simp [invalidResult]
  exact classifyRecords_count _ _

theorem invalidResult_consistent {n : ℕ} (h : n ≤ maxPlanActions) :
    (invalidResult n).verification.consistent = true := by
  have hcode : isErrorCode agentResultInvalid = true := by decide
  simp [invalidResult, AgentVerification.consistent, h, hcode]

theorem classifyRecords_consistent (actions : List AgentProposedAction)
    {records : List AgentActionExecutionRecord} (h : records.length ≤ maxPlanActions) :
    (classifyRecords actions records).verification.consistent = true := by
  have hcode : isErrorCode agentExecutionFailed = true := by decide
  have hinvalid := invalidResult_consistent h
  unfold classifyRecords
  split
  · exact hinvalid
  split
  · exact hinvalid
  split
  · exact hinvalid
  split
  · exact hinvalid
  · split
    · exact hinvalid
    · simp [AgentVerification.consistent, h, hcode]
  · split
    · exact hinvalid
    split
    · rfl
    · simp [AgentVerification.consistent, h]

theorem verifyResult_consistent (sha256 : Text → Digest) {state : AgentGraphState}
    (h : state.executionRecords.length ≤ maxPlanActions) :
    (verifyResult sha256 state).verification.consistent = true := by
  have hcode : isErrorCode agentWorkflowFailed = true := by decide
  have hinvalid : (invalidResult 0).verification.consistent = true :=
    invalidResult_consistent (Nat.zero_le _)
  unfold verifyResult
  split
  · simp [AgentVerification.consistent, h, hcode]
  split
  · exact hinvalid
  split
  · split
    · exact invalidResult_consistent h
    · rfl
  split
  · exact hinvalid
  cases state.proposal with
  | none => exact hinvalid
  | some p => exact classifyRecords_consistent p.actions h

theorem verifyResult_partial {sha256 : Text → Digest} {state : AgentGraphState}
    (h : (verifyResult sha256 state).terminalStatus = .partialFailure) :
    ∃ p, state.proposal = some p := by
  cases hp : state.proposal with
  | some p => exact ⟨p, rfl⟩
  | none =>
    have hb : hasCurrentPlanBinding sha256 state = false := by
      simp only [hasCurrentPlanBinding, hp]
    unfold verifyResult at h
    split at h
    · cases h
    · rw [hb] at h
      cases h

theorem summaryText_isSome {state : AgentGraphState} {u : AgentVerificationUpdate}
    (hc : u.verification.checkedActionCount ≤ maxPlanActions)
    (hp : u.terminalStatus = .partialFailure → ∃ p, state.proposal = some p) :
    ((summaryText state u).bind (boundedText 2000)).isSome = true := by
  unfold summaryText
  split
  · rfl
  · split
    · rfl
    · split
      · rfl
      · have hn := natRepr_length hc
        refine boundedText_isSome (d := 'P') (by decide) rfl ?_
        rw [List.length_append, List.length_append, hn]
        decide
    · next ht =>
      obtain ⟨p, hp⟩ := hp ht
      have hn := natRepr_length p.size
      have hi : (intRepr (u.verification.checkedActionCount - 1)).length ≤ 2 :=
        intRepr_length (by omega) (by omega)
      rw [hp, Option.map_some, Option.bind_some]
      refine boundedText_isSome (d := 'P') (by decide) rfl ?_
      have hl : "Plan partially completed; ".toList.length = 26 := by decide
      have hm : " of ".toList.length = 4 := by decide
      have hr : " task actions succeeded.".toList.length = 24 := by decide
      simp only [List.length_append, hn, hl, hm, hr]
      omega
    · rfl

theorem summarize_of_verified {sha256 : Text → Digest} {state : AgentGraphState}
    (hv : state.verification = some (verifyResult sha256 state).verification)
    (ht : state.terminalStatus = some (verifyResult sha256 state).terminalStatus)
    (hr : state.executionRecords.length ≤ maxPlanActions) :
    ∃ output, summarize sha256 state = some output ∧
      output.status = (verifyResult sha256 state).terminalStatus := by
  have hs := summaryText_isSome ((verifyResult_count sha256 state).trans hr) verifyResult_partial
  obtain ⟨summary, hs⟩ := Option.isSome_iff_exists.mp hs
  have hne : ¬ (state.verification ≠ some (verifyResult sha256 state).verification ∨
      state.terminalStatus ≠ some (verifyResult sha256 state).terminalStatus) := by
    simp only [← hv, ← ht, ne_eq, not_true_eq_false, or_self, not_false_eq_true]
  simp only [summarize, if_neg hne, hs, Option.map_some]
  exact ⟨_, rfl, rfl⟩

theorem summarize_metrics {sha256 : Text → Digest} {state : AgentGraphState}
    {output : AgentGraphOutput} (h : summarize sha256 state = some output) :
    output.metrics = state.metrics := by
  simp only [summarize, Option.ite_none_left_eq_some, Option.map_eq_some_iff] at h
  obtain ⟨-, summary, -, rfl⟩ := h
  rfl

end LearningTasks.Agent.Finalization
