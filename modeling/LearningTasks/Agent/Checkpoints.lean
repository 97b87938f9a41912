import LearningTasks.Agent.Graph

namespace LearningTasks.Agent.Checkpoints

open Library.Strings Library.Serialization Library.Transition Schemas.Scalars Schemas.Project
  Models.Agent Agent.Schemas State Tools Approval Execution Finalization Planning Graph

/-- The bounds of the state contract, and the contracts of the models that it holds. -/
structure WellFormed (v : AgentGraphState) : Prop where
  feedback : normalizeOptionalText 1000 v.approvalFeedback = some v.approvalFeedback
  summary : normalizeOptionalText 2000 v.summary = some v.summary
  approvalRevision : v.approvalRevision.all (· ≤ maxPlanRevisions) = true
  revisionCount : v.revisionCount ≤ maxPlanRevisions
  records : v.executionRecords.length ≤ maxPlanActions
  errorCode : v.workflowErrorCode.all isErrorCode = true
  validation : v.validation.all AgentPlanValidation.consistent = true
  recorded : ∀ r ∈ v.executionRecords, r.consistent = true
  verification : v.verification.all AgentVerification.consistent = true

theorem WellFormed.modelValidate {v : AgentGraphState} (h : WellFormed v) :
    v.modelValidate = some v := by
  simp only [AgentGraphState.modelValidate, h.feedback, h.summary, h.approvalRevision,
    h.revisionCount, h.records, h.errorCode, Option.bind_eq_bind, Option.bind_some,
    decide_true, Bool.and_self, ↓reduceIte]

theorem normalizeOptionalText_bounded {m : ℕ} (t : Option (BoundedText m)) :
    normalizeOptionalText m (t.map (·.text)) = some (t.map (·.text)) := by
  cases t with
  | none => rfl
  | some t => simp only [Option.map_some, normalizeOptionalText, boundedText_text]

structure Undecided (v : AgentGraphState) : Prop where
  terminal : v.terminalStatus = none
  errorCode : v.workflowErrorCode = none
  records : v.executionRecords = []
  verification : v.verification = none
  decision : v.approvalDecision = none ∨ v.approvalDecision = some .requestChanges

section

variable (sha256 : Text → Digest) (c : Coercions) (context : AgentRuntimeContext)

/-- The current proposal has passed validation for the loaded context. -/
def Validated (v : AgentGraphState) : Prop :=
  ∃ p snapshot, v.proposal = some p ∧ v.context = some snapshot ∧
    ValidProposal c context snapshot p ∧ v.validation =
      some ⟨.valid, v.revisionCount, some (fingerprintPlanProposal sha256 p), none⟩

structure Approved (v : AgentGraphState) : Prop where
  terminal : v.terminalStatus = none
  errorCode : v.workflowErrorCode = none
  records : v.executionRecords = []
  verification : v.verification = none
  decision : v.approvalDecision = some .approved
  revision : v.approvalRevision = some v.revisionCount
  fingerprint : ∀ p, v.proposal = some p →
    v.approvalProposalFingerprint = some (fingerprintPlanProposal sha256 p)
  validated : Validated sha256 c context v

/-- Before its verification a run has a terminal status just when it has been
rejected. -/
structure Unverified (v : AgentGraphState) : Prop where
  verification : v.verification = none
  terminal : v.terminalStatus = if v.approvalDecision = some .rejected then some .rejected else none

structure Verified (v : AgentGraphState) : Prop where
  verification : v.verification = some (verifyResult sha256 v).verification
  terminal : v.terminalStatus = some (verifyResult sha256 v).terminalStatus

/-- What holds of the values of a checkpoint, by the node that is next. -/
def NextInv (v : AgentGraphState) : List AgentRunNode → Prop
  | [] => Verified sha256 v
  | [.requestApproval] => Undecided v ∧ Validated sha256 c context v
  | [.executeTasks] => Approved sha256 c context v
  | [.verifyResult] => Unverified v
  | [.summarize] => Verified sha256 v
  | [_] => Undecided v
  | _ :: _ :: _ => False

structure Inv (cp : Checkpoint) : Prop where
  wellFormed : WellFormed cp.values
  next : NextInv sha256 c context cp.values cp.next
  interrupts : cp.interrupts = [] ∨ cp.next = [.requestApproval] ∧ ∃ request fingerprint,
    buildApprovalRequest sha256 c context cp.values = .ok (request, fingerprint) ∧
      cp.interrupts = [request.dump]

end

variable {sha256 : Text → Digest} {c : Coercions} {context : AgentRuntimeContext}

theorem wellFormed_graphInput (goal : PlanningGoal) : WellFormed (graphInput goal) :=
  ⟨rfl, rfl, rfl, Nat.zero_le _, Nat.zero_le _, rfl, rfl, fun _ hr ↦ absurd hr List.not_mem_nil,
    rfl⟩

theorem inv_initial (goal : PlanningGoal) : Inv sha256 c context (initialCheckpoint goal) :=
  ⟨wellFormed_graphInput goal, ⟨rfl, rfl, rfl, rfl, .inl rfl⟩, .inl rfl⟩

theorem WellFormed.failed {v : AgentGraphState} (h : WellFormed v) {code : String}
    (hc : isErrorCode code.toList = true) : WellFormed (failed code v) :=
  { h with errorCode := hc }

theorem Undecided.unverified {v : AgentGraphState} (h : Undecided v) : Unverified v := by
  refine ⟨h.verification, ?_⟩
  have hd : v.approvalDecision ≠ some .rejected := by
    rcases h.decision with hd | hd <;> simp [hd]
  exact h.terminal.trans (if_neg hd).symm

theorem Approved.unverified {v : AgentGraphState} (h : Approved sha256 c context v) :
    Unverified v := by
  refine ⟨h.verification, ?_⟩
  have hd : v.approvalDecision ≠ some .rejected := by simp [h.decision]
  exact h.terminal.trans (if_neg hd).symm

theorem Unverified.failed {v : AgentGraphState} (h : Unverified v) (code : String) :
    Unverified (failed code v) := { h with }

theorem approval_inv {v : AgentGraphState} (hw : WellFormed v) (hu : Undecided v)
    (hv : Validated sha256 c context v) {request : AgentApprovalInterrupt} {fingerprint : Digest}
    (hb : buildApprovalRequest sha256 c context v = .ok (request, fingerprint))
    (response : AgentApprovalResponse) {next : List AgentRunNode}
    (hr : route (applyApprovalResponse v response fingerprint v) .requestApproval = some next) :
    WellFormed (applyApprovalResponse v response fingerprint v) ∧
      NextInv sha256 c context (applyApprovalResponse v response fingerprint v) next := by
  have he := hu.errorCode
  have hrev := hw.revisionCount
  unfold applyApprovalResponse at hr ⊢
  cases hd : response.decision with
  | approved =>
    simp only [hd, route, he, Option.isSome_none, Bool.false_eq_true, ↓reduceIte,
      Option.some.injEq] at hr
    subst hr
    obtain ⟨p, q, hp, -, hpf, -⟩ := buildApprovalRequest_spec hb
    refine ⟨{ hw with feedback := rfl, approvalRevision := ?_ },
      ⟨hu.terminal, he, hu.records,
      hu.verification, rfl, rfl, fun p' hp' ↦ ?_, hv⟩⟩
    · simpa using hrev
    · obtain rfl := Option.some.inj (hp.symm.trans hp')
      exact congrArg some hpf.symm
  | rejected =>
    simp only [hd, route, he, Option.isSome_none, Bool.false_eq_true, ↓reduceIte,
      Option.some.injEq] at hr
    subst hr
    refine ⟨{ hw with feedback := rfl, approvalRevision := ?_ },
      hu.verification, rfl⟩
    simpa using hrev
  | requestChanges =>
    by_cases hl : v.revisionCount ≥ maxPlanRevisions
    · simp only [hd, hl, route, he, Option.isSome_none, Bool.false_eq_true, ↓reduceIte,
        Option.some.injEq] at hr
      subst hr
      have hs : normalizeOptionalText 2000 (some planRevisionLimitMessage) =
          some (some planRevisionLimitMessage) := by decide
      simp only [hl, ↓reduceIte]
      refine ⟨{ hw with feedback := rfl, summary := hs, approvalRevision := ?_ },
        hu.verification, rfl⟩
      simpa using hrev
    · simp only [hd, hl, route, he, Option.isSome_none, Bool.false_eq_true, ↓reduceIte,
        Option.some.injEq] at hr
      subst hr
      simp only [hl, ↓reduceIte]
      have hrev' : v.revisionCount + 1 ≤ maxPlanRevisions := by omega
      exact ⟨⟨normalizeOptionalText_bounded response.feedback, hw.summary, rfl, hrev', hw.records,
        hw.errorCode, rfl, hw.recorded, hw.verification⟩,
        hu.terminal, he, hu.records, hu.verification, .inr rfl⟩

variable {σ : Type} {host : Host σ}

theorem continue_inv {v : AgentGraphState} (hw : WellFormed v) (hu : Undecided v)
    {node : AgentRunNode} (hn : NextInv sha256 c context v [node]) :
    WellFormed v ∧ NextInv sha256 c context v (continueOrVerify node v) := by
  rw [continueOrVerify, hu.errorCode]
  exact ⟨hw, hn⟩

theorem failed_inv {v : AgentGraphState} (hw : WellFormed v) (hu : Undecided v) {code : String}
    (hc : isErrorCode code.toList = true) (node : AgentRunNode) :
    WellFormed (failed code v) ∧
      NextInv sha256 c context (failed code v) (continueOrVerify node (failed code v)) :=
  ⟨hw.failed hc, hu.unverified.failed code⟩

theorem approvalNode_update {v : AgentGraphState} {answer : Option AgentApprovalResponse} {w w' : σ}
    {u : StateUpdate} (h : approvalNode host v answer w = (.update u, w')) :
    u = failed "AGENT_APPROVAL_FAILED" ∨ ∃ request fingerprint response,
      buildApprovalRequest host.sha256 host.coercions host.context v = .ok (request, fingerprint) ∧
        u = applyApprovalResponse v response fingerprint := by
  unfold approvalNode at h
  cases hb : buildApprovalRequest host.sha256 host.coercions host.context v with
  | error e =>
    rw [hb] at h
    cases h
    exact .inl rfl
  | ok pair =>
    obtain ⟨request, fingerprint⟩ := pair
    simp only [hb] at h
    split at h
    · cases answer with
      | none => cases h
      | some response =>
        cases h
        exact .inr ⟨request, fingerprint, response, rfl, rfl⟩
    · split at h
      · cases h
        exact .inl rfl
      · next response w₁ hd =>
        cases h
        exact .inr ⟨request, fingerprint, response, rfl, rfl⟩

theorem runNode_inv {v : AgentGraphState} (hw : WellFormed v) {node : AgentRunNode}
    (hn : NextInv host.sha256 host.coercions host.context v [node])
    {answer : Option AgentApprovalResponse} {w w' : σ} {u : StateUpdate}
    (hr : runNode host v answer w node = (.update u, w')) {next : List AgentRunNode}
    (hroute : route (u v) node = some next) :
    WellFormed (u v) ∧ NextInv host.sha256 host.coercions host.context (u v) next := by
  cases node with
  | analyzeGoal =>
    have hu : Undecided v := hn
    cases hr
    cases hroute
    have hw' : WellFormed { v with analysis := some (analyzeGoal v) } := { hw with }
    have hu' : Undecided { v with analysis := some (analyzeGoal v) } := { hu with }
    exact continue_inv hw' hu' hu'
  | loadContext =>
    have hu : Undecided v := hn
    rw [runNode] at hr
    split at hr
    · next snapshot w₁ _ =>
      cases hr
      cases hroute
      have hw' : WellFormed { v with context := some snapshot } := { hw with }
      have hu' : Undecided { v with context := some snapshot } := { hu with }
      exact continue_inv hw' hu' hu'
    · cases hr
      cases hroute
      exact failed_inv hw hu (by decide) _
  | generatePlan =>
    have hu : Undecided v := hn
    rw [runNode] at hr
    split at hr
    · cases hr
      cases hroute
      refine continue_inv ?_ ?_ ?_
      · exact { hw with }
      · exact { hu with }
      · exact { hu with }
    · cases hr
      cases hroute
      exact failed_inv hw hu (by decide) _
  | validatePlan =>
    have hu : Undecided v := hn
    cases hr
    have he := hu.errorCode
    have hw' : WellFormed { v with
        validation := some (validatePlan host.sha256 host.coercions host.context v) } :=
      { hw with
        validation := validatePlan_consistent host.sha256 host.coercions host.context
          hw.revisionCount }
    have hu' : Undecided { v with
        validation := some (validatePlan host.sha256 host.coercions host.context v) } := { hu with }
    by_cases hvalid : (validatePlan host.sha256 host.coercions host.context v).status = .valid
    · simp only [route, he, hvalid, Option.isSome_none, Bool.false_eq_true, ↓reduceIte,
        Option.some.injEq] at hroute
      subst hroute
      obtain ⟨p, snapshot, hp, hs, hpv, hf⟩ := validatePlan_valid hvalid
      exact ⟨hw', hu', p, snapshot, hp, hs, hpv, congrArg some hf⟩
    · simp only [route, he, hvalid, Option.isSome_none, Bool.false_eq_true, ↓reduceIte,
        Option.some.injEq] at hroute
      subst hroute
      exact ⟨hw', hu'.unverified⟩
  | requestApproval =>
    obtain ⟨hu, hv⟩ : Undecided v ∧ Validated host.sha256 host.coercions host.context v := hn
    rw [runNode] at hr
    rcases approvalNode_update hr with rfl | ⟨request, fingerprint, response, hb, rfl⟩
    · cases hroute
      exact failed_inv hw hu (by decide) .verifyResult
    · exact approval_inv hw hu hv hb response hroute
  | executeTasks =>
    have ha : Approved host.sha256 host.coercions host.context v := hn
    cases hroute
    rw [runNode] at hr
    split at hr
    · next records w₁ hx =>
      cases hr
      obtain ⟨p, -, -, -, -, hrec⟩ := executeTasks_records (congrArg Prod.fst hx)
      have hl : records.length ≤ maxPlanActions := hrec.length_le.trans p.size
      exact ⟨{ hw with records := hl, recorded := hrec.consistent }, { ha.unverified with }⟩
    · cases hr
      exact ⟨hw.failed (by decide), ha.unverified.failed _⟩
  | verifyResult =>
    cases hr
    cases hroute
    exact ⟨{ hw with verification := verifyResult_consistent host.sha256 hw.records }, rfl, rfl⟩
  | summarize =>
    have hv : Verified host.sha256 v := hn
    obtain ⟨output, ho, hstatus⟩ := summarize_of_verified hv.verification hv.terminal hw.records
    simp only [runNode, ho, Prod.mk.injEq, NodeResult.update.injEq] at hr
    obtain ⟨rfl, -⟩ := hr
    cases hroute
    have hs : normalizeOptionalText 2000 (some output.summary.text) =
        some (some output.summary.text) := normalizeOptionalText_bounded (some output.summary)
    exact ⟨{ hw with summary := hs }, hv.verification, congrArg some hstatus⟩

theorem approvalNode_interrupt {v : AgentGraphState} {answer : Option AgentApprovalResponse}
    {w w' : σ} {value : Json} (h : approvalNode host v answer w = (.interrupt value, w')) :
    answer = none ∧ ∃ request fingerprint,
      buildApprovalRequest host.sha256 host.coercions host.context v = .ok (request, fingerprint) ∧
        value = request.dump := by
  unfold approvalNode at h
  cases hb : buildApprovalRequest host.sha256 host.coercions host.context v with
  | error e => rw [hb] at h; cases h
  | ok pair =>
    simp only [hb] at h
    split at h
    · cases answer with
      | none =>
        cases h
        exact ⟨rfl, pair.1, pair.2, rfl, rfl⟩
      | some response => cases h
    · split at h <;> cases h

theorem runNode_interrupt {v : AgentGraphState} {node : AgentRunNode}
    {answer : Option AgentApprovalResponse} {w w' : σ} {value : Json}
    (h : runNode host v answer w node = (.interrupt value, w')) :
    node = .requestApproval ∧ approvalNode host v answer w = (.interrupt value, w') := by
  cases node with
  | requestApproval => exact ⟨rfl, h⟩
  | loadContext | generatePlan | executeTasks =>
    rw [runNode] at h
    split at h <;> cases h
  | summarize =>
    rw [runNode] at h
    split at h <;> cases h
  | analyzeGoal | validatePlan | verifyResult => cases h

theorem superstep_cases {cp : Checkpoint} (h : WellFormed cp.values)
    {answer : Option AgentApprovalResponse} {w w' : σ} {o : Option Checkpoint}
    (hs : superstep host cp answer w = (o, w')) :
    (o = none ∧ w' = w) ∨ ∃ node r, cp.next = [node] ∧
      runNode host cp.values answer w node = (r, w') ∧ o = committed cp node r := by
  unfold superstep at hs
  split at hs
  · next node hnext =>
    simp only [h.modelValidate] at hs
    rcases hr : runNode host cp.values answer w node with ⟨r, w₁⟩
    rw [hr] at hs
    cases hs
    exact .inr ⟨node, r, hnext, hr, rfl⟩
  · cases hs
    exact .inl ⟨rfl, rfl⟩

theorem superstep_inv (host : Host σ) {cp cp' : Checkpoint} {answer : Option AgentApprovalResponse}
    {w w' : σ} (h : Inv host.sha256 host.coercions host.context cp)
    (hs : superstep host cp answer w = (some cp', w')) :
    Inv host.sha256 host.coercions host.context cp' := by
  rcases superstep_cases h.wellFormed hs with ⟨ho, -⟩ | ⟨node, r, hnext, hr, ho⟩
  · cases ho
  · have hn := h.next
    rw [hnext] at hn
    cases r with
    | update u =>
      obtain ⟨next, hroute, rfl⟩ := Option.map_eq_some_iff.mp ho.symm
      obtain ⟨hw', hn'⟩ := runNode_inv h.wellFormed hn hr hroute
      exact ⟨hw', hn', .inl rfl⟩
    | interrupt value =>
      cases ho
      obtain ⟨rfl, hi⟩ := runNode_interrupt hr
      obtain ⟨-, request, fingerprint, hb, rfl⟩ := approvalNode_interrupt hi
      exact ⟨h.wellFormed, h.next, .inr ⟨hnext, request, fingerprint, hb, rfl⟩⟩
    | raised => cases ho

theorem approval_route {v : AgentGraphState} (he : v.workflowErrorCode = none)
    (response : AgentApprovalResponse) (fingerprint : Digest) :
    ∃ next, route (applyApprovalResponse v response fingerprint v) .requestApproval = some next := by
  unfold applyApprovalResponse
  cases hd : response.decision with
  | approved => exact ⟨[.executeTasks], by simp [route, he]⟩
  | rejected => exact ⟨[.verifyResult], by simp [route, he]⟩
  | requestChanges =>
    by_cases hl : v.revisionCount ≥ maxPlanRevisions
    · exact ⟨[.verifyResult], by simp [hl, route, he]⟩
    · exact ⟨[.generatePlan], by simp [hl, route, he]⟩

theorem route_isSome (v : AgentGraphState) {node : AgentRunNode} (h : node ≠ .requestApproval) :
    ∃ next, route v node = some next := by
  cases node with
  | requestApproval => exact absurd rfl h
  | validatePlan =>
    simp only [route]
    repeat' split
    all_goals exact ⟨_, rfl⟩
  | analyzeGoal | loadContext | generatePlan | executeTasks | verifyResult | summarize =>
    exact ⟨_, rfl⟩

theorem applyApprovalResponse_revisionCount (v : AgentGraphState) (response : AgentApprovalResponse)
    (fingerprint : Digest) :
    v.revisionCount ≤ (applyApprovalResponse v response fingerprint v).revisionCount := by
  unfold applyApprovalResponse
  cases response.decision with
  | approved => exact le_refl _
  | rejected => exact le_refl _
  | requestChanges =>
    by_cases hl : v.revisionCount ≥ maxPlanRevisions
    · simp only [hl, ↓reduceIte]
      exact le_refl _
    · simp only [hl, ↓reduceIte]
      exact Nat.le_succ _

theorem runNode_revisionCount_eq {v : AgentGraphState} {node : AgentRunNode}
    {answer : Option AgentApprovalResponse} {w w' : σ} {u : StateUpdate}
    (hn : node ≠ .requestApproval) (h : runNode host v answer w node = (.update u, w')) :
    (u v).revisionCount = v.revisionCount := by
  cases node with
  | requestApproval => exact absurd rfl hn
  | loadContext | generatePlan | executeTasks | summarize =>
    rw [runNode] at h
    split at h
    all_goals cases h
    all_goals rfl
  | analyzeGoal | validatePlan | verifyResult =>
    cases h
    rfl

theorem runNode_revisionCount {v : AgentGraphState} {node : AgentRunNode}
    {answer : Option AgentApprovalResponse} {w w' : σ} {u : StateUpdate}
    (h : runNode host v answer w node = (.update u, w')) :
    v.revisionCount ≤ (u v).revisionCount := by
  by_cases hn : node = .requestApproval
  · subst hn
    rcases approvalNode_update h with rfl | ⟨request, fingerprint, response, -, rfl⟩
    · exact le_refl _
    · exact applyApprovalResponse_revisionCount v response fingerprint
  · exact (runNode_revisionCount_eq hn h).ge

theorem superstep_revisionCount {cp cp' : Checkpoint} {answer : Option AgentApprovalResponse}
    {w w' : σ} (h : WellFormed cp.values) (hs : superstep host cp answer w = (some cp', w')) :
    cp.values.revisionCount ≤ cp'.values.revisionCount := by
  rcases superstep_cases h hs with ⟨ho, -⟩ | ⟨node, r, -, hr, ho⟩
  · cases ho
  · cases r with
    | update u =>
      obtain ⟨next, -, rfl⟩ := Option.map_eq_some_iff.mp ho.symm
      exact runNode_revisionCount hr
    | interrupt value =>
      cases ho
      exact le_refl _
    | raised => cases ho

/-- The checkpoints that an inspection takes for inconsistent. -/
def Stuck (cp : Checkpoint) : Prop :=
  cp.next = [.summarize] ∨
    cp.next = [.verifyResult] ∧ cp.values.approvalDecision = some .rejected

theorem inspect_waiting {cp : Checkpoint} {request : AgentApprovalInterrupt} {fingerprint : Digest}
    (hnext : cp.next = [.requestApproval])
    (hb : buildApprovalRequest sha256 c context cp.values = .ok (request, fingerprint))
    (hi : cp.interrupts = [request.dump]) :
    inspectSnapshot sha256 c cp = ⟨.pendingInterrupt, some request, none⟩ := by
  unfold inspectSnapshot
  simp only [hi, hnext, request_round_trip hb, and_self, ↓reduceIte]

theorem NextInv.terminalStatus {v : AgentGraphState} {next : List AgentRunNode}
    (h : NextInv sha256 c context v next) (hne : next ≠ []) :
    v.terminalStatus = none ↔ ¬ Stuck ⟨v, next, []⟩ := by
  unfold Stuck
  match next, h with
  | [.summarize], h => simp [show v.terminalStatus = _ from Verified.terminal h]
  | [.verifyResult], h =>
    have ht : v.terminalStatus = _ := Unverified.terminal h
    by_cases hd : v.approvalDecision = some .rejected <;> simp [ht, hd]
  | [.requestApproval], h => simpa using h.1.terminal
  | [.executeTasks], h => simpa using Approved.terminal h
  | [.analyzeGoal], h | [.loadContext], h | [.generatePlan], h | [.validatePlan], h =>
    simpa using Undecided.terminal h

theorem inspect_cases {cp : Checkpoint} (h : Inv sha256 c context cp) :
    (∃ request fingerprint, cp.next = [.requestApproval] ∧
      buildApprovalRequest sha256 c context cp.values = .ok (request, fingerprint) ∧
      inspectSnapshot sha256 c cp = ⟨.pendingInterrupt, some request, none⟩) ∨
    (∃ output, cp.next = [] ∧ cp.values.terminalStatus = some output.status ∧
      inspectSnapshot sha256 c cp = ⟨.terminal, none, some output⟩) ∨
    (cp.next ≠ [] ∧ ¬ Stuck cp ∧ inspectSnapshot sha256 c cp = ⟨.continuable, none, none⟩) ∨
    (Stuck cp ∧ inspectSnapshot sha256 c cp = inconsistentInspection) := by
  rcases h.interrupts with hi | ⟨hnext, request, fingerprint, hb, hi⟩
  · have hn := h.next
    unfold inspectSnapshot
    simp only [hi, h.wellFormed.modelValidate]
    cases hnext : cp.next with
    | nil =>
      rw [hnext] at hn
      have hv : Verified sha256 cp.values := hn
      obtain ⟨output, ho, hstatus⟩ := summarize_of_verified hv.verification hv.terminal
        h.wellFormed.records
      have ht : cp.values.terminalStatus = some output.status := hv.terminal.trans (by rw [hstatus])
      refine .inr (.inl ⟨output, rfl, ht, ?_⟩)
      simp only [ht, ho]
    | cons node nodes =>
      have hs : cp.values.terminalStatus = none ↔ ¬ Stuck cp := hn.terminalStatus (by simp [hnext])
      cases ht : cp.values.terminalStatus with
      | none => exact .inr (.inr (.inl ⟨by simp, hs.mp ht, rfl⟩))
      | some t =>
        have hstuck : Stuck cp := by
          by_contra hc
          have hnone := hs.mpr hc
          rw [ht] at hnone
          cases hnone
        exact .inr (.inr (.inr ⟨hstuck, rfl⟩))
  · exact .inl ⟨request, fingerprint, hnext, hb, inspect_waiting hnext hb hi⟩

/-- An inspection refuses the checkpoints that are stuck, and no others. -/
theorem inspect_status {cp : Checkpoint} (h : Inv sha256 c context cp) :
    (inspectSnapshot sha256 c cp).status = .inconsistent ↔ Stuck cp := by
  rcases inspect_cases h with ⟨request, fingerprint, hnext, -, hi⟩ | ⟨output, hnext, -, hi⟩ |
    ⟨-, hs, hi⟩ | ⟨hs, hi⟩
  · simp [hi, Stuck, hnext]
  · simp [hi, Stuck, hnext]
  · simp [hi, hs]
  · simp [hi, hs, inconsistentInspection]

/-- What moves a run of the durable graph: it advances, it is resumed with an
answer, or the process stops within a superstep, which leaves the checkpoint and
may have changed the world. -/
inductive Move (σ : Type)
  | advance
  | resume (response : AgentApprovalResponse)
  | crash (w : σ)

def durable (host : Host σ) : Host σ := { host with durableApproval := true }

/-- The checkpoints that are committed in the runs of the durable graph. -/
def machine (host : Host σ) : Machine (Checkpoint × σ) (Move σ) where
  init s := ∃ goal, s.1 = initialCheckpoint goal
  step s
    | .advance => match superstep (durable host) s.1 none s.2 with
      | (some cp, w) => some (cp, w)
      | (none, w) => some (s.1, w)
    | .resume response =>
      if s.1.interrupts = [] then none
      else match superstep (durable host) s.1 (some response) s.2 with
        | (some cp, w) => some (cp, w)
        | (none, w) => some (s.1, w)
    | .crash w => some (s.1, w)

theorem machine_step {s s' : Checkpoint × σ} {m : Move σ} (h : (machine host).step s m = some s') :
    (∃ answer, superstep (durable host) s.1 answer s.2 = (some s'.1, s'.2)) ∨ s'.1 = s.1 := by
  cases m with
  | advance =>
    simp only [machine] at h
    split at h
    · next cp w hcp =>
      cases h
      exact .inl ⟨none, hcp⟩
    · cases h
      exact .inr rfl
  | resume response =>
    simp only [machine] at h
    split at h
    · cases h
    · split at h
      · next cp w hcp =>
        cases h
        exact .inl ⟨some response, hcp⟩
      · cases h
        exact .inr rfl
  | crash w =>
    cases h
    exact .inr rfl

theorem reachable_inv {s : Checkpoint × σ} (h : (machine host).Reachable s) :
    Inv host.sha256 host.coercions host.context s.1 := by
  refine Machine.Reachable.invariant
    (fun s ↦ Inv host.sha256 host.coercions host.context s.1) ?_ ?_ h
  · rintro ⟨cp, w⟩ ⟨goal, rfl⟩
    exact inv_initial goal
  · intro s m s' hinv hs
    obtain ⟨answer, hcp⟩ | heq := machine_step hs
    · exact superstep_inv (durable host) hinv hcp
    · rw [heq]
      exact hinv

def sampleLatency : FloatRepr := ⟨"1.5".toList, by decide, by decide⟩

/-- A host whose provider always answers with the sample proposal. -/
def sampleHost : Host Unit where
  sha256 _ := sampleDigest
  coercions := isoCoercions
  context := sampleContext
  planning := {
    parseJson s := if s = dumps sampleProposal.dump then some sampleProposal.dump else none
    buildInput _ _ _ _ := some []
    generate _ w := (.ok ⟨some (dumps sampleProposal.dump), false, ⟨none, none, none⟩⟩, w)
    latency w := (some sampleLatency, w)
    addLatency x _ := x }
  fetchContext _ w := (some ⟨emptyPage, emptyPage, Grounding.noKnowledge⟩, w)
  executors := ⟨fun _ _ _ w ↦ (.error .other, w), some fun _ _ _ _ w ↦ (.error .other, w)⟩
  decider _ w := (none, w)
  durableApproval := true

end LearningTasks.Agent.Checkpoints
