import LearningTasks.Services.RunLedger

namespace LearningTasks.Services.RunRounds

open Library.Strings Library.Transition Schemas.Scalars Models.Agent Agent
  Agent.Schemas Agent.State Agent.Tools Agent.Approval Agent.Finalization Agent.Planning
  Agent.Execution Agent.Graph AgentWorkflow ApprovalProtocol ApprovalReplay RunLedger

inductive Ends (k : ℕ) (approvals : List AgentApproval) : AgentTerminalStatus → Prop
  | executed {fingerprint : Text} {t : AgentTerminalStatus} :
      Latest k fingerprint .approved approvals → t ≠ .rejected → Ends k approvals t
  | refused {fingerprint : Text} : Latest k fingerprint .rejected approvals →
      Ends k approvals .rejected
  | exhausted {fingerprint : Text} : Latest k fingerprint .requestChanges approvals →
      maxPlanRevisions ≤ k → Ends k approvals .rejected
  | abandoned : Over k approvals → k ≤ maxPlanRevisions → Ends k approvals .failed

theorem Ends.of_eq {k : ℕ} {approvals : List AgentApproval} {t t' : AgentTerminalStatus}
    (h : Ends k approvals t) (ht : t' = t) : Ends k approvals t' := ht ▸ h

theorem Ends.allowed {k : ℕ} {approvals : List AgentApproval} {t : AgentTerminalStatus}
    (h : Ends k approvals t) : allowed (decisionsOf approvals) t = true := by
  unfold RunLedger.allowed
  cases h with
  | executed hlatest ht =>
    rw [hlatest.decisions, show decisionOf .approved = some .approved from rfl]
    simpa using ht
  | refused hlatest =>
    rw [hlatest.decisions, show decisionOf .rejected = some .rejected from rfl]
    simp
  | exhausted hlatest hk =>
    rw [hlatest.decisions, show decisionOf .requestChanges = some .requestChanges from rfl]
    simp only [Option.toList_some, List.getLast?_append, List.getLast?_singleton, Option.some_or]
    refine decide_eq_true (if_pos ?_).symm
    rw [List.length_append, List.length_replicate]
    exact Nat.lt_succ_of_le hk
  | abandoned hover hk =>
    rw [hover.decisions]
    cases k with
    | zero => rfl
    | succ k =>
      rw [List.getLast?_replicate, if_neg (Nat.succ_ne_zero k)]
      refine decide_eq_true (if_neg ?_).symm
      rw [List.length_replicate]
      exact Nat.not_lt.mpr hk

section

variable {sha256 : Text → Digest} {v : AgentGraphState}

theorem verifyResult_of_error (h : v.workflowErrorCode.isSome = true) :
    (verifyResult sha256 v).terminalStatus = .failed := by
  rw [verifyResult, if_pos h]

theorem verifyResult_of_unbound (h : hasCurrentPlanBinding sha256 v = false) :
    (verifyResult sha256 v).terminalStatus = .failed := by
  unfold verifyResult
  split
  · rfl
  · rw [h]
    rfl

theorem classifyRecords_ne_rejected (actions : List AgentProposedAction)
    (records : List AgentActionExecutionRecord) :
    (classifyRecords actions records).terminalStatus ≠ .rejected := by
  unfold classifyRecords invalidResult
  repeat' split
  all_goals exact nofun

theorem verifyResult_rejected (h : (verifyResult sha256 v).terminalStatus = .rejected) :
    v.approvalDecision = some .rejected := by
  unfold verifyResult invalidResult at h
  split at h
  · cases h
  · split at h
    · cases h
    · split at h
      · next hd => exact hd
      · split at h
        · cases h
        · split at h
          · exact absurd h (classifyRecords_ne_rejected _ _)
          · cases h

theorem verifyResult_of_rejected (he : v.workflowErrorCode = none) (hr : v.executionRecords = [])
    (hd : v.approvalDecision = some .rejected) (hb : hasCurrentPlanBinding sha256 v = true) :
    (verifyResult sha256 v).terminalStatus = .rejected := by
  simp only [verifyResult, he, hb, hd, hr, Option.isSome_none, Bool.false_eq_true, Bool.not_true,
    ne_eq, not_true_eq_false, ↓reduceIte]

theorem bound_of_request {c : Coercions} {context : AgentRuntimeContext}
    {request : AgentApprovalInterrupt} {fingerprint : Digest}
    (h : buildApprovalRequest sha256 c context v = .ok (request, fingerprint)) :
    ∃ p validation, v.proposal = some p ∧ v.validation = some validation ∧
      validation.status = .valid ∧ validation.revision = v.revisionCount ∧
      validation.proposalFingerprint = some fingerprint ∧
      fingerprintPlanProposal sha256 p = fingerprint := by
  unfold buildApprovalRequest at h
  split at h
  · next proposal fingerprint' _ hf =>
    split at h
    · cases h
      exact currentValidatedFingerprint_some hf
    · cases h
  · cases h

end

variable {σ : Type}

/-- What the approvals have to do with the values of a checkpoint, by the node that is next. -/
def Tied (host : Host σ) (approvals : List AgentApproval) (v : AgentGraphState) :
    List AgentRunNode → Prop
  | [.requestApproval] => Over v.revisionCount approvals ∨ ∃ request fingerprint d,
      buildApprovalRequest host.sha256 host.coercions host.context v =
        .ok (request, fingerprint) ∧ Latest v.revisionCount fingerprint.text d approvals
  | [.executeTasks] => ∃ p, v.proposal = some p ∧
      Latest v.revisionCount (fingerprintPlanProposal host.sha256 p).text .approved approvals
  | [.verifyResult] | [.summarize] | [] =>
    Ends v.revisionCount approvals (verifyResult host.sha256 v).terminalStatus
  | _ => Over v.revisionCount approvals

variable {host : Host σ} {approvals : List AgentApproval} {v : AgentGraphState}

theorem Tied.numbered {next : List AgentRunNode} (h : Tied host approvals v next) :
    approvals.map (·.revision) = List.range approvals.length := by
  have hnumbered {n : ℕ} (hrange : approvals.map (·.revision) = List.range n) :
      approvals.map (·.revision) = List.range approvals.length := by
    have hlength := congrArg List.length hrange
    rw [List.length_map, List.length_range] at hlength
    rw [hrange, hlength]
  have hends {t : AgentTerminalStatus} (hends : Ends v.revisionCount approvals t) :
      approvals.map (·.revision) = List.range approvals.length := by
    cases hends with
    | executed hlatest ht => exact hnumbered hlatest.revisions
    | refused hlatest => exact hnumbered hlatest.revisions
    | exhausted hlatest hk => exact hnumbered hlatest.revisions
    | abandoned hover hk => exact hnumbered hover.revisions
  unfold Tied at h
  split at h
  · rcases h with hover | ⟨request, fingerprint, d, -, hlatest⟩
    · exact hnumbered hover.revisions
    · exact hnumbered hlatest.revisions
  · obtain ⟨p, -, hlatest⟩ := h
    exact hnumbered hlatest.revisions
  · exact hends h
  · exact hends h
  · exact hends h
  · exact hnumbered h.revisions

theorem tied_continue {node : AgentRunNode} (hw : v.revisionCount ≤ maxPlanRevisions)
    (hover : Over v.revisionCount approvals) (hn : Tied host approvals v [node]) :
    Tied host approvals v (continueOrVerify node v) := by
  unfold continueOrVerify
  split
  · next he =>
    exact (Ends.abandoned hover hw).of_eq (verifyResult_of_error he)
  · exact hn

theorem tied_failed {code : String} {next : List AgentRunNode}
    (hw : v.revisionCount ≤ maxPlanRevisions) (hover : Over v.revisionCount approvals)
    (hnext : next = [.verifyResult]) : Tied host approvals (failed code v) next := by
  subst hnext
  exact (Ends.abandoned hover hw).of_eq (verifyResult_of_error rfl)

theorem tied_node {node : AgentRunNode} (hne : node ≠ .requestApproval)
    (hw : Checkpoints.WellFormed v)
    (hn : Checkpoints.NextInv host.sha256 host.coercions host.context v [node])
    (ht : Tied host approvals v [node]) {answer : Option AgentApprovalResponse} {w w' : σ}
    {u : StateUpdate} (hr : runNode host v answer w node = (.update u, w'))
    {next : List AgentRunNode} (hroute : route (u v) node = some next) :
    Tied host approvals (u v) next := by
  have hk := hw.revisionCount
  cases node with
  | analyzeGoal =>
    cases hr
    cases hroute
    exact tied_continue hk ht ht
  | loadContext =>
    rw [runNode] at hr
    split at hr
    · cases hr
      cases hroute
      exact tied_continue hk ht ht
    · cases hr
      cases hroute
      exact tied_failed hk ht rfl
  | generatePlan =>
    rw [runNode] at hr
    split at hr
    · cases hr
      cases hroute
      exact tied_continue hk ht ht
    · cases hr
      cases hroute
      exact tied_failed hk ht rfl
  | validatePlan =>
    have hu : Checkpoints.Undecided v := hn
    have hover : Over v.revisionCount approvals := ht
    cases hr
    simp only [route, hu.errorCode, Option.isSome_none, Bool.false_eq_true, ↓reduceIte] at hroute
    split at hroute
    · cases hroute
      exact .inl hover
    · next hinvalid =>
      cases hroute
      refine (Ends.abandoned hover hk).of_eq (verifyResult_of_unbound ?_)
      unfold hasCurrentPlanBinding
      split
      · next hvalidation =>
        cases hvalidation
        simp [hinvalid]
      · rfl
  | requestApproval => exact absurd rfl hne
  | executeTasks =>
    have ha : Checkpoints.Approved host.sha256 host.coercions host.context v := hn
    obtain ⟨p, -, hlatest⟩ := ht
    cases hroute
    have hdecision : (u v).approvalDecision = some .approved ∧
        (u v).revisionCount = v.revisionCount := by
      rw [runNode] at hr
      split at hr
      · cases hr
        exact ⟨ha.decision, rfl⟩
      · cases hr
        exact ⟨ha.decision, rfl⟩
    change Ends (u v).revisionCount approvals _
    rw [hdecision.2]
    refine .executed hlatest fun hrejected ↦ ?_
    have hd := verifyResult_rejected hrejected
    rw [hdecision.1] at hd
    cases hd
  | verifyResult =>
    cases hr
    cases hroute
    exact ht
  | summarize =>
    rw [runNode] at hr
    split at hr
    · cases hr
      cases hroute
      exact ht
    · cases hr

theorem tied_answer (hu : Checkpoints.Undecided v) {request : AgentApprovalInterrupt}
    {fingerprint : Digest} (hb : buildApprovalRequest host.sha256 host.coercions host.context v =
      .ok (request, fingerprint)) (response : AgentApprovalResponse)
    (hlatest : Latest v.revisionCount fingerprint.text (approvalStatus response.decision) approvals)
    {next : List AgentRunNode}
    (hroute : route (applyApprovalResponse v response fingerprint v) .requestApproval = some next) :
    Tied host approvals (applyApprovalResponse v response fingerprint v) next := by
  have he := hu.errorCode
  obtain ⟨p, validation, hp, hvalidation, hstatus, hrevision, hproposed, hpf⟩ := bound_of_request hb
  unfold applyApprovalResponse at hroute ⊢
  cases hd : response.decision with
  | approved =>
    simp only [hd, route, he, Option.isSome_none, Bool.false_eq_true, ↓reduceIte,
      Option.some.injEq] at hroute
    subst hroute
    rw [hd] at hlatest
    exact ⟨p, hp, hpf ▸ hlatest⟩
  | rejected =>
    simp only [hd, route, he, Option.isSome_none, Bool.false_eq_true, ↓reduceIte,
      Option.some.injEq] at hroute
    subst hroute
    rw [hd] at hlatest
    refine (Ends.refused hlatest).of_eq ?_
    apply verifyResult_of_rejected
    · exact he
    · exact hu.records
    · rfl
    · simp [hasCurrentPlanBinding, hp, hvalidation, hstatus, hrevision, hproposed, hpf]
  | requestChanges =>
    rw [hd] at hlatest
    by_cases hl : v.revisionCount ≥ maxPlanRevisions
    · simp only [hd, hl, route, he, Option.isSome_none, Bool.false_eq_true, ↓reduceIte,
        Option.some.injEq] at hroute
      subst hroute
      simp only [hl, ↓reduceIte]
      refine (Ends.exhausted hlatest hl).of_eq ?_
      apply verifyResult_of_rejected
      · exact he
      · exact hu.records
      · rfl
      · simp [hasCurrentPlanBinding, hp, hvalidation, hstatus, hrevision, hproposed, hpf]
    · simp only [hd, hl, route, he, Option.isSome_none, Bool.false_eq_true, ↓reduceIte,
        Option.some.injEq] at hroute
      subst hroute
      simp only [hl, ↓reduceIte]
      exact hlatest.over

section

variable {cp cp' : Checkpoint} {w w' : σ}

theorem tied_unanswered (hg : Checkpoints.Inv host.sha256 host.coercions host.context cp)
    (ht : Tied host approvals cp.values cp.next)
    (hs : superstep (Checkpoints.durable host) cp none w = (some cp', w')) :
    Tied host approvals cp'.values cp'.next := by
  rcases Checkpoints.superstep_cases hg.wellFormed hs with ⟨ho, -⟩ | ⟨node, r, hnext, hr, ho⟩
  · cases ho
  · cases r with
    | raised => cases ho
    | interrupt value =>
      cases ho
      exact ht
    | update u =>
      obtain ⟨next, hroute, rfl⟩ := Option.map_eq_some_iff.mp ho.symm
      have hn := hg.next
      rw [hnext] at ht hn
      by_cases hne : node = .requestApproval
      · subst hne
        simp only [runNode, approvalNode, Checkpoints.durable, ↓reduceIte] at hr
        split at hr
        · next e hb =>
          cases hr
          cases hroute
          rcases ht with hover | ⟨request, fingerprint, d, hb', -⟩
          · exact tied_failed hg.wellFormed.revisionCount hover rfl
          · rw [hb'] at hb
            cases hb
        · cases hr
      · exact @tied_node σ (Checkpoints.durable host) approvals cp.values node hne hg.wellFormed hn
          ht none w w' u hr next hroute

theorem tied_answered (hg : Checkpoints.Inv host.sha256 host.coercions host.context cp)
    (ht : Tied host approvals cp.values cp.next) {a : AgentApproval} (ha : a ∈ approvals)
    (hwaits : WaitsFor host cp a.revision a.proposalFingerprint) {response : AgentApprovalResponse}
    (hstored : storedResponse a = some response)
    (hs : superstep (Checkpoints.durable host) cp (some response) w = (some cp', w')) :
    Tied host approvals cp'.values cp'.next := by
  obtain ⟨hnext, hk⟩ := WaitsFor.revisionCount hg hwaits
  have hn := hg.next
  rw [hnext] at ht hn
  obtain ⟨hu, -⟩ : Checkpoints.Undecided cp.values ∧ _ := hn
  have hfound : ∃ request fingerprint, buildApprovalRequest host.sha256 host.coercions host.context
      cp.values = .ok (request, fingerprint) ∧
      Latest cp.values.revisionCount fingerprint.text (approvalStatus response.decision)
        approvals := by
    rcases ht with hover | ⟨request, fingerprint, d, hb, hlatest⟩
    · have hlt := (hover.mem ha).1
      omega
    · obtain ⟨-, hd⟩ := hlatest.eq ha hk
      rw [storedResponse_decision hstored] at hd
      exact ⟨request, fingerprint, hb, hd ▸ hlatest⟩
  obtain ⟨request, fingerprint, hb, hlatest⟩ := hfound
  rcases Checkpoints.superstep_cases hg.wellFormed hs with ⟨ho, -⟩ | ⟨node, r, hnode, hr, ho⟩
  · cases ho
  · rw [hnext] at hnode
    cases hnode
    have hb' : buildApprovalRequest (Checkpoints.durable host).sha256
      (Checkpoints.durable host).coercions (Checkpoints.durable host).context cp.values =
        .ok (request, fingerprint) := hb
    simp only [runNode, approvalNode, hb', show (Checkpoints.durable host).durableApproval = true
      from rfl, ↓reduceIte] at hr
    cases hr
    obtain ⟨next, hroute, rfl⟩ := Option.map_eq_some_iff.mp ho.symm
    exact tied_answer hu hb response hlatest hroute

theorem tied_progress (hg : Checkpoints.Inv host.sha256 host.coercions host.context cp)
    (ht : Tied host approvals cp.values cp.next) {progress : AgentWorkflowProgress}
    (hp : progressOf (inspectSnapshot host.sha256 host.coercions cp) = some progress) :
    (∃ request, progress = .approval request ∧ cp.next = [.requestApproval] ∧
      inspectSnapshot host.sha256 host.coercions cp = ⟨.pendingInterrupt, some request, none⟩ ∧
      buildApprovalRequest host.sha256 host.coercions host.context cp.values =
        .ok (request, request.proposalFingerprint) ∧
      request.revision = cp.values.revisionCount ∧ request.revision ≤ maxPlanRevisions ∧
      (Over request.revision approvals ∨
        ∃ d, Latest request.revision request.proposalFingerprint.text d approvals)) ∨
    ∃ o, progress = .output o ∧
      inspectSnapshot host.sha256 host.coercions cp = ⟨.terminal, none, some o⟩ ∧
      Ends cp.values.revisionCount approvals o.status := by
  rcases Checkpoints.inspect_cases hg with ⟨request, fingerprint, hnext, hb, hi⟩ |
    ⟨o, hnext, hstatus, hi⟩ | ⟨-, -, hi⟩ | ⟨-, hi⟩
  · rw [hi] at hp
    cases hp
    obtain ⟨-, -, hrevision, hfingerprint⟩ := buildApprovalRequest_checked hb
    rw [hnext] at ht
    refine .inl ⟨request, rfl, hnext, hi, hfingerprint ▸ hb, hrevision,
      hrevision ▸ hg.wellFormed.revisionCount, ?_⟩
    rw [hrevision, hfingerprint]
    rcases ht with hover | ⟨request', fingerprint', d, hb', hlatest⟩
    · exact .inl hover
    · rw [hb] at hb'
      cases hb'
      exact .inr ⟨d, hlatest⟩
  · rw [hi] at hp
    cases hp
    have hn := hg.next
    rw [hnext] at ht hn
    have hv : Checkpoints.Verified host.sha256 cp.values := hn
    exact .inr ⟨o, rfl, hi, Ends.of_eq ht (Option.some.inj (hstatus.symm.trans hv.terminal))⟩
  · rw [hi] at hp
    cases hp
  · rw [hi] at hp
    cases hp

end

end LearningTasks.Services.RunRounds
