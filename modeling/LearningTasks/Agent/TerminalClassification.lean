import LearningTasks.Agent.Approval
import LearningTasks.Agent.Finalization

namespace LearningTasks.Agent.TerminalClassification

open Library.Strings Library.Serialization Schemas.Scalars Schemas.Task Models.Agent
  Agent.Schemas State Tools Execution Finalization

/-- The records of a run over some actions, by the index of the action that failed. -/
inductive Recorded :
    List AgentProposedAction → Option ℕ → List AgentActionExecutionRecord → Prop
  | nil : Recorded [] none []
  | failed {action : AgentProposedAction} {record : AgentActionExecutionRecord}
      (actions : List AgentProposedAction) (key : record.actionKey = action.actionKey)
      (tool : record.toolName = action.toolName) (outcome : record.outcome = .failed) :
      Recorded (action :: actions) (some 0) [record]
  | succeeded {action : AgentProposedAction} {record : AgentActionExecutionRecord}
      {actions : List AgentProposedAction} {failure : Option ℕ}
      {records : List AgentActionExecutionRecord} (key : record.actionKey = action.actionKey)
      (tool : record.toolName = action.toolName) (outcome : record.outcome = .succeeded)
      (rest : Recorded actions failure records) :
      Recorded (action :: actions) (failure.map (· + 1)) (record :: records)

def Matches (action : AgentProposedAction) (record : AgentActionExecutionRecord) : Prop :=
  record.actionKey = action.actionKey ∧ record.toolName = action.toolName

def Aligned (actions : List AgentProposedAction) (records : List AgentActionExecutionRecord) :
    Prop :=
  ∀ p ∈ actions.zip records, Matches p.1 p.2

theorem mismatch_eq_false_iff (actions : List AgentProposedAction)
    (records : List AgentActionExecutionRecord) :
    ((actions.zip records).any fun p ↦
      p.2.actionKey != p.1.actionKey || p.2.toolName != p.1.toolName) = false ↔
        Aligned actions records := by
  rw [List.any_eq_false]
  constructor
  · intro h p hp
    have hp := h p hp
    simp only [Bool.or_eq_true, bne_iff_ne, ne_eq, not_or, not_not] at hp
    exact hp
  · intro h p hp
    obtain ⟨hk, ht⟩ := h p hp
    simp [hk, ht]

def failedFrom (n : ℕ) (records : List AgentActionExecutionRecord) : List ℕ :=
  ((records.zipIdx n).filter fun p ↦ p.1.outcome == .failed).map (·.2)

theorem failedFrom_failed {n : ℕ} {record : AgentActionExecutionRecord}
    (h : record.outcome = .failed) (records : List AgentActionExecutionRecord) :
    failedFrom n (record :: records) = n :: failedFrom (n + 1) records := by
  rw [failedFrom, List.zipIdx_cons, List.filter_cons_of_pos (by simp [h])]
  rfl

theorem failedFrom_succeeded {n : ℕ} {record : AgentActionExecutionRecord}
    (h : record.outcome = .succeeded) (records : List AgentActionExecutionRecord) :
    failedFrom n (record :: records) = failedFrom (n + 1) records := by
  rw [failedFrom, List.zipIdx_cons, List.filter_cons_of_neg (by simp [h])]
  rfl

theorem outcome_cases (record : AgentActionExecutionRecord) :
    record.outcome = .failed ∨ record.outcome = .succeeded := by
  cases record.outcome with
  | succeeded => exact .inr rfl
  | failed => exact .inl rfl

theorem recorded_of_succeeded {n : ℕ} {actions : List AgentProposedAction}
    {records : List AgentActionExecutionRecord} (ha : Aligned actions records)
    (hl : records.length = actions.length) (hf : failedFrom n records = []) :
    Recorded actions none records := by
  induction records generalizing n actions with
  | nil =>
    rw [List.eq_nil_of_length_eq_zero hl.symm]
    exact .nil
  | cons record records ih =>
    cases actions with
    | nil => cases hl
    | cons action actions =>
      obtain ⟨hk, ht⟩ := ha (action, record) List.mem_cons_self
      obtain ho | ho := outcome_cases record
      · rw [failedFrom_failed ho] at hf
        cases hf
      · rw [failedFrom_succeeded ho] at hf
        have hrest : Recorded actions none records :=
          ih (fun p hp ↦ ha p (List.mem_cons_of_mem _ hp)) (Nat.succ.inj hl) hf
        exact .succeeded hk ht ho hrest

theorem recorded_of_failed {n i : ℕ} {actions : List AgentProposedAction}
    {records : List AgentActionExecutionRecord} (ha : Aligned actions records)
    (hl : records.length ≤ actions.length) (hf : failedFrom n records = [n + i])
    (hi : records.length = i + 1) : Recorded actions (some i) records := by
  induction i generalizing n actions records with
  | zero =>
    obtain ⟨record, rfl⟩ := List.length_eq_one_iff.mp hi
    cases actions with
    | nil => simp at hl
    | cons action actions =>
      obtain ⟨hk, ht⟩ := ha (action, record) List.mem_cons_self
      obtain ho | ho := outcome_cases record
      · exact .failed actions hk ht ho
      · rw [failedFrom_succeeded ho] at hf
        cases hf
  | succ i ih =>
    cases records with
    | nil => cases hi
    | cons record records =>
      cases actions with
      | nil => simp at hl
      | cons action actions =>
        obtain ⟨hk, ht⟩ := ha (action, record) List.mem_cons_self
        obtain ho | ho := outcome_cases record
        · rw [failedFrom_failed ho, List.cons.injEq] at hf
          omega
        · rw [failedFrom_succeeded ho, ← Nat.add_assoc, Nat.add_right_comm] at hf
          have hrest : Recorded actions (some i) records :=
            ih (fun p hp ↦ ha p (List.mem_cons_of_mem _ hp)) (Nat.le_of_succ_le_succ hl) hf
              (Nat.succ.inj hi)
          exact .succeeded hk ht ho hrest

namespace Recorded

variable {actions : List AgentProposedAction} {failure : Option ℕ}
  {records : List AgentActionExecutionRecord}

theorem length_le (h : Recorded actions failure records) : records.length ≤ actions.length := by
  induction h with
  | nil => exact le_refl _
  | failed actions key tool outcome => exact Nat.succ_le_succ (Nat.zero_le _)
  | succeeded key tool outcome rest ih => exact Nat.succ_le_succ ih

theorem keys (h : Recorded actions failure records) :
    records.map (·.actionKey) <+: actions.map (·.actionKey) := by
  induction h with
  | nil => exact List.prefix_rfl
  | failed actions key tool outcome =>
    rw [List.map_singleton, List.map_cons, key]
    exact List.prefix_append [_] _
  | succeeded key tool outcome rest ih =>
    rw [List.map_cons, List.map_cons, key, List.prefix_cons_inj]
    exact ih

theorem aligned (h : Recorded actions failure records) : Aligned actions records := by
  induction h with
  | nil =>
    intro p hp
    cases hp
  | failed actions key tool outcome =>
    intro p hp
    rw [List.zip_cons_cons, List.zip_nil_right, List.mem_singleton] at hp
    rw [hp]
    exact ⟨key, tool⟩
  | succeeded key tool outcome rest ih =>
    intro p hp
    rw [List.zip_cons_cons, List.mem_cons] at hp
    obtain rfl | hp := hp
    · exact ⟨key, tool⟩
    · exact ih p hp

theorem failedFrom_eq (h : Recorded actions failure records) (n : ℕ) :
    failedFrom n records = (failure.map (n + ·)).toList := by
  induction h generalizing n with
  | nil => rfl
  | failed actions key tool outcome =>
    rw [failedFrom_failed outcome]
    rfl
  | succeeded key tool outcome rest ih =>
    rw [failedFrom_succeeded outcome, ih, Option.map_map]
    congr 2
    funext i
    change n + 1 + i = n + (i + 1)
    omega

theorem length_eq (h : Recorded actions failure records) :
    records.length = (failure.map (· + 1)).getD actions.length := by
  induction h with
  | nil => rfl
  | failed actions key tool outcome => rfl
  | succeeded key tool outcome rest ih =>
    rename_i failure _
    rw [List.length_cons, ih]
    cases failure with
    | none => rfl
    | some i => rfl

end Recorded

/-- The classification of a run over some actions, by the index of its failure. -/
def verdict (actions : List AgentProposedAction) : Option ℕ → AgentVerificationUpdate
  | none =>
    if actions = [] then ⟨⟨.noAction, 0, none⟩, .succeeded⟩
    else ⟨⟨.verified, actions.length, none⟩, .succeeded⟩
  | some i =>
    ⟨⟨.failed, i + 1, some agentExecutionFailed⟩, if i > 0 then .partialFailure else .failed⟩

theorem verdict_succeeded_iff {actions : List AgentProposedAction} {failure : Option ℕ} :
    (verdict actions failure).terminalStatus = .succeeded ↔ failure = none := by
  cases failure with
  | none =>
    rw [verdict]
    split <;> simp
  | some i =>
    rw [verdict]
    split <;> simp

theorem verdict_partialFailure_iff {actions : List AgentProposedAction} {failure : Option ℕ} :
    (verdict actions failure).terminalStatus = .partialFailure ↔ ∃ i, failure = some i ∧ 0 < i := by
  cases failure with
  | none =>
    rw [verdict]
    split <;> simp
  | some i =>
    by_cases hi : i > 0 <;> simp [verdict, hi]

theorem verdict_failed_iff {actions : List AgentProposedAction} {failure : Option ℕ} :
    (verdict actions failure).terminalStatus = .failed ↔ failure = some 0 := by
  cases failure with
  | none =>
    rw [verdict]
    split <;> simp
  | some i =>
    by_cases hi : i > 0
    · simp [verdict, hi]
      omega
    · simp [verdict, hi]
      omega

theorem verdict_not_invalid {actions : List AgentProposedAction} {failure : Option ℕ} :
    (verdict actions failure).verification.errorCode ≠ some agentResultInvalid ∧
      (verdict actions failure).verification.errorCode ≠ some agentWorkflowFailed := by
  have h₁ : agentExecutionFailed ≠ agentResultInvalid := by decide
  have h₂ : agentExecutionFailed ≠ agentWorkflowFailed := by decide
  cases failure with
  | none =>
    rw [verdict]
    split <;> simp
  | some i => simp [verdict, h₁, h₂]

section

variable {actions : List AgentProposedAction} {records : List AgentActionExecutionRecord}

theorem classifyRecords_eq (hu : (actions.map (·.actionKey)).Nodup) {failure : Option ℕ}
    (h : Recorded actions failure records) :
    classifyRecords actions records = verdict actions failure := by
  have hlength := h.length_le
  have hkeys : (records.map (·.actionKey)).Nodup := hu.sublist h.keys.sublist
  have hmatch := (mismatch_eq_false_iff actions records).mpr h.aligned
  have hfailed : ((records.zipIdx.filter fun p ↦ p.1.outcome == .failed).map (·.2)) =
      (failure.map (0 + ·)).toList := h.failedFrom_eq 0
  have heq := h.length_eq
  rw [classifyRecords, if_neg (by omega), if_neg (not_not.mpr hkeys), if_neg (by rw [hmatch]; decide),
    hfailed]
  cases failure with
  | none =>
    change records.length = actions.length at heq
    simp only [Option.map_none, Option.toList_none, heq, verdict, ne_eq, not_true_eq_false,
      if_false]
  | some i =>
    change records.length = i + 1 at heq
    simp only [Option.map_some, Option.toList_some, heq, verdict, Nat.zero_add, ne_eq,
      Nat.add_sub_cancel, not_true_eq_false, if_false]

theorem classifyRecords_invalid (h : ∀ failure, ¬ Recorded actions failure records) :
    classifyRecords actions records = invalidResult records.length := by
  unfold classifyRecords
  split
  · rfl
  · next hl =>
    split
    · rfl
    · split
      · rfl
      · next hmatch =>
        have ha := (mismatch_eq_false_iff actions records).mp (Bool.not_eq_true _ ▸ hmatch)
        split
        · rfl
        · next i hf =>
          split
          · rfl
          · next hi =>
            have hf : failedFrom 0 records = [0 + i] := by
              rw [Nat.zero_add]
              exact hf
            have hpos : records ≠ [] := by
              rintro rfl
              cases hf
            have hlast : records.length = i + 1 := by
              have := List.length_pos_of_ne_nil hpos
              omega
            exact absurd (recorded_of_failed ha (Nat.le_of_not_gt hl) hf hlast) (h _)
        · next hf =>
          split
          · rfl
          · next heq =>
            exact absurd (recorded_of_succeeded (n := 0) ha (not_not.mp heq) hf) (h _)

end

def verified (sha256 : Text → Digest) (s : AgentGraphState) : AgentGraphState :=
  { s with
    verification := some (verifyResult sha256 s).verification
    terminalStatus := some (verifyResult sha256 s).terminalStatus }

def Genuine (s : AgentGraphState) : Prop :=
  if s.approvalDecision = some .rejected then s.executionRecords = []
  else ∃ p failure, s.proposal = some p ∧ Recorded p.actions failure s.executionRecords

section

variable {sha256 : Text → Digest} {s : AgentGraphState}

theorem verifyResult_approved (hw : s.workflowErrorCode = none)
    (hb : hasCurrentPlanBinding sha256 s = true) (ha : s.approvalDecision = some .approved)
    {p : AgentPlanProposal} (hp : s.proposal = some p) :
    verifyResult sha256 s = classifyRecords p.actions s.executionRecords := by
  simp [verifyResult, hw, hb, ha, hp]

theorem approved_of_verifyResult
    (h : (verifyResult sha256 s).terminalStatus = .succeeded ∨
      (verifyResult sha256 s).terminalStatus = .partialFailure) :
    s.workflowErrorCode = none ∧ hasCurrentPlanBinding sha256 s = true ∧
      s.approvalDecision = some .approved ∧ ∃ p, s.proposal = some p := by
  unfold verifyResult at h
  split at h
  · simp at h
  · next hw =>
    split at h
    · simp [invalidResult] at h
    · next hb =>
      split at h
      · split at h <;> simp [invalidResult] at h
      · split at h
        · simp [invalidResult] at h
        · next ha =>
          split at h
          · next p hp =>
            exact ⟨Option.not_isSome_iff_eq_none.mp hw, by simpa using hb, not_not.mp ha, p, hp⟩
          · simp [invalidResult] at h

theorem recorded_of_verifyResult
    (h : (verifyResult sha256 s).terminalStatus = .succeeded ∨
      (verifyResult sha256 s).terminalStatus = .partialFailure) :
    ∃ p failure, s.proposal = some p ∧ Recorded p.actions failure s.executionRecords ∧
      verifyResult sha256 s = verdict p.actions failure := by
  obtain ⟨hw, hb, ha, p, hp⟩ := approved_of_verifyResult h
  have hv := verifyResult_approved hw hb ha hp
  by_cases hr : ∃ failure, Recorded p.actions failure s.executionRecords
  · obtain ⟨failure, hr⟩ := hr
    exact ⟨p, failure, hp, hr, hv.trans (classifyRecords_eq p.unique hr)⟩
  · rw [hv, classifyRecords_invalid (not_exists.mp hr)] at h
    simp [invalidResult] at h

variable (sha256) in
theorem verifyResult_workflowError (h : s.workflowErrorCode.isSome = true) :
    verifyResult sha256 s =
      ⟨⟨.failed, s.executionRecords.length, some agentWorkflowFailed⟩, .failed⟩ := by
  rw [verifyResult, if_pos h]

theorem size_of_modelValidate (h : s.modelValidate = some s) :
    s.executionRecords.length ≤ maxPlanActions := by
  unfold AgentGraphState.modelValidate at h
  obtain ⟨feedback, -, h⟩ := Option.bind_eq_some_iff.mp h
  obtain ⟨summary, -, h⟩ := Option.bind_eq_some_iff.mp h
  simp only [Option.ite_none_right_eq_some, Bool.and_eq_true, decide_eq_true_eq] at h
  exact h.1.1.2

variable (sha256) in
theorem verifyResult_invalid (hw : s.workflowErrorCode = none) (hg : ¬ Genuine s) :
    ∃ n, verifyResult sha256 s = invalidResult n := by
  unfold Genuine at hg
  unfold verifyResult
  split
  · next hsome =>
    rw [hw] at hsome
    cases hsome
  · split
    · exact ⟨0, rfl⟩
    · split
      · next hr =>
        rw [if_pos hr] at hg
        rw [if_pos hg]
        exact ⟨_, rfl⟩
      · next hr =>
        rw [if_neg hr] at hg
        split
        · exact ⟨0, rfl⟩
        · split
          · next p hp =>
            refine ⟨_, classifyRecords_invalid ?_⟩
            intro failure hrecorded
            exact hg ⟨p, failure, hp, hrecorded⟩
          · exact ⟨0, rfl⟩

theorem summarize_isSome_iff (hs : s.executionRecords.length ≤ maxPlanActions)
    (v : Option AgentVerification) (t : Option AgentTerminalStatus) :
    (summarize sha256 { s with verification := v, terminalStatus := t }).isSome = true ↔
      v = some (verifyResult sha256 s).verification ∧
        t = some (verifyResult sha256 s).terminalStatus := by
  constructor
  · intro h
    obtain ⟨output, h⟩ := Option.isSome_iff_exists.mp h
    simp only [summarize, Option.ite_none_left_eq_some, not_or, not_not] at h
    exact h.1
  · rintro ⟨rfl, rfl⟩
    obtain ⟨output, h, -⟩ := summarize_of_verified (rfl : (verified sha256 s).verification = _) rfl hs
    exact Option.isSome_iff_exists.mpr ⟨output, h⟩

variable (sha256) in
theorem summarize_verified (hs : s.executionRecords.length ≤ maxPlanActions) :
    ∃ output, summarize sha256 (verified sha256 s) = some output ∧
      output.status = (verifyResult sha256 s).terminalStatus ∧
      (if (verifyResult sha256 s).verification.errorCode ≠ some agentResultInvalid ∧
          (verifyResult sha256 s).verification.errorCode ≠ some agentWorkflowFailed then
        output.plan = s.proposal.map (·.planningResult) ∧
          output.executionRecords = s.executionRecords
      else output.plan = none ∧ output.executionRecords = []) := by
  obtain ⟨output, h, hstatus⟩ := summarize_of_verified
    (rfl : (verified sha256 s).verification = _) rfl hs
  refine ⟨output, h, hstatus, ?_⟩
  simp only [summarize, Option.ite_none_left_eq_some, Option.map_eq_some_iff] at h
  obtain ⟨-, summary, -, rfl⟩ := h
  split
  · next hc => exact ⟨if_pos hc, if_pos hc⟩
  · next hc => exact ⟨if_neg hc, if_neg hc⟩

def Hidden (sha256 : Text → Digest) (s : AgentGraphState) : Prop :=
  ∃ output, summarize sha256 (verified sha256 s) = some output ∧ output.status = .failed ∧
    output.plan = none ∧ output.executionRecords = []

theorem hidden_of_errorCode (hs : s.executionRecords.length ≤ maxPlanActions)
    (hf : (verifyResult sha256 s).terminalStatus = .failed)
    (he : (verifyResult sha256 s).verification.errorCode = some agentResultInvalid ∨
      (verifyResult sha256 s).verification.errorCode = some agentWorkflowFailed) :
    Hidden sha256 s := by
  obtain ⟨output, h, hstatus, hout⟩ := summarize_verified sha256 hs
  rw [if_neg (by tauto)] at hout
  exact ⟨output, h, hstatus.trans hf, hout⟩

end

section

variable {σ : Type} (sha256 : Text → Digest) (c : Coercions) (executors : Executors σ)
  (context : AgentRuntimeContext)

/-- The index of the first action that fails when it is performed after the others. -/
def firstFailure (revision : ℕ) (fingerprint : Digest) :
    List AgentProposedAction → σ → Option ℕ
  | [], _ => none
  | action :: actions, w =>
    match performAction c executors context revision fingerprint action w with
    | (.ok _, w) => (firstFailure revision fingerprint actions w).map (· + 1)
    | (.error _, _) => some 0

theorem executeActions_recorded (revision : ℕ) (fingerprint : Digest)
    (actions : List AgentProposedAction) (w : σ) :
    Recorded actions (firstFailure c executors context revision fingerprint actions w)
      (executeActions c executors context revision fingerprint actions w).1 := by
  induction actions generalizing w with
  | nil => exact .nil
  | cons action actions ih =>
    rw [executeActions, firstFailure]
    cases performAction c executors context revision fingerprint action w with
    | mk result w' =>
      cases result with
      | ok result =>
        have houtcome : (succeededRecord action result).outcome = .succeeded := rfl
        exact .succeeded rfl rfl houtcome (ih w')
      | error e =>
        have houtcome : (failedRecord action e).outcome = .failed := rfl
        exact .failed actions rfl rfl houtcome

structure Executable (s : AgentGraphState) (p : AgentPlanProposal) : Prop where
  proposal : s.proposal = some p
  authorized : requireCurrentAuthorization sha256 s = true
  writeTools : context.writeToolsEnabled = true
  actions : actionsAuthorized c context executors p.actions = true
  noError : s.workflowErrorCode = none

/-- What the execution of a plan comes to, once it is verified and summarized. -/
structure Concluded (s : AgentGraphState) (p : AgentPlanProposal) (failure : Option ℕ)
    (output : AgentGraphOutput) : Prop where
  recorded : Recorded p.actions failure s.executionRecords
  accepted : summarize sha256 (verified sha256 s) = some output
  plan : output.plan = some p.planningResult
  records : output.executionRecords = s.executionRecords
  succeeded : output.status = .succeeded ↔ failure = none
  partialFailure : output.status = .partialFailure ↔ ∃ i, failure = some i ∧ 0 < i
  failed : output.status = .failed ↔ failure = some 0

variable {sha256 c executors context}

theorem binding_of_authorized {s : AgentGraphState}
    (h : requireCurrentAuthorization sha256 s = true) :
    hasCurrentPlanBinding sha256 s = true ∧ s.approvalDecision = some .approved := by
  unfold requireCurrentAuthorization at h
  split at h
  · next p v hp hv =>
    simp only [Bool.and_eq_true, beq_iff_eq] at h
    simp only [hasCurrentPlanBinding, hp, hv, Bool.and_eq_true, beq_iff_eq]
    tauto
  · cases h

theorem concluded_of_recorded {s : AgentGraphState} {p : AgentPlanProposal} {failure : Option ℕ}
    (hp : s.proposal = some p) (ha : requireCurrentAuthorization sha256 s = true)
    (hw : s.workflowErrorCode = none) (hr : Recorded p.actions failure s.executionRecords) :
    ∃ output, Concluded sha256 s p failure output := by
  obtain ⟨hb, hd⟩ := binding_of_authorized ha
  have hv : verifyResult sha256 s = verdict p.actions failure := by
    rw [verifyResult_approved hw hb hd hp, classifyRecords_eq p.unique hr]
  obtain ⟨output, h, hstatus, hout⟩ :=
    summarize_verified sha256 (hr.length_le.trans p.size)
  rw [hv] at hstatus hout
  rw [if_pos verdict_not_invalid] at hout
  refine ⟨output, ⟨hr, h, ?_, hout.2, ?_, ?_, ?_⟩⟩
  · rw [hout.1, hp]
    rfl
  · rw [hstatus]
    exact verdict_succeeded_iff
  · rw [hstatus]
    exact verdict_partialFailure_iff
  · rw [hstatus]
    exact verdict_failed_iff

theorem executeTasks_concluded {s : AgentGraphState} {p : AgentPlanProposal}
    (h : Executable sha256 c executors context s p) (w : σ) :
    ∃ records w' output, executeTasks sha256 c executors context s w = (some records, w') ∧
      Concluded sha256 { s with executionRecords := records } p
        (firstFailure c executors context s.revisionCount (fingerprintPlanProposal sha256 p)
          p.actions w) output := by
  have hrecorded := executeActions_recorded c executors context s.revisionCount
    (fingerprintPlanProposal sha256 p) p.actions w
  cases hrun : executeActions c executors context s.revisionCount
      (fingerprintPlanProposal sha256 p) p.actions w with
  | mk records w' =>
    rw [hrun] at hrecorded
    have hexecute : executeTasks sha256 c executors context s w = (some records, w') := by
      simp [executeTasks, h.proposal, h.authorized, h.writeTools, h.actions, hrun]
    have hp : ({ s with executionRecords := records } : AgentGraphState).proposal = some p :=
      h.proposal
    obtain ⟨output, hout⟩ := concluded_of_recorded hp h.authorized h.noError hrecorded
    exact ⟨records, w', output, hexecute, hout⟩

variable (sha256 c executors context) in
/-- An executed plan is classified by its first failure, any other records than those of
its run are not taken for a result, and a state is summarized with its own verification
and with no other. -/
theorem terminal_classification {s : AgentGraphState} (hs : s.modelValidate = some s) :
    (∀ p w, Executable sha256 c executors context s p →
      ∃ records w' output, executeTasks sha256 c executors context s w = (some records, w') ∧
        Concluded sha256 { s with executionRecords := records } p
          (firstFailure c executors context s.revisionCount (fingerprintPlanProposal sha256 p)
            p.actions w) output) ∧
    ((verifyResult sha256 s).terminalStatus = .succeeded →
      ∃ p, s.proposal = some p ∧ Recorded p.actions none s.executionRecords) ∧
    ((verifyResult sha256 s).terminalStatus = .partialFailure →
      ∃ p i, s.proposal = some p ∧ Recorded p.actions (some (i + 1)) s.executionRecords) ∧
    (s.workflowErrorCode = none → ¬ Genuine s →
      (∃ n, verifyResult sha256 s = invalidResult n) ∧ Hidden sha256 s) ∧
    (s.workflowErrorCode.isSome = true →
      (verifyResult sha256 s).verification.errorCode = some agentWorkflowFailed ∧
        Hidden sha256 s) ∧
    (∀ v t, (summarize sha256 { s with verification := v, terminalStatus := t }).isSome = true ↔
      v = some (verifyResult sha256 s).verification ∧
        t = some (verifyResult sha256 s).terminalStatus) := by
  have hsize := size_of_modelValidate hs
  refine ⟨fun p w h ↦ executeTasks_concluded h w, ?_, ?_, ?_, ?_,
    fun v t ↦ summarize_isSome_iff hsize v t⟩
  · intro h
    obtain ⟨p, failure, hp, hr, hv⟩ := recorded_of_verifyResult (.inl h)
    rw [hv, verdict_succeeded_iff] at h
    rw [h] at hr
    exact ⟨p, hp, hr⟩
  · intro h
    obtain ⟨p, failure, hp, hr, hv⟩ := recorded_of_verifyResult (.inr h)
    rw [hv, verdict_partialFailure_iff] at h
    obtain ⟨i, rfl, hi⟩ := h
    obtain ⟨j, rfl⟩ := Nat.exists_eq_succ_of_ne_zero hi.ne'
    exact ⟨p, j, hp, hr⟩
  · intro hw hg
    obtain ⟨n, hn⟩ := verifyResult_invalid sha256 hw hg
    refine ⟨⟨n, hn⟩, hidden_of_errorCode hsize ?_ (.inl ?_)⟩ <;> rw [hn] <;> rfl
  · intro hw
    have hv := verifyResult_workflowError sha256 hw
    refine ⟨?_, hidden_of_errorCode hsize ?_ (.inr ?_)⟩ <;> rw [hv]

end

def approvedState : AgentGraphState :=
  { Approval.sampleState with
    approvalDecision := some .approved
    approvalRevision := some 0
    approvalProposalFingerprint := some Approval.sampleDigest }

def createdTask : PublicTask where
  id := Approval.sampleTaskId
  projectId := sampleId 2
  title := "Read".toList
  description := none
  status := .todo
  priority := .medium
  plannedDate := none
  dueAt := none
  estimatedMinutes := none
  completedAt := none
  createdAt := sampleDate.midnight
  updatedAt := sampleDate.midnight

def oneTaskExecutors : Executors ℕ where
  dispatcher := fun _ _ _ w ↦
    (if w = 0 then .ok (.task createdTask) else .error .taskNotFound, w + 1)
  actionExecutor := none

theorem terminal_classification_sample :
    ∃ records w' output, executeTasks (fun _ ↦ Approval.sampleDigest) isoCoercions oneTaskExecutors
        Approval.sampleContext approvedState 0 = (some records, w') ∧
      summarize (fun _ ↦ Approval.sampleDigest) (verified (fun _ ↦ Approval.sampleDigest)
        { approvedState with executionRecords := records }) = some output ∧
      output.status = .partialFailure := by
  have hfailure : firstFailure isoCoercions oneTaskExecutors Approval.sampleContext 0
      Approval.sampleDigest Approval.sampleProposal.actions 0 = some 1 := by decide +kernel
  have hactions : actionsAuthorized isoCoercions Approval.sampleContext oneTaskExecutors
      Approval.sampleProposal.actions = true := by decide +kernel
  obtain ⟨records, w', output, hrun, hout⟩ :=
    (terminal_classification (fun _ ↦ Approval.sampleDigest) isoCoercions oneTaskExecutors
      Approval.sampleContext (s := approvedState) rfl).1 Approval.sampleProposal 0
        ⟨rfl, by decide +kernel, rfl, hactions, rfl⟩
  refine ⟨records, w', output, hrun, hout.accepted, hout.partialFailure.mpr ⟨1, ?_, Nat.one_pos⟩⟩
  exact hfailure

/-- A run that broke off keeps its error, whatever its records are. -/
theorem workflow_failure_is_not_invalid :
    ¬ ∀ (sha256 : Text → Digest) (s : AgentGraphState), s.modelValidate = some s → ¬ Genuine s →
      ∃ n, verifyResult sha256 s = invalidResult n := by
  intro h
  have hgenuine : ¬ Genuine { approvedState with workflowErrorCode := some agentWorkflowFailed } := by
    rintro ⟨p, failure, hp, hr⟩
    cases hp
    cases hr
  obtain ⟨n, hn⟩ := h (fun _ ↦ Approval.sampleDigest)
    { approvedState with workflowErrorCode := some agentWorkflowFailed } rfl hgenuine
  have hcode := congrArg (·.verification.errorCode) hn
  revert hcode
  change some agentWorkflowFailed = some agentResultInvalid → False
  decide

end LearningTasks.Agent.TerminalClassification
