import LearningTasks.Agent.Tools

namespace LearningTasks.Agent.Approval

open Library.Strings Library.Serialization Library.Records Schemas.Scalars Schemas.Task
  Models.Agent Agent.Schemas State Tools

def agentApprovalRequiredMessage : String := "Agent plan is not ready for approval"

def agentApprovalPreviewInvalidMessage : String := "Agent approval preview is invalid"

def planRevisionLimitMessage : Text := "Plan revision limit reached".toList

def maxApprovalPreviewBytes : ℕ := 65536

/-- The bytes of `,"run_id":"…"` around the text of a UUID. -/
def runIdEnvelopeBytes : ℕ := 48

inductive AgentApprovalPreviewAction
  | createTask (actionKey : Key) (task : TaskCreate)
  | updateTask (actionKey : Key) (taskId : UUID) (changes : TaskUpdate)
  | batchCreateTasks (actionKey : Key) (tasks : List TaskCreate)
  | deleteTask (actionKey : Key) (taskId : UUID)

namespace AgentApprovalPreviewAction

def actionKey : AgentApprovalPreviewAction → Key
  | .createTask key _ | .updateTask key _ _ | .batchCreateTasks key _ | .deleteTask key _ => key

def toolName : AgentApprovalPreviewAction → AgentWriteToolName
  | .createTask _ _ => .createTask
  | .updateTask _ _ _ => .updateTask
  | .batchCreateTasks _ _ => .batchCreateTasks
  | .deleteTask _ _ => .deleteTask

def arguments : AgentApprovalPreviewAction → Fields
  | .createTask _ task => task.dump
  | .updateTask _ taskId changes => ("task_id".toList, .str taskId.text) :: changes.dump
  | .batchCreateTasks _ tasks => [("tasks".toList, .arr (tasks.map fun t ↦ .obj t.dump))]
  | .deleteTask _ taskId => [("task_id".toList, .str taskId.text)]

def payload : AgentApprovalPreviewAction → Fields
  | .createTask _ task => [("task".toList, .obj task.dump)]
  | .updateTask _ taskId changes =>
    [("task_id".toList, .str taskId.text), ("changes".toList, .obj changes.dump)]
  | .batchCreateTasks _ tasks => [("tasks".toList, .arr (tasks.map fun t ↦ .obj t.dump))]
  | .deleteTask _ taskId => [("task_id".toList, .str taskId.text)]

def dump (a : AgentApprovalPreviewAction) : Json :=
  .obj (("action_key".toList, .str a.actionKey.1) :: ("tool_name".toList, .str a.toolName.value) ::
    a.payload)

def payloadKeys : AgentWriteToolName → List Text
  | .createTask => ["task".toList]
  | .updateTask => ["task_id".toList, "changes".toList]
  | .batchCreateTasks => ["tasks".toList]
  | .deleteTask => ["task_id".toList]

def readPayload (c : Coercions) (key : Key) (fields : Fields) :
    AgentWriteToolName → Option AgentApprovalPreviewAction
  | .createTask =>
    (requiredField (TaskCreate.modelValidate c) "task".toList fields).map (.createTask key)
  | .updateTask => do
    let taskId ← requiredField c.uuid "task_id".toList fields
    let changes ← requiredField (TaskUpdate.modelValidate c) "changes".toList fields
    some (.updateTask key taskId changes)
  | .batchCreateTasks => do
    let tasks ← requiredField (readList (TaskCreate.modelValidate c)) "tasks".toList fields
    if 1 ≤ tasks.length ∧ tasks.length ≤ 10 then some (.batchCreateTasks key tasks) else none
  | .deleteTask => (requiredField c.uuid "task_id".toList fields).map (.deleteTask key)

/-- The union of the four contracts, told apart by `tool_name`. -/
def modelValidate (c : Coercions) : Json → Option AgentApprovalPreviewAction
  | .obj fields => do
    let tool ← requiredField readToolName "tool_name".toList fields
    let key ← requiredField readKey "action_key".toList fields
    if onlyKeys ("action_key".toList :: "tool_name".toList :: payloadKeys tool) fields then
      readPayload c key fields tool
    else none
  | _ => none

def Checked : AgentApprovalPreviewAction → Prop
  | .createTask _ task => task.check = some task
  | .updateTask _ _ changes => changes.check = some changes
  | .batchCreateTasks _ tasks =>
    (1 ≤ tasks.length ∧ tasks.length ≤ 10) ∧ ∀ t ∈ tasks, t.check = some t
  | .deleteTask _ _ => True

def call {σ : Type} (gateway : AgentToolGateway σ) (userId : UUID) :
    AgentApprovalPreviewAction → Effect σ AgentWriteToolResult
  | .createTask _ task => mapResult .task (gateway.createTask userId task.filled)
  | .updateTask _ taskId changes => mapResult .task (gateway.updateTask userId taskId changes)
  | .batchCreateTasks _ tasks => mapResult .mutation (gateway.batchCreateTasks userId tasks)
  | .deleteTask _ taskId => mapResult .mutation (gateway.deleteTask userId taskId)

end AgentApprovalPreviewAction

structure AgentApprovalProposalPreview where
  revision : ℕ
  proposalFingerprint : Digest
  planningResult : PlanningResult
  actions : List AgentApprovalPreviewAction

namespace AgentApprovalProposalPreview

def toPlanProposal (p : AgentApprovalProposalPreview) : Option AgentPlanProposal := do
  let actions ← p.actions.mapM fun a ↦ proposedAction a.actionKey a.toolName a.arguments
  planProposal p.planningResult actions

def dump (p : AgentApprovalProposalPreview) : Json :=
  .obj [("revision".toList, .int p.revision),
    ("proposal_fingerprint".toList, .str p.proposalFingerprint.text),
    ("planning_result".toList, p.planningResult.dump true),
    ("actions".toList, .arr (p.actions.map AgentApprovalPreviewAction.dump))]

def canonicalJson (p : AgentApprovalProposalPreview) : Text := dumps (canonical p.dump)

def utf8Length (s : Text) : ℕ := (s.map Char.utf8Size).sum

/-- The field bounds and `require_exact_bounded_proposal`. -/
def check (sha256 : Text → Digest) (p : AgentApprovalProposalPreview) :
    Option AgentApprovalProposalPreview :=
  p.toPlanProposal.bind fun proposal ↦
    if p.revision ≤ maxPlanRevisions ∧ p.actions.length ≤ maxPlanActions ∧
        fingerprintPlanProposal sha256 proposal = p.proposalFingerprint ∧
        utf8Length p.canonicalJson ≤ maxApprovalPreviewBytes - runIdEnvelopeBytes then
      some p
    else none

end AgentApprovalProposalPreview

structure AgentApprovalInterrupt where
  planSummary : BoundedText 1000
  actionNames : List AgentWriteToolName
  actionCount : ℕ
  revision : ℕ
  proposalFingerprint : Digest
  preview : AgentApprovalProposalPreview

def AgentApprovalInterrupt.check (i : AgentApprovalInterrupt) : Option AgentApprovalInterrupt :=
  if (i.actionNames.length ≤ maxPlanActions ∧ i.actionCount ≤ maxPlanActions ∧
        i.revision ≤ maxPlanRevisions) ∧
      i.actionCount = i.actionNames.length ∧
      i.revision = i.preview.revision ∧ i.proposalFingerprint = i.preview.proposalFingerprint ∧
      i.planSummary = i.preview.planningResult.plan.summary ∧
      i.actionNames = i.preview.actions.map (·.toolName) then
    some i
  else none

def AgentApprovalInterrupt.dump (i : AgentApprovalInterrupt) : Json :=
  .obj [("plan_summary".toList, .str i.planSummary.text),
    ("action_names".toList, .arr (i.actionNames.map fun n ↦ .str n.value)),
    ("action_count".toList, .int i.actionCount), ("revision".toList, .int i.revision),
    ("proposal_fingerprint".toList, .str i.proposalFingerprint.text),
    ("preview".toList, i.preview.dump)]

def readDigest (j : Json) : Option Digest :=
  (readText j).bind fun s ↦
    if h : s.length = 64 ∧ s.all Grounding.isHexDigit = true then some ⟨s, h⟩ else none

def readCount (c : Coercions) (j : Json) : Option ℕ :=
  (c.int j).bind fun n ↦ if 0 ≤ n then some n.toNat else none

def AgentApprovalProposalPreview.modelValidate (sha256 : Text → Digest) (c : Coercions) :
    Json → Option AgentApprovalProposalPreview :=
  readModel ["revision".toList, "proposal_fingerprint".toList, "planning_result".toList,
    "actions".toList] fun fields ↦ do
    let revision ← requiredField (readCount c) "revision".toList fields
    let fingerprint ← requiredField readDigest "proposal_fingerprint".toList fields
    let planningResult ← requiredField (PlanningResult.modelValidate c) "planning_result".toList fields
    let actions ← optionalField (readList (AgentApprovalPreviewAction.modelValidate c))
      "actions".toList fields
    AgentApprovalProposalPreview.check sha256 ⟨revision, fingerprint, planningResult,
      actions.getD []⟩

def AgentApprovalInterrupt.modelValidate (sha256 : Text → Digest) (c : Coercions) :
    Json → Option AgentApprovalInterrupt :=
  readModel ["plan_summary".toList, "action_names".toList, "action_count".toList,
    "revision".toList, "proposal_fingerprint".toList, "preview".toList] fun fields ↦ do
    let planSummary ← requiredField (readBounded 1000) "plan_summary".toList fields
    let actionNames ← requiredField (readList readToolName) "action_names".toList fields
    let actionCount ← requiredField (readCount c) "action_count".toList fields
    let revision ← requiredField (readCount c) "revision".toList fields
    let fingerprint ← requiredField readDigest "proposal_fingerprint".toList fields
    let preview ← requiredField (AgentApprovalProposalPreview.modelValidate sha256 c)
      "preview".toList fields
    AgentApprovalInterrupt.check ⟨planSummary, actionNames, actionCount, revision, fingerprint,
      preview⟩

structure AgentApprovalResponse where
  decision : AgentApprovalDecision
  feedback : Option (BoundedText 1000)
  contract : decision = .requestChanges ↔ feedback.isSome = true
  deriving DecidableEq

/-- A partial update of the graph values. -/
abbrev StateUpdate := AgentGraphState → AgentGraphState

def currentValidatedFingerprint (sha256 : Text → Digest) (state : AgentGraphState) :
    Option Digest :=
  match state.proposal, state.validation with
  | some proposal, some validation =>
    let fingerprint := fingerprintPlanProposal sha256 proposal
    if validation.status = .valid ∧ validation.revision = state.revisionCount ∧
        validation.proposalFingerprint = some fingerprint then
      some fingerprint
    else none
  | _, _ => none

def previewAction (c : Coercions) (context : AgentRuntimeContext) (action : AgentProposedAction) :
    Option AgentApprovalPreviewAction :=
  match validateToolArguments c action.toolName action.arguments context with
  | .ok (.createTask _) =>
    (TaskCreate.modelValidate c (.obj action.arguments)).map (.createTask action.actionKey)
  | .ok (.updateTask taskId changes) => changes.check.map (.updateTask action.actionKey taskId)
  | .ok (.batchCreateTasks tasks) => some (.batchCreateTasks action.actionKey tasks)
  | .ok (.deleteTask taskId) => some (.deleteTask action.actionKey taskId)
  | .error _ => none

/-- The preview and the request of a proposal, once both have validated. -/
def requestOf (sha256 : Text → Digest) (c : Coercions) (context : AgentRuntimeContext)
    (proposal : AgentPlanProposal) (revision : ℕ) (fingerprint : Digest) :
    Option AgentApprovalInterrupt := do
  let actions ← proposal.actions.mapM (previewAction c context)
  let preview ← AgentApprovalProposalPreview.check sha256
    ⟨revision, fingerprint, proposal.planningResult, actions⟩
  AgentApprovalInterrupt.check ⟨proposal.planningResult.plan.summary,
    proposal.actions.map (·.toolName), proposal.actions.length, revision, fingerprint, preview⟩

def buildApprovalRequest (sha256 : Text → Digest) (c : Coercions) (context : AgentRuntimeContext)
    (state : AgentGraphState) : Except String (AgentApprovalInterrupt × Digest) :=
  match state.proposal, currentValidatedFingerprint sha256 state with
  | some proposal, some fingerprint =>
    match requestOf sha256 c context proposal state.revisionCount fingerprint with
    | some request => .ok (request, fingerprint)
    | none => .error agentApprovalPreviewInvalidMessage
  | _, _ => .error agentApprovalRequiredMessage

def applyApprovalResponse (state : AgentGraphState) (response : AgentApprovalResponse)
    (fingerprint : Digest) : StateUpdate :=
  match response.decision with
  | .requestChanges =>
    if state.revisionCount ≥ maxPlanRevisions then fun values ↦
      { values with
        approvalDecision := some .rejected
        approvalFeedback := none
        approvalRevision := some state.revisionCount
        approvalProposalFingerprint := some fingerprint
        terminalStatus := some .rejected
        summary := some planRevisionLimitMessage }
    else fun values ↦
      { values with
        approvalDecision := some .requestChanges
        approvalFeedback := response.feedback.map (·.text)
        approvalRevision := none
        approvalProposalFingerprint := none
        revisionCount := state.revisionCount + 1
        proposal := none
        validation := none }
  | .rejected => fun values ↦
    { values with
      approvalDecision := some .rejected
      approvalFeedback := none
      approvalRevision := some state.revisionCount
      approvalProposalFingerprint := some fingerprint
      terminalStatus := some .rejected }
  | .approved => fun values ↦
    { values with
      approvalDecision := some .approved
      approvalFeedback := none
      approvalRevision := some state.revisionCount
      approvalProposalFingerprint := some fingerprint }

/-- Equality of proposals, where the order of the keys of an object is none of
its value. -/
def SameProposal (p q : AgentPlanProposal) : Prop :=
  p.planningResult = q.planningResult ∧
    List.Forall₂ (fun a b ↦ a.actionKey = b.actionKey ∧ a.toolName = b.toolName ∧
      canonical (.obj a.arguments) = canonical (.obj b.arguments)) p.actions q.actions

theorem canonical_action (a : AgentProposedAction) :
    canonical a.dump = .obj [("action_key".toList, .str a.actionKey.1),
      ("arguments".toList, canonical (.obj a.arguments)),
      ("tool_name".toList, .str a.toolName.value)] := rfl

theorem canonical_proposal (p : AgentPlanProposal) :
    canonical p.dump = .obj [("actions".toList, .arr (p.actions.map fun a ↦ canonical a.dump)),
      ("planning_result".toList, canonical (p.planningResult.dump false))] := by
  have h : canonicalItems (p.actions.map AgentProposedAction.dump) =
      p.actions.map fun a ↦ canonical a.dump := by
    rw [canonicalItems_eq_map, List.map_map]
    rfl
  rw [← h]
  rfl

theorem value_injective {m n : AgentWriteToolName} (h : m.value = n.value) : m = n := by
  cases m <;> cases n <;> first | rfl | exact absurd h (by decide)

theorem same_of_canonicalText {p q : AgentPlanProposal} (hr : p.planningResult = q.planningResult)
    (h : p.canonicalText = q.canonicalText) : SameProposal p q := by
  have hd := dumps_injective h
  rw [canonical_proposal, canonical_proposal] at hd
  simp only [Json.obj.injEq, List.cons.injEq, Prod.mk.injEq, true_and, Json.arr.injEq] at hd
  have hf : List.Forall₂ (fun a b ↦ canonical a.dump = canonical b.dump) p.actions q.actions := by
    have he := hd.1
    rwa [← List.forall₂_eq_eq_eq, List.forall₂_map_left_iff, List.forall₂_map_right_iff] at he
  refine ⟨hr, hf.imp fun a b hab ↦ ?_⟩
  rw [canonical_action, canonical_action] at hab
  simp only [Json.obj.injEq, List.cons.injEq, Prod.mk.injEq, true_and, Json.str.injEq,
    and_true] at hab
  exact ⟨Subtype.ext hab.1, value_injective hab.2.2, hab.2.1⟩

theorem toPlanProposal_planningResult {p : AgentApprovalProposalPreview} {q : AgentPlanProposal}
    (h : p.toPlanProposal = some q) : q.planningResult = p.planningResult := by
  simp only [AgentApprovalProposalPreview.toPlanProposal, Option.bind_eq_bind,
    Option.bind_eq_some_iff] at h
  obtain ⟨actions, -, h⟩ := h
  unfold planProposal at h
  split at h
  · cases h; rfl
  · cases h

theorem check_preview {sha256 : Text → Digest} {p r : AgentApprovalProposalPreview}
    (h : p.check sha256 = some r) : r = p ∧ ∃ q, p.toPlanProposal = some q ∧
      fingerprintPlanProposal sha256 q = p.proposalFingerprint := by
  simp only [AgentApprovalProposalPreview.check, Option.bind_eq_some_iff,
    Option.ite_none_right_eq_some, Option.some.injEq] at h
  obtain ⟨q, hq, ⟨-, -, hf, -⟩, rfl⟩ := h
  exact ⟨rfl, q, hq, hf⟩

theorem check_interrupt {i r : AgentApprovalInterrupt} (h : i.check = some r) : r = i := by
  simp only [AgentApprovalInterrupt.check, Option.ite_none_right_eq_some, Option.some.injEq] at h
  exact h.2.symm

theorem currentValidatedFingerprint_some {sha256 : Text → Digest} {state : AgentGraphState}
    {fingerprint : Digest} (h : currentValidatedFingerprint sha256 state = some fingerprint) :
    ∃ p v, state.proposal = some p ∧ state.validation = some v ∧ v.status = .valid ∧
      v.revision = state.revisionCount ∧ v.proposalFingerprint = some fingerprint ∧
      fingerprintPlanProposal sha256 p = fingerprint := by
  unfold currentValidatedFingerprint at h
  split at h
  · next p v hp hv =>
    simp only [Option.ite_none_right_eq_some, Option.some.injEq] at h
    obtain ⟨⟨hs, hr, hf⟩, rfl⟩ := h
    exact ⟨p, v, hp, hv, hs, hr, hf, rfl⟩
  · cases h

theorem buildApprovalRequest_spec {sha256 : Text → Digest} {c : Coercions}
    {context : AgentRuntimeContext} {state : AgentGraphState} {request : AgentApprovalInterrupt}
    {fingerprint : Digest}
    (h : buildApprovalRequest sha256 c context state = .ok (request, fingerprint)) :
    ∃ p q, state.proposal = some p ∧ request.preview.toPlanProposal = some q ∧
      fingerprintPlanProposal sha256 p = fingerprint ∧
      fingerprintPlanProposal sha256 q = fingerprint ∧
      q.planningResult = p.planningResult ∧
      List.Forall₂ (fun a shown ↦ previewAction c context a = some shown) p.actions
        request.preview.actions := by
  unfold buildApprovalRequest at h
  split at h
  · next proposal fingerprint' hp hf =>
    split at h
    · next request' hr =>
      cases h
      simp only [requestOf, Option.bind_eq_bind, Option.bind_eq_some_iff] at hr
      obtain ⟨actions, ha, preview, hpreview, hi⟩ := hr
      obtain rfl := check_interrupt hi
      obtain ⟨rfl, q, hq, hqf⟩ := check_preview hpreview
      obtain ⟨p, v, hp', -, -, -, -, hpf⟩ := currentValidatedFingerprint_some hf
      obtain rfl := Option.some.inj (hp.symm.trans hp')
      exact ⟨proposal, q, hp, hq, hpf, hqf, toPlanProposal_planningResult hq, mapM_forall₂ ha⟩
    · cases h
  · cases h

theorem previewAction_spec {c : Coercions} {context : AgentRuntimeContext} {a : AgentProposedAction}
    {shown : AgentApprovalPreviewAction} (h : previewAction c context a = some shown) :
    shown.Checked ∧ shown.actionKey = a.actionKey ∧ shown.toolName = a.toolName ∧
      ∀ (σ : Type) (gateway : AgentToolGateway σ),
        executeTool c gateway a.toolName a.arguments context = shown.call gateway context.userId := by
  unfold previewAction at h
  cases hv : validateToolArguments c a.toolName a.arguments context with
  | error e => rw [hv] at h; cases h
  | ok validated =>
    have hval := readArguments_validated (validateToolArguments_ok hv).2
    rw [hv] at h
    simp only [executeTool, hv]
    cases validated with
    | createTask t =>
      obtain ⟨hname, hcheck, hread⟩ := hval
      simp only [hread, Option.map_some, Option.some.injEq] at h
      subst h
      exact ⟨hcheck, rfl, hname.symm, fun σ gateway ↦ callGateway_createTask gateway _ hcheck⟩
    | updateTask taskId u =>
      obtain ⟨hname, hcheck⟩ := hval
      simp only [hcheck, Option.map_some, Option.some.injEq] at h
      subst h
      exact ⟨hcheck, rfl, hname.symm, fun σ gateway ↦ callGateway_updateTask gateway _ _ hcheck⟩
    | batchCreateTasks ts =>
      obtain ⟨hname, hcheck⟩ := hval
      cases h
      exact ⟨hcheck, rfl, hname.symm, fun _ _ ↦ rfl⟩
    | deleteTask taskId =>
      cases h
      exact ⟨trivial, rfl, Eq.symm hval, fun _ _ ↦ rfl⟩

theorem readToolName_value (n : AgentWriteToolName) : readToolName (.str n.value) = some n := by
  cases n <;> decide

theorem readDigest_text (d : Digest) : readDigest (.str d.text) = some d := by
  rw [readDigest, readText, Option.bind_some, dif_pos d.hex]

theorem readCount_int (c : Coercions) (n : ℕ) : readCount c (.int n) = some n := by
  rw [readCount, c.int_int, Option.bind_some, if_pos (Int.natCast_nonneg n), Int.toNat_natCast]

theorem readTasks_dump (c : Coercions) {tasks : List TaskCreate}
    (h : ∀ t ∈ tasks, t.check = some t) :
    readList (TaskCreate.modelValidate c) (.arr (tasks.map fun t ↦ .obj t.dump)) = some tasks :=
  readList_write fun t ht ↦ TaskCreate.modelValidate_dump c (h t ht)

theorem AgentApprovalPreviewAction.modelValidate_dump (c : Coercions)
    {a : AgentApprovalPreviewAction} (h : a.Checked) :
    AgentApprovalPreviewAction.modelValidate c a.dump = some a := by
  have hkeys : onlyKeys ("action_key".toList :: "tool_name".toList :: payloadKeys a.toolName)
      (("action_key".toList, .str a.actionKey.1) :: ("tool_name".toList, .str a.toolName.value) ::
        a.payload) = true := by
    cases a <;> simp only [onlyKeys, List.all_cons, List.all_nil, payload, toolName] <;> decide
  have htool (fields : Fields) : requiredField readToolName "tool_name".toList
      (("action_key".toList, .str a.actionKey.1) ::
        ("tool_name".toList, .str a.toolName.value) :: fields) = some a.toolName :=
    requiredField_eq (readToolName_value _) (by simp [lookup])
  have hkey (fields : Fields) : requiredField readKey "action_key".toList
      (("action_key".toList, .str a.actionKey.1) :: fields) = some a.actionKey :=
    requiredField_eq (readKey_key _) (by simp [lookup])
  simp only [AgentApprovalPreviewAction.modelValidate, dump, htool, hkey, Option.bind_eq_bind,
    Option.bind_some, hkeys, ↓reduceIte]
  cases a with
  | createTask key task =>
    rw [toolName, readPayload, payload, requiredField_eq (TaskCreate.modelValidate_dump c h)
      (by simp [lookup])]
    rfl
  | updateTask key taskId changes =>
    rw [toolName, readPayload, payload, requiredField_eq (c.uuid_text taskId) (by simp [lookup]),
      requiredField_eq (TaskUpdate.modelValidate_dump c h) (by simp [lookup])]
    rfl
  | batchCreateTasks key tasks =>
    rw [toolName, readPayload, payload, requiredField_eq (readTasks_dump c h.2) (by simp [lookup])]
    exact if_pos h.1
  | deleteTask key taskId =>
    rw [toolName, readPayload, payload, requiredField_eq (c.uuid_text taskId) (by simp [lookup])]
    rfl

theorem AgentApprovalProposalPreview.modelValidate_dump {sha256 : Text → Digest} (c : Coercions)
    {p : AgentApprovalProposalPreview} (hc : p.check sha256 = some p)
    (ha : ∀ a ∈ p.actions, a.Checked) :
    AgentApprovalProposalPreview.modelValidate sha256 c p.dump = some p := by
  have hread (a : List AgentApprovalPreviewAction) (h : ∀ x ∈ a, x.Checked) :
      readList (AgentApprovalPreviewAction.modelValidate c)
        (.arr (a.map AgentApprovalPreviewAction.dump)) = some a :=
    readList_write fun x hx ↦ AgentApprovalPreviewAction.modelValidate_dump c (h x hx)
  refine readModel_obj ?_ ?_
  · simp only [onlyKeys, List.all_cons, List.all_nil]
    decide
  · have hactions (fields : Fields) (hl : lookup "actions".toList fields =
        some (.arr (p.actions.map AgentApprovalPreviewAction.dump))) :
        optionalField (readList (AgentApprovalPreviewAction.modelValidate c)) "actions".toList
          fields = some (some p.actions) := by
      rw [optionalField, hl]
      simp only [hread p.actions ha, Option.map_some]
    rw [requiredField_eq (readCount_int c p.revision) (by simp [lookup]),
      requiredField_eq (readDigest_text p.proposalFingerprint) (by simp [lookup]),
      requiredField_eq (PlanningResult.modelValidate_dump c p.planningResult) (by simp [lookup]),
      hactions _ (by simp [lookup])]
    exact hc

theorem AgentApprovalInterrupt.modelValidate_dump {sha256 : Text → Digest} (c : Coercions)
    {i : AgentApprovalInterrupt} (hi : i.check = some i) (hc : i.preview.check sha256 = some i.preview)
    (ha : ∀ a ∈ i.preview.actions, a.Checked) :
    AgentApprovalInterrupt.modelValidate sha256 c i.dump = some i := by
  have hnames : readList readToolName (.arr (i.actionNames.map fun n ↦ .str n.value)) =
      some i.actionNames := readList_write fun n _ ↦ readToolName_value n
  refine readModel_obj ?_ ?_
  · simp only [onlyKeys, List.all_cons, List.all_nil]
    decide
  · rw [requiredField_eq (readBounded_text i.planSummary) (by simp [lookup]),
      requiredField_eq hnames (by simp [lookup]),
      requiredField_eq (readCount_int c i.actionCount) (by simp [lookup]),
      requiredField_eq (readCount_int c i.revision) (by simp [lookup]),
      requiredField_eq (readDigest_text i.proposalFingerprint) (by simp [lookup]),
      requiredField_eq (AgentApprovalProposalPreview.modelValidate_dump c hc ha) (by simp [lookup])]
    exact hi

theorem buildApprovalRequest_checked {sha256 : Text → Digest} {c : Coercions}
    {context : AgentRuntimeContext} {state : AgentGraphState} {request : AgentApprovalInterrupt}
    {fingerprint : Digest}
    (h : buildApprovalRequest sha256 c context state = .ok (request, fingerprint)) :
    request.check = some request ∧ request.preview.check sha256 = some request.preview ∧
      request.revision = state.revisionCount ∧ request.proposalFingerprint = fingerprint := by
  unfold buildApprovalRequest at h
  split at h
  · split at h
    · next request' hr =>
      cases h
      simp only [requestOf, Option.bind_eq_bind, Option.bind_eq_some_iff] at hr
      obtain ⟨actions, -, preview, hpreview, hi⟩ := hr
      obtain rfl := check_interrupt hi
      obtain ⟨rfl, -⟩ := check_preview hpreview
      exact ⟨hi, hpreview, rfl, rfl⟩
    · cases h
  · cases h

theorem request_round_trip {sha256 : Text → Digest} {c : Coercions} {context : AgentRuntimeContext}
    {state : AgentGraphState} {request : AgentApprovalInterrupt} {fingerprint : Digest}
    (h : buildApprovalRequest sha256 c context state = .ok (request, fingerprint)) :
    AgentApprovalInterrupt.modelValidate sha256 c request.dump = some request := by
  obtain ⟨hi, hc, -⟩ := buildApprovalRequest_checked h
  obtain ⟨p, q, -, -, -, -, -, hactions⟩ := buildApprovalRequest_spec h
  refine AgentApprovalInterrupt.modelValidate_dump c hi hc fun shown hs ↦ ?_
  obtain ⟨a, -, ha⟩ := forall₂_right hactions hs
  exact (previewAction_spec ha).1

/-- What is previewed is what is executed. -/
theorem preview_executed {sha256 : Text → Digest} {c : Coercions} {context : AgentRuntimeContext}
    {state : AgentGraphState} {request : AgentApprovalInterrupt} {fingerprint : Digest}
    {hashed : Set Text} (hfree : Set.InjOn sha256 hashed)
    (hstate : ∀ p, state.proposal = some p → p.canonicalText ∈ hashed)
    (hpreview : ∀ q, request.preview.toPlanProposal = some q → q.canonicalText ∈ hashed)
    (h : buildApprovalRequest sha256 c context state = .ok (request, fingerprint)) :
    ∃ p q, state.proposal = some p ∧ request.preview.toPlanProposal = some q ∧ SameProposal q p ∧
      List.Forall₂ (fun a shown ↦ shown.actionKey = a.actionKey ∧ shown.toolName = a.toolName ∧
        ∀ (σ : Type) (gateway : AgentToolGateway σ),
          executeTool c gateway a.toolName a.arguments context =
            shown.call gateway context.userId) p.actions request.preview.actions := by
  obtain ⟨p, q, hp, hq, hpf, hqf, hresult, hactions⟩ := buildApprovalRequest_spec h
  have htext : q.canonicalText = p.canonicalText :=
    hfree (hpreview q hq) (hstate p hp) (hqf.trans hpf.symm)
  exact ⟨p, q, hp, hq, same_of_canonicalText hresult htext,
    hactions.imp fun a shown hs ↦ (previewAction_spec hs).2⟩

def sampleText (m : ℕ) (s : String)
    (h : strip s.toList = s.toList ∧ s.toList ≠ [] ∧ s.toList.length ≤ m) : BoundedText m :=
  ⟨s.toList, h.1, h.2⟩

def sampleGoal : PlanningGoal := ⟨sampleText 2000 "Learn" (by decide), [], by decide⟩

def sampleStep : StudyPlanStep where
  stepKey := ⟨"read".toList, by decide⟩
  position := 1
  title := sampleText 200 "Read" (by decide)
  description := sampleText 1000 "Read it." (by decide)
  successCriteria := sampleText 500 "Done" (by decide)
  citationIds := none
  ordinal := by decide

def sampleResult : PlanningResult where
  promptVersion := studyPlanPromptVersion
  status := .completed
  plan := ⟨sampleText 1000 "Plan" (by decide), [sampleStep], by decide, by decide, by decide⟩
  current := rfl

def sampleTaskId : UUID := sampleId 1

def sampleUserId : UUID := sampleId 7

def sampleCreate : AgentProposedAction where
  actionKey := ⟨"add".toList, by decide⟩
  toolName := .createTask
  arguments := [("project_id".toList, .str (UUID.text (sampleId 2))),
    ("title".toList, .str "Read".toList)]
  size := by decide
  allowed := by simp only [List.forall_mem_cons]; decide

/-- An explicit null: the other fields are left alone. -/
def sampleUpdate : AgentProposedAction where
  actionKey := ⟨"clear".toList, by decide⟩
  toolName := .updateTask
  arguments := [("task_id".toList, .str sampleTaskId.text), ("description".toList, .null)]
  size := by decide
  allowed := by simp only [List.forall_mem_cons]; decide

def sampleProposal : AgentPlanProposal :=
  ⟨sampleResult, [sampleCreate, sampleUpdate], by decide, by decide⟩

def sampleDigest : Digest where
  text := "19bed38fb8ee9b3e0e6ab93db7bd98dbfde19b8aece68c3c2a4f910031ccece7".toList
  hex := by decide

def sampleConsent : AgentApprovalResponse := ⟨.approved, none, by decide⟩

def sampleChanges : AgentApprovalResponse :=
  ⟨.requestChanges, boundedText 1000 "Shorter".toList, by decide⟩

def sampleContext : AgentRuntimeContext := ⟨sampleUserId, true⟩

def sampleState : AgentGraphState :=
  { graphInput sampleGoal with
    proposal := some sampleProposal
    validation := some ⟨.valid, 0, some sampleDigest, none⟩ }

theorem sampleRequest_built : ∃ request fingerprint q,
    buildApprovalRequest (fun _ ↦ sampleDigest) isoCoercions sampleContext sampleState =
      .ok (request, fingerprint) ∧
    request.preview.toPlanProposal = some q ∧ q.canonicalText = sampleProposal.canonicalText := by
  have hrun : (buildApprovalRequest (fun _ ↦ sampleDigest) isoCoercions sampleContext
      sampleState).toOption.bind (fun x ↦ x.1.preview.toPlanProposal.map (·.canonicalText)) =
      some sampleProposal.canonicalText := by
    decide +kernel
  obtain ⟨⟨request, fingerprint⟩, hx, hq⟩ := Option.bind_eq_some_iff.mp hrun
  obtain ⟨q, hq, htext⟩ := Option.map_eq_some_iff.mp hq
  refine ⟨request, fingerprint, q, ?_, hq, htext⟩
  cases h : buildApprovalRequest (fun _ ↦ sampleDigest) isoCoercions sampleContext sampleState with
  | error e => rw [h] at hx; cases hx
  | ok x => rw [h] at hx; cases hx; rfl

theorem preview_executed_sample :
    ∃ request fingerprint, buildApprovalRequest (fun _ ↦ sampleDigest) isoCoercions sampleContext
        sampleState = .ok (request, fingerprint) ∧
      ∃ p q, sampleState.proposal = some p ∧ request.preview.toPlanProposal = some q ∧
        SameProposal q p ∧
        List.Forall₂ (fun a shown ↦ shown.actionKey = a.actionKey ∧ shown.toolName = a.toolName ∧
          ∀ (σ : Type) (gateway : AgentToolGateway σ),
            executeTool isoCoercions gateway a.toolName a.arguments sampleContext =
              shown.call gateway sampleContext.userId) p.actions request.preview.actions := by
  obtain ⟨request, fingerprint, q, hbuild, hq, htext⟩ := sampleRequest_built
  refine ⟨request, fingerprint, hbuild, preview_executed
    (Set.injOn_singleton _ sampleProposal.canonicalText) ?_ ?_ hbuild⟩
  · rintro p ⟨⟩
    exact rfl
  · intro q' hq'
    obtain rfl := Option.some.inj (hq.symm.trans hq')
    exact htext

end LearningTasks.Agent.Approval
