import LearningTasks.Agent.Approval

namespace LearningTasks.Services.ApprovalPreview

open Library.Strings Library.Serialization Library.Records Schemas.Scalars Schemas.Task
  Agent.Schemas Agent.State Agent.Tools Agent.Approval Agent.Approval.AgentApprovalProposalPreview

structure AgentApprovalPreview extends AgentApprovalProposalPreview where
  runId : UUID

def AgentApprovalPreview.dump (p : AgentApprovalPreview) : Json :=
  .obj [("revision".toList, .int p.revision),
    ("proposal_fingerprint".toList, .str p.proposalFingerprint.text),
    ("planning_result".toList, p.planningResult.dump true),
    ("actions".toList, .arr (p.actions.map AgentApprovalPreviewAction.dump)),
    ("run_id".toList, .str p.runId.text)]

def AgentApprovalPreview.canonicalJson (p : AgentApprovalPreview) : Text :=
  dumps (canonical p.dump)

/-- `require_exact_bounded_proposal`, for a model with a `run_id`: nothing is kept
back from the ceiling. -/
def AgentApprovalPreview.check (sha256 : Text → Digest) (p : AgentApprovalPreview) :
    Option AgentApprovalPreview :=
  p.toPlanProposal.bind fun proposal ↦
    if p.revision ≤ maxPlanRevisions ∧ p.actions.length ≤ maxPlanActions ∧
        fingerprintPlanProposal sha256 proposal = p.proposalFingerprint ∧
        utf8Length p.canonicalJson ≤ maxApprovalPreviewBytes then
      some p
    else none

/-- The models of an action, validated on the values of a Python dump. -/
def validateAction : AgentApprovalPreviewAction → Option AgentApprovalPreviewAction
  | .createTask key task => task.check.map (.createTask key)
  | .updateTask key taskId changes => changes.check.map (.updateTask key taskId)
  | .batchCreateTasks key tasks => do
    let checked ← tasks.mapM TaskCreate.check
    if 1 ≤ checked.length ∧ checked.length ≤ 10 then some (.batchCreateTasks key checked) else none
  | .deleteTask key taskId => some (.deleteTask key taskId)

/-- What `get_agent_approval_preview` builds from the preview of a checkpoint. -/
def publishPreview (sha256 : Text → Digest) (runId : UUID) (p : AgentApprovalProposalPreview) :
    Option AgentApprovalPreview := do
  let actions ← p.actions.mapM validateAction
  AgentApprovalPreview.check sha256
    ⟨⟨p.revision, p.proposalFingerprint, p.planningResult, actions⟩, runId⟩

@[simp] theorem utf8Length_nil : utf8Length [] = 0 := rfl

@[simp] theorem utf8Length_cons (c : Char) (s : Text) :
    utf8Length (c :: s) = c.utf8Size + utf8Length s := by
  simp [utf8Length]

@[simp] theorem utf8Length_append (s t : Text) :
    utf8Length (s ++ t) = utf8Length s + utf8Length t := by
  simp [utf8Length]

theorem dumpMoreFields_append (fields more : Fields) :
    dumpMoreFields (fields ++ more) = dumpMoreFields fields ++ dumpMoreFields more := by
  induction fields with
  | nil => rfl
  | cons f fields ih =>
    obtain ⟨k, x⟩ := f
    simp only [List.cons_append, dumpMoreFields, ih, List.append_assoc]

theorem dumps_append_bytes {fields : Fields} (h : fields ≠ []) (more : Fields) :
    utf8Length (dumps (.obj (fields ++ more))) =
      utf8Length (dumps (.obj fields)) + utf8Length (dumpMoreFields more) := by
  cases fields with
  | nil => exact absurd rfl h
  | cons f fields =>
    obtain ⟨k, x⟩ := f
    simp only [List.cons_append, dumps, dumpFields, dumpMoreFields_append, utf8Length_cons,
      utf8Length_append, utf8Length_nil]
    omega

theorem plain_digit : ∀ k < 16, escapeChar (Nat.digitChar k) = [Nat.digitChar k] ∧
    (Nat.digitChar k).utf8Size = 1 := by
  decide

theorem plain_of_mem_text {u : UUID} {c : Char} (h : c ∈ u.text) :
    escapeChar c = [c] ∧ c.utf8Size = 1 := by
  rcases UUID.mem_text h with rfl | ⟨k, hk, rfl⟩
  · decide
  · exact plain_digit k hk

theorem dumpString_bytes {s : Text} (h : ∀ c ∈ s, escapeChar c = [c] ∧ c.utf8Size = 1) :
    utf8Length (dumpString s) = s.length + 2 := by
  have hescaped : utf8Length (s.flatMap escapeChar) = s.length := by
    induction s with
    | nil => rfl
    | cons c s ih =>
      obtain ⟨hc, hsize⟩ := h c List.mem_cons_self
      rw [List.flatMap_cons, hc, utf8Length_append, ih fun d hd ↦ h d (List.mem_cons_of_mem _ hd),
        utf8Length_cons, hsize, utf8Length_nil, List.length_cons]
      omega
  have hquote : ('"' : Char).utf8Size = 1 := by decide
  simp only [dumpString, utf8Length_cons, utf8Length_append, hescaped, utf8Length_nil, hquote]
  omega

theorem runId_bytes (u : UUID) :
    utf8Length (dumpMoreFields [("run_id".toList, .str u.text)]) = runIdEnvelopeBytes := by
  have htext : utf8Length (dumpString u.text) = 38 := by
    rw [dumpString_bytes fun c hc ↦ plain_of_mem_text hc, u.length_text]
  have hkey : utf8Length (dumpString "run_id".toList) = 8 := by decide
  have hcomma : (',' : Char).utf8Size = 1 := by decide
  have hcolon : (':' : Char).utf8Size = 1 := by decide
  simp only [dumpMoreFields, dumps, utf8Length_cons, utf8Length_append, utf8Length_nil, htext, hkey,
    hcomma, hcolon]
  decide

theorem canonicalJson_bytes (p : AgentApprovalProposalPreview) (runId : UUID) :
    utf8Length (AgentApprovalPreview.canonicalJson ⟨p, runId⟩) =
      utf8Length p.canonicalJson + runIdEnvelopeBytes := by
  rw [← runId_bytes runId, AgentApprovalProposalPreview.canonicalJson]
  have hsorted : canonical (AgentApprovalProposalPreview.dump p) = .obj [
      ("actions".toList, canonical (.arr (p.actions.map AgentApprovalPreviewAction.dump))),
      ("planning_result".toList, canonical (p.planningResult.dump true)),
      ("proposal_fingerprint".toList, .str p.proposalFingerprint.text),
      ("revision".toList, .int p.revision)] := rfl
  rw [hsorted, ← dumps_append_bytes (List.cons_ne_nil _ _)]
  rfl

theorem mapM_self {α : Type} {f : α → Option α} {l : List α} (h : ∀ a ∈ l, f a = some a) :
    l.mapM f = some l := by
  induction l with
  | nil => rfl
  | cons a l ih =>
    rw [List.mapM_cons, h a List.mem_cons_self, ih fun b hb ↦ h b (List.mem_cons_of_mem _ hb)]
    rfl

theorem validateAction_checked {a : AgentApprovalPreviewAction} (h : a.Checked) :
    validateAction a = some a := by
  cases a with
  | createTask key task =>
    have hc : task.check = some task := h
    rw [validateAction, hc, Option.map_some]
  | updateTask key taskId changes =>
    have hc : changes.check = some changes := h
    rw [validateAction, hc, Option.map_some]
  | batchCreateTasks key tasks =>
    obtain ⟨hsize, htasks⟩ := h
    simp only [validateAction, mapM_self htasks, Option.bind_eq_bind, Option.bind_some]
    exact if_pos hsize
  | deleteTask key taskId => rfl

theorem publishPreview_eq {sha256 : Text → Digest} {p : AgentApprovalProposalPreview}
    (hcheck : p.check sha256 = some p) (hactions : ∀ a ∈ p.actions, a.Checked) (runId : UUID) :
    ∃ proposal, p.toPlanProposal = some proposal ∧
      fingerprintPlanProposal sha256 proposal = p.proposalFingerprint ∧
      utf8Length (AgentApprovalPreview.canonicalJson ⟨p, runId⟩) ≤ maxApprovalPreviewBytes ∧
      publishPreview sha256 runId p = some ⟨p, runId⟩ := by
  simp only [AgentApprovalProposalPreview.check, Option.bind_eq_some_iff,
    Option.ite_none_right_eq_some, and_true] at hcheck
  obtain ⟨proposal, hproposal, hrevision, hlength, hfingerprint, hbytes⟩ := hcheck
  have hfits : utf8Length (AgentApprovalPreview.canonicalJson ⟨p, runId⟩) ≤
      maxApprovalPreviewBytes := by
    rw [canonicalJson_bytes]
    have hreserve : runIdEnvelopeBytes ≤ maxApprovalPreviewBytes := by decide
    omega
  refine ⟨proposal, hproposal, hfingerprint, hfits, ?_⟩
  have hvalid : p.actions.mapM validateAction = some p.actions :=
    mapM_self fun a ha ↦ validateAction_checked (hactions a ha)
  rw [publishPreview, hvalid]
  simp only [Option.bind_eq_bind, Option.bind_some, AgentApprovalPreview.check, hproposal]
  exact if_pos ⟨hrevision, hlength, hfingerprint, hfits⟩

/-- An interrupt is read back as it was built, and published for any run. -/
theorem interrupt_round_trip (sha256 : Text → Digest) (c : Coercions) (context : AgentRuntimeContext)
    (state : AgentGraphState) (request : AgentApprovalInterrupt) (fingerprint : Digest)
    (h : buildApprovalRequest sha256 c context state = .ok (request, fingerprint)) :
    ∃ restored, AgentApprovalInterrupt.modelValidate sha256 c request.dump = some restored ∧
      restored = request ∧ restored.revision = state.revisionCount ∧
      restored.proposalFingerprint = fingerprint ∧
      (∃ p, state.proposal = some p ∧ restored.preview.planningResult = p.planningResult ∧
        List.Forall₂ (fun a shown ↦ AgentApprovalPreviewAction.actionKey shown = a.actionKey ∧
          AgentApprovalPreviewAction.toolName shown = a.toolName) p.actions
          restored.preview.actions) ∧
      ∀ runId, ∃ published proposal,
        publishPreview sha256 runId restored.preview = some published ∧
        published = ⟨request.preview, runId⟩ ∧ published.toPlanProposal = some proposal ∧
        fingerprintPlanProposal sha256 proposal = published.proposalFingerprint ∧
        utf8Length published.canonicalJson ≤ maxApprovalPreviewBytes := by
  obtain ⟨-, hcheck, hrevision, hfingerprint⟩ := buildApprovalRequest_checked h
  obtain ⟨p, q, hp, hq, -, -, hresult, hactions⟩ := buildApprovalRequest_spec h
  have hplanning : request.preview.planningResult = p.planningResult := by
    rw [← toPlanProposal_planningResult hq]
    exact hresult
  refine ⟨request, request_round_trip h, rfl, hrevision, hfingerprint, ⟨p, hp, hplanning, ?_⟩, ?_⟩
  · refine hactions.imp fun a shown hs ↦ ?_
    obtain ⟨-, hkey, htool, -⟩ := previewAction_spec hs
    exact ⟨hkey, htool⟩
  · intro runId
    have hchecked : ∀ shown ∈ request.preview.actions, shown.Checked := by
      intro shown hs
      obtain ⟨a, -, ha⟩ := forall₂_right hactions hs
      exact (previewAction_spec ha).1
    obtain ⟨proposal, hproposal, hsame, hfits, hpublished⟩ :=
      publishPreview_eq hcheck hchecked runId
    exact ⟨⟨request.preview, runId⟩, proposal, hpublished, rfl, hproposal, hsame, hfits⟩

theorem interrupt_round_trip_sample : ∃ request restored,
    AgentApprovalInterrupt.modelValidate (fun _ ↦ sampleDigest) isoCoercions request.dump =
      some restored ∧ restored = request ∧ restored.revision = sampleState.revisionCount := by
  obtain ⟨request, fingerprint, q, hbuild, -⟩ := sampleRequest_built
  obtain ⟨restored, hread, hsame, hrevision, -⟩ := interrupt_round_trip (fun _ ↦ sampleDigest)
    isoCoercions sampleContext sampleState request fingerprint hbuild
  exact ⟨request, restored, hread, hsame, hrevision⟩

end LearningTasks.Services.ApprovalPreview
