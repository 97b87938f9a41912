import LearningTasks.Agent.Checkpoints

namespace LearningTasks.Services.AgentWorkflow

open Library.Strings Library.Serialization Library.Transition Schemas.Scalars Models.Agent
  Agent.Schemas Agent.State Agent.Approval Agent.Finalization Agent.Graph Agent.Checkpoints

structure AgentApprovalSubmission where
  revision : ℕ
  proposalFingerprint : Digest
  decision : AgentApprovalDecision
  feedback : Option (BoundedText 1000)
  bound : revision ≤ maxPlanRevisions
  contract : decision = .requestChanges ↔ feedback.isSome = true

structure Rows where
  run : AgentRun
  approvals : List AgentApproval

/-- `AgentWorkflowUnavailableError` is told apart here by what raised it. -/
inductive SubmitError
  | notFound
  | conflict
  | inconsistentCheckpoint
  | unavailable
  deriving DecidableEq

inductive AgentWorkflowProgress
  | approval (request : AgentApprovalInterrupt)
  | output (o : AgentGraphOutput)

def terminalRunStatus : AgentTerminalStatus → AgentRunStatus
  | .succeeded => .succeeded
  | .rejected => .rejected
  | .partialFailure => .partialFailure
  | .failed => .failed

def isTerminalRunStatus : AgentRunStatus → Bool
  | .succeeded | .rejected | .partialFailure | .failed => true
  | .pending | .running | .pendingApproval => false

def approvalStatus : AgentApprovalDecision → AgentApprovalStatus
  | .approved => .approved
  | .rejected => .rejected
  | .requestChanges => .requestChanges

def getOwnedRun (rows : Option Rows) (userId : UUID) : Option Rows :=
  rows.filter fun r ↦ r.run.userId = userId

def getOwnedApproval (approvals : List AgentApproval) (revision : ℕ) : Option AgentApproval :=
  approvals.find? fun a ↦ a.revision = revision

def getLatestOwnedApproval (approvals : List AgentApproval) : Option AgentApproval :=
  approvals.find? fun a ↦ approvals.all fun b ↦ b.revision ≤ a.revision

/-- The metrics that `_run_values` writes; null counts of tokens become zero. The
table rejects a total that is not the sum, and its columns a count out of range. -/
def runMetrics (m : AgentRunMetrics) : Option MetricColumns :=
  if h : m.totalTokens.getD 0 = m.inputTokens.getD 0 + m.outputTokens.getD 0 then
    let metrics : AgentRunMetricsSnapshot := ⟨m.modelRoundCount, m.providerAttemptCount,
      m.toolCallCount, m.inputTokens.getD 0, m.outputTokens.getD 0, m.totalTokens.getD 0,
      m.latencyMs, h⟩
    if hr : metrics.InRange then some ⟨metrics, hr⟩ else none
  else none

def progressStatus : AgentWorkflowProgress → AgentRunStatus
  | .approval _ => .pendingApproval
  | .output o => terminalRunStatus o.status

/-- The run with the values of `_run_values`, where the table takes them. -/
def runValues (run : AgentRun) : AgentWorkflowProgress → Option AgentRun
  | .approval request => some { run with
      status := progressStatus (.approval request)
      currentNode := some .requestApproval }
  | .output o =>
    match o.metrics with
    | none => some { run with
        status := progressStatus (.output o)
        currentNode := some .summarize
        summary := some o.summary.text }
    | some m => (runMetrics m).map fun metrics ↦ { run with
        status := progressStatus (.output o)
        currentNode := some .summarize
        summary := some o.summary.text
        metrics := metrics }

def createApproval (id : UUID) (request : AgentApprovalInterrupt) (now : Datetime) :
    AgentApproval :=
  ⟨id, request.revision, request.proposalFingerprint.text, .pending, none, none, now⟩

def storedResponse (a : AgentApproval) : Option AgentApprovalResponse :=
  let decision : Option AgentApprovalDecision := match a.decision with
    | .approved => some .approved
    | .rejected => some .rejected
    | .requestChanges => some .requestChanges
    | .pending => none
  match decision, a.feedback with
  | none, _ => none
  | some d, none =>
    if h : d = .requestChanges ↔ (none : Option (BoundedText 1000)).isSome = true then
      some ⟨d, none, h⟩ else none
  | some d, some text => (boundedText 1000 text).bind fun t ↦
    if h : d = .requestChanges ↔ (some t).isSome = true then some ⟨d, some t, h⟩ else none

def sameSubmission (a : AgentApproval) (s : AgentApprovalSubmission) : Bool :=
  a.proposalFingerprint = s.proposalFingerprint.text ∧ a.decision = approvalStatus s.decision ∧
    a.feedback = s.feedback.map (·.text)

def updateApproval (a : AgentApproval) (s : AgentApprovalSubmission) (now : Datetime) :
    AgentApproval :=
  { a with
    decision := approvalStatus s.decision
    feedback := s.feedback.map (·.text)
    decidedAt := some now }

def decidedRows (rows : Rows) (a : AgentApproval) (s : AgentApprovalSubmission) (now : Datetime) :
    Rows :=
  ⟨{ rows.run with status := .running, updatedAt := now },
    rows.approvals.map fun b ↦ if b.id = a.id then updateApproval a s now else b⟩

/-- What a submission records before it looks at the checkpoint: the rows as
committed, and its approval. -/
def recordDecision (rows : Option Rows) (userId : UUID) (s : AgentApprovalSubmission)
    (now : Datetime) : Except SubmitError (Rows × AgentApproval) :=
  match getOwnedRun rows userId with
  | none => .error .notFound
  | some rows =>
    match getOwnedApproval rows.approvals s.revision with
    | none => .error .conflict
    | some approval =>
      if approval.decision = .pending then
        if rows.run.status ≠ .pendingApproval ∨
            (getLatestOwnedApproval rows.approvals).map (·.id) ≠ some approval.id ∨
            approval.proposalFingerprint ≠ s.proposalFingerprint.text then
          .error .conflict
        else
          if (updateApproval approval s now).constraints then
            .ok (decidedRows rows approval s now, updateApproval approval s now)
          else .error .unavailable
      else if !sameSubmission approval s || rows.run.status = .pending then .error .conflict
      else .ok (rows, approval)

inductive Recovery
  | persist (progress : AgentWorkflowProgress)
  | continue
  | resume (response : AgentApprovalResponse)

def reconcile (run : AgentRun) (approval : AgentApproval) (i : AgentCheckpointInspection) :
    Except SubmitError Recovery :=
  match i.status with
  | .inconsistent => .error .inconsistentCheckpoint
  | .terminal =>
    match i.output with
    | none => .error .unavailable
    | some o => .ok (.persist (.output o))
  | .continuable => if run.status ≠ .running then .error .unavailable else .ok .continue
  | .pendingInterrupt =>
    match i.approval with
    | none => .error .unavailable
    | some request =>
      if request.revision = approval.revision ∧
          request.proposalFingerprint.text = approval.proposalFingerprint then
        if run.status ≠ .running then .error .unavailable
        else match storedResponse approval with
          | none => .error (if approval.decision = .pending then .conflict else .unavailable)
          | some response => .ok (.resume response)
      else if approval.decision = .requestChanges ∧ request.revision = approval.revision + 1 then
        .ok (.persist (.approval request))
      else .error .unavailable

def progressOf (i : AgentCheckpointInspection) : Option AgentWorkflowProgress :=
  match i.status with
  | .pendingInterrupt => i.approval.map .approval
  | .terminal => i.output.map .output
  | .continuable | .inconsistent => none

/-- `_persist_progress`, or nothing to persist where the run already matches; no
rows where it raises. -/
def persistProgress (rows : Rows) (progress : AgentWorkflowProgress) (id : UUID) (now : Datetime) :
    Option Rows :=
  match progress, runValues rows.run progress with
  | _, none => none
  | .output _, some run =>
    if isTerminalRunStatus rows.run.status ∧ run = rows.run then some rows
    else some { rows with run := { run with updatedAt := now } }
  | .approval request, some run =>
    let rows' : Rows := { rows with run := { run with updatedAt := now } }
    match getOwnedApproval rows.approvals request.revision with
    | none =>
      if rows.approvals.any fun a ↦ a.id = id then none
      else some { rows' with approvals := rows.approvals ++ [createApproval id request now] }
    | some existing =>
      if existing.decision ≠ .pending ∨
          existing.proposalFingerprint ≠ request.proposalFingerprint.text then none
      else some rows'

theorem reconcile_inconsistent (run : AgentRun) (approval : AgentApproval)
    (i : AgentCheckpointInspection) :
    reconcile run approval i = .error .inconsistentCheckpoint ↔ i.status = .inconsistent := by
  unfold reconcile
  split
  · next h => simp [h]
  all_goals
    next h =>
      rw [h]
      refine ⟨fun hr ↦ ?_, fun hi ↦ by cases hi⟩
      repeat' split at hr
      all_goals cases hr

theorem approvalStatus_ne_pending (d : AgentApprovalDecision) : approvalStatus d ≠ .pending := by
  cases d <;> decide

theorem sameSubmission_decided {a : AgentApproval} {s : AgentApprovalSubmission}
    (h : sameSubmission a s = true) : a.decision ≠ .pending := by
  have hd : a.decision = approvalStatus s.decision := (of_decide_eq_true h).2.1
  rw [hd]
  exact approvalStatus_ne_pending _

theorem getOwnedApproval_some {approvals : List AgentApproval} {revision : ℕ} {a : AgentApproval}
    (h : getOwnedApproval approvals revision = some a) : a ∈ approvals ∧ a.revision = revision := by
  have hp := List.find?_some h
  exact ⟨List.mem_of_find?_eq_some h, of_decide_eq_true hp⟩

theorem getOwnedApproval_none {approvals : List AgentApproval} {revision : ℕ}
    (h : getOwnedApproval approvals revision = none) {a : AgentApproval} (ha : a ∈ approvals) :
    a.revision ≠ revision := by
  have hn := List.find?_eq_none.mp h a ha
  simpa using hn

theorem recordDecision_ok {rows : Option Rows} {userId : UUID} {s : AgentApprovalSubmission}
    {now : Datetime} {rows' : Rows} {approval : AgentApproval}
    (h : recordDecision rows userId s now = .ok (rows', approval)) :
    ∃ r, rows = some r ∧ r.run.userId = userId ∧
      ((approval ∈ r.approvals ∧ approval.revision = s.revision ∧
          sameSubmission approval s = true ∧ rows' = r) ∨
        ∃ a ∈ r.approvals, a.revision = s.revision ∧ a.decision = .pending ∧
          a.proposalFingerprint = s.proposalFingerprint.text ∧ r.run.status = .pendingApproval ∧
          approval = updateApproval a s now ∧ rows' = decidedRows r a s now) := by
  unfold recordDecision at h
  split at h
  · cases h
  · next r hr =>
    obtain ⟨hrows, hu⟩ := Option.filter_eq_some_iff.mp hr
    refine ⟨r, hrows, of_decide_eq_true hu, ?_⟩
    split at h
    · cases h
    · next a ha =>
      obtain ⟨hmem, hrev⟩ := getOwnedApproval_some ha
      split at h
      · next hp =>
        split at h
        · cases h
        · next hc =>
          simp only [not_or, not_not] at hc
          split at h
          · cases h
            exact .inr ⟨a, hmem, hrev, hp, hc.2.2, hc.1, rfl, rfl⟩
          · cases h
      · split at h
        · cases h
        · next hc =>
          simp only [Bool.or_eq_true, Bool.not_eq_eq_eq_not, Bool.not_true, not_or,
            Bool.not_eq_false] at hc
          cases h
          exact .inl ⟨hmem, hrev, hc.1, rfl⟩

theorem sameSubmission_updateApproval {a : AgentApproval} {s : AgentApprovalSubmission}
    (h : a.proposalFingerprint = s.proposalFingerprint.text) (now : Datetime) :
    sameSubmission (updateApproval a s now) s = true := by
  simp [sameSubmission, updateApproval, h]

theorem recordDecision_again {rows : Rows} {userId : UUID} {s : AgentApprovalSubmission}
    {approval : AgentApproval} (now : Datetime) (hu : rows.run.userId = userId)
    (ha : getOwnedApproval rows.approvals s.revision = some approval)
    (hs : sameSubmission approval s = true) (hr : rows.run.status = .running) :
    recordDecision (some rows) userId s now = .ok (rows, approval) := by
  have hrun : getOwnedRun (some rows) userId = some rows := by simp [getOwnedRun, hu]
  simp [recordDecision, hrun, ha, sameSubmission_decided hs, hs, hr]

/-- A run is refused as inconsistent at the stuck checkpoints, and at no others. -/
theorem refused_iff_stuck {σ : Type} {host : Host σ} {cp : Checkpoint} {w : σ}
    (h : (machine host).Reachable (cp, w)) :
    ((inspectSnapshot host.sha256 host.coercions cp).status ≠ .inconsistent ↔ ¬ Stuck cp) ∧
      ∀ (rows : Rows) (userId : UUID) (s : AgentApprovalSubmission) (approval : AgentApproval)
        (now : Datetime), rows.run.userId = userId →
        getOwnedApproval rows.approvals s.revision = some approval →
        sameSubmission approval s = true → rows.run.status = .running →
        recordDecision (some rows) userId s now = .ok (rows, approval) ∧
          (reconcile rows.run approval (inspectSnapshot host.sha256 host.coercions cp) ≠
            .error .inconsistentCheckpoint ↔ ¬ Stuck cp) := by
  have hi := not_congr (inspect_status (reachable_inv h))
  refine ⟨hi, fun rows userId s approval now hu ha hs hr ↦ ?_⟩
  exact ⟨recordDecision_again now hu ha hs hr, (not_congr (reconcile_inconsistent _ _ _)).trans hi⟩

def sampleNow : Datetime := sampleDate.midnight

def sampleApproval : AgentApproval :=
  ⟨sampleId 2, 0, sampleDigest.text, .rejected, none, some sampleNow, sampleNow⟩

/-- A run whose plan has been rejected, as the decision was recorded. -/
def sampleRows : Rows where
  run := ⟨sampleId 1, sampleUserId, .running, some .requestApproval, none, none,
    noMetrics sampleLatency, sampleNow⟩
  approvals := [sampleApproval]

def sampleRejection : AgentApprovalSubmission := ⟨0, sampleDigest, .rejected, none, by decide, by decide⟩

def sampleAnswer : AgentApprovalResponse := ⟨.rejected, none, by decide⟩

def sampleAdvances : List (Move Unit) := [.advance, .advance, .advance, .advance, .advance]

theorem sample_init : (machine sampleHost).init (initialCheckpoint sampleGoal, ()) := ⟨sampleGoal, rfl⟩

theorem refused_iff_stuck_sample :
    ∃ cp, (machine sampleHost).Reachable (cp, ()) ∧ Stuck cp ∧
      ((inspectSnapshot sampleHost.sha256 sampleHost.coercions cp).status ≠ .inconsistent ↔
        ¬ Stuck cp) := by
  have hexec : ((machine sampleHost).exec (initialCheckpoint sampleGoal, ())
      (sampleAdvances ++ [.resume sampleAnswer])).map
        (fun s ↦ (s.1.next, s.1.values.approvalDecision)) =
        some ([.verifyResult], some .rejected) := by
    decide +kernel
  obtain ⟨⟨cp, w⟩, hs, hcp⟩ := Option.map_eq_some_iff.mp hexec
  have hr := Machine.Reachable.exec (.start sample_init) hs
  exact ⟨cp, hr, .inr ⟨congrArg Prod.fst hcp, congrArg Prod.snd hcp⟩, (refused_iff_stuck hr).1⟩

/-- A process that stops right after the rejection of a plan leaves a run that no
retry recovers. -/
theorem rejected_run_refused :
    ∃ s t, (machine sampleHost).Reachable s ∧ s.1.interrupts ≠ [] ∧
      (machine sampleHost).step s (.resume sampleAnswer) = some t ∧
      (inspectSnapshot sampleHost.sha256 sampleHost.coercions t.1).status = .inconsistent ∧
      recordDecision (some sampleRows) sampleUserId sampleRejection sampleNow =
        .ok (sampleRows, sampleApproval) ∧
      reconcile sampleRows.run sampleApproval
        (inspectSnapshot sampleHost.sha256 sampleHost.coercions t.1) =
          .error .inconsistentCheckpoint := by
  have hexec : ((machine sampleHost).exec (initialCheckpoint sampleGoal, ()) sampleAdvances).bind
      (fun s ↦ ((machine sampleHost).step s (.resume sampleAnswer)).map fun t ↦
        (s.1.interrupts.isEmpty,
          (inspectSnapshot sampleHost.sha256 sampleHost.coercions t.1).status)) =
        some (false, .inconsistent) := by
    decide +kernel
  obtain ⟨s, hs, ht⟩ := Option.bind_eq_some_iff.mp hexec
  obtain ⟨t, ht, hst⟩ := Option.map_eq_some_iff.mp ht
  have hi := congrArg Prod.snd hst
  refine ⟨s, t, Machine.Reachable.exec (.start sample_init) hs, ?_, ht, hi, ?_, ?_⟩
  · intro h
    have he := congrArg Prod.fst hst
    rw [h] at he
    cases he
  · exact recordDecision_again sampleNow rfl rfl (by decide) rfl
  · exact (reconcile_inconsistent _ _ _).mpr hi

end LearningTasks.Services.AgentWorkflow
