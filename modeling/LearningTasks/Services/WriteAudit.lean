import LearningTasks.Agent.WriteSafety
import LearningTasks.Services.RunLifecycle
import LearningTasks.Services.ToolCoordinator

namespace LearningTasks.Services.WriteAudit

open Library.Strings Library.Transition Library.Programs Schemas.Scalars Models.Agent Agent
  Agent.Schemas Agent.State Agent.Tools Agent.Approval Agent.Graph Agent.Tracing AgentWorkflow
  ApprovalProtocol ApprovalReplay RunLedger RunRounds RunLifecycle ToolCoordinator
open WriteSafety (Event Dispatched Visit logged dispatchFirst)

variable {σ : Type}

/-- The committed rows hold the approval of the plan that is carried out: it is the latest one
of its run, and about this very proposal. -/
structure Authorized (sha256 : Text → Digest) (r : Rows) (cp : Checkpoint) (a : AgentApproval)
    (p : AgentPlanProposal) : Prop where
  running : r.run.status = .running
  proposal : cp.values.proposal = some p
  found : getOwnedApproval r.approvals cp.values.revisionCount = some a
  latest : ∀ b ∈ r.approvals, b.revision ≤ a.revision
  approved : a.decision = .approved
  fingerprint : a.proposalFingerprint = (fingerprintPlanProposal sha256 p).text

/-- The calls of write tools, if there are any, are those of a plan that the owner of the call
has approved. -/
def Backed (host : Host σ) (s : State (σ × List Event)) (call : Call) (new : List Event) : Prop :=
  (∃ e, .dispatched e ∈ new) → ∃ r cp a p, s.rows = some r ∧ s.checkpoint = some cp ∧
    r.run.userId = call.userId ∧ Authorized host.sha256 r cp a p ∧
    Dispatched host.executors.actionExecutor.isSome p.actions new

theorem authorized_of_executing {host : Host σ} {s : State σ} (h : (machine host).Reachable s)
    {r : Rows} {cp : Checkpoint} (hr : s.rows = some r) (hcp : s.checkpoint = some cp)
    (hrun : r.run.status = .running) (hnext : cp.next = [.executeTasks]) :
    ∃ a p, Authorized host.sha256 r cp a p := by
  have htied := (inStep_reachable h).tied cp hcp
  rw [hr, hnext] at htied
  obtain ⟨p, hp, hlatest⟩ := htied
  obtain ⟨a, hfound, -, hf, hd⟩ := hlatest.get
  obtain ⟨-, hk⟩ := getOwnedApproval_some hfound
  exact ⟨a, p, hrun, hp, hfound, fun b hb ↦ hk ▸ hlatest.le b hb, hd, hf⟩

theorem Authorized.admitted {sha256 : Text → Digest} {r : Rows} {cp : Checkpoint}
    {a : AgentApproval} {p : AgentPlanProposal} (h : Authorized sha256 r cp a p) {τ : Type}
    (coordinator : CoordinatorHost τ) (x : τ)
    (hread : coordinator.getOwnedApproval coordinator.runId coordinator.userId
      cp.values.revisionCount x = (.ok (getOwnedApproval r.approvals cp.values.revisionCount), x))
    (action : AgentProposedAction) :
    requirePersistedApproval coordinator action cp.values.revisionCount
      (fingerprintPlanProposal sha256 p) x = (.ok (), x) := by
  unfold requirePersistedApproval
  split
  · rw [Program.bind_of_ok hread, h.found]
    have hchecked : ¬ (a.decision ≠ .approved ∨
        a.proposalFingerprint ≠ (fingerprintPlanProposal sha256 p).text) := by
      simp [h.approved, h.fingerprint]
    exact congrFun (if_neg hchecked) x
  · rfl

section

variable {host : Host σ} {cp : Checkpoint}

theorem superstep_writes (hg : Checkpoints.WellFormed cp.values)
    {answer : Option AgentApprovalResponse} {w w' : σ × List Event} {o : Option Checkpoint}
    (hs : superstep (Checkpoints.durable (logged host)) cp answer w = (o, w')) :
    ∃ new, w'.2 = w.2 ++ new ∧ ((∃ e, .dispatched e ∈ new) →
      cp.next = [.executeTasks] ∧ Visit host cp.values new) := by
  have hquiet : ∃ new, w.2 = w.2 ++ new ∧ ((∃ e, .dispatched e ∈ new) →
      cp.next = [.executeTasks] ∧ Visit host cp.values new) :=
    ⟨[], (List.append_nil _).symm, fun ⟨e, he⟩ ↦ absurd he List.not_mem_nil⟩
  rcases Checkpoints.superstep_cases hg hs with ⟨-, rfl⟩ | ⟨node, result, hnext, hr, -⟩
  · exact hquiet
  · by_cases hnode : node = .requestApproval
    · subst hnode
      have ha : approvalNode (logged (Checkpoints.durable host)) cp.values answer w =
        (result, w') := hr
      rcases WriteSafety.approvalNode_log ha with
        ⟨hw, -⟩ | ⟨request, fingerprint, response, -, -, hw⟩
      · rw [hw]
        exact hquiet
      · rcases hw with ⟨-, -, hw⟩ | ⟨hd, -⟩
        · rw [hw]
          exact hquiet
        · cases hd
    · have hr' : runNode (logged (Checkpoints.durable host)) cp.values answer w node =
        (result, w') := hr
      obtain ⟨new, hw, hvisit, -⟩ := WriteSafety.runNode_log hnode hr'
      refine ⟨new, hw, fun hwrite ↦ ?_⟩
      rcases hvisit with rfl | ⟨rfl, hvisit⟩
      · obtain ⟨e, he⟩ := hwrite
        exact absurd he List.not_mem_nil
      · exact ⟨hnext, ⟨hvisit.authorized, hvisit.enabled, hvisit.calls⟩⟩

theorem advanceCheckpoint_world {answer : Option AgentApprovalResponse} {w w' : σ}
    {outcome : Advanced} {cp' : Checkpoint}
    (h : advanceCheckpoint host cp answer w = (outcome, cp', w')) :
    ∃ o, superstep (Checkpoints.durable host) cp answer w = (o, w') := by
  unfold advanceCheckpoint at h
  split at h
  · next hs =>
    cases h
    exact ⟨_, hs⟩
  · next hs =>
    repeat' split at h
    all_goals cases h
    all_goals exact ⟨_, hs⟩

end

section

variable {host : Host σ} {s : State (σ × List Event)}

theorem advancing_owner (h : (machine (logged host)).Reachable s) {i : ℕ} {call : Call}
    {answer : Option AgentApprovalResponse} (hc : s.calls i = some call)
    (hphase : call.phase = .advancing answer) :
    ∃ r cp, s.rows = some r ∧ s.checkpoint = some cp ∧ r.run.userId = call.userId ∧
      r.run.status = .running ∧
      Checkpoints.Inv host.sha256 host.coercions host.context cp := by
  have hpi := (inv_reachable h).phases i call hc
  simp only [PhaseInv, hphase] at hpi
  obtain ⟨r, a, cp, hr, hcp, hrecorded, hrun, -⟩ := hpi
  obtain ⟨cp', hcp', hcons⟩ := (inv_reachable h).rows r hr
  obtain rfl : cp = cp' := Option.some.inj (hcp.symm.trans hcp')
  exact ⟨r, cp, hr, hcp, hrecorded.1, hrun, hcons.graph⟩

theorem backed_of_visit (h : (machine (logged host)).Reachable s) {i : ℕ} {call : Call}
    {answer : Option AgentApprovalResponse} (hc : s.calls i = some call)
    (hphase : call.phase = .advancing answer) {cp : Checkpoint} (hcp : s.checkpoint = some cp)
    {new : List Event} (hvisit : (∃ e, .dispatched e ∈ new) →
      cp.next = [.executeTasks] ∧ Visit host cp.values new) : Backed host s call new := by
  intro hwrite
  obtain ⟨hnext, hv⟩ := hvisit hwrite
  obtain ⟨r, cp', hr, hcp', howner, hrun, -⟩ := advancing_owner h hc hphase
  obtain rfl : cp = cp' := Option.some.inj (hcp.symm.trans hcp')
  obtain ⟨a, p, hauthorized⟩ := authorized_of_executing h hr hcp hrun hnext
  obtain ⟨q, hq, -, hdispatched⟩ := hv.calls
  obtain rfl : p = q := Option.some.inj (hauthorized.proposal.symm.trans hq)
  exact ⟨r, cp, a, p, hr, hcp, howner, hauthorized, hdispatched⟩

theorem start_quiet (h : (machine (logged host)).Reachable s) {m : Move (σ × List Event)}
    {s' : State (σ × List Event)} (hs : startStep (logged host) s m = some s') :
    ∃ new, s'.world.2 = s.world.2 ++ new ∧ ∀ e, .dispatched e ∉ new := by
  have hstart := (inv_reachable h).start
  have hquiet : ∃ new, s.world.2 = s.world.2 ++ new ∧ ∀ e, Event.dispatched e ∉ new :=
    ⟨[], (List.append_nil _).symm, fun _ ↦ List.not_mem_nil⟩
  cases m with
  | startAdvance =>
    simp only [startStep] at hs
    split at hs
    · next run cp hphase hcp =>
      rw [hphase] at hstart
      obtain ⟨hnone, cp', hcp', hg⟩ := hstart
      obtain rfl : cp = cp' := Option.some.inj (hcp.symm.trans hcp')
      rcases hadv : advanceCheckpoint (logged host) cp none s.world with ⟨outcome, cp₁, w₁⟩
      rw [hadv] at hs
      cases hs
      obtain ⟨o, hstep⟩ := advanceCheckpoint_world hadv
      obtain ⟨new, hnew, hvisit⟩ := superstep_writes hg.wellFormed hstep
      refine ⟨new, hnew, fun e he ↦ ?_⟩
      obtain ⟨hnext, -⟩ := hvisit ⟨e, he⟩
      have htied := (inStep_reachable h).tied cp hcp
      rw [hnone, hnext] at htied
      obtain ⟨p, -, earlier, a, hempty, -⟩ := htied
      simp [approvalsOf] at hempty
    · cases hs
  | start id userId goal now | startCommit id now =>
    simp only [startStep] at hs
    split at hs
    · cases hs
      exact hquiet
    · cases hs
  | startCrash =>
    cases hs
    exact hquiet
  | call i userId submission | acquire i | record i now | inspect i | advance i
  | persist i id now | crash i | outside w => cases hs

theorem call_world {i : ℕ} {call : Call} {m : Move (σ × List Event)}
    {s' : State (σ × List Event)} (hm : m.caller = some i)
    (hs : callStep (logged host) s i call m = some s') :
    s'.world = s.world ∨ m = .advance i ∧ ∃ answer cp o, call.phase = .advancing answer ∧
      s.checkpoint = some cp ∧
      superstep (Checkpoints.durable (logged host)) cp answer s.world = (o, s'.world) := by
  cases m with
  | advance j =>
    obtain rfl : j = i := Option.some.inj hm
    simp only [callStep] at hs
    split at hs
    · next answer cp hphase hcp =>
      rcases hadv : advanceCheckpoint (logged host) cp answer s.world with ⟨outcome, cp₁, w₁⟩
      have hworld : s'.world = w₁ := by
        rw [hadv] at hs
        cases outcome <;> cases hs <;> rfl
      obtain ⟨o, hstep⟩ := advanceCheckpoint_world hadv
      exact .inr ⟨rfl, answer, cp, o, hphase, hcp, hworld ▸ hstep⟩
    · cases hs
  | acquire j | record j now | inspect j | persist j id now =>
    simp only [callStep] at hs
    repeat' split at hs
    all_goals cases hs
    all_goals exact .inl rfl
  | crash j =>
    cases hs
    split
    · exact .inl rfl
    · exact .inl rfl
  | call j userId submission | start id userId goal now | startAdvance | startCommit id now
  | startCrash | outside w => cases hs

theorem step_writes (h : (machine (logged host)).Reachable s) {m : Move (σ × List Event)}
    {s' : State (σ × List Event)} (hs : (machine (logged host)).step s m = some s')
    (hm : ∀ w, m ≠ .outside w) :
    ∃ new, s'.world.2 = s.world.2 ++ new ∧ ((∃ e, .dispatched e ∈ new) →
      ∃ i call answer cp, m = .advance i ∧ s.calls i = some call ∧
        call.phase = .advancing answer ∧ s.checkpoint = some cp ∧ cp.next = [.executeTasks] ∧
        Visit host cp.values new) := by
  have hnone {new : List Event} (hnew : s'.world.2 = s.world.2 ++ new)
      (hno : ∀ e, .dispatched e ∉ new) : ∃ new, s'.world.2 = s.world.2 ++ new ∧
        ((∃ e, .dispatched e ∈ new) → ∃ i call answer cp, m = .advance i ∧
          s.calls i = some call ∧ call.phase = .advancing answer ∧ s.checkpoint = some cp ∧
          cp.next = [.executeTasks] ∧ Visit host cp.values new) :=
    ⟨new, hnew, fun ⟨e, he⟩ ↦ absurd he (hno e)⟩
  have hquiet (hworld : s'.world = s.world) : s'.world.2 = s.world.2 ++ [] := by
    rw [hworld, List.append_nil]
  rcases step_cases hs with ⟨i, userId, submission, rfl, -, rfl⟩ | ⟨w, rfl, rfl⟩ | ⟨-, hs⟩ |
    ⟨i, call, hcaller, hc, hs⟩
  · exact hnone (hquiet rfl) fun _ ↦ List.not_mem_nil
  · exact absurd rfl (hm w)
  · obtain ⟨new, hnew, hno⟩ := start_quiet h hs
    exact hnone hnew hno
  · rcases call_world hcaller hs with hworld | ⟨rfl, answer, cp, o, hphase, hcp, hstep⟩
    · exact hnone (hquiet hworld) fun _ ↦ List.not_mem_nil
    · obtain ⟨r, cp', -, hcp', -, -, hg⟩ := advancing_owner h hc hphase
      obtain rfl : cp = cp' := Option.some.inj (hcp.symm.trans hcp')
      obtain ⟨new, hnew, hvisit⟩ := superstep_writes hg.wellFormed hstep
      exact ⟨new, hnew, fun hwrite ↦ ⟨i, call, answer, cp, rfl, hc, hphase, hcp, hvisit hwrite⟩⟩

end

/-- No write without its approval: in every interleaving of the calls on a run, whenever a write
tool is called, by a move or by a process that stops within the execution node, the committed
rows hold the approval of the very plan, the latest one of the run. There it stays, and the
coordinator finds it. -/
theorem no_write_without_approval {host : Host σ} {s : State (σ × List Event)}
    (h : (machine (logged host)).Reachable s) :
    (∀ m s', (machine (logged host)).step s m = some s' → (∀ w, m ≠ .outside w) →
      ∃ new, s'.world.2 = s.world.2 ++ new ∧ ((∃ e, .dispatched e ∈ new) →
        ∃ i call, m = .advance i ∧ s.calls i = some call ∧ Backed host s call new)) ∧
    (∀ i call answer cp k, s.calls i = some call → call.phase = .advancing answer →
      s.checkpoint = some cp → ∃ new,
        (dispatchFirst (logged host) cp k s.world).2 = s.world.2 ++ new ∧
          Backed host s call new) ∧
    ∀ r cp a p, s.rows = some r → Authorized host.sha256 r cp a p →
      (∀ t, (machine (logged host)).Leads s t → ∃ r', t.rows = some r' ∧ a ∈ r'.approvals) ∧
      ∀ (τ : Type) (coordinator : CoordinatorHost τ) (x : τ) (action : AgentProposedAction),
        coordinator.getOwnedApproval coordinator.runId coordinator.userId
          cp.values.revisionCount x =
            (.ok (getOwnedApproval r.approvals cp.values.revisionCount), x) →
        requirePersistedApproval coordinator action cp.values.revisionCount
          (fingerprintPlanProposal host.sha256 p) x = (.ok (), x) := by
  refine ⟨fun m s' hs hm ↦ ?_, fun i call answer cp k hc hphase hcp ↦ ?_, ?_⟩
  · obtain ⟨new, hnew, hwrites⟩ := step_writes h hs hm
    refine ⟨new, hnew, fun hwrite ↦ ?_⟩
    obtain ⟨i, call, answer, cp, hmove, hc, hphase, hcp, hvisit⟩ := hwrites hwrite
    exact ⟨i, call, hmove, hc, backed_of_visit h hc hphase hcp fun _ ↦ hvisit⟩
  · obtain ⟨r, cp', -, hcp', -, -, hg⟩ := advancing_owner h hc hphase
    obtain rfl : cp = cp' := Option.some.inj (hcp.symm.trans hcp')
    obtain ⟨new, hnew, hvisit⟩ := WriteSafety.dispatchFirst_log host hg.wellFormed k s.world
    refine ⟨new, hnew, backed_of_visit h hc hphase hcp fun ⟨e, he⟩ ↦ ?_⟩
    rcases hvisit with rfl | hvisit
    · exact absurd he List.not_mem_nil
    · exact hvisit
  · intro r cp a p hr hauthorized
    refine ⟨fun t ht ↦ ?_, fun τ coordinator x action hread ↦
      hauthorized.admitted coordinator x hread action⟩
    obtain ⟨r', hr', hgrows⟩ := grows_leads h ht hr
    have hdecided : a.decision ≠ .pending := by
      rw [hauthorized.approved]
      exact nofun
    exact ⟨r', hr', hgrows.2 a (getOwnedApproval_some hauthorized.found).1 hdecided⟩

theorem acceptance_contract : AgentApprovalDecision.approved = .requestChanges ↔
    (none : Option (BoundedText 1000)).isSome = true := by
  constructor
  · intro h
    cases h
  · intro h
    cases h

def sampleAcceptance : AgentApprovalSubmission :=
  ⟨0, sampleDigest, .approved, none, sampleRejection.bound, acceptance_contract⟩

def approvalMoves : List (Move (Unit × List Event)) :=
  [.start (sampleId 1) sampleUserId sampleGoal sampleNow, .startAdvance, .startAdvance,
    .startAdvance, .startAdvance, .startAdvance, .startCommit (sampleId 2) sampleNow,
    .call 1 sampleUserId sampleAcceptance, .acquire 1, .record 1 sampleNow, .inspect 1, .advance 1]

theorem dispatched_of_writes {σ : Type} {host : Host σ} {s s' : State (σ × List Event)}
    {m : Move (σ × List Event)} (h : (machine (logged host)).Reachable s)
    (hs : (machine (logged host)).step s m = some s') (hm : ∀ w, m ≠ .outside w)
    (hlength : (WriteSafety.writes s.world.2).length < (WriteSafety.writes s'.world.2).length) :
    ∃ new, s'.world.2 = s.world.2 ++ new ∧ ∃ e, .dispatched e ∈ new := by
  obtain ⟨new, hnew, -⟩ := step_writes h hs hm
  have hwrites : WriteSafety.writes new ≠ [] := by
    intro hnone
    have hsame : WriteSafety.writes s'.world.2 = WriteSafety.writes s.world.2 := by
      rw [hnew, WriteSafety.writes, List.filterMap_append, ← WriteSafety.writes,
        ← WriteSafety.writes, hnone, List.append_nil]
    rw [hsame] at hlength
    exact lt_irrefl _ hlength
  obtain ⟨e, he⟩ := List.exists_mem_of_ne_nil _ hwrites
  obtain ⟨event, hmem, hevent⟩ := List.mem_filterMap.mp he
  cases event with
  | decided d => cases hevent
  | dispatched e' => exact ⟨new, hnew, e', hmem⟩

theorem sample_write : ∃ s s' new, (machine (logged Checkpoints.sampleHost)).Reachable s ∧
    (machine (logged Checkpoints.sampleHost)).step s (.advance 1) = some s' ∧
    s'.world.2 = s.world.2 ++ new ∧ ∃ e, .dispatched e ∈ new := by
  have hexec : ((machine (logged Checkpoints.sampleHost)).exec
      ⟨none, none, ((), []), .idle, fun _ ↦ none, none, []⟩ approvalMoves).bind
        (fun s ↦ ((machine (logged Checkpoints.sampleHost)).step s (.advance 1)).map fun s' ↦
          ((WriteSafety.writes s.world.2).length, (WriteSafety.writes s'.world.2).length)) =
        some (0, 1) := by
    decide +kernel
  obtain ⟨s, hs, ht⟩ := Option.bind_eq_some_iff.mp hexec
  obtain ⟨s', hs', hlength⟩ := Option.map_eq_some_iff.mp ht
  obtain ⟨hzero, hone⟩ := Prod.mk.inj hlength
  have hreach := Machine.Reachable.exec
    (.start (M := machine (logged Checkpoints.sampleHost)) ⟨rfl, rfl, rfl, rfl, rfl, rfl⟩) hs
  obtain ⟨new, hnew, hwrite⟩ := dispatched_of_writes hreach hs' (by simp) (by omega)
  exact ⟨s, s', new, hreach, hs', hnew, hwrite⟩

theorem no_write_without_approval_sample :
    ∃ s s' call new, (machine (logged Checkpoints.sampleHost)).Reachable s ∧
      (machine (logged Checkpoints.sampleHost)).step s (.advance 1) = some s' ∧
      s'.world.2 = s.world.2 ++ new ∧ (∃ e, .dispatched e ∈ new) ∧
      Backed Checkpoints.sampleHost s call new := by
  obtain ⟨s, s', written, hreach, hs', hwritten, hwrite⟩ := sample_write
  obtain ⟨new, hnew, hbacked⟩ := (no_write_without_approval hreach).1 _ s' hs' (by simp)
  obtain rfl : written = new := List.append_cancel_left (hwritten.symm.trans hnew)
  obtain ⟨i, call, -, -, hcall⟩ := hbacked hwrite
  exact ⟨s, s', call, written, hreach, hs', hnew, hwrite, hcall⟩

end LearningTasks.Services.WriteAudit
