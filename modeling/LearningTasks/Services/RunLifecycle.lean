import LearningTasks.Library.Simulation
import LearningTasks.Services.RunRounds

namespace LearningTasks.Services.RunLifecycle

open Library.Strings Library.Transition Library.Simulation Schemas.Scalars Models.Agent Agent
  Agent.Schemas Agent.State Agent.Approval Agent.Graph AgentWorkflow ApprovalProtocol
  ApprovalReplay RunLedger RunRounds

variable {σ : Type} {host : Host σ}

/-- What a move does to the rows of a run and to its checkpoint. -/
inductive Change (host : Host σ) (s s' : State σ) : Prop
  | same : s'.rows = s.rows → s'.checkpoint = s.checkpoint → Change host s s'
  | opened (goal : PlanningGoal) : s.rows = none → s'.rows = none →
      s'.checkpoint = some (initialCheckpoint goal) → Change host s s'
  | advanced (cp cp' : Checkpoint) (w w' : σ) : s.checkpoint = some cp →
      s'.checkpoint = some cp' → s'.rows = s.rows →
      (∀ r, s.rows = some r → r.run.status = .running) →
      Checkpoints.Inv host.sha256 host.coercions host.context cp →
      superstep (Checkpoints.durable host) cp none w = (some cp', w') → Change host s s'
  | answered (r : Rows) (a : AgentApproval) (response : AgentApprovalResponse)
      (cp cp' : Checkpoint) (w w' : σ) : s.rows = some r → s.checkpoint = some cp →
      s'.checkpoint = some cp' → s'.rows = s.rows → r.run.status = .running → a ∈ r.approvals →
      WaitsFor host cp a.revision a.proposalFingerprint → storedResponse a = some response →
      superstep (Checkpoints.durable host) cp (some response) w = (some cp', w') → Change host s s'
  | decided (r : Rows) (a : AgentApproval) (submission : AgentApprovalSubmission)
      (now : Datetime) : s.rows = some r → a ∈ r.approvals → a.decision = .pending →
      r.run.status = .pendingApproval → s'.rows = some (decidedRows r a submission now) →
      s'.checkpoint = s.checkpoint → Change host s s'
  | persisted (r r' : Rows) (cp : Checkpoint) (progress : AgentWorkflowProgress) (id : UUID)
      (now : Datetime) : s.rows = some r → s.checkpoint = some cp → r.approvals ≠ [] →
      progressOf (inspectSnapshot host.sha256 host.coercions cp) = some progress →
      persistProgress r progress id now = some r' → s'.rows = some r' →
      s'.checkpoint = s.checkpoint → Change host s s'
  | started (run : AgentRun) (cp : Checkpoint) (progress : AgentWorkflowProgress) (id : UUID)
      (now : Datetime) : s.rows = none → s.checkpoint = some cp →
      Checkpoints.Inv host.sha256 host.coercions host.context cp →
      progressOf (inspectSnapshot host.sha256 host.coercions cp) = some progress →
      s'.rows = startRows run progress id now → s'.checkpoint = s.checkpoint → Change host s s'

section

variable {s s' : State σ}

theorem change_of_advance (hi : Inv host s) {i : ℕ} {call : Call} (hc : s.calls i = some call)
    (hs : callStep host s i call (.advance i) = some s') : Change host s s' := by
  simp only [callStep] at hs
  split at hs
  · next answer cp hphase hcp =>
    have hpi := hi.phases i call hc
    simp only [PhaseInv, hphase] at hpi
    obtain ⟨rows, a, cp', hrows, hcp', hrecorded, hrun, hanswer⟩ := hpi
    obtain rfl : cp = cp' := Option.some.inj (hcp.symm.trans hcp')
    obtain ⟨cp', hcp', hcons⟩ := hi.rows rows hrows
    obtain rfl : cp = cp' := Option.some.inj (hcp.symm.trans hcp')
    rcases hadv : advanceCheckpoint host cp answer s.world with ⟨outcome, cp₁, w₁⟩
    have hstores : s'.rows = s.rows ∧ s'.checkpoint = some cp₁ := by
      rw [hadv] at hs
      cases outcome <;> cases hs <;> exact ⟨rfl, rfl⟩
    rcases advanceCheckpoint_superstep hadv with ⟨-, rfl⟩ | hstep
    · exact .same hstores.1 (hstores.2.trans hcp.symm)
    · cases answer with
      | none =>
        refine .advanced cp cp₁ s.world w₁ hcp hstores.2 hstores.1 (fun r hr ↦ ?_) hcons.graph hstep
        obtain rfl : rows = r := Option.some.inj (hrows.symm.trans hr)
        exact hrun
      | some response =>
        obtain ⟨hstored, hwaits⟩ := hanswer response rfl
        exact .answered rows a response cp cp₁ s.world w₁ hrows hcp hstores.2 hstores.1 hrun
          hrecorded.2.1 hwaits hstored hstep
  · cases hs

theorem change_of_callStep (hi : Inv host s) {i : ℕ} {call : Call} (hc : s.calls i = some call)
    {m : Move σ} (hm : m.caller = some i) (hs : callStep host s i call m = some s') :
    Change host s s' := by
  cases m with
  | acquire j =>
    simp only [callStep] at hs
    split at hs
    · cases hs
      exact .same rfl rfl
    · cases hs
  | record j now =>
    simp only [callStep] at hs
    split at hs
    · cases hr : recordDecision s.rows call.userId call.submission now with
      | error e =>
        rw [hr] at hs
        cases hs
        exact .same rfl rfl
      | ok pair =>
        obtain ⟨rows, a⟩ := pair
        obtain ⟨r, hrows, -, hcases⟩ := recordDecision_ok hr
        rw [hr] at hs
        cases hs
        rcases hcases with ⟨-, -, -, rfl⟩ | ⟨b, hmem, -, hp, -, hstatus, -, rfl⟩
        · exact .same hrows.symm rfl
        · exact .decided r b call.submission now hrows hmem hp hstatus rfl rfl
    · cases hs
  | inspect j =>
    simp only [callStep] at hs
    repeat' split at hs
    all_goals cases hs
    all_goals exact .same rfl rfl
  | advance j =>
    obtain rfl : j = i := Option.some.inj hm
    exact change_of_advance hi hc hs
  | persist j id now =>
    simp only [callStep] at hs
    split at hs
    · next progress r hphase hrows =>
      have hpi := hi.phases i call hc
      simp only [PhaseInv, hphase] at hpi
      obtain ⟨r', a, cp, hrows', hcp, hrecorded, hprogress⟩ := hpi
      obtain rfl : r = r' := Option.some.inj (hrows.symm.trans hrows')
      cases hpersist : persistProgress r progress id now with
      | none =>
        rw [hpersist] at hs
        cases hs
        exact .same rfl rfl
      | some r' =>
        rw [hpersist] at hs
        cases hs
        exact .persisted r r' cp progress id now hrows hcp
          (List.ne_nil_of_mem hrecorded.2.1) hprogress hpersist rfl rfl
    · cases hs
  | crash j =>
    cases hs
    split
    · exact .same rfl rfl
    · exact .same rfl rfl
  | call j userId submission | start id userId goal now | startAdvance | startCommit id now
  | startCrash | outside w => cases hs

theorem change_of_startStep (hi : Inv host s) {m : Move σ} (hs : startStep host s m = some s') :
    Change host s s' := by
  have hstart := hi.start
  cases m with
  | start id userId goal now =>
    simp only [startStep] at hs
    split at hs
    · next hidle =>
      rw [hidle] at hstart
      cases hs
      exact .opened goal hstart hstart rfl
    · cases hs
  | startAdvance =>
    simp only [startStep] at hs
    split at hs
    · next run cp hphase hcp =>
      rw [hphase] at hstart
      obtain ⟨hnone, cp', hcp', hg⟩ := hstart
      obtain rfl : cp = cp' := Option.some.inj (hcp.symm.trans hcp')
      rcases hadv : advanceCheckpoint host cp none s.world with ⟨outcome, cp₁, w₁⟩
      rw [hadv] at hs
      cases hs
      rcases advanceCheckpoint_superstep hadv with ⟨-, rfl⟩ | hstep
      · exact .same rfl hcp.symm
      · refine .advanced cp cp₁ s.world w₁ hcp rfl rfl (fun r hr ↦ ?_) hg hstep
        rw [hnone] at hr
        cases hr
    · cases hs
  | startCommit id now =>
    simp only [startStep] at hs
    split at hs
    · next run progress hphase =>
      rw [hphase] at hstart
      obtain ⟨hnone, cp, hcp, hg, hp⟩ := hstart
      cases hs
      exact .started run cp progress id now hnone hcp hg hp rfl rfl
    · cases hs
  | startCrash =>
    cases hs
    exact .same rfl rfl
  | call j userId submission | acquire i | record i now | inspect i | advance i
  | persist i id now | crash i | outside w => cases hs

theorem change_of_step (hi : Inv host s) {m : Move σ} (hs : step host s m = some s') :
    Change host s s' := by
  rcases step_cases hs with ⟨i, userId, submission, rfl, -, rfl⟩ | ⟨w, rfl, rfl⟩ | ⟨-, hs⟩ |
    ⟨i, call, hm, hc, hs⟩
  · exact .same rfl rfl
  · exact .same rfl rfl
  · exact change_of_startStep hi hs
  · exact change_of_callStep hi hc hm hs

end

def approvalsOf (rows : Option Rows) : List AgentApproval := rows.elim [] Rows.approvals

/-- The approvals of a run go with its checkpoint, and a run that has ended shows the output of
its checkpoint. -/
structure InStep (host : Host σ) (s : State σ) : Prop where
  tied : ∀ cp, s.checkpoint = some cp → Tied host (approvalsOf s.rows) cp.values cp.next
  closed : ∀ r cp, s.rows = some r → s.checkpoint = some cp →
    isTerminalRunStatus r.run.status = true → ∃ o,
      inspectSnapshot host.sha256 host.coercions cp = ⟨.terminal, none, some o⟩ ∧
      runValues r.run (.output o) = some r.run

structure Moved (r r' : Rows) : Prop where
  ledger : ledgerOf r' = ledgerOf r ∨ ∃ act, ledgerStep (ledgerOf r) act = some (ledgerOf r')
  final : isTerminalRunStatus r.run.status = true → r' = r

theorem Moved.refl (r : Rows) : Moved r r := ⟨.inl rfl, fun _ ↦ rfl⟩

theorem terminal_of_stage {status : AgentRunStatus} {t : AgentTerminalStatus}
    (h : stageOf status = .ended t) : isTerminalRunStatus status = true := by
  cases status with
  | pending | running | pendingApproval => cases h
  | succeeded | rejected | partialFailure | failed => rfl

theorem working_of_status {status : AgentRunStatus} (hw : status ≠ .pendingApproval)
    (ht : isTerminalRunStatus status ≠ true) : stageOf status = .working := by
  cases status with
  | pending | running => rfl
  | pendingApproval => exact absurd rfl hw
  | succeeded | rejected | partialFailure | failed => exact absurd rfl ht

section

variable {r r' : Rows} {cp : Checkpoint}

theorem moved_decided (hcons : Consistent host r cp)
    (ht : Tied host r.approvals cp.values cp.next) {a : AgentApproval} (ha : a ∈ r.approvals)
    (hp : a.decision = .pending) (hstatus : r.run.status = .pendingApproval)
    (submission : AgentApprovalSubmission) (now : Datetime) :
    Tied host (decidedRows r a submission now).approvals cp.values cp.next ∧
      Moved r (decidedRows r a submission now) := by
  obtain ⟨hnext, hk⟩ := WaitsFor.revisionCount hcons.graph (hcons.pending a ha hp).2
  rw [hnext] at ht ⊢
  rcases ht with hover | ⟨request, fingerprint, d, hb, hlatest⟩
  · have hlt := (hover.mem ha).1
    omega
  · obtain ⟨rfl, -⟩ := hlatest.pending ha hp
    have hdecided := hlatest.decided hcons.ids ha hp submission now
    refine ⟨.inr ⟨request, fingerprint, _, hb, hdecided⟩,
      .inr ⟨.decide submission.decision, ?_⟩, fun hterminal ↦ ?_⟩
    · have hbefore : ledgerOf r =
          ⟨List.replicate cp.values.revisionCount .requestChanges, .waiting⟩ := by
        rw [ledgerOf, hlatest.decisions, hstatus]
        exact congrArg (Ledger.mk · _) (List.append_nil _)
      have hafter : ledgerOf (decidedRows r a submission now) =
          ⟨List.replicate cp.values.revisionCount .requestChanges ++ [submission.decision],
            .working⟩ := by
        rw [ledgerOf, hdecided.decisions, decisionOf_approvalStatus]
        rfl
      rw [hbefore, hafter]
      rfl
    · rw [hstatus] at hterminal
      cases hterminal

theorem moved_approval (hcons : Consistent host r cp) {request : AgentApprovalInterrupt}
    (hnext : cp.next = [.requestApproval])
    (hb : buildApprovalRequest host.sha256 host.coercions host.context cp.values =
      .ok (request, request.proposalFingerprint))
    (hk : request.revision = cp.values.revisionCount) (hle : request.revision ≤ maxPlanRevisions)
    (hrounds : Over request.revision r.approvals ∨
      ∃ d, Latest request.revision request.proposalFingerprint.text d r.approvals)
    (hterminal : isTerminalRunStatus r.run.status ≠ true) (hne : r.approvals ≠ []) {id : UUID}
    {now : Datetime} (hr : persistProgress r (.approval request) id now = some r') :
    Tied host r'.approvals cp.values cp.next ∧ Moved r r' ∧
      isTerminalRunStatus r'.run.status = false := by
  have hrun : r'.run.status = .pendingApproval := persistProgress_status hr
  simp only [persistProgress, runValues] at hr
  cases hg : getOwnedApproval r.approvals request.revision with
  | none =>
    simp only [hg, Option.ite_none_left_eq_some, Option.some.injEq] at hr
    obtain ⟨-, rfl⟩ := hr
    rcases hrounds with hover | ⟨d, hlatest⟩
    · have hcreated := hover.created id now rfl
      refine ⟨?_, ⟨.inr ⟨.revise, ?_⟩, fun h ↦ absurd h hterminal⟩, rfl⟩
      · rw [hnext]
        exact .inr ⟨request, _, .pending, hb, hk ▸ hcreated⟩
      · have hwaits : r.run.status ≠ .pendingApproval := by
          intro hstatus
          obtain ⟨a, ha, hp⟩ := hcons.waiting hstatus
          rw [(hover.mem ha).2] at hp
          cases hp
        have hpos : request.revision ≠ 0 := by
          intro hzero
          exact hne (List.length_eq_zero_iff.mp (hover.length.trans hzero))
        have hbefore : ledgerOf r =
            ⟨List.replicate request.revision .requestChanges, .working⟩ := by
          rw [ledgerOf, hover.decisions, working_of_status hwaits hterminal]
        have hafter : ∀ run : AgentRun, run.status = .pendingApproval →
            ledgerOf ⟨run, r.approvals ++ [createApproval id request now]⟩ =
              ⟨List.replicate request.revision .requestChanges, .waiting⟩ := by
          intro run hstatus
          rw [ledgerOf, hcreated.decisions, hstatus]
          exact congrArg (Ledger.mk · _) (List.append_nil _)
        rw [hbefore, hafter _ rfl]
        refine if_pos ⟨rfl, ?_, ?_⟩
        · rw [List.getLast?_replicate, if_neg hpos]
        · rw [List.length_replicate]
          exact hle
    · obtain ⟨a, ha, -⟩ := hlatest.get
      rw [hg] at ha
      cases ha
  | some existing =>
    simp only [hg, Option.ite_none_left_eq_some, Option.some.injEq, not_or, not_not] at hr
    obtain ⟨⟨hp, -⟩, rfl⟩ := hr
    obtain ⟨hmem, -⟩ := getOwnedApproval_some hg
    have hstatus := (hcons.pending existing hmem hp).1
    refine ⟨?_, ⟨.inl ?_, fun h ↦ absurd h hterminal⟩, rfl⟩
    · rw [hnext]
      rcases hrounds with hover | ⟨d, hlatest⟩
      · exact .inl (hk ▸ hover)
      · exact .inr ⟨request, _, d, hb, hk ▸ hlatest⟩
    · rw [ledgerOf, ledgerOf, hstatus]
      rfl

theorem moved_output (hcons : Consistent host r cp) {o : AgentGraphOutput}
    (hi : inspectSnapshot host.sha256 host.coercions cp = ⟨.terminal, none, some o⟩)
    (hends : Ends cp.values.revisionCount r.approvals o.status)
    (hclosed : isTerminalRunStatus r.run.status = true → runValues r.run (.output o) = some r.run)
    {id : UUID} {now : Datetime} (hr : persistProgress r (.output o) id now = some r') :
    r'.approvals = r.approvals ∧ Moved r r' ∧ runValues r'.run (.output o) = some r'.run := by
  unfold persistProgress at hr
  cases hv : runValues r.run (.output o) with
  | none =>
    rw [hv] at hr
    cases hr
  | some run =>
    simp only [hv] at hr
    split at hr
    · next hsame =>
      cases hr
      exact ⟨rfl, .refl r, hv.trans (congrArg some hsame.2)⟩
    · next hdiffer =>
      have hterminal : isTerminalRunStatus r.run.status ≠ true := by
        intro hterminal
        rw [hclosed hterminal] at hv
        exact hdiffer ⟨hterminal, (Option.some.inj hv).symm⟩
      have hwaits : r.run.status ≠ .pendingApproval := by
        intro hstatus
        obtain ⟨a, ha, hp⟩ := hcons.waiting hstatus
        obtain ⟨-, request, hrequest, -⟩ := hcons.pending a ha hp
        rw [hi] at hrequest
        cases hrequest
      cases hr
      refine ⟨rfl, ⟨.inr ⟨.finish o.status, ?_⟩, fun h ↦ absurd h hterminal⟩,
        runValues_again hv now⟩
      have hstatus : run.status = terminalRunStatus o.status := (runValues_status hv).2
      have hbefore : ledgerOf r = ⟨decisionsOf r.approvals, .working⟩ := by
        rw [ledgerOf, working_of_status hwaits hterminal]
      have hafter : ledgerOf { r with run := { run with updatedAt := now } } =
          ⟨decisionsOf r.approvals, .ended o.status⟩ := by
        rw [ledgerOf, show ({ run with updatedAt := now } : AgentRun).status = _ from hstatus,
          stageOf_terminal]
      rw [hbefore, hafter]
      exact if_pos ⟨rfl, hends.allowed⟩

end

structure Stepped (host : Host σ) (s s' : State σ) : Prop where
  inStep : InStep host s'
  moved : ∀ r, s.rows = some r → ∃ r', s'.rows = some r' ∧ Moved r r'
  opened : s.rows = none → ∀ r', s'.rows = some r' → ledgerMachine.init (ledgerOf r')

section

variable {s s' : State σ}

theorem Stepped.of_rows (h : InStep host s') (hrows : s'.rows = s.rows) : Stepped host s s' := by
  refine ⟨h, fun r hr ↦ ⟨r, hrows.trans hr, .refl r⟩, fun hnone r' hr' ↦ ?_⟩
  rw [hrows, hnone] at hr'
  cases hr'

theorem stepped_persisted (hi : Inv host s) (h : InStep host s) {r r' : Rows} {cp : Checkpoint}
    {progress : AgentWorkflowProgress} {id : UUID} {now : Datetime} (hr : s.rows = some r)
    (hcp : s.checkpoint = some cp) (hne : r.approvals ≠ [])
    (hp : progressOf (inspectSnapshot host.sha256 host.coercions cp) = some progress)
    (hpersist : persistProgress r progress id now = some r') (hrows : s'.rows = some r')
    (hcheckpoint : s'.checkpoint = s.checkpoint) : Stepped host s s' := by
  obtain ⟨cp', hcp', hcons⟩ := hi.rows r hr
  obtain rfl : cp = cp' := Option.some.inj (hcp.symm.trans hcp')
  have ht : Tied host r.approvals cp.values cp.next := by
    have htied := h.tied cp hcp
    rwa [hr] at htied
  have hkept (hmoved : Moved r r') (htied : Tied host r'.approvals cp.values cp.next)
      (hclosed : isTerminalRunStatus r'.run.status = true → ∃ o,
        inspectSnapshot host.sha256 host.coercions cp = ⟨.terminal, none, some o⟩ ∧
        runValues r'.run (.output o) = some r'.run) : Stepped host s s' := by
    refine ⟨⟨?_, ?_⟩, ?_, ?_⟩
    · intro cp' hcp'
      obtain rfl : cp = cp' := Option.some.inj (hcp.symm.trans (hcheckpoint ▸ hcp'))
      rw [hrows]
      exact htied
    · intro q cp' hq hcp' hterminal
      obtain rfl : cp = cp' := Option.some.inj (hcp.symm.trans (hcheckpoint ▸ hcp'))
      obtain rfl : r' = q := Option.some.inj (hrows.symm.trans hq)
      exact hclosed hterminal
    · intro q hq
      obtain rfl : r = q := Option.some.inj (hr.symm.trans hq)
      exact ⟨r', hrows, hmoved⟩
    · intro hnone
      rw [hr] at hnone
      cases hnone
  rcases tied_progress hcons.graph ht hp with
    ⟨request, rfl, hnext, hinspect, hb, hk, hle, hrounds⟩ |
    ⟨o, rfl, hinspect, hends⟩
  · have hterminal : isTerminalRunStatus r.run.status ≠ true := by
      intro hterminal
      obtain ⟨o, ho, -⟩ := h.closed r cp hr hcp hterminal
      rw [hinspect] at ho
      cases ho
    obtain ⟨htied, hmoved, hopen⟩ :=
      moved_approval hcons hnext hb hk hle hrounds hterminal hne hpersist
    refine hkept hmoved htied fun hterminal' ↦ ?_
    rw [hopen] at hterminal'
    cases hterminal'
  · have hclosed : isTerminalRunStatus r.run.status = true →
        runValues r.run (.output o) = some r.run := by
      intro hterminal
      obtain ⟨o', ho', hvalues⟩ := h.closed r cp hr hcp hterminal
      rw [hinspect] at ho'
      cases ho'
      exact hvalues
    obtain ⟨happrovals, hmoved, hvalues⟩ := moved_output hcons hinspect hends hclosed hpersist
    exact hkept hmoved (happrovals ▸ ht) fun _ ↦ ⟨o, hinspect, hvalues⟩

theorem stepped_started (h : InStep host s) {run : AgentRun} {cp : Checkpoint}
    {progress : AgentWorkflowProgress} {id : UUID} {now : Datetime} (hnone : s.rows = none)
    (hcp : s.checkpoint = some cp)
    (hg : Checkpoints.Inv host.sha256 host.coercions host.context cp)
    (hp : progressOf (inspectSnapshot host.sha256 host.coercions cp) = some progress)
    (hrows : s'.rows = startRows run progress id now)
    (hcheckpoint : s'.checkpoint = s.checkpoint) : Stepped host s s' := by
  have ht : Tied host [] cp.values cp.next := by
    have htied := h.tied cp hcp
    rwa [hnone] at htied
  cases hstart : startRows run progress id now with
  | none =>
    rw [hstart] at hrows
    refine .of_rows ⟨?_, ?_⟩ (hrows.trans hnone.symm)
    · rw [hcheckpoint, hrows]
      intro cp' hcp'
      obtain rfl : cp = cp' := Option.some.inj (hcp.symm.trans hcp')
      exact ht
    · intro r' cp' hr'
      rw [hrows] at hr'
      cases hr'
  | some r =>
    rw [hstart] at hrows
    obtain ⟨run', hv, hr⟩ := Option.map_eq_some_iff.mp hstart
    have hkept (htied : Tied host r.approvals cp.values cp.next)
        (hclosed : isTerminalRunStatus r.run.status = true → ∃ o,
          inspectSnapshot host.sha256 host.coercions cp = ⟨.terminal, none, some o⟩ ∧
          runValues r.run (.output o) = some r.run)
        (hinit : ledgerMachine.init (ledgerOf r)) : Stepped host s s' := by
      refine ⟨⟨?_, ?_⟩, ?_, ?_⟩
      · intro cp' hcp'
        obtain rfl : cp = cp' := Option.some.inj (hcp.symm.trans (hcheckpoint ▸ hcp'))
        rw [hrows]
        exact htied
      · intro q cp' hq hcp' hterminal
        obtain rfl : cp = cp' := Option.some.inj (hcp.symm.trans (hcheckpoint ▸ hcp'))
        obtain rfl : r = q := Option.some.inj (hrows.symm.trans hq)
        exact hclosed hterminal
      · intro q hq
        rw [hnone] at hq
        cases hq
      · intro _ q hq
        obtain rfl : r = q := Option.some.inj (hrows.symm.trans hq)
        exact hinit
    rcases tied_progress hg ht hp with ⟨request, rfl, hnext, hinspect, hb, hk, hle, hrounds⟩ |
      ⟨o, rfl, hinspect, hends⟩
    · rcases hrounds with hover | ⟨d, earlier, a, hempty, -⟩
      · have hcreated := hover.created id now rfl
        cases hv
        cases hr
        refine hkept ?_ nofun (.inl rfl)
        rw [hnext]
        exact .inr ⟨request, _, .pending, hb, hk ▸ hcreated⟩
      · simp at hempty
    · cases hr
      refine hkept ht (fun _ ↦ ⟨o, hinspect, runValues_again hv now⟩) (.inr ?_)
      have hfailed : o.status = .failed := of_decide_eq_true hends.allowed
      have hstatus : run'.status = terminalRunStatus o.status := (runValues_status hv).2
      rw [ledgerOf, show ({ run' with updatedAt := now } : AgentRun).status = _ from hstatus,
        stageOf_terminal, hfailed]
      rfl

theorem stepped (hi : Inv host s) (h : InStep host s) (hc : Change host s s') :
    Stepped host s s' := by
  have hrunning (r : Rows) (hr : r.run.status = .running) :
      isTerminalRunStatus r.run.status ≠ true := by
    rw [hr]
    exact nofun
  cases hc with
  | same hrows hcheckpoint =>
    refine .of_rows ⟨?_, ?_⟩ hrows
    · rw [hrows, hcheckpoint]
      exact h.tied
    · rw [hrows, hcheckpoint]
      exact h.closed
  | opened goal hnone hnone' hcheckpoint =>
    refine .of_rows ⟨?_, ?_⟩ (hnone'.trans hnone.symm)
    · intro cp hcp
      obtain rfl := Option.some.inj (hcheckpoint.symm.trans hcp)
      rw [hnone']
      exact over_nil
    · intro r cp hr
      rw [hnone'] at hr
      cases hr
  | advanced cp cp' w w' hcp hcp' hrows hrun hg hstep =>
    refine .of_rows ⟨?_, ?_⟩ hrows
    · intro q hq
      obtain rfl : cp' = q := Option.some.inj (hcp'.symm.trans hq)
      rw [hrows]
      exact tied_unanswered hg (h.tied cp hcp) hstep
    · intro r q hr _ hterminal
      exact absurd hterminal (hrunning r (hrun r (hrows ▸ hr)))
  | answered r a response cp cp' w w' hr hcp hcp' hrows hrun ha hwaits hstored hstep =>
    refine .of_rows ⟨?_, ?_⟩ hrows
    · intro q hq
      obtain rfl : cp' = q := Option.some.inj (hcp'.symm.trans hq)
      obtain ⟨p, hp, hcons⟩ := hi.rows r hr
      obtain rfl : cp = p := Option.some.inj (hcp.symm.trans hp)
      have htied := h.tied cp hcp
      rw [hr] at htied
      rw [hrows, hr]
      exact tied_answered hcons.graph htied ha hwaits hstored hstep
    · intro q p hq _ hterminal
      obtain rfl : r = q := Option.some.inj (hr.symm.trans (hrows ▸ hq))
      exact absurd hterminal (hrunning r hrun)
  | decided r a submission now hr ha hp hstatus hrows hcheckpoint =>
    obtain ⟨cp, hcp, hcons⟩ := hi.rows r hr
    have htied := h.tied cp hcp
    rw [hr] at htied
    obtain ⟨htied', hmoved⟩ := moved_decided hcons htied ha hp hstatus submission now
    refine ⟨⟨?_, ?_⟩, ?_, ?_⟩
    · intro q hq
      obtain rfl : cp = q := Option.some.inj (hcp.symm.trans (hcheckpoint ▸ hq))
      rw [hrows]
      exact htied'
    · intro q p hq _ hterminal
      obtain rfl := Option.some.inj (hrows.symm.trans hq)
      cases hterminal
    · intro q hq
      obtain rfl : r = q := Option.some.inj (hr.symm.trans hq)
      exact ⟨_, hrows, hmoved⟩
    · intro hnone
      rw [hr] at hnone
      cases hnone
  | persisted r r' cp progress id now hr hcp hne hp hpersist hrows hcheckpoint =>
    exact stepped_persisted hi h hr hcp hne hp hpersist hrows hcheckpoint
  | started run cp progress id now hnone hcp hg hp hrows hcheckpoint =>
    exact stepped_started h hnone hcp hg hp hrows hcheckpoint

theorem inStep_reachable (h : (machine host).Reachable s) : InStep host s := by
  have hboth : Inv host s ∧ InStep host s := by
    refine Machine.Reachable.invariant (fun s ↦ Inv host s ∧ InStep host s) ?_ ?_ h
    · intro s hs
      refine ⟨inv_reachable (.start hs), ?_, ?_⟩
      · intro cp hcp
        rw [hs.2.1] at hcp
        cases hcp
      · intro r cp hr
        rw [hs.1] at hr
        cases hr
    · intro s m s' hs hm
      exact ⟨(inv_step hs.1 hm).1, (stepped hs.1 hs.2 (change_of_step hs.1 hm)).inStep⟩
  exact hboth.2

theorem stepped_reachable (h : (machine host).Reachable s) {m : Move σ}
    (hs : (machine host).step s m = some s') : Stepped host s s' :=
  stepped (inv_reachable h) (inStep_reachable h) (change_of_step (inv_reachable h) hs)

/-- The rows of a run move as its ledger. -/
theorem run_simulates : Simulates (machine host) ledgerMachine fun s ↦ s.rows.map ledgerOf where
  blank s hs := by rw [hs.1, Option.map_none]
  opens s m s' x hr hs hnone hx := by
    obtain ⟨r', hr', rfl⟩ := Option.map_eq_some_iff.mp hx
    exact (stepped_reachable hr hs).opened (Option.map_eq_none_iff.mp hnone) r' hr'
  moves s m s' x hr hs hx := by
    obtain ⟨r, hrows, rfl⟩ := Option.map_eq_some_iff.mp hx
    obtain ⟨r', hr', hmoved⟩ := (stepped_reachable hr hs).moved r hrows
    exact ⟨ledgerOf r', by rw [hr', Option.map_some], hmoved.ledger⟩

theorem final_leads (h : (machine host).Reachable s) {t : State σ} (ht : (machine host).Leads s t)
    {r : Rows} (hr : s.rows = some r) (hterminal : isTerminalRunStatus r.run.status = true) :
    t.rows = some r := by
  refine Machine.Leads.stable (fun t ↦ t.rows = some r) ?_ h ht hr
  intro t m t' hreach hrows hs
  obtain ⟨r', hr', hmoved⟩ := (stepped_reachable hreach hs).moved r hrows
  rw [hr', hmoved.final hterminal]

end

/-- In every interleaving of its calls a run goes through its rounds as its ledger does: the
owner decides about one plan after another, asking for changes of all but the last, at most
three times, and the end is one that the last decision allows. The approvals are numbered
without a gap, and nothing about a run changes once it has ended. -/
theorem run_lifecycle {s : State σ} (h : (machine host).Reachable s) {r : Rows}
    (hr : s.rows = some r) :
    ledgerMachine.Reachable (ledgerOf r) ∧ Sound (ledgerOf r) ∧
      r.approvals.map (·.revision) = List.range r.approvals.length ∧
      ∀ t, (machine host).Leads s t → ∃ r', t.rows = some r' ∧
        ledgerMachine.Leads (ledgerOf r) (ledgerOf r') ∧
        ∀ status, (ledgerOf r).stage = .ended status → r' = r := by
  have hview : (s.rows.map ledgerOf) = some (ledgerOf r) := by rw [hr, Option.map_some]
  have hledger := run_simulates.reachable h hview
  refine ⟨hledger, sound_reachable hledger, ?_, fun t ht ↦ ?_⟩
  · obtain ⟨cp, hcp, -⟩ := (inv_reachable h).rows r hr
    have htied := (inStep_reachable h).tied cp hcp
    rw [hr] at htied
    exact htied.numbered
  · obtain ⟨l, hl, hleads⟩ := run_simulates.leads h ht hview
    obtain ⟨r', hr', rfl⟩ := Option.map_eq_some_iff.mp hl
    refine ⟨r', hr', hleads, fun status hstage ↦ ?_⟩
    have hfinal := final_leads h ht hr (terminal_of_stage hstage)
    exact Option.some.inj (hr'.symm.trans hfinal)

/-- A run whose first plan was sent back, and waits with its second one. -/
theorem run_lifecycle_sample :
    ∃ s r, (machine Checkpoints.sampleHost).Reachable s ∧ s.rows = some r ∧
      ledgerOf r = ⟨[.requestChanges], .waiting⟩ ∧ ledgerMachine.Reachable (ledgerOf r) ∧
      r.approvals.map (·.revision) = List.range r.approvals.length := by
  have hexec : ((machine Checkpoints.sampleHost).exec sampleStart
      (changesMoves ++ [.persist 1 ⟨3, by decide⟩ sampleNow])).bind
        (fun s ↦ s.rows.map ledgerOf) = some ⟨[.requestChanges], .waiting⟩ := by
    decide +kernel
  obtain ⟨s, hs, hexec⟩ := Option.bind_eq_some_iff.mp hexec
  obtain ⟨r, hr, hledger⟩ := Option.map_eq_some_iff.mp hexec
  have hreach := reachable_sampleStart.exec hs
  obtain ⟨hreachable, -, hnumbered, -⟩ := run_lifecycle hreach hr
  exact ⟨s, r, hreach, hr, hledger, hreachable, hnumbered⟩

end LearningTasks.Services.RunLifecycle
