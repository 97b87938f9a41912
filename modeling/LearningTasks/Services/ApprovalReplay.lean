import LearningTasks.Services.ApprovalProtocol

namespace LearningTasks.Services.ApprovalReplay

open Library.Strings Library.Transition Schemas.Scalars Models.Agent Agent Agent.Schemas
  Agent.State Agent.Approval Agent.Graph AgentWorkflow ApprovalProtocol

/-- The nodes that a graph comes to when it asks for no further approval. -/
def Closed : List AgentRunNode → Prop
  | [] | [.executeTasks] | [.verifyResult] | [.summarize] => True
  | _ => False

section

variable {σ : Type} {host : Host σ} {cp cp' : Checkpoint} {w w' : σ}

theorem closed_superstep (h : Checkpoints.WellFormed cp.values) (hc : Closed cp.next)
    {answer : Option AgentApprovalResponse}
    (hs : superstep host cp answer w = (some cp', w')) : Closed cp'.next := by
  rcases Checkpoints.superstep_cases h hs with ⟨ho, -⟩ | ⟨node, r, hnext, hr, ho⟩
  · cases ho
  · rw [hnext] at hc
    cases r with
    | raised => cases ho
    | interrupt value =>
      cases ho
      exact hnext ▸ hc
    | update u =>
      obtain ⟨next, hroute, rfl⟩ := Option.map_eq_some_iff.mp ho.symm
      cases node with
      | executeTasks | verifyResult | summarize =>
        cases hroute
        trivial
      | analyzeGoal | loadContext | generatePlan | validatePlan | requestApproval => cases hc

theorem revisionCount_of_unanswered (h : Checkpoints.WellFormed cp.values)
    (hs : superstep (Checkpoints.durable host) cp none w = (some cp', w')) :
    cp'.values.revisionCount = cp.values.revisionCount := by
  rcases Checkpoints.superstep_cases h hs with ⟨ho, -⟩ | ⟨node, r, hnext, hr, ho⟩
  · cases ho
  · cases r with
    | raised => cases ho
    | interrupt value =>
      cases ho
      rfl
    | update u =>
      obtain ⟨next, -, rfl⟩ := Option.map_eq_some_iff.mp ho.symm
      by_cases hn : node = .requestApproval
      · subst hn
        simp only [runNode, approvalNode, Checkpoints.durable, ↓reduceIte] at hr
        split at hr
        · cases hr
          rfl
        · cases hr
      · exact Checkpoints.runNode_revisionCount_eq hn hr

theorem superstep_of_answered (h : Checkpoints.WellFormed cp.values)
    (hnext : cp.next = [.requestApproval]) {response : AgentApprovalResponse}
    (hs : superstep (Checkpoints.durable host) cp (some response) w = (some cp', w')) :
    Closed cp'.next ∨ response.decision = .requestChanges ∧
      cp'.values.revisionCount = cp.values.revisionCount + 1 := by
  rcases Checkpoints.superstep_cases h hs with ⟨ho, -⟩ | ⟨node, r, hnode, hr, ho⟩
  · cases ho
  · rw [hnext] at hnode
    cases hnode
    cases r with
    | raised => cases ho
    | interrupt value =>
      obtain ⟨-, hi⟩ := Checkpoints.runNode_interrupt hr
      cases (Checkpoints.approvalNode_interrupt hi).1
    | update u =>
      obtain ⟨next, hroute, rfl⟩ := Option.map_eq_some_iff.mp ho.symm
      simp only [runNode, approvalNode, Checkpoints.durable, ↓reduceIte] at hr
      split at hr
      · cases hr
        cases hroute
        exact .inl trivial
      · next request fingerprint hb =>
        cases hr
        cases hd : response.decision with
        | approved =>
          simp only [applyApprovalResponse, hd, route] at hroute
          split at hroute <;> cases hroute <;> exact .inl trivial
        | rejected =>
          simp only [applyApprovalResponse, hd, route] at hroute
          split at hroute <;> cases hroute <;> exact .inl trivial
        | requestChanges =>
          by_cases hl : cp.values.revisionCount ≥ maxPlanRevisions
          · simp only [applyApprovalResponse, hd, hl, route, ↓reduceIte] at hroute
            split at hroute <;> cases hroute <;> exact .inl trivial
          · refine .inr ⟨rfl, ?_⟩
            simp only [applyApprovalResponse, hd, hl, ↓reduceIte]

end

variable {σ : Type}

structure Newest (rows : Rows) (a : AgentApproval) : Prop where
  mem : a ∈ rows.approvals
  decided : a.decision ≠ .pending
  latest : ∀ b ∈ rows.approvals, b.revision ≤ a.revision

def Answered (cp : Checkpoint) (a : AgentApproval) : Prop :=
  Closed cp.next ∨ a.decision = .requestChanges ∧ cp.values.revisionCount = a.revision + 1

/-- No decision of the run is newer than that of a submission. -/
def NoNewer (rows : Rows) (submission : AgentApprovalSubmission) : Prop :=
  ∀ a ∈ rows.approvals, a.decision ≠ .pending → a.revision ≤ submission.revision

instance (rows : Rows) (submission : AgentApprovalSubmission) :
    Decidable (NoNewer rows submission) :=
  inferInstanceAs (Decidable (∀ a ∈ rows.approvals, a.decision ≠ .pending →
    a.revision ≤ submission.revision))

/-- What a call that continues, or returns with a request, has to do with the
decisions. -/
def Following (rows : Option Rows) (checkpoint : Option Checkpoint) (call : Call) : Prop :=
  match call.phase with
  | .advancing none => ∀ r cp, rows = some r → checkpoint = some cp →
      ∃ a, Newest r a ∧ Answered cp a
  | .returned (.approval request) => ∀ r, rows = some r → NoNewer r call.submission →
      ∀ a, Recorded r call a → a.decision = .requestChanges ∧ request.revision = a.revision + 1
  | _ => True

structure Follows (host : Host σ) (s : State σ) : Prop where
  running : ∀ r cp, s.rows = some r → s.checkpoint = some cp → r.run.status = .running →
    ∃ a, Newest r a ∧ (WaitsFor host cp a.revision a.proposalFingerprint ∨ Answered cp a)
  calls : ∀ i call, s.calls i = some call → Following s.rows s.checkpoint call

variable {host : Host σ} {s s' : State σ}

theorem Following.of_idle {call : Call} (h : call.phase.working = false) (rows : Option Rows)
    (checkpoint : Option Checkpoint) : Following rows checkpoint call := by
  unfold Following
  cases hp : call.phase with
  | waiting => trivial
  | ended => trivial
  | locked | recorded a | advancing answer | returned progress => rw [hp] at h; cases h

theorem Following.of_none {checkpoint : Option Checkpoint} {call : Call}
    (h : PhaseInv host none checkpoint call) (rows : Option Rows) (checkpoint' : Option Checkpoint) :
    Following rows checkpoint' call := by
  unfold PhaseInv at h
  unfold Following
  cases hp : call.phase with
  | waiting | locked | recorded a | ended => trivial
  | advancing answer =>
    rw [hp] at h
    obtain ⟨r, a, cp, hr, -⟩ := h
    cases hr
  | returned progress =>
    rw [hp] at h
    obtain ⟨r, a, cp, hr, -⟩ := h
    cases hr

theorem Follows.same (h : Follows host s) {i : ℕ} {call' : Call} (hrows : s'.rows = s.rows)
    (hcheckpoint : s'.checkpoint = s.checkpoint)
    (hcalls : s'.calls = Function.update s.calls i (some call'))
    (hcall : Following s.rows s.checkpoint call') : Follows host s' := by
  refine ⟨?_, fun j d hd ↦ ?_⟩
  · rw [hrows, hcheckpoint]
    exact h.running
  · rw [hrows, hcheckpoint]
    rw [hcalls] at hd
    rcases calls_cases hd with ⟨-, rfl⟩ | ⟨-, hd⟩
    · exact hcall
    · exact h.calls j d hd

theorem Follows.held (hi : Inv host s) {i : ℕ} {call call' : Call} (hc : s.calls i = some call)
    (hw : call.phase.working = true) (hcalls : s'.calls = Function.update s.calls i (some call'))
    (hrunning : ∀ r cp, s'.rows = some r → s'.checkpoint = some cp → r.run.status = .running →
      ∃ a, Newest r a ∧ (WaitsFor host cp a.revision a.proposalFingerprint ∨ Answered cp a))
    (hcall : Following s'.rows s'.checkpoint call') : Follows host s' := by
  refine ⟨hrunning, fun j d hd ↦ ?_⟩
  rw [hcalls] at hd
  rcases calls_cases hd with ⟨-, rfl⟩ | ⟨hj, hd⟩
  · exact hcall
  · exact .of_idle (hi.others_idle hc hw hj hd) _ _

theorem WaitsFor.revisionCount {cp : Checkpoint} {revision : ℕ} {fingerprint : Text}
    (hg : Checkpoints.Inv host.sha256 host.coercions host.context cp)
    (h : WaitsFor host cp revision fingerprint) :
    cp.next = [.requestApproval] ∧ revision = cp.values.revisionCount := by
  obtain ⟨request, hi, rfl, -⟩ := h
  have hp : progressOf (inspectSnapshot host.sha256 host.coercions cp) = some (.approval request) := by
    rw [hi]
    rfl
  refine ⟨?_, ?_⟩
  · rcases Checkpoints.inspect_cases hg with ⟨_, _, hnext, -, -⟩ | ⟨o, -, -, ho⟩ | ⟨-, -, ho⟩ | ⟨-, ho⟩
    · exact hnext
    · rw [ho] at hi
      cases hi
    · rw [ho] at hi
      cases hi
    · rw [ho] at hi
      cases hi
  · rcases progressOf_eq hg hp with ⟨q, hq, hcount, -⟩ | ⟨o, ho, -⟩
    · cases hq
      exact hcount
    · cases ho

theorem storedResponse_decision {a : AgentApproval} {response : AgentApprovalResponse}
    (h : storedResponse a = some response) : a.decision = approvalStatus response.decision := by
  rcases a with ⟨id, revision, fingerprint, decision, feedback, decidedAt, createdAt⟩
  unfold storedResponse at h
  cases decision with
  | pending => cases h
  | approved | rejected | requestChanges =>
    cases feedback with
    | none =>
      obtain ⟨-, h⟩ := Option.dite_none_right_eq_some.mp h
      cases h <;> rfl
    | some text =>
      obtain ⟨t, -, h⟩ := Option.bind_eq_some_iff.mp h
      obtain ⟨-, h⟩ := Option.dite_none_right_eq_some.mp h
      cases h <;> rfl

theorem reconcile_request {run : AgentRun} {a : AgentApproval} {i : AgentCheckpointInspection}
    {request : AgentApprovalInterrupt}
    (h : reconcile run a i = .ok (.persist (.approval request))) :
    a.decision = .requestChanges ∧ request.revision = a.revision + 1 := by
  unfold reconcile at h
  repeat' split at h
  all_goals cases h
  assumption

theorem persistProgress_status {rows rows' : Rows} {progress : AgentWorkflowProgress} {id : UUID}
    {now : Datetime} (h : persistProgress rows progress id now = some rows') :
    rows'.run.status = progressStatus progress := by
  unfold persistProgress at h
  cases hv : runValues rows.run progress with
  | none => cases progress <;> simp [hv] at h
  | some run =>
    have hs := (runValues_status hv).2
    cases progress with
    | approval request =>
      simp only [hv] at h
      repeat' split at h
      all_goals cases h
      all_goals exact hs
    | output o =>
      simp only [hv] at h
      split at h
      · next hm =>
        cases h
        exact hm.2 ▸ hs
      · cases h
        exact hs

theorem progressStatus_ne_running (progress : AgentWorkflowProgress) :
    progressStatus progress ≠ .running := by
  cases progress with
  | approval request => exact nofun
  | output o => cases ho : o.status <;> simp [progressStatus, terminalRunStatus, ho]

theorem Newest.eq {rows : Rows} {cp : Checkpoint} (h : Consistent host rows cp)
    {a b : AgentApproval} (ha : Newest rows a) (hb : b ∈ rows.approvals)
    (hle : a.revision ≤ b.revision) : b = a :=
  List.inj_on_of_nodup_map h.revisions hb ha.mem (le_antisymm (ha.latest b hb) hle)

theorem newest_decided {rows : Rows} {cp : Checkpoint} (h : Consistent host rows cp)
    {a : AgentApproval} (ha : a ∈ rows.approvals) (hp : a.decision = .pending)
    (submission : AgentApprovalSubmission) (now : Datetime) :
    Newest (decidedRows rows a submission now) (updateApproval a submission now) ∧
      WaitsFor host cp a.revision a.proposalFingerprint := by
  have hw := (h.pending a ha hp).2
  have hmax : ∀ b ∈ rows.approvals, b.revision ≤ a.revision :=
    fun b hb ↦ (WaitsFor.revisionCount h.graph hw).2 ▸ h.bounded b hb
  refine ⟨⟨List.mem_map.mpr ⟨a, ha, if_pos rfl⟩, approvalStatus_ne_pending _, ?_⟩, hw⟩
  intro b hb
  obtain ⟨d, hd, rfl⟩ := List.mem_map.mp hb
  split
  · exact le_rfl
  · exact hmax d hd

theorem follows_record {rows : Rows} {approval : AgentApproval} (hi : Inv host s)
    (h : Follows host s) {i : ℕ} {call : Call} (hc : s.calls i = some call)
    (hl : call.phase = .locked) {now : Datetime}
    (hr : recordDecision s.rows call.userId call.submission now = .ok (rows, approval)) :
    Follows host { s.setPhase i call (.recorded approval) with rows := some rows } := by
  have hw : call.phase.working = true := by rw [hl]; rfl
  obtain ⟨r, hrows, -, hcases⟩ := recordDecision_ok hr
  obtain ⟨cp, hcp, hcons⟩ := hi.rows r hrows
  refine .held hi hc hw rfl ?_ trivial
  rintro _ cp' ⟨⟩ hcp' hrun
  rcases hcases with ⟨-, -, -, rfl⟩ | ⟨a, hmem, -, hp, -, -, -, rfl⟩
  · exact h.running _ cp' hrows hcp' hrun
  · obtain rfl : cp = cp' := Option.some.inj (hcp.symm.trans hcp')
    obtain ⟨hnew, hwaits⟩ := newest_decided hcons hmem hp call.submission now
    exact ⟨_, hnew, .inl hwaits⟩

theorem follows_inspect (hi : Inv host s) (h : Follows host s) {i : ℕ} {call : Call}
    (hc : s.calls i = some call) (hs : callStep host s i call (.inspect i) = some s') :
    Follows host s' := by
  simp only [callStep] at hs
  split at hs
  · next a rows cp hphase hrows hcp =>
    obtain ⟨cp', hcp', hcons⟩ := hi.rows rows hrows
    obtain rfl : cp = cp' := Option.some.inj (hcp.symm.trans hcp')
    have hpi := hi.phases i call hc
    simp only [PhaseInv, hphase] at hpi
    obtain ⟨r, hr, hrec⟩ := hpi
    obtain rfl : rows = r := Option.some.inj (hrows.symm.trans hr)
    cases hrecover : reconcile rows.run a (inspectSnapshot host.sha256 host.coercions cp) with
    | error e =>
      rw [hrecover] at hs
      cases hs
      exact h.same rfl rfl rfl trivial
    | ok recovery =>
      rw [hrecover] at hs
      cases recovery with
      | persist progress =>
        cases hs
        refine h.same rfl rfl rfl ?_
        cases progress with
        | output o => trivial
        | approval request =>
          intro r hr _ b hb
          obtain rfl : rows = r := Option.some.inj (hrows.symm.trans hr)
          obtain rfl : b = a := List.inj_on_of_nodup_map hcons.revisions hb.2.1 hrec.2.1
            (hb.2.2.1.trans hrec.2.2.1.symm)
          exact reconcile_request hrecover
      | «continue» =>
        cases hs
        have hrun : rows.run.status = .running := reconcile_ok hcons hrecover
        obtain ⟨b, hb, hwaits | hanswered⟩ := h.running rows cp hrows hcp hrun
        · obtain ⟨request, hinspect, -⟩ := hwaits
          rw [hinspect] at hrecover
          simp only [reconcile] at hrecover
          repeat' split at hrecover
          all_goals cases hrecover
        · refine h.same rfl rfl rfl fun r cp' hr hcp' ↦ ?_
          obtain rfl : rows = r := Option.some.inj (hrows.symm.trans hr)
          obtain rfl : cp = cp' := Option.some.inj (hcp.symm.trans hcp')
          exact ⟨b, hb, hanswered⟩
      | resume response =>
        cases hs
        exact h.same rfl rfl rfl trivial
  · cases hs

theorem advanceCheckpoint_superstep {cp cp' : Checkpoint} {answer : Option AgentApprovalResponse}
    {w w' : σ} {outcome : Advanced} (h : advanceCheckpoint host cp answer w = (outcome, cp', w')) :
    (outcome = .failed ∧ cp' = cp) ∨
      superstep (Checkpoints.durable host) cp answer w = (some cp', w') := by
  unfold advanceCheckpoint at h
  split at h
  · cases h
    exact .inl ⟨rfl, rfl⟩
  · next hs =>
    repeat' split at h
    all_goals cases h
    all_goals exact .inr hs

theorem Closed.not_waits {cp : Checkpoint} (hc : Closed cp.next) {revision : ℕ} {fingerprint : Text}
    (hg : Checkpoints.Inv host.sha256 host.coercions host.context cp) :
    ¬ WaitsFor host cp revision fingerprint := by
  intro h
  rw [(WaitsFor.revisionCount hg h).1] at hc
  exact hc

theorem answered_superstep {rows : Rows} {cp cp' : Checkpoint} (hcons : Consistent host rows cp)
    {a b : AgentApproval} (ha : Newest rows a) (hb : b ∈ rows.approvals)
    {answer : Option AgentApprovalResponse}
    (hanswer : ∀ response, answer = some response →
      storedResponse b = some response ∧ WaitsFor host cp b.revision b.proposalFingerprint)
    (hgone : answer = none → Answered cp a) {w w' : σ}
    (hs : superstep (Checkpoints.durable host) cp answer w = (some cp', w')) : Answered cp' a := by
  have hwf := hcons.graph.wellFormed
  cases answer with
  | none =>
    rcases hgone rfl with hc | ⟨hd, hcount⟩
    · exact .inl (closed_superstep hwf hc hs)
    · exact .inr ⟨hd, (revisionCount_of_unanswered hwf hs).trans hcount⟩
  | some response =>
    obtain ⟨hstored, hwaits⟩ := hanswer response rfl
    obtain ⟨hnext, hcount⟩ := WaitsFor.revisionCount hcons.graph hwaits
    obtain rfl : b = a := ha.eq hcons hb (hcount ▸ hcons.bounded a ha.mem)
    rcases superstep_of_answered hwf hnext hs with hc | ⟨hd, hcount'⟩
    · exact .inl hc
    · refine .inr ⟨?_, hcount ▸ hcount'⟩
      rw [storedResponse_decision hstored, hd]
      rfl

theorem follows_advance (hi : Inv host s) (h : Follows host s) {i : ℕ} {call : Call}
    (hc : s.calls i = some call) (hs : callStep host s i call (.advance i) = some s') :
    Follows host s' := by
  simp only [callStep] at hs
  split at hs
  · next answer cp hphase hcp =>
    have hw : call.phase.working = true := by rw [hphase]; rfl
    have hpi := hi.phases i call hc
    simp only [PhaseInv, hphase] at hpi
    obtain ⟨rows, b, cp', hrows, hcp', hrec, hrun, hanswer⟩ := hpi
    obtain rfl : cp = cp' := Option.some.inj (hcp.symm.trans hcp')
    obtain ⟨cp', hcp', hcons⟩ := hi.rows rows hrows
    obtain rfl : cp = cp' := Option.some.inj (hcp.symm.trans hcp')
    obtain ⟨a, ha, hstate⟩ := h.running rows cp hrows hcp hrun
    have hgone : answer = none → Answered cp a := by
      rintro rfl
      have hf := h.calls i call hc
      simp only [Following, hphase] at hf
      obtain ⟨d, hd, hanswered⟩ := hf rows cp hrows hcp
      obtain rfl := ha.eq hcons hd.mem (hd.latest a ha.mem)
      exact hanswered
    rcases hadv : advanceCheckpoint host cp answer s.world with ⟨outcome, cp₁, w₁⟩
    have hstep := advanceCheckpoint_superstep hadv
    have hreturned := (advanceCheckpoint_spec hadv).2
    have hrunning : ∀ r cp', s.rows = some r → some cp₁ = some cp' → r.run.status = .running →
        ∃ a, Newest r a ∧ (WaitsFor host cp' a.revision a.proposalFingerprint ∨ Answered cp' a) := by
      rintro r _ hr ⟨⟩ -
      obtain rfl : rows = r := Option.some.inj (hrows.symm.trans hr)
      rcases hstep with ⟨-, rfl⟩ | hstep
      · exact ⟨a, ha, hstate⟩
      · exact ⟨a, ha, .inr (answered_superstep hcons ha hrec.2.1 hanswer hgone hstep)⟩
    rw [hadv] at hs
    cases outcome with
    | failed =>
      cases hs
      exact .held hi hc hw rfl hrunning trivial
    | running =>
      have hanswered := answered_superstep hcons ha hrec.2.1 hanswer hgone
        (hstep.resolve_left fun hf ↦ by cases hf.1)
      cases hs
      refine .held hi hc hw rfl hrunning ?_
      rintro r _ hr ⟨⟩
      obtain rfl : rows = r := Option.some.inj (hrows.symm.trans hr)
      exact ⟨a, ha, hanswered⟩
    | returned progress =>
      have hsuper := hstep.resolve_left fun hf ↦ by cases hf.1
      have hanswered := answered_superstep hcons ha hrec.2.1 hanswer hgone hsuper
      cases hs
      refine .held hi hc hw rfl hrunning ?_
      cases progress with
      | output o => trivial
      | approval request =>
        intro r hr hnewer d hd
        obtain rfl : rows = r := Option.some.inj (hrows.symm.trans hr)
        have hle : a.revision ≤ d.revision := hd.2.2.1 ▸ hnewer a ha.mem ha.decided
        obtain rfl := ha.eq hcons hd.2.1 hle
        have hg := (hcons.advance hrun hsuper).graph
        rcases progressOf_eq hg (hreturned _ rfl) with ⟨q, hq, hcount, hinspect⟩ | ⟨o, ho, -⟩
        · cases hq
          rcases hanswered with hclosed | ⟨hdecision, hrevision⟩
          · exact absurd ⟨request, hinspect, rfl, rfl⟩ (hclosed.not_waits hg)
          · exact ⟨hdecision, hcount.trans hrevision⟩
        · cases ho
  · cases hs

theorem follows_persist (hi : Inv host s) (h : Follows host s) {i : ℕ} {call : Call}
    (hc : s.calls i = some call) {id : UUID} {now : Datetime}
    (hs : callStep host s i call (.persist i id now) = some s') : Follows host s' := by
  simp only [callStep] at hs
  split at hs
  · next progress rows hphase hrows =>
    have hw : call.phase.working = true := by rw [hphase]; rfl
    cases hpersist : persistProgress rows progress id now with
    | none =>
      rw [hpersist] at hs
      cases hs
      exact h.same rfl rfl rfl trivial
    | some rows' =>
      rw [hpersist] at hs
      cases hs
      refine .held hi hc hw rfl ?_ trivial
      rintro _ cp ⟨⟩ - hrun
      rw [persistProgress_status hpersist] at hrun
      exact absurd hrun (progressStatus_ne_running progress)
  · cases hs

theorem follows_callStep (hi : Inv host s) (h : Follows host s) {i : ℕ} {call : Call}
    (hc : s.calls i = some call) {m : Move σ} (hm : m.caller = some i)
    (hs : callStep host s i call m = some s') : Follows host s' := by
  cases m with
  | acquire j =>
    simp only [callStep] at hs
    split at hs
    · cases hs
      exact h.same rfl rfl rfl trivial
    · cases hs
  | record j now =>
    simp only [callStep] at hs
    split at hs
    · next hphase =>
      cases hr : recordDecision s.rows call.userId call.submission now with
      | error e =>
        rw [hr] at hs
        cases hs
        exact h.same rfl rfl rfl trivial
      | ok pair =>
        obtain ⟨rows, a⟩ := pair
        rw [hr] at hs
        cases hs
        exact follows_record hi h hc hphase hr
    · cases hs
  | inspect j => exact follows_inspect hi h hc hs
  | advance j => exact follows_advance hi h hc hs
  | persist j id now => exact follows_persist hi h hc hs
  | crash j =>
    simp only [callStep] at hs
    split at hs
    · cases hs
      exact h.same rfl rfl rfl trivial
    · cases hs
      exact h.same rfl rfl rfl trivial
  | call j userId submission => cases hs
  | start id userId goal now => cases hs
  | startAdvance => cases hs
  | startCommit id now => cases hs
  | startCrash => cases hs
  | outside w => cases hs

theorem follows_startStep (hi : Inv host s) (h : Follows host s) {m : Move σ}
    (hs : startStep host s m = some s') : Follows host s' := by
  have hcalls (hrows : s.rows = none) (rows : Option Rows) (checkpoint : Option Checkpoint) :
      ∀ i call, s.calls i = some call → Following rows checkpoint call := by
    intro i call hc
    have hp := hi.phases i call hc
    rw [hrows] at hp
    exact .of_none hp _ _
  cases m with
  | start id userId goal now =>
    simp only [startStep] at hs
    split at hs
    · next hstart =>
      have hrows : s.rows = none := by simpa [hstart, StartInv] using hi.start
      cases hs
      refine ⟨fun r cp hr ↦ ?_, hcalls hrows _ _⟩
      rw [hrows] at hr
      cases hr
    · cases hs
  | startAdvance =>
    simp only [startStep] at hs
    split at hs
    · next run cp hstart hcp =>
      have hstartInv := hi.start
      rw [hstart] at hstartInv
      have hrows : s.rows = none := hstartInv.1
      cases hs
      refine ⟨fun r cp hr ↦ ?_, hcalls hrows _ _⟩
      rw [hrows] at hr
      cases hr
    · cases hs
  | startCommit id now =>
    simp only [startStep] at hs
    split at hs
    · next run progress hstart =>
      have hstartInv := hi.start
      rw [hstart] at hstartInv
      have hrows : s.rows = none := hstartInv.1
      cases hs
      refine ⟨fun r cp hr _ hrun ↦ ?_, hcalls hrows _ _⟩
      obtain ⟨run', hv, rfl⟩ := Option.map_eq_some_iff.mp hr
      exact absurd ((runValues_status hv).2.symm.trans hrun) (progressStatus_ne_running progress)
    · cases hs
  | startCrash =>
    cases hs
    exact ⟨h.running, h.calls⟩
  | call i userId submission => cases hs
  | acquire i => cases hs
  | record i now => cases hs
  | inspect i => cases hs
  | advance i => cases hs
  | persist i id now => cases hs
  | crash i => cases hs
  | outside w => cases hs

theorem follows_step (hi : Inv host s) (h : Follows host s) {m : Move σ}
    (hs : step host s m = some s') : Follows host s' := by
  rcases step_cases hs with ⟨i, userId, submission, rfl, hn, rfl⟩ | ⟨w, rfl, rfl⟩ | ⟨-, hs⟩ |
    ⟨i, call, hm, hc, hs⟩
  · exact h.same rfl rfl rfl trivial
  · exact ⟨h.running, h.calls⟩
  · exact follows_startStep hi h hs
  · exact follows_callStep hi h hc hm hs

theorem follows_reachable (h : (machine host).Reachable s) : Follows host s := by
  have hboth : Inv host s ∧ Follows host s := by
    refine Machine.Reachable.invariant (fun s ↦ Inv host s ∧ Follows host s) ?_ ?_ h
    · intro s hinit
      have hrows : s.rows = none := hinit.1
      have hcalls : s.calls = fun _ ↦ none := hinit.2.2.2.1
      refine ⟨inv_reachable (.start hinit), fun r cp hr ↦ ?_, fun i call hc ↦ ?_⟩
      · rw [hrows] at hr
        cases hr
      · rw [hcalls] at hc
        cases hc
    · intro s m s' hs hm
      exact ⟨(inv_step hs.1 hm).1, follows_step hs.1 hs.2 hm⟩
  exact hboth.2

def returns (s : State σ) (i : ℕ) (id : UUID) (now : Datetime) : Option (Call × Rows) :=
  (s.calls i).bind fun call ↦
    match call.phase, s.rows with
    | .returned progress, some rows =>
      (persistProgress rows progress id now).map fun rows ↦ (call, rows)
    | _, _ => none

def snapshot (rows : Rows) : AgentRun × Option AgentApproval :=
  (rows.run, getLatestOwnedApproval rows.approvals)

section

variable (host)

/-- What a submission leaves and returns that executes no node. -/
def replay (rows : Rows) (cp : Checkpoint) (userId : UUID) (submission : AgentApprovalSubmission)
    (recordedAt : Datetime) (id : UUID) (now : Datetime) : Option Rows :=
  match recordDecision (some rows) userId submission recordedAt with
  | .error _ => none
  | .ok (rows, approval) =>
    match reconcile rows.run approval (inspectSnapshot host.sha256 host.coercions cp) with
    | .ok (.persist progress) => persistProgress rows progress id now
    | _ => none

/-- The checkpoint is terminal, or the clock reads what the run has. -/
def KeepsClock (rows : Rows) (cp : Checkpoint) (now : Datetime) : Prop :=
  (inspectSnapshot host.sha256 host.coercions cp).status = .terminal ∨ now = rows.run.updatedAt

/-- A move that persists nothing, or keeps the clock of the run. -/
def Quiet (s : State σ) : Move σ → Prop
  | .persist _ _ now => ∀ r cp, s.rows = some r → s.checkpoint = some cp → KeepsClock host r cp now
  | _ => True

end

def refreshed (rows : Rows) (progress : AgentWorkflowProgress) (now : Datetime) : Rows :=
  match progress with
  | .output _ => rows
  | .approval _ => { rows with run := { rows.run with updatedAt := now } }

theorem runValues_again {run run' : AgentRun} {progress : AgentWorkflowProgress}
    (h : runValues run progress = some run') (now : Datetime) :
    runValues { run' with updatedAt := now } progress = some { run' with updatedAt := now } := by
  cases progress with
  | approval request =>
    cases h
    rfl
  | output o =>
    rw [runValues] at h ⊢
    split at h
    · cases h
      rfl
    · obtain ⟨metrics, hm, rfl⟩ := Option.map_eq_some_iff.mp h
      simp only [hm, Option.map_some]

theorem isTerminalRunStatus_progressStatus (o : AgentGraphOutput) :
    isTerminalRunStatus (progressStatus (.output o)) = true := by
  cases ho : o.status <;> simp [progressStatus, terminalRunStatus, ho, isTerminalRunStatus]

theorem persistProgress_again {rows rows' : Rows} {progress : AgentWorkflowProgress} {id : UUID}
    {now : Datetime} (h : persistProgress rows progress id now = some rows') (id' : UUID)
    (now' : Datetime) :
    persistProgress rows' progress id' now' = some (refreshed rows' progress now') := by
  have hstatus := persistProgress_status h
  unfold persistProgress at h
  cases hv : runValues rows.run progress with
  | none => cases progress <;> simp [hv] at h
  | some run =>
    have hagain := runValues_again hv
    cases progress with
    | output o =>
      have hvalues : runValues rows'.run (.output o) = some rows'.run := by
        simp only [hv] at h
        split at h
        · next hm =>
          cases h
          exact hv.trans (congrArg some hm.2)
        · cases h
          exact hagain now
      simp only [persistProgress, hvalues, hstatus, isTerminalRunStatus_progressStatus, and_self,
        ↓reduceIte, refreshed]
    | approval request =>
      simp only [hv] at h
      have hpending : ∃ existing, rows'.run = { run with updatedAt := now } ∧
          getOwnedApproval rows'.approvals request.revision = some existing ∧
          existing.decision = .pending ∧
          existing.proposalFingerprint = request.proposalFingerprint.text := by
        split at h
        · next hnone =>
          split at h
          · cases h
          · cases h
            refine ⟨createApproval id request now, rfl, ?_, rfl, rfl⟩
            simp only [getOwnedApproval] at hnone ⊢
            rw [List.find?_append, hnone, Option.none_or]
            simp [createApproval]
        · next existing hexisting =>
          split at h
          · cases h
          · next hc =>
            cases h
            simp only [not_or, not_not] at hc
            exact ⟨existing, rfl, hexisting, hc.1, hc.2⟩
      obtain ⟨existing, hrun, hexisting, hp, hf⟩ := hpending
      have hvalues : runValues rows'.run (.approval request) = some rows'.run := by
        rw [hrun]
        exact hagain now
      simp only [persistProgress, hvalues, hexisting, hp, hf, not_true_eq_false, or_self, ↓reduceIte,
        refreshed, ne_eq]

structure Settled (host : Host σ) (s : State σ) (call : Call) (rows : Rows) (cp : Checkpoint)
    (progress : AgentWorkflowProgress) : Prop where
  stored : s.rows = some rows
  reached : s.checkpoint = some cp
  consistent : Consistent host rows cp
  returned : progressOf (inspectSnapshot host.sha256 host.coercions cp) = some progress
  recorded : ∃ a, Recorded rows call a
  next : ∀ request, progress = .approval request → NoNewer rows call.submission →
    ∀ a, Recorded rows call a → a.decision = .requestChanges ∧ request.revision = a.revision + 1
  status : rows.run.status = progressStatus progress
  again : ∀ id now, persistProgress rows progress id now = some (refreshed rows progress now)

theorem NoNewer.of_grows {rows rows' : Rows} {submission : AgentApprovalSubmission}
    (h : NoNewer rows' submission) (hg : Grows rows rows') : NoNewer rows submission :=
  fun a ha hd ↦ h a (hg.2 a ha hd) hd

theorem Recorded.unique {rows : Rows} {cp : Checkpoint} (h : Consistent host rows cp) {call : Call}
    {a b : AgentApproval} (ha : Recorded rows call a) (hb : Recorded rows call b) : a = b :=
  List.inj_on_of_nodup_map h.revisions ha.2.1 hb.2.1 (ha.2.2.1.trans hb.2.2.1.symm)

theorem settled_of_returns {i : ℕ} {id : UUID} {now : Datetime} {call : Call} {rows : Rows}
    (h : (machine host).Reachable s) (hr : returns s i id now = some (call, rows))
    (hs : (machine host).step s (.persist i id now) = some s') :
    ∃ cp progress, Settled host s' call rows cp progress := by
  have hi := inv_reachable h
  obtain ⟨c, hc, hr⟩ := Option.bind_eq_some_iff.mp hr
  split at hr
  · next progress rows₀ hphase hrows₀ =>
    obtain ⟨rows', hp, heq⟩ := Option.map_eq_some_iff.mp hr
    cases heq
    have hpi := hi.phases i call hc
    simp only [PhaseInv, hphase] at hpi
    obtain ⟨r, a, cp, hr, hcp, hrec, hprogress⟩ := hpi
    obtain rfl : rows₀ = r := Option.some.inj (hrows₀.symm.trans hr)
    obtain ⟨cp', hcp', hcons⟩ := hi.rows rows₀ hrows₀
    obtain rfl : cp = cp' := Option.some.inj (hcp.symm.trans hcp')
    obtain ⟨hcons', hgrows⟩ := hcons.persist hprogress hp
    have hcalls := (follows_reachable h).calls i call hc
    have hs' : s' = { s.finish i call with rows := some rows } := by
      simp only [machine, step, Move.caller, hc, Option.bind_some, callStep, hphase, hrows₀, hp,
        Option.some.injEq] at hs
      exact hs.symm
    refine ⟨cp, progress, ?_, ?_, hcons', hprogress, ⟨a, hrec.grows hgrows⟩, ?_,
      persistProgress_status hp, persistProgress_again hp⟩
    · rw [hs']
    · rw [hs']
      exact hcp
    · rintro request rfl hnewer d hd
      obtain rfl := Recorded.unique hcons' hd (hrec.grows hgrows)
      simp only [Following, hphase] at hcalls
      exact hcalls rows₀ hrows₀ (hnewer.of_grows hgrows) d hrec
  · cases hr

theorem step_of_not_running {rows : Rows} {cp : Checkpoint} (hi : Inv host s)
    (hrows : s.rows = some rows) (hcp : s.checkpoint = some cp) (hrun : rows.run.status ≠ .running)
    {m : Move σ} (hs : step host s m = some s') :
    s'.checkpoint = s.checkpoint ∧ s'.resumed = s.resumed ∧
      ((∀ w, m ≠ .outside w) → s'.world = s.world) ∧
      (s'.rows = s.rows ∨
        (∃ a submission now, a ∈ rows.approvals ∧ a.decision = .pending ∧
          s'.rows = some (decidedRows rows a submission now)) ∨
        ∃ i id now progress, m = .persist i id now ∧
          progressOf (inspectSnapshot host.sha256 host.coercions cp) = some progress ∧
          s'.rows = persistProgress rows progress id now) := by
  have hstart : s.start = .ended := (hrows ▸ hi.start).ended
  rcases step_cases hs with ⟨i, userId, submission, rfl, -, rfl⟩ | ⟨w, rfl, rfl⟩ | ⟨-, hs⟩ |
    ⟨i, call, hm, hc, hs⟩
  · exact ⟨rfl, rfl, fun _ ↦ rfl, .inl rfl⟩
  · exact ⟨rfl, rfl, fun hw ↦ absurd rfl (hw w), .inl rfl⟩
  · cases m with
    | startCrash =>
      cases hs
      exact ⟨rfl, rfl, fun _ ↦ rfl, .inl rfl⟩
    | start id userId goal now | startAdvance | startCommit id now =>
      simp [startStep, hstart] at hs
    | call i userId submission | acquire i | record i now | inspect i | advance i
    | persist i id now | crash i | outside w => cases hs
  · have hpi := hi.phases i call hc
    cases m with
    | acquire j =>
      simp only [callStep] at hs
      split at hs
      · cases hs
        exact ⟨rfl, rfl, fun _ ↦ rfl, .inl rfl⟩
      · cases hs
    | record j now =>
      simp only [callStep] at hs
      split at hs
      · cases hr : recordDecision s.rows call.userId call.submission now with
        | error e =>
          rw [hr] at hs
          cases hs
          exact ⟨rfl, rfl, fun _ ↦ rfl, .inl rfl⟩
        | ok pair =>
          obtain ⟨rows', a'⟩ := pair
          obtain ⟨r, hr', -, hcases⟩ := recordDecision_ok hr
          obtain rfl : rows = r := Option.some.inj (hrows.symm.trans hr')
          rw [hr] at hs
          cases hs
          rcases hcases with ⟨-, -, -, rfl⟩ | ⟨a, hmem, -, hp, -, -, -, rfl⟩
          · exact ⟨rfl, rfl, fun _ ↦ rfl, .inl hrows.symm⟩
          · exact ⟨rfl, rfl, fun _ ↦ rfl, .inr (.inl ⟨a, call.submission, now, hmem, hp, rfl⟩)⟩
      · cases hs
    | inspect j =>
      simp only [callStep] at hs
      repeat' split at hs
      all_goals cases hs
      all_goals exact ⟨rfl, rfl, fun _ ↦ rfl, .inl rfl⟩
    | advance j =>
      simp only [callStep] at hs
      split at hs
      · next answer cp' hphase hcp' =>
        simp only [PhaseInv, hphase] at hpi
        obtain ⟨r, a, cp'', hr, -, -, hrunning, -⟩ := hpi
        obtain rfl : rows = r := Option.some.inj (hrows.symm.trans hr)
        exact absurd hrunning hrun
      · cases hs
    | persist j id now =>
      simp only [callStep] at hs
      split at hs
      · next progress r hphase hr =>
        obtain rfl : rows = r := Option.some.inj (hrows.symm.trans hr)
        simp only [PhaseInv, hphase] at hpi
        obtain ⟨r, a, cp', -, hcp', -, hprogress⟩ := hpi
        obtain rfl : cp = cp' := Option.some.inj (hcp.symm.trans hcp')
        cases hp : persistProgress rows progress id now with
        | none =>
          rw [hp] at hs
          cases hs
          exact ⟨rfl, rfl, fun _ ↦ rfl, .inl rfl⟩
        | some rows' =>
          rw [hp] at hs
          cases hs
          exact ⟨rfl, rfl, fun _ ↦ rfl, .inr (.inr ⟨j, id, now, progress, rfl, hprogress, hp.symm⟩)⟩
      · cases hs
    | crash j =>
      simp only [callStep] at hs
      split at hs
      · cases hs
        exact ⟨rfl, rfl, fun _ ↦ rfl, .inl rfl⟩
      · cases hs
        exact ⟨rfl, rfl, fun _ ↦ rfl, .inl rfl⟩
    | call j userId submission | start id userId goal now | startAdvance | startCommit id now
    | startCrash | outside w => cases hs

section

variable {call : Call} {rows : Rows} {cp : Checkpoint} {progress : AgentWorkflowProgress}

theorem Settled.not_running (h : Settled host s call rows cp progress) :
    rows.run.status ≠ .running := h.status ▸ progressStatus_ne_running progress

theorem Settled.refreshed_eq (h : Settled host s call rows cp progress) (now : Datetime) :
    refreshed rows progress now = rows ↔ KeepsClock host rows cp now := by
  unfold KeepsClock
  rcases progressOf_eq h.consistent.graph h.returned with ⟨request, rfl, -, hi⟩ | ⟨o, rfl, hi⟩
  · rw [hi]
    refine ⟨fun heq ↦ .inr ?_, ?_⟩
    · exact congrArg (fun r : Rows ↦ r.run.updatedAt) heq
    · rintro (ht | rfl)
      · cases ht
      · rfl
  · rw [hi]
    exact ⟨fun _ ↦ .inl rfl, fun _ ↦ rfl⟩

theorem Settled.pending_newer (h : Settled host s call rows cp progress) {a : AgentApproval}
    (ha : a ∈ rows.approvals) (hp : a.decision = .pending) :
    call.submission.revision < a.revision := by
  obtain ⟨b, hb⟩ := h.recorded
  have hcount := (WaitsFor.revisionCount h.consistent.graph (h.consistent.pending a ha hp).2).2
  have hle : b.revision ≤ a.revision := hcount ▸ h.consistent.bounded b hb.2.1
  rw [← hb.2.2.1]
  refine lt_of_le_of_ne hle fun heq ↦ ?_
  obtain rfl := List.inj_on_of_nodup_map h.consistent.revisions hb.2.1 ha heq
  exact sameSubmission_decided hb.2.2.2 hp

theorem Settled.step (h : Settled host s call rows cp progress) (hi : Inv host s) {m : Move σ}
    (hquiet : Quiet host s m) (hs : ApprovalProtocol.step host s m = some s')
    (hnewer : ∀ r, s'.rows = some r → NoNewer r call.submission) :
    s'.rows = s.rows ∧ s'.checkpoint = s.checkpoint ∧ s'.resumed = s.resumed := by
  obtain ⟨hcp, hresumed, -, hrows⟩ := step_of_not_running hi h.stored h.reached h.not_running hs
  refine ⟨?_, hcp, hresumed⟩
  rcases hrows with hrows | ⟨a, submission, now, ha, hp, hrows⟩ |
    ⟨i, id, now, p, rfl, hprogress, hrows⟩
  · exact hrows
  · have hmem : updateApproval a submission now ∈ (decidedRows rows a submission now).approvals :=
      List.mem_map.mpr ⟨a, ha, if_pos rfl⟩
    have hle : (updateApproval a submission now).revision ≤ call.submission.revision :=
      hnewer _ hrows _ hmem (approvalStatus_ne_pending _)
    have hlt := h.pending_newer ha hp
    exact absurd hle (Nat.not_le.mpr hlt)
  · obtain rfl : progress = p := Option.some.inj (h.returned.symm.trans hprogress)
    rw [hrows, h.again, h.stored, (h.refreshed_eq now).mpr (hquiet rows cp h.stored h.reached)]

theorem Settled.of_eq (h : Settled host s call rows cp progress) (hrows : s'.rows = s.rows)
    (hcp : s'.checkpoint = s.checkpoint) : Settled host s' call rows cp progress :=
  { h with
    stored := hrows.trans h.stored
    reached := hcp.trans h.reached }

/-- The run lemma: quiet moves without a newer decision. -/
theorem Settled.leads (h : Settled host s call rows cp progress) (hr : (machine host).Reachable s)
    {t : State σ} (ht : (machine host).LeadsUnder (Quiet host) s t)
    (hnewer : ∀ r, t.rows = some r → NoNewer r call.submission) :
    t.rows = s.rows ∧ t.checkpoint = s.checkpoint ∧ t.resumed = s.resumed := by
  induction ht with
  | refl => exact ⟨rfl, rfl, rfl⟩
  | @tail t u hl hm ih =>
    obtain ⟨m, hquiet, hm⟩ := hm
    have hreach : (machine host).Reachable t := Machine.Leads.reachable hr (Machine.LeadsUnder.leads hl)
    have hit := inv_reachable hreach
    have hbefore : ∀ r, t.rows = some r → NoNewer r call.submission := by
      intro r hrow
      obtain ⟨r', hr', hg⟩ := (inv_step hit hm).2 r hrow
      exact (hnewer r' hr').of_grows hg
    obtain ⟨hrows, hcp, hresumed⟩ := ih hbefore
    obtain ⟨hrows', hcp', hresumed'⟩ := (h.of_eq hrows hcp).step hit hquiet hm hnewer
    exact ⟨hrows'.trans hrows, hcp'.trans hcp, hresumed'.trans hresumed⟩

theorem Settled.recovers (h : Settled host s call rows cp progress)
    (hnewer : NoNewer rows call.submission) (recordedAt : Datetime) :
    ∃ a, recordDecision (some rows) call.userId call.submission recordedAt = .ok (rows, a) ∧
      reconcile rows.run a (inspectSnapshot host.sha256 host.coercions cp) =
        .ok (.persist progress) := by
  obtain ⟨a, ha⟩ := h.recorded
  have hrun : getOwnedRun (some rows) call.userId = some rows := by simp [getOwnedRun, ha.1]
  have howned : getOwnedApproval rows.approvals call.submission.revision = some a := by
    cases hg : getOwnedApproval rows.approvals call.submission.revision with
    | none => exact absurd ha.2.2.1 (getOwnedApproval_none hg ha.2.1)
    | some b =>
      obtain ⟨hb, hrev⟩ := getOwnedApproval_some hg
      exact congrArg some (List.inj_on_of_nodup_map h.consistent.revisions hb ha.2.1
        (hrev.trans ha.2.2.1.symm))
  have hstatus : rows.run.status ≠ .pending := by
    rw [h.status]
    cases progress with
    | approval request =>
      intro hpending
      cases hpending
    | output o => cases ho : o.status <;> simp [progressStatus, terminalRunStatus, ho]
  refine ⟨a, ?_, ?_⟩
  · simp [recordDecision, hrun, howned, sameSubmission_decided ha.2.2.2, ha.2.2.2, hstatus]
  · rcases progressOf_eq h.consistent.graph h.returned with ⟨request, rfl, -, hi⟩ | ⟨o, rfl, hi⟩
    · obtain ⟨hd, hrev⟩ := h.next request rfl hnewer a ha
      simp [hi, reconcile, hd, hrev]
    · simp [hi, reconcile]

theorem Settled.replay_eq (h : Settled host s call rows cp progress)
    (hnewer : NoNewer rows call.submission) (recordedAt : Datetime) (id : UUID) (now : Datetime) :
    replay host rows cp call.userId call.submission recordedAt id now =
      some (refreshed rows progress now) := by
  obtain ⟨a, hrecord, hreconcile⟩ := h.recovers hnewer recordedAt
  simp only [replay, hrecord, hreconcile, h.again]

theorem Settled.terminal (h : Settled host s call rows cp progress)
    (hnewer : NoNewer rows call.submission) (hd : call.submission.decision ≠ .requestChanges) :
    (inspectSnapshot host.sha256 host.coercions cp).status = .terminal := by
  obtain ⟨a, ha⟩ := h.recorded
  have hdecision : a.decision = approvalStatus call.submission.decision :=
    (of_decide_eq_true ha.2.2.2).2.1
  rcases progressOf_eq h.consistent.graph h.returned with ⟨request, rfl, -, -⟩ | ⟨o, rfl, hi⟩
  · have hchanges := (h.next request rfl hnewer a ha).1
    rw [hdecision] at hchanges
    cases hs : call.submission.decision with
    | requestChanges => exact absurd hs hd
    | approved | rejected =>
      rw [hs] at hchanges
      cases hchanges
  · rw [hi]

def replayMoves (j : ℕ) (recordedAt : Datetime) (id : UUID) (now : Datetime) : List (Move σ) :=
  [.acquire j, .record j recordedAt, .inspect j, .persist j id now]

theorem Settled.exec_replay (h : Settled host s call rows cp progress)
    (hnewer : NoNewer rows call.submission) {j : ℕ}
    (hj : s.calls j = some ⟨call.userId, call.submission, .waiting⟩) (hfree : s.holder = none)
    (recordedAt : Datetime) (id : UUID) (now : Datetime) :
    ∃ t, (machine host).exec s (replayMoves j recordedAt id now) = some t ∧
      t.rows = some (refreshed rows progress now) ∧ t.checkpoint = s.checkpoint ∧
      t.world = s.world ∧ t.resumed = s.resumed := by
  obtain ⟨a, hrecord, hreconcile⟩ := h.recovers hnewer recordedAt
  simp [replayMoves, Machine.exec, machine, ApprovalProtocol.step, Move.caller, callStep, hj, hfree,
    State.setPhase, State.finish, h.stored, h.reached, hrecord, hreconcile, h.again]

end

/-- A submission that has been processed and is sent again, while there is no
newer decision: as long as every replay keeps the clock of the run, the run, its
approvals and its checkpoint stay as the first call left them, and every further
replay executes no node and returns, with the snapshot of the first call if it
keeps the clock, and with another one otherwise. An approval or a rejection
always keeps it. -/
theorem replays_keep_run {t : State σ} {i : ℕ} {id : UUID} {now : Datetime} {call : Call}
    {rows : Rows} (h : (machine host).Reachable s) (hr : returns s i id now = some (call, rows))
    (hs : (machine host).step s (.persist i id now) = some s')
    (ht : (machine host).LeadsUnder (Quiet host) s' t)
    (hnewer : ∀ r, t.rows = some r → NoNewer r call.submission) :
    (t.rows = some rows ∧ t.checkpoint = s'.checkpoint ∧ t.resumed = s'.resumed) ∧
    (∀ m u, (machine host).step t m = some u → (∀ w, m ≠ .outside w) →
      u.checkpoint = t.checkpoint ∧ u.world = t.world) ∧
    ∃ cp, t.checkpoint = some cp ∧
      (call.submission.decision ≠ .requestChanges → ∀ now, KeepsClock host rows cp now) ∧
      ∀ recordedAt id now, ∃ rows', replay host rows cp call.userId call.submission recordedAt id now =
        some rows' ∧
      (rows' = rows ↔ KeepsClock host rows cp now) ∧
      (snapshot rows' = snapshot rows ↔ KeepsClock host rows cp now) ∧
      ∀ j, t.calls j = some ⟨call.userId, call.submission, .waiting⟩ → t.holder = none →
        ∃ u, (machine host).exec t (replayMoves j recordedAt id now) = some u ∧
          u.rows = some rows' ∧ u.checkpoint = t.checkpoint ∧ u.world = t.world ∧
          u.resumed = t.resumed := by
  obtain ⟨cp, progress, hsettled⟩ := settled_of_returns h hr hs
  have hreach := h.next hs
  obtain ⟨hrows, hcp, hresumed⟩ := hsettled.leads hreach ht hnewer
  have hst := hsettled.of_eq hrows hcp
  have hit := inv_reachable (Machine.Leads.reachable hreach (Machine.LeadsUnder.leads ht))
  refine ⟨⟨hst.stored, hcp, hresumed⟩, fun m u hm hw ↦ ?_, cp, hst.reached,
    fun hd _ ↦ .inl (hst.terminal (hnewer rows hst.stored) hd), fun recordedAt id now ↦
      ⟨refreshed rows progress now, ?_, hst.refreshed_eq now, ?_, ?_⟩⟩
  · obtain ⟨hcp', -, hworld, -⟩ := step_of_not_running hit hst.stored hst.reached hst.not_running hm
    exact ⟨hcp', hworld hw⟩
  · exact hst.replay_eq (hnewer rows hst.stored) recordedAt id now
  · rw [← hst.refreshed_eq now]
    refine ⟨fun heq ↦ ?_, fun heq ↦ by rw [heq]⟩
    have hrun : (refreshed rows progress now).run = rows.run := congrArg Prod.fst heq
    cases progress with
    | output o => rfl
    | approval request => exact congrArg (fun run ↦ (⟨run, rows.approvals⟩ : Rows)) hrun
  · intro j hj hfree
    exact hst.exec_replay (hnewer rows hst.stored) hj hfree recordedAt id now

def sampleChanges : AgentApprovalSubmission :=
  ⟨0, sampleDigest, .requestChanges, Approval.sampleChanges.feedback, sampleRejection.bound,
    Approval.sampleChanges.contract⟩

/-- A plan whose changes are requested, up to the return of the call. -/
def changesMoves : List (Move Unit) :=
  [.start (sampleId 1) sampleUserId sampleGoal sampleNow, .startAdvance, .startAdvance,
    .startAdvance, .startAdvance, .startAdvance, .startCommit (sampleId 2) sampleNow,
    .call 1 sampleUserId sampleChanges, .acquire 1, .record 1 sampleNow, .inspect 1, .advance 1,
    .advance 1, .advance 1, .advance 1]

def sampleLater : Datetime := ⟨sampleDate, 1, by decide⟩

theorem reachable_sampleStart : (machine Checkpoints.sampleHost).Reachable sampleStart :=
  .start ⟨rfl, rfl, rfl, rfl, rfl, rfl⟩

theorem replays_keep_run_sample :
    ∃ s s' call rows cp, (machine Checkpoints.sampleHost).Reachable s ∧
      returns s 1 ⟨3, by decide⟩ sampleNow = some (call, rows) ∧
      (machine Checkpoints.sampleHost).step s (.persist 1 ⟨3, by decide⟩ sampleNow) = some s' ∧
      s'.checkpoint = some cp ∧ call.submission.decision = .requestChanges ∧
      ∃ rows', replay Checkpoints.sampleHost rows cp call.userId call.submission sampleLater
        ⟨4, by decide⟩ rows.run.updatedAt = some rows' ∧ rows' = rows := by
  have hexec : ((machine Checkpoints.sampleHost).exec sampleStart changesMoves).bind (fun s ↦
      (returns s 1 ⟨3, by decide⟩ sampleNow).bind fun p ↦
        ((machine Checkpoints.sampleHost).step s (.persist 1 ⟨3, by decide⟩ sampleNow)).map fun s' ↦
          (p.1.submission.decision, s'.rows.map fun r ↦ decide (NoNewer r p.1.submission))) =
      some (.requestChanges, some true) := by
    decide +kernel
  obtain ⟨s, hs, hexec⟩ := Option.bind_eq_some_iff.mp hexec
  obtain ⟨⟨call, rows⟩, hr, hexec⟩ := Option.bind_eq_some_iff.mp hexec
  obtain ⟨s', hs', hexec⟩ := Option.map_eq_some_iff.mp hexec
  have hnewer : ∀ r, s'.rows = some r → NoNewer r call.submission := by
    intro r hrow
    have hsnd := congrArg Prod.snd hexec
    rw [hrow] at hsnd
    exact of_decide_eq_true (Option.some.inj hsnd)
  have hreach := reachable_sampleStart.exec hs
  obtain ⟨-, -, cp, hcp, -, hreplay⟩ := replays_keep_run hreach hr hs' (.refl s') hnewer
  obtain ⟨rows', hrows', hsame, -⟩ := hreplay sampleLater ⟨4, by decide⟩ rows.run.updatedAt
  exact ⟨s, s', call, rows, cp, hreach, hr, hs', hcp, congrArg Prod.fst hexec, rows', hrows',
    hsame.mpr (.inr rfl)⟩

/-- A request for changes that is sent again a microsecond later rewrites the run
and returns another snapshot. -/
theorem request_changes_replay_rewrites_run :
    ∃ s s' t call rows rows', (machine Checkpoints.sampleHost).Reachable s ∧
      returns s 1 ⟨3, by decide⟩ sampleNow = some (call, rows) ∧
      (machine Checkpoints.sampleHost).step s (.persist 1 ⟨3, by decide⟩ sampleNow) = some s' ∧
      (machine Checkpoints.sampleHost).exec s' (.call 2 call.userId call.submission ::
        replayMoves 2 sampleLater ⟨4, by decide⟩ sampleLater) = some t ∧
      NoNewer rows call.submission ∧ t.rows = some rows' ∧ rows' ≠ rows ∧
      snapshot rows' ≠ snapshot rows := by
  have hexec : ((machine Checkpoints.sampleHost).exec sampleStart changesMoves).bind (fun s ↦
      (returns s 1 ⟨3, by decide⟩ sampleNow).bind fun p ↦
        ((machine Checkpoints.sampleHost).step s (.persist 1 ⟨3, by decide⟩ sampleNow)).bind fun s' ↦
          ((machine Checkpoints.sampleHost).exec s' (.call 2 p.1.userId p.1.submission ::
            replayMoves 2 sampleLater ⟨4, by decide⟩ sampleLater)).bind fun t ↦
              t.rows.map fun r ↦ (decide (NoNewer p.2 p.1.submission), p.2.run.updatedAt,
                r.run.updatedAt)) =
      some (true, sampleNow, sampleLater) := by
    decide +kernel
  obtain ⟨s, hs, hexec⟩ := Option.bind_eq_some_iff.mp hexec
  obtain ⟨⟨call, rows⟩, hr, hexec⟩ := Option.bind_eq_some_iff.mp hexec
  obtain ⟨s', hs', hexec⟩ := Option.bind_eq_some_iff.mp hexec
  obtain ⟨t, ht, hexec⟩ := Option.bind_eq_some_iff.mp hexec
  obtain ⟨rows', hrows', heq⟩ := Option.map_eq_some_iff.mp hexec
  have hclock : rows'.run.updatedAt ≠ rows.run.updatedAt := by
    have hnow : rows.run.updatedAt = sampleNow := congrArg (·.2.1) heq
    have hlater : rows'.run.updatedAt = sampleLater := congrArg (·.2.2) heq
    rw [hnow, hlater]
    decide
  refine ⟨s, s', t, call, rows, rows', reachable_sampleStart.exec hs, hr, hs', ht,
    of_decide_eq_true (congrArg Prod.fst heq), hrows', fun h ↦ hclock (by rw [h]), fun h ↦ hclock ?_⟩
  exact congrArg (fun p ↦ p.1.updatedAt) h

end LearningTasks.Services.ApprovalReplay
