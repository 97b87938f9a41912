import LearningTasks.Services.AgentWorkflow

namespace LearningTasks.Services.ApprovalProtocol

open Library.Strings Library.Serialization Library.Transition Schemas.Scalars Models.Agent Agent
  Agent.Schemas Agent.State Agent.Approval Agent.Graph AgentWorkflow

inductive Phase
  | waiting
  | locked
  | recorded (approval : AgentApproval)
  | advancing (answer : Option AgentApprovalResponse)
  | returned (progress : AgentWorkflowProgress)
  | ended

def Phase.working : Phase → Bool
  | .waiting | .ended => false
  | .locked | .recorded _ | .advancing _ | .returned _ => true

structure Call where
  userId : UUID
  submission : AgentApprovalSubmission
  phase : Phase

/-- Where the one call of `start_agent_run` stands that creates the run. -/
inductive Start
  | idle
  | advancing (run : AgentRun)
  | returned (run : AgentRun) (progress : AgentWorkflowProgress)
  | ended

/-- A trace of an answer that was given to the graph, with the request that the
checkpoint was waiting with. -/
structure Resumption where
  userId : UUID
  submission : AgentApprovalSubmission
  waiting : Option AgentApprovalInterrupt
  response : AgentApprovalResponse

/-- One run in the two stores, with the calls on it and the holder of its
recovery lock. -/
structure State (σ : Type) where
  rows : Option Rows
  checkpoint : Option Checkpoint
  world : σ
  start : Start
  calls : ℕ → Option Call
  holder : Option ℕ
  resumed : List Resumption

inductive Move (σ : Type)
  | start (id userId : UUID) (goal : PlanningGoal) (now : Datetime)
  | startAdvance
  | startCommit (id : UUID) (now : Datetime)
  | startCrash
  | call (i : ℕ) (userId : UUID) (submission : AgentApprovalSubmission)
  | acquire (i : ℕ)
  | record (i : ℕ) (now : Datetime)
  | inspect (i : ℕ)
  | advance (i : ℕ)
  | persist (i : ℕ) (id : UUID) (now : Datetime)
  | crash (i : ℕ)
  | outside (w : σ)

def Move.caller {σ : Type} : Move σ → Option ℕ
  | .call i _ _ | .acquire i | .record i _ | .inspect i | .advance i | .persist i _ _
  | .crash i => some i
  | .start _ _ _ _ | .startAdvance | .startCommit _ _ | .startCrash | .outside _ => none

variable {σ : Type}

def createRun (id userId : UUID) (now : Datetime) : AgentRun :=
  ⟨id, userId, .pending, none, none, none, noMetrics zeroFloat, now⟩

/-- The rows that a start commits; none where the tables reject them. -/
def startRows (run : AgentRun) (progress : AgentWorkflowProgress) (id : UUID) (now : Datetime) :
    Option Rows :=
  (runValues run progress).map fun run ↦ ⟨{ run with updatedAt := now },
    match progress with
    | .approval request => [createApproval id request now]
    | .output _ => []⟩

inductive Advanced
  | failed
  | running
  | returned (progress : AgentWorkflowProgress)

def paused (cp : Checkpoint) : Bool := !cp.interrupts.isEmpty || cp.next.isEmpty

/-- One superstep of `_advance`, which returns once the graph pauses. -/
def advanceCheckpoint (host : Host σ) (cp : Checkpoint) (answer : Option AgentApprovalResponse)
    (w : σ) : Advanced × Checkpoint × σ :=
  match superstep (Checkpoints.durable host) cp answer w with
  | (none, w) => (.failed, cp, w)
  | (some cp, w) =>
    if paused cp then
      match progressOf (inspectSnapshot host.sha256 host.coercions cp) with
      | some progress => (.returned progress, cp, w)
      | none => (.failed, cp, w)
    else (.running, cp, w)

namespace State

def setPhase (s : State σ) (i : ℕ) (call : Call) (phase : Phase) : State σ :=
  { s with calls := Function.update s.calls i (some { call with phase := phase }) }

/-- The call returns, raises or crashes: its lock is released. -/
def finish (s : State σ) (i : ℕ) (call : Call) : State σ :=
  { s.setPhase i call .ended with holder := none }

def trace (s : State σ) (host : Host σ) (call : Call) (cp : Checkpoint) :
    Option AgentApprovalResponse → List Resumption
  | none => s.resumed
  | some response => s.resumed ++ [⟨call.userId, call.submission,
      (inspectSnapshot host.sha256 host.coercions cp).approval, response⟩]

end State

def startStep (host : Host σ) (s : State σ) : Move σ → Option (State σ)
  | .start id userId goal now =>
    match s.start with
    | .idle => some { s with
        checkpoint := some (initialCheckpoint goal)
        start := .advancing (createRun id userId now) }
    | _ => none
  | .startAdvance =>
    match s.start, s.checkpoint with
    | .advancing run, some cp =>
      let (outcome, cp, w) := advanceCheckpoint host cp none s.world
      some { s with
        checkpoint := some cp
        world := w
        start := match outcome with
          | .failed => .ended
          | .running => .advancing run
          | .returned progress => .returned run progress }
    | _, _ => none
  | .startCommit id now =>
    match s.start with
    | .returned run progress => some { s with
        rows := startRows run progress id now
        start := .ended }
    | _ => none
  | .startCrash => some { s with start := .ended }
  | _ => none

def callStep (host : Host σ) (s : State σ) (i : ℕ) (call : Call) : Move σ → Option (State σ)
  | .acquire _ =>
    match call.phase, s.holder with
    | .waiting, none => some { s.setPhase i call .locked with holder := some i }
    | _, _ => none
  | .record _ now =>
    match call.phase with
    | .locked =>
      match recordDecision s.rows call.userId call.submission now with
      | .error _ => some (s.finish i call)
      | .ok (rows, approval) =>
        some { s.setPhase i call (.recorded approval) with rows := some rows }
    | _ => none
  | .inspect _ =>
    match call.phase, s.rows, s.checkpoint with
    | .recorded approval, some rows, some cp =>
      match reconcile rows.run approval (inspectSnapshot host.sha256 host.coercions cp) with
      | .error _ => some (s.finish i call)
      | .ok (.persist progress) => some (s.setPhase i call (.returned progress))
      | .ok .continue => some (s.setPhase i call (.advancing none))
      | .ok (.resume response) => some (s.setPhase i call (.advancing (some response)))
    | _, _, _ => none
  | .advance _ =>
    match call.phase, s.checkpoint with
    | .advancing answer, some cp =>
      let (outcome, cp', w) := advanceCheckpoint host cp answer s.world
      let s' : State σ := { s with
        checkpoint := some cp'
        world := w
        resumed := s.trace host call cp answer }
      some (match outcome with
        | .failed => s'.finish i call
        | .running => s'.setPhase i call (.advancing none)
        | .returned progress => s'.setPhase i call (.returned progress))
    | _, _ => none
  | .persist _ id now =>
    match call.phase, s.rows with
    | .returned progress, some rows =>
      match persistProgress rows progress id now with
      | none => some (s.finish i call)
      | some rows' => some { s.finish i call with rows := some rows' }
    | _, _ => none
  | .crash _ => some (if call.phase.working then s.finish i call else s.setPhase i call .ended)
  | _ => none

def step (host : Host σ) (s : State σ) (m : Move σ) : Option (State σ) :=
  match m with
  | .call i userId submission =>
    match s.calls i with
    | none => some { s with
        calls := Function.update s.calls i (some ⟨userId, submission, .waiting⟩) }
    | some _ => none
  | .outside w => some { s with world := w }
  | m =>
    match m.caller with
    | none => startStep host s m
    | some i => (s.calls i).bind fun call ↦ callStep host s i call m

def machine (host : Host σ) : Machine (State σ) (Move σ) where
  init s := s.rows = none ∧ s.checkpoint = none ∧ s.start = .idle ∧ s.calls = (fun _ ↦ none) ∧
    s.holder = none ∧ s.resumed = []
  step := step host

section

variable (host : Host σ)

def WaitsFor (cp : Checkpoint) (revision : ℕ) (fingerprint : Text) : Prop :=
  ∃ request, inspectSnapshot host.sha256 host.coercions cp = ⟨.pendingInterrupt, some request, none⟩ ∧
    request.revision = revision ∧ request.proposalFingerprint.text = fingerprint

/-- What the rows of a run and its checkpoint say of one another. -/
structure Consistent (rows : Rows) (cp : Checkpoint) : Prop where
  graph : Checkpoints.Inv host.sha256 host.coercions host.context cp
  ids : (rows.approvals.map (·.id)).Nodup
  revisions : (rows.approvals.map (·.revision)).Nodup
  bounded : ∀ a ∈ rows.approvals, a.revision ≤ cp.values.revisionCount
  pending : ∀ a ∈ rows.approvals, a.decision = .pending →
    rows.run.status = .pendingApproval ∧ WaitsFor host cp a.revision a.proposalFingerprint
  waiting : rows.run.status = .pendingApproval → ∃ a ∈ rows.approvals, a.decision = .pending
  terminal : ∀ t, rows.run.status = terminalRunStatus t → ∃ o,
    inspectSnapshot host.sha256 host.coercions cp = ⟨.terminal, none, some o⟩ ∧ o.status = t

end

def Grows (rows rows' : Rows) : Prop :=
  rows'.run.userId = rows.run.userId ∧
    ∀ a ∈ rows.approvals, a.decision ≠ .pending → a ∈ rows'.approvals

variable {host : Host σ} {rows rows' : Rows} {cp cp' : Checkpoint}

theorem Consistent.pending_unique (h : Consistent host rows cp) {a b : AgentApproval}
    (ha : a ∈ rows.approvals) (hb : b ∈ rows.approvals) (hpa : a.decision = .pending)
    (hpb : b.decision = .pending) : a = b := by
  obtain ⟨-, r, hr, hra, -⟩ := h.pending a ha hpa
  obtain ⟨-, q, hq, hqb, -⟩ := h.pending b hb hpb
  have hrq : r = q := by
    rw [hr] at hq
    simpa using hq
  refine List.inj_on_of_nodup_map h.revisions ha hb ?_
  rw [← hra, ← hqb, hrq]

theorem Consistent.decided (h : Consistent host rows cp) {a : AgentApproval}
    (ha : a ∈ rows.approvals) (hp : a.decision = .pending) (s : AgentApprovalSubmission)
    (now : Datetime) : Consistent host (decidedRows rows a s now) cp := by
  have hself : ∀ b ∈ rows.approvals, b.id = a.id → b = a :=
    fun b hb hid ↦ List.inj_on_of_nodup_map h.ids hb ha hid
  have hids : (decidedRows rows a s now).approvals.map (·.id) = rows.approvals.map (·.id) := by
    simp only [decidedRows, List.map_map]
    refine List.map_congr_left fun b hb ↦ ?_
    by_cases hid : b.id = a.id
    · simp [hid, updateApproval]
    · simp [hid]
  have hrevs : (decidedRows rows a s now).approvals.map (·.revision) =
      rows.approvals.map (·.revision) := by
    simp only [decidedRows, List.map_map]
    refine List.map_congr_left fun b hb ↦ ?_
    by_cases hid : b.id = a.id
    · simp [hself b hb hid, updateApproval]
    · simp [hid]
  refine ⟨h.graph, hids ▸ h.ids, hrevs ▸ h.revisions, ?_, ?_, ?_, ?_⟩
  · intro b hb
    have hm : b.revision ∈ rows.approvals.map (·.revision) := hrevs ▸ List.mem_map_of_mem hb
    obtain ⟨d, hd, hdb⟩ := List.mem_map.mp hm
    exact hdb ▸ h.bounded d hd
  · intro b hb hbp
    obtain ⟨d, hd, rfl⟩ := List.mem_map.mp hb
    by_cases hid : d.id = a.id
    · simp only [hid, ↓reduceIte] at hbp
      exact absurd hbp (approvalStatus_ne_pending _)
    · simp only [hid, ↓reduceIte] at hbp
      exact absurd (congrArg AgentApproval.id (h.pending_unique hd ha hbp hp)) hid
  · intro hs
    cases hs
  · intro t ht
    cases t <;> cases ht

theorem grows_decided {a : AgentApproval} (hids : (rows.approvals.map (·.id)).Nodup)
    (ha : a ∈ rows.approvals) (hp : a.decision = .pending) (s : AgentApprovalSubmission)
    (now : Datetime) : Grows rows (decidedRows rows a s now) := by
  refine ⟨rfl, fun b hb hd ↦ List.mem_map.mpr ⟨b, hb, if_neg ?_⟩⟩
  intro hid
  rw [List.inj_on_of_nodup_map hids hb ha hid] at hd
  exact hd hp

theorem Consistent.advance (h : Consistent host rows cp) (hr : rows.run.status = .running)
    {answer : Option AgentApprovalResponse} {w w' : σ}
    (hs : superstep (Checkpoints.durable host) cp answer w = (some cp', w')) :
    Consistent host rows cp' := by
  have hle := Checkpoints.superstep_revisionCount h.graph.wellFormed hs
  refine ⟨Checkpoints.superstep_inv (Checkpoints.durable host) h.graph hs, h.ids, h.revisions,
    fun a ha ↦ (h.bounded a ha).trans hle, ?_, fun hw ↦ ?_, ?_⟩
  · intro a ha hp
    have hw := (h.pending a ha hp).1
    rw [hr] at hw
    cases hw
  · rw [hr] at hw
    cases hw
  · intro t ht
    rw [hr] at ht
    cases t <;> cases ht

theorem progressOf_eq (h : Checkpoints.Inv host.sha256 host.coercions host.context cp)
    {progress : AgentWorkflowProgress}
    (hp : progressOf (inspectSnapshot host.sha256 host.coercions cp) = some progress) :
    (∃ request, progress = .approval request ∧ request.revision = cp.values.revisionCount ∧
      inspectSnapshot host.sha256 host.coercions cp = ⟨.pendingInterrupt, some request, none⟩) ∨
    ∃ o, progress = .output o ∧
      inspectSnapshot host.sha256 host.coercions cp = ⟨.terminal, none, some o⟩ := by
  rcases Checkpoints.inspect_cases h with ⟨request, fingerprint, -, hb, hi⟩ | ⟨o, -, -, hi⟩ |
    ⟨-, -, hi⟩ | ⟨-, hi⟩
  · rw [hi] at hp
    cases hp
    exact .inl ⟨request, rfl, (buildApprovalRequest_checked hb).2.2.1, hi⟩
  · rw [hi] at hp
    cases hp
    exact .inr ⟨o, rfl, hi⟩
  · rw [hi] at hp
    cases hp
  · rw [hi] at hp
    cases hp

theorem terminalRunStatus_injective {s t : AgentTerminalStatus}
    (h : terminalRunStatus s = terminalRunStatus t) : s = t := by
  cases s <;> cases t <;> first | rfl | cases h

theorem runValues_status {run run' : AgentRun} {progress : AgentWorkflowProgress}
    (h : runValues run progress = some run') :
    run'.userId = run.userId ∧ run'.status = progressStatus progress := by
  cases progress with
  | approval request =>
    cases h
    exact ⟨rfl, rfl⟩
  | output o =>
    rw [runValues] at h
    split at h
    · cases h
      exact ⟨rfl, rfl⟩
    · obtain ⟨metrics, -, rfl⟩ := Option.map_eq_some_iff.mp h
      exact ⟨rfl, rfl⟩

theorem Consistent.output (h : Consistent host rows cp) {o : AgentGraphOutput}
    (hi : inspectSnapshot host.sha256 host.coercions cp = ⟨.terminal, none, some o⟩)
    {run : AgentRun} (hs : run.status = terminalRunStatus o.status) :
    Consistent host { rows with run := run } cp := by
  refine ⟨h.graph, h.ids, h.revisions, h.bounded, ?_, ?_, ?_⟩
  · intro a ha hp
    obtain ⟨-, request, hr, -⟩ := h.pending a ha hp
    rw [hi] at hr
    cases hr
  · intro hw
    rw [hs] at hw
    cases ho : o.status <;> rw [ho] at hw <;> cases hw
  · intro t ht
    exact ⟨o, hi, terminalRunStatus_injective (hs.symm.trans ht)⟩

theorem Consistent.approval (h : Consistent host rows cp) {existing : AgentApproval}
    (he : existing ∈ rows.approvals) (hp : existing.decision = .pending) {run : AgentRun}
    (hs : run.status = .pendingApproval) :
    Consistent host { rows with run := run } cp := by
  refine ⟨h.graph, h.ids, h.revisions, h.bounded, fun a ha hp ↦ ⟨hs, (h.pending a ha hp).2⟩,
    fun _ ↦ ⟨existing, he, hp⟩, ?_⟩
  intro t ht
  rw [hs] at ht
  cases t <;> cases ht

theorem Consistent.created (h : Consistent host rows cp) {request : AgentApprovalInterrupt}
    (hi : inspectSnapshot host.sha256 host.coercions cp = ⟨.pendingInterrupt, some request, none⟩)
    (hrev : request.revision = cp.values.revisionCount) {id : UUID} (now : Datetime)
    (hid : ∀ a ∈ rows.approvals, a.id ≠ id) (hnew : ∀ a ∈ rows.approvals, a.revision ≠ request.revision)
    {run : AgentRun} (hs : run.status = .pendingApproval) :
    Consistent host ⟨run, rows.approvals ++ [createApproval id request now]⟩ cp := by
  refine ⟨h.graph, ?_, ?_, ?_, ?_, fun _ ↦ ⟨createApproval id request now, by simp, rfl⟩, ?_⟩
  · rw [List.map_append, List.nodup_append]
    refine ⟨h.ids, by simp, ?_⟩
    intro x hx y hy
    obtain ⟨a, ha, rfl⟩ := List.mem_map.mp hx
    obtain rfl : y = id := by simpa [createApproval] using hy
    exact hid a ha
  · rw [List.map_append, List.nodup_append]
    refine ⟨h.revisions, by simp, ?_⟩
    intro x hx y hy
    obtain ⟨a, ha, rfl⟩ := List.mem_map.mp hx
    obtain rfl : y = request.revision := by simpa [createApproval] using hy
    exact hnew a ha
  · intro a ha
    rcases List.mem_append.mp ha with ha | ha
    · exact h.bounded a ha
    · obtain rfl := List.mem_singleton.mp ha
      exact hrev.le
  · intro a ha hp
    refine ⟨hs, ?_⟩
    rcases List.mem_append.mp ha with ha | ha
    · exact (h.pending a ha hp).2
    · obtain rfl := List.mem_singleton.mp ha
      exact ⟨request, hi, rfl, rfl⟩
  · intro t ht
    rw [hs] at ht
    cases t <;> cases ht

theorem Consistent.persist (h : Consistent host rows cp) {progress : AgentWorkflowProgress}
    (hp : progressOf (inspectSnapshot host.sha256 host.coercions cp) = some progress) {id : UUID}
    {now : Datetime} (hr : persistProgress rows progress id now = some rows') :
    Consistent host rows' cp ∧ Grows rows rows' := by
  unfold persistProgress at hr
  rcases progressOf_eq h.graph hp with ⟨request, rfl, hrev, hi⟩ | ⟨o, rfl, hi⟩
  · cases hv : runValues rows.run (.approval request) with
    | none => rw [hv] at hr; cases hr
    | some run =>
      obtain ⟨hu, hs⟩ := runValues_status hv
      simp only [hv] at hr
      cases hg : getOwnedApproval rows.approvals request.revision with
      | none =>
        simp only [hg, Option.ite_none_left_eq_some, Option.some.injEq] at hr
        obtain ⟨hid, rfl⟩ := hr
        have hid' : ∀ a ∈ rows.approvals, a.id ≠ id := by simpa using hid
        refine ⟨h.created hi hrev now hid' (fun a ha ↦ getOwnedApproval_none hg ha) hs, hu, ?_⟩
        intro a ha _
        exact List.mem_append_left _ ha
      | some existing =>
        simp only [hg, Option.ite_none_left_eq_some, Option.some.injEq, not_or, not_not] at hr
        obtain ⟨⟨hpend, -⟩, rfl⟩ := hr
        obtain ⟨hmem, -⟩ := getOwnedApproval_some hg
        exact ⟨h.approval hmem hpend hs, hu, fun a ha _ ↦ ha⟩
  · cases hv : runValues rows.run (.output o) with
    | none => rw [hv] at hr; cases hr
    | some run =>
      obtain ⟨hu, hs⟩ := runValues_status hv
      simp only [hv] at hr
      split at hr
      · cases hr
        exact ⟨h, rfl, fun a ha _ ↦ ha⟩
      · cases hr
        exact ⟨h.output hi hs, hu, fun a ha _ ↦ ha⟩

theorem consistent_startRows
    (hg : Checkpoints.Inv host.sha256 host.coercions host.context cp)
    {progress : AgentWorkflowProgress}
    (hp : progressOf (inspectSnapshot host.sha256 host.coercions cp) = some progress)
    {run : AgentRun} {id : UUID} {now : Datetime} (hr : startRows run progress id now = some rows) :
    Consistent host rows cp := by
  obtain ⟨run', hv, rfl⟩ := Option.map_eq_some_iff.mp hr
  obtain ⟨-, hs⟩ := runValues_status hv
  rcases progressOf_eq hg hp with ⟨request, rfl, hrev, hi⟩ | ⟨o, rfl, hi⟩
  · have h0 : Consistent host ⟨{ run' with status := .running }, []⟩ cp := by
      refine ⟨hg, List.nodup_nil, List.nodup_nil, nofun, nofun, nofun, ?_⟩
      intro t ht
      cases t <;> cases ht
    exact h0.created hi hrev now nofun nofun hs
  · have h0 : Consistent host ⟨{ run' with status := .running }, []⟩ cp := by
      refine ⟨hg, List.nodup_nil, List.nodup_nil, nofun, nofun, nofun, ?_⟩
      intro t ht
      cases t <;> cases ht
    exact h0.output hi hs

theorem advanceCheckpoint_spec {answer : Option AgentApprovalResponse} {w w' : σ}
    {outcome : Advanced} (h : advanceCheckpoint host cp answer w = (outcome, cp', w')) :
    (cp' = cp ∨ superstep (Checkpoints.durable host) cp answer w = (some cp', w')) ∧
      ∀ progress, outcome = .returned progress →
        progressOf (inspectSnapshot host.sha256 host.coercions cp') = some progress := by
  unfold advanceCheckpoint at h
  split at h
  · cases h
    exact ⟨.inl rfl, nofun⟩
  · next cp₁ w₁ hs =>
    split at h
    · split at h
      · next progress hp =>
        cases h
        refine ⟨.inr hs, ?_⟩
        rintro _ ⟨⟩
        exact hp
      · cases h
        exact ⟨.inr hs, nofun⟩
    · cases h
      exact ⟨.inr hs, nofun⟩

def Recovers (host : Host σ) (rows : Rows) (cp : Checkpoint) (a : AgentApproval) : Recovery → Prop
  | .persist progress => progressOf (inspectSnapshot host.sha256 host.coercions cp) = some progress
  | .continue => rows.run.status = .running
  | .resume response => rows.run.status = .running ∧ storedResponse a = some response ∧
      WaitsFor host cp a.revision a.proposalFingerprint

theorem reconcile_ok (h : Consistent host rows cp) {a : AgentApproval} {recovery : Recovery}
    (hr : reconcile rows.run a (inspectSnapshot host.sha256 host.coercions cp) = .ok recovery) :
    Recovers host rows cp a recovery := by
  unfold reconcile at hr
  rcases Checkpoints.inspect_cases h.graph with ⟨request, fingerprint, -, -, hi⟩ | ⟨o, -, -, hi⟩ |
    ⟨-, -, hi⟩ | ⟨-, hi⟩
  · simp only [hi] at hr
    split at hr
    · next heq =>
      split at hr
      · cases hr
      · next hrun =>
        split at hr
        · cases hr
        · next response hresponse =>
          cases hr
          exact ⟨not_not.mp hrun, hresponse, request, hi, heq⟩
    · split at hr
      · cases hr
        simp only [Recovers, hi, progressOf, Option.map_some]
      · cases hr
  · simp only [hi] at hr
    cases hr
    simp only [Recovers, hi, progressOf, Option.map_some]
  · simp only [hi] at hr
    split at hr
    · cases hr
    · next hrun =>
      cases hr
      exact not_not.mp hrun
  · simp only [hi, inconsistentInspection] at hr
    cases hr

section

variable (host)

def Recorded (rows : Rows) (call : Call) (a : AgentApproval) : Prop :=
  rows.run.userId = call.userId ∧ a ∈ rows.approvals ∧ a.revision = call.submission.revision ∧
    sameSubmission a call.submission = true

def PhaseInv (rows : Option Rows) (checkpoint : Option Checkpoint) (call : Call) : Prop :=
  match call.phase with
  | .waiting | .locked | .ended => True
  | .recorded a => ∃ r, rows = some r ∧ Recorded r call a
  | .advancing answer => ∃ r a cp, rows = some r ∧ checkpoint = some cp ∧ Recorded r call a ∧
      r.run.status = .running ∧ ∀ response, answer = some response →
        storedResponse a = some response ∧ WaitsFor host cp a.revision a.proposalFingerprint
  | .returned progress => ∃ r a cp, rows = some r ∧ checkpoint = some cp ∧ Recorded r call a ∧
      progressOf (inspectSnapshot host.sha256 host.coercions cp) = some progress

def StartInv (rows : Option Rows) (checkpoint : Option Checkpoint) : Start → Prop
  | .idle => rows = none
  | .advancing _ => rows = none ∧ ∃ cp, checkpoint = some cp ∧
      Checkpoints.Inv host.sha256 host.coercions host.context cp
  | .returned _ progress => rows = none ∧ ∃ cp, checkpoint = some cp ∧
      Checkpoints.Inv host.sha256 host.coercions host.context cp ∧
      progressOf (inspectSnapshot host.sha256 host.coercions cp) = some progress
  | .ended => True

/-- An answer was the one stored for the request that the checkpoint waited with,
and the one that was submitted. -/
def Resumption.Stored (rows : Option Rows) (e : Resumption) : Prop :=
  ∃ r request a, rows = some r ∧ e.waiting = some request ∧ r.run.userId = e.userId ∧
    a ∈ r.approvals ∧ a.revision = request.revision ∧
    a.proposalFingerprint = request.proposalFingerprint.text ∧
    storedResponse a = some e.response ∧ a.revision = e.submission.revision ∧
    sameSubmission a e.submission = true

structure Inv (s : State σ) : Prop where
  rows : ∀ r, s.rows = some r → ∃ cp, s.checkpoint = some cp ∧ Consistent host r cp
  start : StartInv host s.rows s.checkpoint s.start
  holder : ∀ i, s.holder = some i → ∃ call, s.calls i = some call ∧ call.phase.working = true
  working : ∀ i call, s.calls i = some call → call.phase.working = true → s.holder = some i
  phases : ∀ i call, s.calls i = some call → PhaseInv host s.rows s.checkpoint call
  resumed : ∀ e ∈ s.resumed, Resumption.Stored s.rows e

end

theorem Grows.refl (rows : Rows) : Grows rows rows := ⟨rfl, fun _ ha _ ↦ ha⟩

theorem Grows.trans {rows'' : Rows} (h : Grows rows rows') (h' : Grows rows' rows'') :
    Grows rows rows'' :=
  ⟨h'.1.trans h.1, fun a ha hd ↦ h'.2 a (h.2 a ha hd) hd⟩

theorem Recorded.grows {call : Call} {a : AgentApproval} (h : Recorded rows call a)
    (hg : Grows rows rows') : Recorded rows' call a :=
  ⟨hg.1.trans h.1, hg.2 a h.2.1 (sameSubmission_decided h.2.2.2), h.2.2⟩

theorem Resumption.Stored.grows {e : Resumption} (h : Resumption.Stored (some rows) e)
    (hg : Grows rows rows') : Resumption.Stored (some rows') e := by
  obtain ⟨r, request, a, hr, hw, hu, ha, hrev, hf, hs, hsub, hsame⟩ := h
  cases hr
  exact ⟨rows', request, a, rfl, hw, hg.1.trans hu, hg.2 a ha (sameSubmission_decided hsame), hrev,
    hf, hs, hsub, hsame⟩

theorem PhaseInv.of_idle {call : Call} (h : call.phase.working = false) (rows : Option Rows)
    (checkpoint : Option Checkpoint) : PhaseInv host rows checkpoint call := by
  unfold PhaseInv
  cases hp : call.phase with
  | waiting => trivial
  | ended => trivial
  | locked | recorded a | advancing answer | returned progress => rw [hp] at h; cases h

theorem PhaseInv.of_none {checkpoint : Option Checkpoint} {call : Call}
    (h : PhaseInv host none checkpoint call) (rows : Option Rows) (checkpoint' : Option Checkpoint) :
    PhaseInv host rows checkpoint' call := by
  unfold PhaseInv at h ⊢
  cases hp : call.phase with
  | waiting | locked | ended => trivial
  | recorded a =>
    rw [hp] at h
    obtain ⟨r, hr, -⟩ := h
    cases hr
  | advancing answer =>
    rw [hp] at h
    obtain ⟨r, a, cp, hr, -⟩ := h
    cases hr
  | returned progress =>
    rw [hp] at h
    obtain ⟨r, a, cp, hr, -⟩ := h
    cases hr

theorem calls_cases {calls : ℕ → Option Call} {i : ℕ} {call' : Call} {j : ℕ} {d : Call}
    (h : Function.update calls i (some call') j = some d) :
    (j = i ∧ d = call') ∨ (j ≠ i ∧ calls j = some d) := by
  by_cases hj : j = i
  · subst hj
    rw [Function.update_self] at h
    exact .inl ⟨rfl, (Option.some.inj h).symm⟩
  · rw [Function.update_of_ne hj] at h
    exact .inr ⟨hj, h⟩

/-- While a call holds the lock every other call waits or has ended. -/
theorem Inv.others_idle {s : State σ} (h : Inv host s) {i : ℕ} {call : Call}
    (hc : s.calls i = some call) (hw : call.phase.working = true) {j : ℕ} {d : Call} (hj : j ≠ i)
    (hd : s.calls j = some d) : d.phase.working = false := by
  have hi := h.working i call hc hw
  by_contra hwork
  have hj' := h.working j d hd (by simpa using hwork)
  rw [hi] at hj'
  exact hj (Option.some.inj hj').symm

theorem Inv.held {s s' : State σ} (h : Inv host s) {i : ℕ} {call call' : Call}
    (hc : s.calls i = some call) (hw : call.phase.working = true)
    (hcalls : s'.calls = Function.update s.calls i (some call'))
    (hholder : s'.holder = if call'.phase.working then some i else none)
    (hrows : ∀ r, s'.rows = some r → ∃ cp, s'.checkpoint = some cp ∧ Consistent host r cp)
    (hstart : StartInv host s'.rows s'.checkpoint s'.start)
    (hphase : PhaseInv host s'.rows s'.checkpoint call')
    (hresumed : ∀ e ∈ s'.resumed, Resumption.Stored s'.rows e) : Inv host s' := by
  have hidle : ∀ j d, j ≠ i → s.calls j = some d → d.phase.working = false :=
    fun j d hj hd ↦ h.others_idle hc hw hj hd
  refine ⟨hrows, hstart, ?_, ?_, ?_, hresumed⟩
  · intro j hj
    rw [hholder] at hj
    split at hj
    · next hwork =>
      cases hj
      exact ⟨call', by rw [hcalls, Function.update_self], hwork⟩
    · cases hj
  · intro j d hd hwork
    rw [hcalls] at hd
    rcases calls_cases hd with ⟨rfl, rfl⟩ | ⟨hj, hd⟩
    · rw [hholder, if_pos hwork]
    · rw [hidle j d hj hd] at hwork
      cases hwork
  · intro j d hd
    rw [hcalls] at hd
    rcases calls_cases hd with ⟨rfl, rfl⟩ | ⟨hj, hd⟩
    · exact hphase
    · exact .of_idle (hidle j d hj hd) _ _

theorem StartInv.ended {r : Rows} {checkpoint : Option Checkpoint} {start : Start}
    (h : StartInv host (some r) checkpoint start) : start = .ended := by
  cases start with
  | idle => cases h
  | advancing run => cases h.1
  | returned run progress => cases h.1
  | ended => rfl

theorem Inv.finish {s : State σ} (h : Inv host s) {i : ℕ} {call : Call}
    (hc : s.calls i = some call) (hw : call.phase.working = true) : Inv host (s.finish i call) :=
  h.held hc hw rfl rfl h.rows h.start trivial h.resumed

theorem Inv.setPhase {s : State σ} (h : Inv host s) {i : ℕ} {call : Call}
    (hc : s.calls i = some call) (hw : call.phase.working = true) {phase : Phase}
    (hp : phase.working = true)
    (hphase : PhaseInv host s.rows s.checkpoint { call with phase := phase }) :
    Inv host (s.setPhase i call phase) := by
  refine h.held hc hw rfl ?_ h.rows h.start hphase h.resumed
  rw [if_pos hp]
  exact h.working i call hc hw

theorem Inv.idle {s : State σ} (h : Inv host s) {i : ℕ} {call' : Call}
    (hn : s.holder ≠ some i) (hw : call'.phase.working = false) :
    Inv host { s with calls := Function.update s.calls i (some call') } := by
  refine ⟨h.rows, h.start, ?_, ?_, ?_, h.resumed⟩
  · intro j hj
    have hne : j ≠ i := by
      rintro rfl
      exact hn hj
    obtain ⟨d, hd, hwork⟩ := h.holder j hj
    exact ⟨d, (Function.update_of_ne hne _ _).trans hd, hwork⟩
  · intro j d hd hwork
    rcases calls_cases hd with ⟨rfl, rfl⟩ | ⟨hj, hd⟩
    · rw [hw] at hwork
      cases hwork
    · exact h.working j d hd hwork
  · intro j d hd
    rcases calls_cases hd with ⟨rfl, rfl⟩ | ⟨hj, hd⟩
    · exact .of_idle hw _ _
    · exact h.phases j d hd

theorem Inv.acquire {s : State σ} (h : Inv host s) {i : ℕ} {call : Call} (hn : s.holder = none) :
    Inv host { s.setPhase i call .locked with holder := some i } := by
  have hidle : ∀ j d, s.calls j = some d → d.phase.working = false := by
    intro j d hd
    by_contra hwork
    have hj := h.working j d hd (by simpa using hwork)
    rw [hn] at hj
    cases hj
  refine ⟨h.rows, h.start, ?_, ?_, ?_, h.resumed⟩
  · intro j hj
    obtain rfl := Option.some.inj hj
    exact ⟨_, Function.update_self _ _ _, rfl⟩
  · intro j d hd hwork
    rcases calls_cases hd with ⟨rfl, rfl⟩ | ⟨hj, hd⟩
    · rfl
    · rw [hidle j d hd] at hwork
      cases hwork
  · intro j d hd
    rcases calls_cases hd with ⟨rfl, rfl⟩ | ⟨hj, hd⟩
    · trivial
    · exact .of_idle (hidle j d hd) _ _

/-- The submission of a call is for the owner, an approval, and either the first
decision about its proposal or the one that is recorded. -/
def Matches (rows : Option Rows) (call : Call) : Prop :=
  ∃ r, rows = some r ∧ r.run.userId = call.userId ∧ ∃ a ∈ r.approvals,
    a.revision = call.submission.revision ∧
      (a.decision = .pending ∧ a.proposalFingerprint = call.submission.proposalFingerprint.text ∨
        sameSubmission a call.submission = true)

theorem Recorded.matches {call : Call} {a : AgentApproval} (h : Recorded rows call a) :
    Matches (some rows) call := ⟨rows, rfl, h.1, a, h.2.1, h.2.2.1, .inr h.2.2.2⟩

/-- What one move does: it keeps the invariant and every decision, and a call
that does not match leaves both stores alone. -/
structure Kept (host : Host σ) (s s' : State σ) (call : Call) : Prop where
  inv : Inv host s'
  grows : ∀ r, s.rows = some r → ∃ r', s'.rows = some r' ∧ Grows r r'
  foreign : ¬ Matches s.rows call →
    s'.rows = s.rows ∧ s'.checkpoint = s.checkpoint ∧ s'.resumed = s.resumed

theorem Inv.record {s : State σ} (h : Inv host s) {i : ℕ} {call : Call}
    (hc : s.calls i = some call) (hl : call.phase = .locked) {now : Datetime}
    {rows : Rows} {approval : AgentApproval}
    (hr : recordDecision s.rows call.userId call.submission now = .ok (rows, approval)) :
    Inv host { s.setPhase i call (.recorded approval) with rows := some rows } ∧
      (∃ r, s.rows = some r ∧ Grows r rows) ∧ Matches s.rows call := by
  have hw : call.phase.working = true := by rw [hl]; rfl
  obtain ⟨r, hs, hu, hcases⟩ := recordDecision_ok hr
  obtain ⟨cp, hcp, hcons⟩ := h.rows r hs
  have hstart : s.start = .ended := (hs ▸ h.start).ended
  have hi := h.working i call hc hw
  have hheld (hcons' : Consistent host rows cp) (hg : Grows r rows)
      (hrec : Recorded rows call approval) :
      Inv host { s.setPhase i call (.recorded approval) with rows := some rows } := by
    refine h.held hc hw rfl hi ?_ ?_ ⟨rows, rfl, hrec⟩ ?_
    · rintro _ ⟨⟩
      exact ⟨cp, hcp, hcons'⟩
    · rw [State.setPhase, hstart]
      trivial
    · intro e he
      have hstored := h.resumed e he
      rw [hs] at hstored
      exact hstored.grows hg
  rcases hcases with ⟨hmem, hrev, hsame, rfl⟩ | ⟨a, hmem, hrev, hp, hf, -, rfl, rfl⟩
  · have hrec : Recorded rows call approval := ⟨hu, hmem, hrev, hsame⟩
    exact ⟨hheld hcons (.refl _) hrec, ⟨rows, hs, .refl _⟩, hs ▸ hrec.matches⟩
  · have hg := grows_decided hcons.ids hmem hp call.submission now
    have hsame := sameSubmission_updateApproval hf now
    have hrec : Recorded (decidedRows r a call.submission now) call
        (updateApproval a call.submission now) :=
      ⟨hu, List.mem_map.mpr ⟨a, hmem, if_pos rfl⟩, hrev, hsame⟩
    exact ⟨hheld (hcons.decided hmem hp _ _) hg hrec, ⟨r, hs, hg⟩,
      r, hs, hu, a, hmem, hrev, .inl ⟨hp, hf⟩⟩

theorem Kept.of_rows {s s' : State σ} {call : Call} (h : Inv host s') (hr : s'.rows = s.rows)
    (hc : s'.checkpoint = s.checkpoint) (hres : s'.resumed = s.resumed) : Kept host s s' call :=
  ⟨h, fun r hs ↦ ⟨r, hr.trans hs, .refl r⟩, fun _ ↦ ⟨hr, hc, hres⟩⟩

theorem Kept.of_matches {s s' : State σ} {call : Call} (h : Inv host s')
    (hg : ∀ r, s.rows = some r → ∃ r', s'.rows = some r' ∧ Grows r r')
    (hm : Matches s.rows call) : Kept host s s' call :=
  ⟨h, hg, fun hn ↦ absurd hm hn⟩

theorem kept_inspect {s s' : State σ} (h : Inv host s) {i : ℕ} {call : Call}
    (hc : s.calls i = some call) (hs : callStep host s i call (.inspect i) = some s') :
    Kept host s s' call := by
  simp only [callStep] at hs
  split at hs
  · next a rows cp hphase hrows hcp =>
    have hw : call.phase.working = true := by rw [hphase]; rfl
    obtain ⟨cp', hcp', hcons⟩ := h.rows rows hrows
    obtain rfl : cp = cp' := Option.some.inj (hcp.symm.trans hcp')
    have hpi := h.phases i call hc
    simp only [PhaseInv, hphase] at hpi
    obtain ⟨r, hr, hrec⟩ := hpi
    obtain rfl : rows = r := Option.some.inj (hrows.symm.trans hr)
    cases hrecover : reconcile rows.run a (inspectSnapshot host.sha256 host.coercions cp) with
    | error e =>
      rw [hrecover] at hs
      cases hs
      exact .of_rows (h.finish hc hw) rfl rfl rfl
    | ok recovery =>
      have hok := reconcile_ok hcons hrecover
      rw [hrecover] at hs
      cases recovery with
      | persist progress =>
        cases hs
        exact .of_rows (h.setPhase hc hw rfl ⟨rows, a, cp, hrows, hcp, hrec, hok⟩) rfl rfl rfl
      | «continue» =>
        cases hs
        exact .of_rows (h.setPhase hc hw rfl ⟨rows, a, cp, hrows, hcp, hrec, hok, nofun⟩) rfl rfl rfl
      | resume response =>
        cases hs
        refine .of_rows (h.setPhase hc hw rfl ⟨rows, a, cp, hrows, hcp, hrec, hok.1, ?_⟩) rfl rfl rfl
        rintro _ ⟨⟩
        exact hok.2
  · cases hs

theorem kept_advance {s s' : State σ} (h : Inv host s) {i : ℕ} {call : Call}
    (hc : s.calls i = some call) (hs : callStep host s i call (.advance i) = some s') :
    Kept host s s' call := by
  simp only [callStep] at hs
  split at hs
  · next answer cp hphase hcp =>
    have hw : call.phase.working = true := by rw [hphase]; rfl
    have hi := h.working i call hc hw
    have hpi := h.phases i call hc
    simp only [PhaseInv, hphase] at hpi
    obtain ⟨rows, a, cp', hrows, hcp', hrec, hrun, hanswer⟩ := hpi
    obtain rfl : cp = cp' := Option.some.inj (hcp.symm.trans hcp')
    obtain ⟨cp', hcp', hcons⟩ := h.rows rows hrows
    obtain rfl : cp = cp' := Option.some.inj (hcp.symm.trans hcp')
    have hstart : s.start = .ended := (hrows ▸ h.start).ended
    rcases hadv : advanceCheckpoint host cp answer s.world with ⟨outcome, cp₁, w₁⟩
    obtain ⟨hstep, hreturned⟩ := advanceCheckpoint_spec hadv
    have hcons₁ : Consistent host rows cp₁ := by
      rcases hstep with rfl | hstep
      · exact hcons
      · exact hcons.advance hrun hstep
    have hresumed : ∀ e ∈ s.trace host call cp answer, Resumption.Stored s.rows e := by
      cases answer with
      | none => exact h.resumed
      | some response =>
        intro e he
        rcases List.mem_append.mp he with he | he
        · exact h.resumed e he
        · obtain rfl := List.mem_singleton.mp he
          obtain ⟨hstored, request, hinspect, hrev, hf⟩ := hanswer response rfl
          exact ⟨rows, request, a, hrows, by rw [hinspect], hrec.1, hrec.2.1, hrev.symm, hf.symm,
            hstored, hrec.2.2⟩
    have hrows₁ : ∀ r, s.rows = some r → ∃ cp, some cp₁ = some cp ∧ Consistent host r cp := by
      intro r hr
      obtain rfl : rows = r := Option.some.inj (hrows.symm.trans hr)
      exact ⟨cp₁, rfl, hcons₁⟩
    have hstart₁ : StartInv host s.rows (some cp₁) s.start := by rw [hstart]; trivial
    have hgrows : ∀ r, s.rows = some r → ∃ r', s.rows = some r' ∧ Grows r r' :=
      fun r hr ↦ ⟨r, hr, .refl r⟩
    rw [hadv] at hs
    cases outcome with
    | failed =>
      cases hs
      exact .of_matches (h.held hc hw rfl rfl hrows₁ hstart₁ trivial hresumed) hgrows
        (hrows ▸ hrec.matches)
    | running =>
      cases hs
      refine .of_matches (h.held hc hw rfl hi hrows₁ hstart₁ ?_ hresumed) hgrows
        (hrows ▸ hrec.matches)
      exact ⟨rows, a, cp₁, hrows, rfl, hrec, hrun, nofun⟩
    | returned progress =>
      cases hs
      refine .of_matches (h.held hc hw rfl hi hrows₁ hstart₁ ?_ hresumed) hgrows
        (hrows ▸ hrec.matches)
      exact ⟨rows, a, cp₁, hrows, rfl, hrec, hreturned progress rfl⟩
  · cases hs

theorem kept_persist {s s' : State σ} (h : Inv host s) {i : ℕ} {call : Call}
    (hc : s.calls i = some call) {id : UUID} {now : Datetime}
    (hs : callStep host s i call (.persist i id now) = some s') : Kept host s s' call := by
  simp only [callStep] at hs
  split at hs
  · next progress rows hphase hrows =>
    have hw : call.phase.working = true := by rw [hphase]; rfl
    have hpi := h.phases i call hc
    simp only [PhaseInv, hphase] at hpi
    obtain ⟨r, a, cp, hr, hcp, hrec, hp⟩ := hpi
    obtain rfl : rows = r := Option.some.inj (hrows.symm.trans hr)
    obtain ⟨cp', hcp', hcons⟩ := h.rows rows hrows
    obtain rfl : cp = cp' := Option.some.inj (hcp.symm.trans hcp')
    have hstart : s.start = .ended := (hrows ▸ h.start).ended
    cases hpersist : persistProgress rows progress id now with
    | none =>
      rw [hpersist] at hs
      cases hs
      exact .of_rows (h.finish hc hw) rfl rfl rfl
    | some rows' =>
      rw [hpersist] at hs
      cases hs
      obtain ⟨hcons', hg⟩ := hcons.persist hp hpersist
      refine .of_matches (h.held hc hw rfl rfl ?_ ?_ trivial ?_) ?_ (hrows ▸ hrec.matches)
      · rintro _ ⟨⟩
        exact ⟨cp, hcp, hcons'⟩
      · rw [State.finish, State.setPhase, hstart]
        trivial
      · intro e he
        have hstored := h.resumed e he
        rw [hrows] at hstored
        exact hstored.grows hg
      · intro r hr
        obtain rfl : rows = r := Option.some.inj (hrows.symm.trans hr)
        exact ⟨rows', rfl, hg⟩
  · cases hs

theorem kept_callStep {s s' : State σ} (h : Inv host s) {i : ℕ} {call : Call}
    (hc : s.calls i = some call) {m : Move σ} (hm : m.caller = some i)
    (hs : callStep host s i call m = some s') : Kept host s s' call := by
  cases m with
  | acquire j =>
    simp only [callStep] at hs
    split at hs
    · next hphase hn =>
      cases hs
      exact .of_rows (h.acquire hn) rfl rfl rfl
    · cases hs
  | record j now =>
    simp only [callStep] at hs
    split at hs
    · next hphase =>
      have hw : call.phase.working = true := by rw [hphase]; rfl
      cases hr : recordDecision s.rows call.userId call.submission now with
      | error e =>
        rw [hr] at hs
        cases hs
        exact .of_rows (h.finish hc hw) rfl rfl rfl
      | ok pair =>
        obtain ⟨rows, a⟩ := pair
        obtain ⟨hinv, ⟨r, hrows, hg⟩, hmatch⟩ := h.record hc hphase hr
        rw [hr] at hs
        cases hs
        refine .of_matches hinv ?_ hmatch
        intro r' hr'
        obtain rfl : r = r' := Option.some.inj (hrows.symm.trans hr')
        exact ⟨rows, rfl, hg⟩
    · cases hs
  | inspect j => exact kept_inspect h hc hs
  | advance j => exact kept_advance h hc hs
  | persist j id now => exact kept_persist h hc hs
  | crash j =>
    cases hs
    by_cases hw : call.phase.working = true
    · rw [if_pos hw]
      exact .of_rows (h.finish hc hw) rfl rfl rfl
    · rw [if_neg hw]
      have hn : s.holder ≠ some i := by
        intro hi
        obtain ⟨d, hd, hwork⟩ := h.holder i hi
        obtain rfl : call = d := Option.some.inj (hc.symm.trans hd)
        exact hw hwork
      exact .of_rows (h.idle hn rfl) rfl rfl rfl
  | call j userId submission => cases hs
  | start id userId goal now => cases hs
  | startAdvance => cases hs
  | startCommit id now => cases hs
  | startCrash => cases hs
  | outside w => cases hs

theorem Inv.starting {s s' : State σ} (h : Inv host s) (hn : s.rows = none)
    (hcalls : s'.calls = s.calls) (hholder : s'.holder = s.holder)
    (hresumed : s'.resumed = s.resumed)
    (hrows : ∀ r, s'.rows = some r → ∃ cp, s'.checkpoint = some cp ∧ Consistent host r cp)
    (hstart : StartInv host s'.rows s'.checkpoint s'.start) : Inv host s' := by
  refine ⟨hrows, hstart, ?_, ?_, ?_, ?_⟩
  · rw [hholder, hcalls]
    exact h.holder
  · rw [hholder, hcalls]
    exact h.working
  · intro i call hc
    rw [hcalls] at hc
    have hp := h.phases i call hc
    rw [hn] at hp
    exact hp.of_none _ _
  · intro e he
    rw [hresumed] at he
    obtain ⟨r, request, a, hr, -⟩ := h.resumed e he
    rw [hn] at hr
    cases hr

theorem inv_startStep {s s' : State σ} (h : Inv host s) {m : Move σ}
    (hs : startStep host s m = some s') :
    Inv host s' ∧ ∀ r, s.rows = some r → ∃ r', s'.rows = some r' ∧ Grows r r' := by
  cases m with
  | start id userId goal now =>
    simp only [startStep] at hs
    split at hs
    · next hstart =>
      cases hs
      have hn : s.rows = none := by
        have hi := h.start
        rw [hstart] at hi
        exact hi
      refine ⟨h.starting hn rfl rfl rfl ?_ ⟨hn, _, rfl, Checkpoints.inv_initial goal⟩, ?_⟩
      · intro r hr
        rw [hn] at hr
        cases hr
      · intro r hr
        exact ⟨r, hr, .refl r⟩
    · cases hs
  | startAdvance =>
    simp only [startStep] at hs
    split at hs
    · next run cp hstart hcp =>
      have hi := h.start
      rw [hstart] at hi
      obtain ⟨hn, cp', hcp', hinv⟩ := hi
      obtain rfl : cp = cp' := Option.some.inj (hcp.symm.trans hcp')
      rcases hadv : advanceCheckpoint host cp none s.world with ⟨outcome, cp₁, w₁⟩
      obtain ⟨hstep, hreturned⟩ := advanceCheckpoint_spec hadv
      have hinv₁ : Checkpoints.Inv host.sha256 host.coercions host.context cp₁ := by
        rcases hstep with rfl | hstep
        · exact hinv
        · exact Checkpoints.superstep_inv (Checkpoints.durable host) hinv hstep
      rw [hadv] at hs
      cases hs
      refine ⟨h.starting hn rfl rfl rfl ?_ ?_, fun r hr ↦ ⟨r, hr, .refl r⟩⟩
      · intro r hr
        rw [hn] at hr
        cases hr
      · cases outcome with
        | failed => trivial
        | running => exact ⟨hn, cp₁, rfl, hinv₁⟩
        | returned progress => exact ⟨hn, cp₁, rfl, hinv₁, hreturned progress rfl⟩
    · cases hs
  | startCommit id now =>
    simp only [startStep] at hs
    split at hs
    · next run progress hstart =>
      have hi := h.start
      rw [hstart] at hi
      obtain ⟨hn, cp, hcp, hinv, hp⟩ := hi
      cases hs
      refine ⟨h.starting hn rfl rfl rfl ?_ trivial, ?_⟩
      · intro r hr
        exact ⟨cp, hcp, consistent_startRows hinv hp hr⟩
      · intro r hr
        rw [hn] at hr
        cases hr
    · cases hs
  | startCrash =>
    cases hs
    exact ⟨⟨h.rows, trivial, h.holder, h.working, h.phases, h.resumed⟩, fun r hr ↦ ⟨r, hr, .refl r⟩⟩
  | call i userId submission => cases hs
  | acquire i => cases hs
  | record i now => cases hs
  | inspect i => cases hs
  | advance i => cases hs
  | persist i id now => cases hs
  | crash i => cases hs
  | outside w => cases hs

theorem step_cases {s s' : State σ} {m : Move σ} (hs : step host s m = some s') :
    (∃ i userId submission, m = .call i userId submission ∧ s.calls i = none ∧
      s' = { s with calls := Function.update s.calls i (some ⟨userId, submission, .waiting⟩) }) ∨
    (∃ w, m = .outside w ∧ s' = { s with world := w }) ∨
    (m.caller = none ∧ startStep host s m = some s') ∨
    ∃ i call, m.caller = some i ∧ s.calls i = some call ∧ callStep host s i call m = some s' := by
  cases m with
  | call i userId submission =>
    simp only [step] at hs
    split at hs
    · next hn =>
      cases hs
      exact .inl ⟨i, userId, submission, rfl, hn, rfl⟩
    · cases hs
  | outside w =>
    cases hs
    exact .inr (.inl ⟨w, rfl, rfl⟩)
  | start id userId goal now => exact .inr (.inr (.inl ⟨rfl, hs⟩))
  | startAdvance => exact .inr (.inr (.inl ⟨rfl, hs⟩))
  | startCommit id now => exact .inr (.inr (.inl ⟨rfl, hs⟩))
  | startCrash => exact .inr (.inr (.inl ⟨rfl, hs⟩))
  | acquire i | record i now | inspect i | advance i | persist i id now | crash i =>
    obtain ⟨call, hc, hs⟩ := Option.bind_eq_some_iff.mp hs
    exact .inr (.inr (.inr ⟨i, call, rfl, hc, hs⟩))

theorem inv_step {s s' : State σ} (h : Inv host s) {m : Move σ} (hs : step host s m = some s') :
    Inv host s' ∧ ∀ r, s.rows = some r → ∃ r', s'.rows = some r' ∧ Grows r r' := by
  rcases step_cases hs with ⟨i, userId, submission, rfl, hn, rfl⟩ | ⟨w, rfl, rfl⟩ | ⟨-, hs⟩ |
    ⟨i, call, hm, hc, hs⟩
  · have hi : s.holder ≠ some i := by
      intro hi
      obtain ⟨d, hd, -⟩ := h.holder i hi
      rw [hn] at hd
      cases hd
    exact ⟨h.idle hi rfl, fun r hr ↦ ⟨r, hr, .refl r⟩⟩
  · exact ⟨⟨h.rows, h.start, h.holder, h.working, h.phases, h.resumed⟩, fun r hr ↦ ⟨r, hr, .refl r⟩⟩
  · exact inv_startStep h hs
  · have hk := kept_callStep h hc hm hs
    exact ⟨hk.inv, hk.grows⟩

theorem inv_reachable {s : State σ} (h : (machine host).Reachable s) : Inv host s := by
  refine Machine.Reachable.invariant (Inv host) ?_ (fun s m s' hi hs ↦ (inv_step hi hs).1) h
  rintro s ⟨hrows, hcp, hstart, hcalls, hholder, hresumed⟩
  refine ⟨?_, ?_, ?_, ?_, ?_, ?_⟩
  · intro r hr
    rw [hrows] at hr
    cases hr
  · rw [hstart]
    exact hrows
  · intro i hi
    rw [hholder] at hi
    cases hi
  · intro i call hc
    rw [hcalls] at hc
    cases hc
  · intro i call hc
    rw [hcalls] at hc
    cases hc
  · intro e he
    rw [hresumed] at he
    cases he

theorem grows_leads {s t : State σ} (hs : (machine host).Reachable s)
    (h : (machine host).Leads s t) {r : Rows} (hr : s.rows = some r) :
    ∃ r', t.rows = some r' ∧ Grows r r' := by
  refine Machine.Leads.stable (fun t ↦ ∃ r', t.rows = some r' ∧ Grows r r') ?_ hs h
    ⟨r, hr, .refl r⟩
  rintro t m t' ht ⟨r', hr', hg⟩ hm
  obtain ⟨r'', hr'', hg'⟩ := (inv_step (inv_reachable ht) hm).2 r' hr'
  exact ⟨r'', hr'', hg.trans hg'⟩

theorem Consistent.latest (h : Consistent host rows cp) {a : AgentApproval} (ha : a ∈ rows.approvals)
    (hp : a.decision = .pending) : getLatestOwnedApproval rows.approvals = some a := by
  have hrev : a.revision = cp.values.revisionCount := by
    obtain ⟨-, request, hi, hrev, -⟩ := h.pending a ha hp
    have hp : progressOf (inspectSnapshot host.sha256 host.coercions cp) =
        some (.approval request) := by
      rw [hi]
      rfl
    rcases progressOf_eq h.graph hp with ⟨q, hq, hcount, -⟩ | ⟨o, ho, -⟩
    · cases hq
      omega
    · cases ho
  have hmax : ∀ b ∈ rows.approvals, b.revision ≤ a.revision := fun b hb ↦ hrev ▸ h.bounded b hb
  unfold getLatestOwnedApproval
  cases hf : rows.approvals.find? fun a ↦ rows.approvals.all fun b ↦ b.revision ≤ a.revision with
  | none =>
    have hn := List.find?_eq_none.mp hf a ha
    simp only [List.all_eq_true, decide_eq_true_eq] at hn
    exact absurd hmax hn
  | some b =>
    have hb := List.mem_of_find?_eq_some hf
    have hle := List.find?_some hf
    simp only [List.all_eq_true, decide_eq_true_eq] at hle
    have heq : b.revision = a.revision := le_antisymm (hmax b hb) (hle a ha)
    rw [List.inj_on_of_nodup_map h.revisions hb ha heq]

/-- The protocol of approvals, from every reachable state: decisions stay, the
graph is resumed with what is stored, a call that does not match has no effect,
the pending approval is the latest and goes with the status of the run, and a
terminal status is that of the output. -/
theorem approval_protocol {s : State σ} (h : (machine host).Reachable s) :
    (∀ t, (machine host).Leads s t → ∀ r, s.rows = some r → ∃ r', t.rows = some r' ∧
      ∀ a ∈ r.approvals, a.decision ≠ .pending → a ∈ r'.approvals) ∧
    (∀ e ∈ s.resumed, Resumption.Stored s.rows e) ∧
    (∀ i call m s', s.calls i = some call → m.caller = some i →
      (machine host).step s m = some s' → ¬ Matches s.rows call →
      s'.rows = s.rows ∧ s'.checkpoint = s.checkpoint ∧ s'.resumed = s.resumed) ∧
    ∀ r, s.rows = some r →
      (∀ a ∈ r.approvals, a.decision = .pending → getLatestOwnedApproval r.approvals = some a) ∧
      (r.run.status = .pendingApproval ↔ ∃ a ∈ r.approvals, a.decision = .pending) ∧
      ∀ t, r.run.status = terminalRunStatus t → ∃ cp o, s.checkpoint = some cp ∧
        inspectSnapshot host.sha256 host.coercions cp = ⟨.terminal, none, some o⟩ ∧ o.status = t := by
  have hi := inv_reachable h
  refine ⟨fun t ht r hr ↦ ?_, hi.resumed, ?_, fun r hr ↦ ?_⟩
  · obtain ⟨r', hr', hg⟩ := grows_leads h ht hr
    exact ⟨r', hr', hg.2⟩
  · intro i call m s' hc hm hs hmatch
    rcases step_cases hs with ⟨j, userId, submission, rfl, hn, rfl⟩ | ⟨w, rfl, rfl⟩ | ⟨hm', -⟩ |
      ⟨j, d, hm', hd, hs⟩
    · obtain rfl := Option.some.inj hm
      rw [hn] at hc
      cases hc
    · cases hm
    · rw [hm] at hm'
      cases hm'
    · obtain rfl := Option.some.inj (hm.symm.trans hm')
      obtain rfl := Option.some.inj (hc.symm.trans hd)
      exact (kept_callStep hi hc hm hs).foreign hmatch
  · obtain ⟨cp, hcp, hcons⟩ := hi.rows r hr
    refine ⟨fun a ha hp ↦ hcons.latest ha hp, ⟨hcons.waiting, ?_⟩, fun t ht ↦ ?_⟩
    · rintro ⟨a, ha, hp⟩
      exact (hcons.pending a ha hp).1
    · obtain ⟨o, ho, hot⟩ := hcons.terminal t ht
      exact ⟨cp, o, hcp, ho, hot⟩

def sampleStart : State Unit := ⟨none, none, (), .idle, fun _ ↦ none, none, []⟩

/-- A plan that is rejected: another owner tries it first, and the first process
stops once it has recorded the decision. -/
def sampleMoves : List (Move Unit) :=
  [.start (sampleId 1) sampleUserId sampleGoal sampleNow, .startAdvance, .startAdvance,
    .startAdvance, .startAdvance, .startAdvance, .startCommit (sampleId 2) sampleNow,
    .call 0 (sampleId 9) sampleRejection, .acquire 0, .record 0 sampleNow,
    .call 1 sampleUserId sampleRejection, .acquire 1, .record 1 sampleNow, .crash 1,
    .call 2 sampleUserId sampleRejection, .acquire 2, .record 2 sampleNow, .inspect 2, .advance 2,
    .advance 2, .advance 2, .persist 2 (sampleId 3) sampleNow]

theorem approval_protocol_sample :
    ∃ s r, (machine Checkpoints.sampleHost).Reachable s ∧ s.rows = some r ∧ s.resumed.length = 1 ∧
      (∀ e ∈ s.resumed, Resumption.Stored s.rows e) ∧
      ∃ cp o, s.checkpoint = some cp ∧
        inspectSnapshot Checkpoints.sampleHost.sha256 Checkpoints.sampleHost.coercions cp =
          ⟨.terminal, none, some o⟩ ∧
        o.status = .rejected := by
  have hexec : ((machine Checkpoints.sampleHost).exec sampleStart sampleMoves).map
      (fun s ↦ (s.resumed.length, s.rows.map (·.run.status))) = some (1, some .rejected) := by
    decide +kernel
  obtain ⟨s, hs, hrun⟩ := Option.map_eq_some_iff.mp hexec
  obtain ⟨r, hr, hstatus⟩ := Option.map_eq_some_iff.mp (congrArg Prod.snd hrun)
  have h0 : (machine Checkpoints.sampleHost).Reachable sampleStart :=
    .start ⟨rfl, rfl, rfl, rfl, rfl, rfl⟩
  have h := h0.exec hs
  obtain ⟨-, hresumed, -, hrows⟩ := approval_protocol h
  obtain ⟨-, -, hterminal⟩ := hrows r hr
  exact ⟨s, r, h, hr, congrArg Prod.fst hrun, hresumed, hterminal .rejected hstatus⟩

end LearningTasks.Services.ApprovalProtocol
