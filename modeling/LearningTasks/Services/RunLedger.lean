import LearningTasks.Services.ApprovalReplay

namespace LearningTasks.Services.RunLedger

open Library.Strings Library.Transition Schemas.Scalars Models.Agent Agent Agent.Schemas
  Agent.State Agent.Approval Agent.Finalization Agent.Graph AgentWorkflow ApprovalProtocol
  ApprovalReplay

inductive Stage
  | waiting
  | working
  | ended (status : AgentTerminalStatus)
  deriving DecidableEq

/-- A run as its owner sees it: the decisions about one plan after another, and what has
become of the last one. -/
structure Ledger where
  decisions : List AgentApprovalDecision
  stage : Stage
  deriving DecidableEq

inductive Act
  | decide (decision : AgentApprovalDecision)
  | revise
  | finish (status : AgentTerminalStatus)

/-- The ends that the decisions allow. Changes requested of the last revision reject it. -/
def allowed (decisions : List AgentApprovalDecision) (status : AgentTerminalStatus) : Bool :=
  match decisions.getLast? with
  | none => status = .failed
  | some .approved => status ≠ .rejected
  | some .rejected => status = .rejected
  | some .requestChanges =>
    status = if decisions.length > maxPlanRevisions then .rejected else .failed

def ledgerStep (l : Ledger) : Act → Option Ledger
  | .decide d => if l.stage = .waiting then some ⟨l.decisions ++ [d], .working⟩ else none
  | .revise =>
    if l.stage = .working ∧ l.decisions.getLast? = some .requestChanges ∧
        l.decisions.length ≤ maxPlanRevisions then
      some ⟨l.decisions, .waiting⟩
    else none
  | .finish t =>
    if l.stage = .working ∧ allowed l.decisions t then some ⟨l.decisions, .ended t⟩ else none

/-- The purpose of a run: its owner decides about one plan after another, as long as changes
are requested and the revisions last. -/
def ledgerMachine : Machine Ledger Act where
  init l := l = ⟨[], .waiting⟩ ∨ l = ⟨[], .ended .failed⟩
  step := ledgerStep

structure Sound (l : Ledger) : Prop where
  rounds : ∀ d ∈ l.decisions.dropLast, d = .requestChanges
  bounded : l.decisions.length ≤ maxPlanRevisions + 1
  waiting : l.stage = .waiting → (∀ d ∈ l.decisions, d = .requestChanges) ∧
    l.decisions.length ≤ maxPlanRevisions
  ended : ∀ t, l.stage = .ended t → allowed l.decisions t = true

theorem sound_step {l l' : Ledger} {a : Act} (h : Sound l) (hs : ledgerStep l a = some l') :
    Sound l' := by
  cases a with
  | decide d =>
    obtain ⟨hstage, hs⟩ := Option.ite_none_right_eq_some.mp hs
    obtain rfl := Option.some.inj hs
    obtain ⟨hall, hle⟩ := h.waiting hstage
    refine ⟨?_, ?_, nofun, nofun⟩
    · rw [List.dropLast_concat]
      exact hall
    · rw [List.length_append, List.length_singleton]
      omega
  | revise =>
    obtain ⟨⟨-, hlast, hle⟩, hs⟩ := Option.ite_none_right_eq_some.mp hs
    obtain rfl := Option.some.inj hs
    refine ⟨h.rounds, h.bounded, fun _ ↦ ⟨fun d hd ↦ ?_, hle⟩, nofun⟩
    obtain ⟨front, hfront⟩ := List.getLast?_eq_some_iff.mp hlast
    have hrounds := h.rounds
    rw [hfront, List.dropLast_concat] at hrounds
    change d ∈ l.decisions at hd
    rw [hfront] at hd
    rcases List.mem_append.mp hd with hd | hd
    · exact hrounds d hd
    · exact List.mem_singleton.mp hd
  | finish t =>
    obtain ⟨⟨-, hallowed⟩, hs⟩ := Option.ite_none_right_eq_some.mp hs
    obtain rfl := Option.some.inj hs
    refine ⟨h.rounds, h.bounded, nofun, ?_⟩
    rintro _ ⟨⟩
    exact hallowed

theorem sound_reachable {l : Ledger} (h : ledgerMachine.Reachable l) : Sound l := by
  refine Machine.Reachable.invariant Sound ?_ (fun l a l' hl hs ↦ sound_step hl hs) h
  rintro l (rfl | rfl)
  · exact ⟨nofun, Nat.zero_le _, fun _ ↦ ⟨nofun, Nat.zero_le _⟩, nofun⟩
  · refine ⟨nofun, Nat.zero_le _, nofun, ?_⟩
    rintro _ ⟨⟩
    rfl

def decisionOf : AgentApprovalStatus → Option AgentApprovalDecision
  | .pending => none
  | .approved => some .approved
  | .rejected => some .rejected
  | .requestChanges => some .requestChanges

def stageOf : AgentRunStatus → Stage
  | .pendingApproval => .waiting
  | .pending | .running => .working
  | .succeeded => .ended .succeeded
  | .rejected => .ended .rejected
  | .partialFailure => .ended .partialFailure
  | .failed => .ended .failed

def decisionsOf (approvals : List AgentApproval) : List AgentApprovalDecision :=
  approvals.filterMap fun a ↦ decisionOf a.decision

def ledgerOf (rows : Rows) : Ledger := ⟨decisionsOf rows.approvals, stageOf rows.run.status⟩

theorem stageOf_terminal (t : AgentTerminalStatus) : stageOf (terminalRunStatus t) = .ended t := by
  cases t <;> rfl

theorem decisionOf_approvalStatus (d : AgentApprovalDecision) :
    decisionOf (approvalStatus d) = some d := by
  cases d <;> rfl

/-- The approvals of the rounds that are over: the owner asked for changes each time. -/
def Over (k : ℕ) (approvals : List AgentApproval) : Prop :=
  approvals.map (fun a ↦ (a.revision, a.decision)) =
    (List.range k).map fun r ↦ (r, AgentApprovalStatus.requestChanges)

/-- The approvals up to a revision, with what is decided of the plan that it proposes. -/
def Latest (k : ℕ) (fingerprint : Text) (d : AgentApprovalStatus) (approvals : List AgentApproval) :
    Prop :=
  ∃ earlier a, approvals = earlier ++ [a] ∧ Over k earlier ∧ a.revision = k ∧
    a.proposalFingerprint = fingerprint ∧ a.decision = d

section

variable {k : ℕ} {fingerprint : Text} {d : AgentApprovalStatus} {approvals : List AgentApproval}

theorem over_nil : Over 0 [] := rfl

theorem Over.length (h : Over k approvals) : approvals.length = k := by
  have hlength := congrArg List.length h
  simpa only [List.length_map, List.length_range] using hlength

theorem Over.mem (h : Over k approvals) {a : AgentApproval} (ha : a ∈ approvals) :
    a.revision < k ∧ a.decision = .requestChanges := by
  have hmem := List.mem_map_of_mem (f := fun a : AgentApproval ↦ (a.revision, a.decision)) ha
  rw [h] at hmem
  obtain ⟨r, hr, heq⟩ := List.mem_map.mp hmem
  obtain ⟨hrevision, hdecision⟩ := Prod.mk.inj heq
  exact ⟨hrevision ▸ List.mem_range.mp hr, hdecision.symm⟩

theorem Over.decisions (h : Over k approvals) :
    decisionsOf approvals = List.replicate k .requestChanges := by
  have hsome : decisionsOf approvals =
      approvals.filterMap fun _ ↦ some AgentApprovalDecision.requestChanges :=
    List.filterMap_congr fun a ha ↦ by rw [(h.mem ha).2]; rfl
  rw [hsome, List.filterMap_eq_map', List.map_const', h.length]

theorem Over.revisions (h : Over k approvals) :
    approvals.map (·.revision) = List.range k := by
  have hfst := congrArg (List.map Prod.fst) h
  simpa only [List.map_map, Function.comp_def, List.map_id'] using hfst

theorem Latest.decisions (h : Latest k fingerprint d approvals) :
    decisionsOf approvals = List.replicate k .requestChanges ++ (decisionOf d).toList := by
  obtain ⟨earlier, a, rfl, hover, -, -, rfl⟩ := h
  have hearlier := hover.decisions
  unfold decisionsOf at hearlier ⊢
  rw [List.filterMap_append, hearlier, List.filterMap_cons]
  cases decisionOf a.decision with
  | none => rfl
  | some x => rfl

theorem Latest.revisions (h : Latest k fingerprint d approvals) :
    approvals.map (·.revision) = List.range (k + 1) := by
  obtain ⟨earlier, a, rfl, hover, rfl, -, -⟩ := h
  rw [List.map_append, hover.revisions, List.range_succ]
  rfl

theorem Latest.le (h : Latest k fingerprint d approvals) : ∀ b ∈ approvals, b.revision ≤ k := by
  intro b hb
  have hmem : b.revision ∈ List.range (k + 1) := h.revisions ▸ List.mem_map_of_mem hb
  exact Nat.lt_succ_iff.mp (List.mem_range.mp hmem)

theorem Latest.over (h : Latest k fingerprint .requestChanges approvals) :
    Over (k + 1) approvals := by
  obtain ⟨earlier, a, rfl, hover, rfl, -, hd⟩ := h
  unfold Over at hover ⊢
  rw [List.map_append, hover, List.range_succ, List.map_append, List.map_singleton,
    List.map_singleton, hd]

theorem Latest.eq (h : Latest k fingerprint d approvals) {a : AgentApproval} (ha : a ∈ approvals)
    (hk : a.revision = k) : a.proposalFingerprint = fingerprint ∧ a.decision = d := by
  obtain ⟨earlier, b, rfl, hover, -, hf, hd⟩ := h
  rcases List.mem_append.mp ha with ha | ha
  · have hlt := (hover.mem ha).1
    omega
  · obtain rfl := List.mem_singleton.mp ha
    exact ⟨hf, hd⟩

theorem Latest.get (h : Latest k fingerprint d approvals) :
    ∃ a, getOwnedApproval approvals k = some a ∧ a ∈ approvals ∧
      a.proposalFingerprint = fingerprint ∧ a.decision = d := by
  obtain ⟨earlier, b, rfl, hover, hk, hf, hd⟩ := h
  have hmem : b ∈ earlier ++ [b] := List.mem_append_right _ (List.mem_singleton_self b)
  cases hg : getOwnedApproval (earlier ++ [b]) k with
  | none => exact absurd hk (getOwnedApproval_none hg hmem)
  | some a =>
    obtain ⟨ha, hrevision⟩ := getOwnedApproval_some hg
    have hlatest : Latest k fingerprint d (earlier ++ [b]) :=
      ⟨earlier, b, rfl, hover, hk, hf, hd⟩
    exact ⟨a, rfl, ha, hlatest.eq ha hrevision⟩

theorem Latest.pending (h : Latest k fingerprint d approvals) {a : AgentApproval}
    (ha : a ∈ approvals) (hp : a.decision = .pending) : d = .pending ∧ a.revision = k := by
  obtain ⟨earlier, b, rfl, hover, hk, -, rfl⟩ := h
  rcases List.mem_append.mp ha with ha | ha
  · have hdecision := (hover.mem ha).2
    rw [hp] at hdecision
    cases hdecision
  · obtain rfl := List.mem_singleton.mp ha
    exact ⟨hp, hk⟩

theorem Over.created (h : Over k approvals) {request : AgentApprovalInterrupt} (id : UUID)
    (now : Datetime) (hk : request.revision = k) :
    Latest k request.proposalFingerprint.text .pending
      (approvals ++ [createApproval id request now]) :=
  ⟨approvals, createApproval id request now, rfl, h, hk, rfl, rfl⟩

theorem Latest.decided {rows : Rows} (h : Latest k fingerprint .pending rows.approvals)
    (hids : (rows.approvals.map (·.id)).Nodup) {a : AgentApproval} (ha : a ∈ rows.approvals)
    (hp : a.decision = .pending) (submission : AgentApprovalSubmission) (now : Datetime) :
    Latest k fingerprint (approvalStatus submission.decision)
      (decidedRows rows a submission now).approvals := by
  obtain ⟨earlier, b, happrovals, hover, hk, hf, hd⟩ := h
  have hb : a = b := by
    rw [happrovals] at ha
    rcases List.mem_append.mp ha with ha | ha
    · have hdecision := (hover.mem ha).2
      rw [hp] at hdecision
      cases hdecision
    · exact List.mem_singleton.mp ha
  subst hb
  refine ⟨earlier, updateApproval a submission now, ?_, hover, hk, hf, rfl⟩
  have hsame : earlier.map (fun b ↦ if b.id = a.id then updateApproval a submission now else b) =
      earlier := by
    rw [happrovals, List.map_append, List.nodup_append] at hids
    refine List.map_congr_left (g := id) (fun b hb ↦ if_neg ?_) |>.trans (List.map_id earlier)
    exact hids.2.2 b.id (List.mem_map_of_mem hb) a.id (List.mem_singleton_self _)
  unfold decidedRows
  rw [happrovals, List.map_append, hsame, List.map_singleton, if_pos rfl]

end

end LearningTasks.Services.RunLedger
